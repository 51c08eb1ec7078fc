import BlockForge.Text.Lines

/-!
# Categories of fixtures

Fixtures are grouped by the folder that they lie in; the path of the folder,
with slashes between its parts, is the category.  A request for a category
selects it and every category below it.
-/

namespace BlockForge

namespace Fixture.Category

/-- Drop the slashes at both ends of a request. -/
def trimSlashes (request : String) : String :=
  let front := request.toList.dropWhile (· == '/')
  String.ofList (front.reverse.dropWhile (· == '/')).reverse

/-- Whether a request, without slashes at its ends, selects a category: the
category itself, or one below it. -/
def selects (request category : String) : Bool :=
  category = request
    || (request ++ "/").toList.isPrefixOf category.toList

/-- Whether some request selects a category; no request at all selects every
category. -/
def isSelected (requests : List String) (category : String) : Bool :=
  requests.isEmpty
    || requests.any fun request => selects (trimSlashes request) category

/-- The categories that are selected, in ascending order and each once. -/
def select (available requests : List String) : List String :=
  (available.eraseDups.mergeSort (· ≤ ·)).filter (isSelected requests)

/-- The selected categories, each with what is kept under it. -/
def selectWith {α : Type} (content : String → α)
    (available requests : List String) : List (String × α) :=
  (select available requests).map fun category => (category, content category)

/-- The requests, without slashes at their ends, that select nothing. -/
def unmatched (available requests : List String) : List String :=
  (requests.map trimSlashes).filter fun request =>
    !available.any (selects request)

/-- The name of a category in messages; the folder itself is the root. -/
def shownName (category : String) : String :=
  if category = "" then "(root)" else category

end Fixture.Category

end BlockForge
