/-!
# Choices in messages

How messages name what would have been right: one name, one of two names, or
one of a list of names, each in backquotes.
-/

namespace BlockForge.Text

/-- A name in backquotes. -/
def ticked (name : String) : String := "`" ++ name ++ "`"

/-- The names that would have been right. -/
def choice : List String → String
  | [only] => ticked only
  | [first, second] => ticked first ++ " or " ++ ticked second
  | names => "one of " ++ ", ".intercalate (names.map ticked)

/-- A message about a name that is none of a choice of variants. -/
def unknownVariant (found : String) (names : List String) : String :=
  "unknown variant " ++ ticked found ++ ", expected " ++ choice names

/-- A message about a key that is none of a choice of fields. -/
def unknownField (found : String) (names : List String) : String :=
  "unknown field " ++ ticked found ++ ", expected " ++ choice names

end BlockForge.Text
