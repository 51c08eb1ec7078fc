import BlockForge.Text.Choice

/-!
# Mutations

What an editor keeps of a node besides its fields: the options of a dropdown
and the number of members of a type group.
-/

namespace BlockForge

/-- What an option of a dropdown shows. -/
inductive OptionKind where
  | text
  | image
deriving DecidableEq, Repr

namespace OptionKind

/-- Every option kind, in the order in which messages list them. -/
def all : List OptionKind := [text, image]

/-- The name of an option kind in block files and messages. -/
def tag : OptionKind → String
  | text => "text"
  | image => "image"

/-- The option kind that a tag names. -/
def ofTag? (name : String) : Option OptionKind :=
  all.find? fun option => option.tag = name

@[simp]
theorem ofTag?_tag (option : OptionKind) : ofTag? option.tag = some option := by
  cases option <;> decide

/-- What to say about a tag that names no option kind. -/
def unknownTag (name : String) : String :=
  Text.unknownVariant name (all.map tag)

end OptionKind

/-- Editor state of a node that is not a field. -/
inductive Mutation where
  /-- The kinds of the options of a dropdown, in order. -/
  | dropdown (options : List OptionKind)
  /-- The number of member slots of a type group. -/
  | typeGroup (count : Nat)
deriving DecidableEq, Repr

end BlockForge
