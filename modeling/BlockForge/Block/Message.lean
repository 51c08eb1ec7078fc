/-!
# The message of a block

The message shows the arguments of a block: one numbered placeholder for each.
-/

namespace BlockForge

/-- The placeholder of an argument. -/
def placeholder (number : Nat) : String := "%" ++ toString number

/-- The placeholders `%1 %2 ...` of `count` arguments. -/
def placeholders (count : Nat) : String :=
  " ".intercalate ((List.range count).map fun index => placeholder (index + 1))

end BlockForge
