/-!
# Hexadecimal codes

Escapes name a character by its code in hexadecimal digits, of either case.
-/

namespace BlockForge.Text

/-- The value of a hexadecimal digit. -/
def hexDigit? (char : Char) : Option Nat :=
  let code := char.toNat
  if char.isDigit then some (code - 48)
  else if 97 ≤ code ∧ code ≤ 102 then some (code - 87)
  else if 65 ≤ code ∧ code ≤ 70 then some (code - 55)
  else none

/-- The value of digits of a base up to sixteen. -/
def baseValue? (base : Nat) (chars : List Char) : Option Nat :=
  chars.foldlM (fun value char =>
    (hexDigit? char).bind fun digit =>
      if digit < base then some (base * value + digit) else none) 0

/-- The character of a code, if it has one. -/
def charOfCode? (code : Nat) : Option Char :=
  if valid : code.isValidChar then some (Char.ofNatAux code valid) else none

end BlockForge.Text
