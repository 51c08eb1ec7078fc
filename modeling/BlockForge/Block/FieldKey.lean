/-!
# Field keys

The keys of the fields that the generators read.  A dropdown keeps the fields
of its options under keys that end in the index of the option.
-/

namespace BlockForge.FieldKey

def blockName : String := "BLOCK_NAME"
def blockCategory : String := "BLOCK_CATEGORY"
def inputLayout : String := "DROPDOWN_INPUT"
def connections : String := "DROPDOWN_CONNECTIONS"
def tooltip : String := "FIELD_TOOLTIP"
def help : String := "FIELD_HELP"
def description : String := "FIELD_DESCRIPTION"

def fieldName : String := "FIELDNAME"
def inputName : String := "INPUTNAME"
def align : String := "ALIGN"
def text : String := "TEXT"
def value : String := "VALUE"
def min : String := "MIN"
def max : String := "MAX"
def precision : String := "PRECISION"
def angle : String := "ANGLE"
def checked : String := "CHECKED"
def colour : String := "COLOUR"
def source : String := "SRC"
def width : String := "WIDTH"
def height : String := "HEIGHT"
def alternative : String := "ALT"
def flipRtl : String := "FLIP_RTL"
def type : String := "TYPE"

/-- The text that a dropdown shows for an option. -/
def optionText : String := "USER"

/-- The value that a dropdown stores for an option. -/
def optionValue : String := "CPU"

/-- The key of a field of the option of an index. -/
def indexed (key : String) (index : Nat) : String := key ++ toString index

theorem toList_indexed (key : String) (index : Nat) :
    (indexed key index).toList = key.toList ++ Nat.toDigits 10 index := by
  simp [indexed]

theorem indexed_injective (key : String) : Function.Injective (indexed key) := by
  intro first second equal
  have digits : Nat.toDigits 10 first = Nat.toDigits 10 second := by
    have lists := congrArg String.toList equal
    rw [toList_indexed, toList_indexed] at lists
    exact List.append_cancel_left lists
  rw [← @Nat.ofDigitChars_ten_toDigits first, digits,
    Nat.ofDigitChars_ten_toDigits]

/-- An index does not change how a key starts. -/
theorem head?_indexed {key : String} (nonempty : key.toList ≠ []) (index : Nat) :
    (indexed key index).toList.head? = key.toList.head? := by
  rw [toList_indexed]
  cases chars : key.toList with
  | nil => exact absurd chars nonempty
  | cons char rest => rfl

end BlockForge.FieldKey
