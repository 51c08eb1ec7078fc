import BlockForge.Block.FieldValue

/-!
# Tables of fields

The fields of a node, each key once, in ascending order of the keys.
-/

namespace BlockForge

/-- Fields under their keys. -/
structure FieldTable where
  entries : List (String × FieldValue)
deriving DecidableEq, Repr

namespace FieldTable

/-- The table without fields. -/
def empty : FieldTable := ⟨[]⟩

/-- The value of a field. -/
def get? (table : FieldTable) (key : String) : Option FieldValue :=
  table.entries.lookup key

/-- Set a field in a list that ascends by key. -/
def insertEntry (key : String) (value : FieldValue) :
    List (String × FieldValue) → List (String × FieldValue)
  | [] => [(key, value)]
  | (head, old) :: rest =>
    if key = head then (key, value) :: rest
    else if key < head then (key, value) :: (head, old) :: rest
    else (head, old) :: insertEntry key value rest

/-- Set a field, in place of an earlier value. -/
def insert (table : FieldTable) (key : String) (value : FieldValue) :
    FieldTable :=
  ⟨insertEntry key value table.entries⟩

/-- Set several fields, one after the other. -/
def insertAll (table : FieldTable) (fields : List (String × FieldValue)) :
    FieldTable :=
  fields.foldl (fun filled field => filled.insert field.1 field.2) table

theorem lookup_insertEntry (key other : String) (value : FieldValue)
    (entries : List (String × FieldValue)) :
    (insertEntry key value entries).lookup other =
      if other = key then some value else entries.lookup other := by
  induction entries with
  | nil => grind [insertEntry]
  | cons head rest rest_ih => grind [insertEntry]

@[simp]
theorem get?_insert (table : FieldTable) (key other : String)
    (value : FieldValue) :
    (table.insert key value).get? other =
      if other = key then some value else table.get? other :=
  lookup_insertEntry key other value table.entries

end FieldTable

end BlockForge
