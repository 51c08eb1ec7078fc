import BlockForge.Number.Binary64
import BlockForge.Text.Span

/-!
# Values of a document

A document is a table of values under keys.  Every value knows the stretch of
the source that wrote it, and every key where it was first written; a table
that no text of its own wrote has no stretch.
-/

namespace BlockForge.Toml

/-- A key and where it was written. -/
structure Key where
  text : String
  span : Span
deriving DecidableEq, Repr

/-- How a table came about. -/
inductive Origin where
  /-- Between braces. -/
  | inline
  /-- By a header of its own. -/
  | header
  /-- By the header of a table inside it. -/
  | implied
  /-- By a dotted key. -/
  | dotted
deriving DecidableEq, Repr

/-- A value. -/
inductive Value where
  | string (span : Span) (text : String)
  | integer (span : Span) (number : Int)
  | float (span : Span) (number : Binary64)
  | boolean (span : Span) (flag : Bool)
  /-- A date, a time or both, in normal form. -/
  | moment (span : Span) (text : String)
  | array (span : Span) (items : List Value)
  | table (origin : Origin) (span : Option Span)
      (entries : List (Key × Value))
  /-- The tables that headers in double brackets wrote. -/
  | tables (elements : List Value)

/-- The entries of a table, in the order of the document. -/
abbrev Entries := List (Key × Value)

namespace Value

/-- The stretch from the start of one span to the end of another. -/
def spanAcross : Option Span → Option Span → Option Span
  | some first, some last => some ⟨first.start, last.stop⟩
  | _, _ => none

/-- The stretch of the source that wrote a value that is no list of tables. -/
def ownSpan? : Value → Option Span
  | string span _ => some span
  | integer span _ => some span
  | float span _ => some span
  | boolean span _ => some span
  | moment span _ => some span
  | array span _ => some span
  | table _ span _ => span
  | tables _ => none

/-- The stretch of the source that wrote a value. -/
def span? : Value → Option Span
  | tables elements =>
    spanAcross (elements.head?.bind ownSpan?) (elements.getLast?.bind ownSpan?)
  | value => value.ownSpan?

end Value

namespace Entries

/-- The value under a key. -/
def value? (entries : Entries) (name : String) : Option Value :=
  (List.find? (fun entry => entry.1.text = name) entries).map Prod.snd

/-- Replace the value under a key. -/
def setValue (entries : Entries) (name : String) (value : Value) : Entries :=
  List.map (fun entry =>
    if entry.1.text = name then (entry.1, value) else entry) entries

/-- Remove the entry of a key. -/
def without (entries : Entries) (name : String) : Entries :=
  List.filter (fun entry => entry.1.text ≠ name) entries

end Entries

end BlockForge.Toml
