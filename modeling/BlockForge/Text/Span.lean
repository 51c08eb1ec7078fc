/-!
# Spans

A span is a stretch of a source text, given by the number of bytes before its
start and before its end.
-/

namespace BlockForge

/-- A stretch of a source text, in bytes. -/
structure Span where
  start : Nat
  stop : Nat
deriving DecidableEq, Repr

/-- The number of bytes of a list of characters. -/
def Text.byteCount (chars : List Char) : Nat :=
  chars.foldr (fun char count => char.utf8Size + count) 0

end BlockForge
