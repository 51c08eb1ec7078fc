import BlockForge.BlockFile.Load
import BlockForge.Generation.Problem

/-!
# Diagnostics

A diagnostic tells a user about an error or a warning: a message, possibly the
stretch of a file that it concerns, and notes.
-/

namespace BlockForge

/-- How bad a problem is. -/
inductive Severity where
  | error
  | warning
deriving DecidableEq, Repr

/-- The word for a severity. -/
def Severity.word : Severity → String
  | error => "error"
  | warning => "warning"

/-- A stretch of a file. -/
structure Place where
  fileName : String
  source : String
  span : Span
deriving DecidableEq, Repr

/-- What a user is told about a problem. -/
structure Diagnostic where
  severity : Severity
  message : String
  place : Option Place
  notes : List String
deriving DecidableEq, Repr

/-- The diagnostic of an error in a block file. -/
def LoadError.diagnostic (error : LoadError) (fileName source : String) :
    Diagnostic where
  severity := .error
  message := error.message
  place := some ⟨fileName, source, error.span⟩
  notes := error.problem.notes

/-- The diagnostic of a problem without which nothing can be generated. -/
def Problem.diagnostic (problem : Problem) : Diagnostic where
  severity := .error
  message := problem.message
  place := none
  notes := []

/-- The diagnostic of a warning. -/
def Warning.diagnostic (warning : Warning) : Diagnostic where
  severity := .warning
  message := warning.problem.message
  place := none
  notes := [warning.note]

end BlockForge
