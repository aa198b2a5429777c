/-!
# Diagnostics

What can be wrong with a line, as a cause with its particulars, and what is shown to the author of
the script: the cause in words, with line and column. Front ends may bring words of their own.
-/

namespace NpcScript

inductive Cause where
  /-- The line is no statement of any kind. -/
  | unparseableLine (text : String)
  | malformedStatement (keyword expected : String)
  | valueOutOfRange (field value : String) (min max : Int)
  | malformedNumber (field text : String)
  /-- A token stands where one of a closed set of tokens is expected. -/
  | unknownToken (field token expected : String)
  | unknownItem (id : Nat) (text : String)
  | unknownSkill (name : String)
  | unknownKeyword (keyword : String)
  | invalidClause (keyword reason : String)
  /-- A text holds an escaped quote, which is more often a slip than meant. -/
  | suspiciousQuote (field text : String)
  deriving DecidableEq

namespace Cause

def message : Cause → String
  | unparseableLine text => s!"line cannot be parsed: `{text}`"
  | malformedStatement keyword expected =>
    s!"malformed `{keyword}` statement, expected {expected}"
  | valueOutOfRange field value min max =>
    s!"{field} value {value} is out of range ({min} to {max})"
  | malformedNumber field text => s!"{field} expects a number, found `{text}`"
  | unknownToken field token expected =>
    s!"unknown {field} `{token}`, expected one of: {expected}"
  | unknownItem id text => s!"unknown item id {id} in `{text}`"
  | unknownSkill name => s!"unknown skill `{name}`"
  | unknownKeyword keyword => s!"unknown dialogue keyword `{keyword}`"
  | invalidClause keyword reason => s!"invalid `{keyword}` clause: {reason}"
  | suspiciousQuote field text =>
    s!"{field} contains an escaped quote, check for a stray `\\\"`: `{text}`"

/-- A warning leaves what was read in the document; every other cause keeps it out. -/
def isWarning : Cause → Bool
  | suspiciousQuote _ _ => true
  | _ => false

end Cause

structure Issue where
  column : Option Nat
  cause : Cause
  deriving DecidableEq

def Issue.atColumn (column : Nat) (cause : Cause) : Issue :=
  ⟨some column, cause⟩

structure Diagnostic where
  line : Nat
  column : Option Nat
  cause : Cause
  message : String
  deriving DecidableEq

namespace Diagnostic

def isWarning (diagnostic : Diagnostic) : Bool :=
  diagnostic.cause.isWarning

def render (diagnostic : Diagnostic) : String :=
  match diagnostic.column with
  | some column => s!"{diagnostic.line}:{column}: {diagnostic.message}"
  | none => s!"{diagnostic.line}: {diagnostic.message}"

end Diagnostic

end NpcScript
