import NpcScript.Clause.Line
import NpcScript.Document
import NpcScript.Statement.Assigned
import NpcScript.Text.Lines

/-!
# Scripts

A script is read line by line into one document. A scanner looks for the next statement; the clauses
of a dialogue line are attached to it one by one while it is open. What is wrong with a line is
reported as it is found, and reading never stops at it: at the end of the line what was read is
committed, if anything was.
-/

namespace NpcScript

open Grammar (Assignment DialogueForm)

structure SourceLine where
  number : Nat
  text : String
  deriving DecidableEq

def SourceLine.ofText (text : String) : List SourceLine :=
  (Text.lines text.toList).zipIdx.map fun (line, index) => ⟨index + 1, String.ofList line⟩

/-- What a statement that came to nothing is said to lack if nothing else was said of it. -/
def completeStatement : String :=
  "a complete statement"

/-! ### A line -/

/-- The line that is being read: the document with all that was reported so far, and how much of
what was reported of this line is more than a warning. -/
structure LineScope where
  context : Context
  line : SourceLine
  document : Document
  failures : Nat := 0

namespace LineScope

def text (scope : LineScope) : List Char :=
  scope.line.text.toList

def report (scope : LineScope) (issue : Issue) : LineScope :=
  { scope with
    document := scope.document.report scope.context.describe scope.line.number issue
    failures := if issue.cause.isWarning then scope.failures else scope.failures + 1 }

/-- Ends the line with the statement that was read. Where there is none, the reason should have been
reported; if it was not, a general issue stands in. -/
def commit (scope : LineScope) (keyword : List Char) : Option Statement → Document
  | some statement => scope.document.add scope.line.number statement
  | none =>
    if scope.failures = 0 then
      let issue : Issue := ⟨none, .malformedStatement (String.ofList keyword) completeStatement⟩
      (scope.report issue).document
    else scope.document

/-- Reads the line as an assignment with a known key. Warnings are given only about statements that
are kept. -/
def assignment (scope : LineScope) (key : AssignmentKey) : Option Statement × LineScope :=
  match Assignment.ofLine scope.text with
  | .error column => (none, scope.report (malformed (leadingWord scope.text) key.expected column))
  | .ok assignment =>
    match key.statement scope.context scope.text assignment with
    | .error issues => (none, issues.foldl report scope)
    | .ok statement => (some statement, (key.warnings assignment).foldl report scope)

/-- Attaches a clause to a dialogue line; a clause that means nothing is reported and left out. -/
def attach : DialogueLine × LineScope → Except Issue Meaning → DialogueLine × LineScope
  | (line, scope), .ok meaning => (line.attach meaning, scope)
  | (line, scope), .error issue => (line, scope.report issue)

end LineScope

def DialogueLine.expected : String :=
  "`\"trigger\", conditions -> consequences`"

/-- The text of a comment, which begins behind the last of the pairs of minus signs in front. -/
def commentText : List Char → List Char
  | '-' :: '-' :: rest => commentText rest
  | text => Text.trim text

/-! ### The scanner -/

/-- Where the scanner is: between statements, or in a dialogue line of which this much is read. -/
inductive ScanState where
  | scanning
  | inDialogue (line : DialogueLine)

namespace ScanState

def attach (scope : LineScope) (meanings : List (Except Issue Meaning)) :
    ScanState → ScanState × LineScope
  | scanning => (scanning, scope)
  | inDialogue line =>
    let (line, scope) := meanings.foldl LineScope.attach (line, scope)
    (inDialogue line, scope)

def close : ScanState → Option Statement × ScanState
  | scanning => (none, scanning)
  | inDialogue line => (some (.dialogue line), scanning)

def dialogue (state : ScanState) (scope : LineScope) :
    Option Statement × ScanState × LineScope :=
  match DialogueForm.ofLine scope.text with
  | .error column =>
    (none, state, scope.report (malformed "dialogue".toList DialogueLine.expected column))
  | .ok form =>
    let opened := inDialogue ⟨String.ofList (Text.unquote form.trigger.text), [], []⟩
    let (filled, scope) := opened.attach scope (form.meanings scope.context)
    let (statement, state) := filled.close
    (statement, state, scope)

def read (state : ScanState) (scope : LineScope) :
    StatementKind → Option Statement × ScanState × LineScope
  | .empty => (some .emptyLine, state, scope)
  | .comment =>
    let comment := commentText (Text.trim scope.text)
    (some (.comment (String.ofList comment)), state, scope)
  | .assignment key =>
    let (statement, scope) := scope.assignment key
    (statement, state, scope)
  | .dialogue => state.dialogue scope

end ScanState

structure Scanner where
  document : Document := {}
  state : ScanState := .scanning

namespace Scanner

def feed (context : Context) : Scanner → SourceLine → Scanner
  | ⟨document, state⟩, line =>
    let text := line.text.toList
    match StatementKind.ofLine? text with
    | none =>
      let issue : Issue := ⟨none, .unparseableLine (String.ofList (Text.trim text))⟩
      ⟨document.report context.describe line.number issue, state⟩
    | some kind =>
      let scope : LineScope := { context, line, document }
      let (statement, state, scope) := state.read scope kind
      ⟨scope.commit (leadingWord text) statement, state⟩

end Scanner

namespace Document

def ofLines (context : Context) (lines : List SourceLine) : Document :=
  (lines.foldl (Scanner.feed context) {}).document

def ofScript (context : Context) (script : String) : Document :=
  ofLines context (SourceLine.ofText script)

end Document

end NpcScript
