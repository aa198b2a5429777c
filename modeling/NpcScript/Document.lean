import NpcScript.Diagnostic
import NpcScript.Npc.Statement

/-!
# Documents

A document collects what a script states and what is wrong with it. Statements stand in the order in
which they were added, except that a statement with a slot of its own replaces an earlier one of the
same slot where that one stands.
-/

namespace NpcScript

structure Entry where
  line : Nat
  statement : Statement
  deriving DecidableEq

/-- What was read of a script. `slots` says for each slot in use where its entry stands. -/
structure Document where
  entries : Array Entry := #[]
  diagnostics : Array Diagnostic := #[]
  slots : List (Slot × Nat) := []

namespace Document

/-- Adds a statement: in place of the entry of the same slot if there is one, else at the end. -/
def add (document : Document) (line : Nat) (statement : Statement) : Document :=
  let entry : Entry := ⟨line, statement⟩
  match statement.slot with
  | none => { document with entries := document.entries.push entry }
  | some slot =>
    match document.slots.lookup slot with
    | some index => { document with entries := document.entries.setIfInBounds index entry }
    | none =>
      { document with
        entries := document.entries.push entry
        slots := (slot, document.entries.size) :: document.slots }

def report (document : Document) (describe : Cause → String) (line : Nat) (issue : Issue) :
    Document :=
  { document with
    diagnostics :=
      document.diagnostics.push ⟨line, issue.column, issue.cause, describe issue.cause⟩ }

@[simp]
theorem diagnostics_add (document : Document) (line : Nat) (statement : Statement) :
    (document.add line statement).diagnostics = document.diagnostics := by
  unfold add
  split
  · rfl
  · split <;> rfl

def statements (document : Document) : List Statement :=
  document.entries.toList.map (·.statement)

/-- Whether anything is wrong that is more than a warning. -/
def hasErrors (document : Document) : Bool :=
  document.diagnostics.any (!·.isWarning)

def name? (document : Document) : Option String :=
  document.statements.findSome? fun
    | .identity (.name text) => some text
    | _ => none

def dialogueLines (document : Document) : List DialogueLine :=
  document.statements.filterMap fun
    | .dialogue line => some line
    | _ => none

end Document

end NpcScript
