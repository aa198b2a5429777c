import NpcScript.Clause.Line
import NpcScript.Proofs.Clause.Condition
import NpcScript.Proofs.Clause.Consequence

/-!
Dialogue lines clause by clause. What the clauses of a formed line come to is valid, and every
clause that comes to nothing gives an issue that is a fault.
-/

namespace NpcScript

open Grammar (Clause KeywordClause DialogueForm)

def Meaning.IsValid (context : Context) : Meaning → Prop
  | .condition found => found.IsValid context
  | .consequence found => found.IsValid context

namespace Meaning

def condition? : Meaning → Option Condition
  | condition found => some found
  | consequence _ => none

def consequence? : Meaning → Option Consequence
  | condition _ => none
  | consequence found => some found

def issue? : Except Issue Meaning → Option Issue
  | .error issue => some issue
  | .ok _ => none

variable {clause : Clause}

theorem before_ends (context : Context) (h : clause.IsFormed) :
    Ends (before context clause) (Meaning.IsValid context) Issue.IsFault := by
  cases clause with
  | answer source => exact True.intro
  | keyword clause =>
      simp only [before]
      split
      · rename_i keyword hkeyword
        exact (Condition.ofClause_ends context keyword h).map fun _ hvalid => hvalid
      · split <;> exact True.intro

theorem after_ends (context : Context) (h : clause.IsFormed) :
    Ends (after context clause) (Meaning.IsValid context) Issue.IsFault := by
  cases clause with
  | answer source => exact True.intro
  | keyword clause =>
      simp only [after]
      split
      -- A word that is a keyword of both kinds is decided by its operator.
      · rename_i keyword otherKeyword hkeyword hother
        split
        · exact (Condition.ofClause_ends context keyword h).map fun _ hvalid => hvalid
        · exact (Consequence.ofClause_ends context otherKeyword h).map fun _ hvalid => hvalid
      · rename_i keyword hkeyword hother
        exact (Condition.ofClause_ends context keyword h).map fun _ hvalid => hvalid
      · rename_i keyword hkeyword hother
        exact (Consequence.ofClause_ends context keyword h).map fun _ hvalid => hvalid
      · exact True.intro

end Meaning

namespace Grammar.DialogueForm

/-- The dialogue line that remains when the clauses with issues are left out. -/
def line (form : DialogueForm) (context : Context) : DialogueLine :=
  let kept := (form.meanings context).filterMap Except.toOption
  { trigger := String.ofList (Text.unquote form.trigger.text)
    conditions := kept.filterMap Meaning.condition?
    consequences := kept.filterMap Meaning.consequence? }

def issues (form : DialogueForm) (context : Context) : List Issue :=
  (form.meanings context).filterMap Meaning.issue?

variable {form : DialogueForm}

theorem meanings_end (context : Context) (h : form.IsFormed) :
    ∀ meaning ∈ form.meanings context, Ends meaning (Meaning.IsValid context) Issue.IsFault := by
  intro meaning hmeaning
  rcases List.mem_append.mp hmeaning with hbefore | hafter
  · obtain ⟨clause, hclause, rfl⟩ := List.mem_map.mp hbefore
    exact Meaning.before_ends context (h.before clause hclause)
  · obtain ⟨clause, hclause, rfl⟩ := List.mem_map.mp hafter
    exact Meaning.after_ends context (h.after clause hclause)

/-- What is kept of a line is what its clauses come to. -/
theorem isValid_of_mem_kept (context : Context) (h : form.IsFormed) {meaning : Meaning}
    (hmeaning : meaning ∈ (form.meanings context).filterMap Except.toOption) :
    meaning.IsValid context := by
  obtain ⟨result, hresult, hkept⟩ := List.mem_filterMap.mp hmeaning
  have hends := meanings_end context h result hresult
  cases result with
  | ok found =>
      obtain rfl : found = meaning := by simpa [Except.toOption] using hkept
      exact hends
  | error issue => cases hkept

theorem isValid_line (context : Context) (h : form.IsFormed) :
    (form.line context).IsValid context := by
  refine ⟨?_, ?_⟩
  · intro condition hcondition
    obtain ⟨meaning, hmeaning, hfound⟩ := List.mem_filterMap.mp hcondition
    have hvalid := isValid_of_mem_kept context h hmeaning
    cases meaning with
    | condition found =>
        obtain rfl : found = condition := by simpa [Meaning.condition?] using hfound
        exact hvalid
    | consequence found => cases hfound
  · intro consequence hconsequence
    obtain ⟨meaning, hmeaning, hfound⟩ := List.mem_filterMap.mp hconsequence
    have hvalid := isValid_of_mem_kept context h hmeaning
    cases meaning with
    | condition found => cases hfound
    | consequence found =>
        obtain rfl : found = consequence := by simpa [Meaning.consequence?] using hfound
        exact hvalid

theorem isFault_of_mem_issues (context : Context) (h : form.IsFormed) {issue : Issue}
    (hissue : issue ∈ form.issues context) : issue.IsFault := by
  obtain ⟨result, hresult, hfound⟩ := List.mem_filterMap.mp hissue
  have hends := meanings_end context h result hresult
  cases result with
  | ok found => cases hfound
  | error found =>
      obtain rfl : found = issue := by simpa [Meaning.issue?] using hfound
      exact hends

end Grammar.DialogueForm

end NpcScript
