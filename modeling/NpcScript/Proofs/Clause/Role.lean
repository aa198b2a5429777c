import NpcScript.Proofs.Clause.Line

/-!
The side that a clause stands on and what its keyword makes of it there. A keyword that only one
side knows has one role; a keyword that both sides know is given its role behind the arrow by the
operator of the clause. What a clause comes to is what its role reads, and the results of a line are
put together from those of its clauses.
-/

namespace NpcScript

open Grammar (Clause KeywordClause DialogueForm)

inductive Side where
  | before | after
  deriving DecidableEq

inductive Role where
  | condition (keyword : ConditionKeyword)
  | consequence (keyword : ConsequenceKeyword)
  deriving DecidableEq

def Meaning.on : Side → Context → Clause → Except Issue Meaning
  | .before => before
  | .after => after

/-- The role of a clause on a side, if its keyword has one there. -/
def Grammar.KeywordClause.role? (clause : KeywordClause) : Side → Option Role
  | .before => (Vocabulary.ofWord? ConditionKeyword clause.keyword.text).map .condition
  | .after =>
    match Vocabulary.ofWord? ConditionKeyword clause.keyword.text,
      Vocabulary.ofWord? ConsequenceKeyword clause.keyword.text with
    | some keyword, some otherKeyword =>
      if clause.compares then some (.condition keyword) else some (.consequence otherKeyword)
    | some keyword, none => some (.condition keyword)
    | none, some keyword => some (.consequence keyword)
    | none, none => none

def Role.read (context : Context) (clause : KeywordClause) : Role → Except Issue Meaning
  | condition keyword => .condition <$> Condition.ofClause context keyword clause
  | consequence keyword => .consequence <$> Consequence.ofClause context keyword clause

theorem Meaning.on_eq_read {clause : KeywordClause} {side : Side} {role : Role}
    (h : clause.role? side = some role) (context : Context) :
    on side context (.keyword clause) = role.read context clause := by
  cases side with
  | before =>
      obtain ⟨keyword, hkeyword, rfl⟩ := Option.map_eq_some_iff.mp h
      simp only [on, before, hkeyword, Role.read]
  | after =>
      cases hkeyword : Vocabulary.ofWord? ConditionKeyword clause.keyword.text with
      | none =>
          cases hother : Vocabulary.ofWord? ConsequenceKeyword clause.keyword.text with
          | none => simp [KeywordClause.role?, hkeyword, hother] at h
          | some otherKeyword =>
              obtain rfl : .consequence otherKeyword = role := by
                simpa [KeywordClause.role?, hkeyword, hother] using h
              simp only [on, after, hkeyword, hother, Role.read]
      | some keyword =>
          cases hother : Vocabulary.ofWord? ConsequenceKeyword clause.keyword.text with
          | none =>
              obtain rfl : .condition keyword = role := by
                simpa [KeywordClause.role?, hkeyword, hother] using h
              simp only [on, after, hkeyword, hother, Role.read]
          | some otherKeyword =>
              -- Both sides know the keyword, so the operator decides.
              cases hcompares : clause.compares <;>
                simp only [KeywordClause.role?, hkeyword, hother, hcompares, if_true, if_false,
                  Bool.false_eq_true, Option.some.injEq] at h <;>
                subst h <;> simp [on, after, hkeyword, hother, hcompares, Role.read]

/-- Only the keyword and the operator count. -/
theorem Grammar.KeywordClause.role?_congr {clause clause' : KeywordClause}
    (hkeyword : clause.keyword.text = clause'.keyword.text)
    (hcompares : clause.compares = clause'.compares) (side : Side) :
    clause.role? side = clause'.role? side := by
  cases side <;> simp only [role?, hkeyword, hcompares]

/-- Behind the arrow the operator of the clause decides what a keyword of both sides is read as. -/
theorem Grammar.KeywordClause.role?_of_both {clause : KeywordClause} {keyword : ConditionKeyword}
    {otherKeyword : ConsequenceKeyword}
    (hkeyword : Vocabulary.ofWord? ConditionKeyword clause.keyword.text = some keyword)
    (hother : Vocabulary.ofWord? ConsequenceKeyword clause.keyword.text = some otherKeyword)
    (side : Side) :
    clause.role? side = if side = .before ∨ clause.compares = true then some (.condition keyword)
      else some (.consequence otherKeyword) := by
  cases side with
  | before => simp [role?, hkeyword]
  | after => simp [role?, hkeyword, hother]

/-! ### The clauses of one side -/

namespace Grammar.DialogueForm

def on (form : DialogueForm) : Side → List Clause
  | .before => form.before
  | .after => form.after

def put (form : DialogueForm) (clauses : List Clause) : Side → DialogueForm
  | .before => { form with before := clauses }
  | .after => { form with after := clauses }

@[simp] theorem trigger_put (form : DialogueForm) (clauses : List Clause) (side : Side) :
    (form.put clauses side).trigger = form.trigger := by
  cases side <;> rfl

@[simp] theorem put_on (form : DialogueForm) (side : Side) :
    form.put (form.on side) side = form := by
  cases side <;> rfl

/-- A stretch of clauses on one side adds a stretch of results, whatever stands around it. -/
theorem exists_meanings_put (form : DialogueForm) (context : Context) (side : Side)
    (first others : List Clause) :
    ∃ earlier later, ∀ clauses,
      (form.put (first ++ (clauses ++ others)) side).meanings context =
        earlier ++ (clauses.map (Meaning.on side context) ++ later) := by
  cases side with
  | before =>
      refine ⟨first.map (Meaning.before context),
        others.map (Meaning.before context) ++ form.after.map (Meaning.after context), ?_⟩
      intro clauses
      simp [meanings, put, Meaning.on]
  | after =>
      refine ⟨form.before.map (Meaning.before context) ++ first.map (Meaning.after context),
        others.map (Meaning.after context), ?_⟩
      intro clauses
      simp [meanings, put, Meaning.on]

end Grammar.DialogueForm

end NpcScript
