import NpcScript.Clause.Line

/-!
Clauses under a growing context. A context that knows more items and skills finds all that was found
before, so a clause that came to something comes to the same again. Only a clause that came to
nothing may now come to something, or to nothing for another reason.
-/

namespace NpcScript

/-- The second context knows everything that the first one knows, and knows it as the same. -/
structure Context.IsPartOf (context richer : Context) : Prop where
  items : ∀ {id : Nat} {item : Item}, context.items.find? id = some item →
    richer.items.find? id = some item
  skills : ∀ {name : List Char} {skill : Skill}, context.skills.find? name = some skill →
    richer.skills.find? name = some skill

/-- A value of the first result is one of the second; nothing is said where the first has none. -/
def Persists {ε α : Type} (result result' : Except ε α) : Prop :=
  ∀ a, result = .ok a → result' = .ok a

namespace Persists

variable {ε α β : Type} {result result' : Except ε α}

theorem refl (result : Except ε α) : Persists result result :=
  fun _ h => h

theorem bind {next next' : α → Except ε β} (h : Persists result result')
    (hnext : ∀ a, Persists (next a) (next' a)) :
    Persists (result >>= next) (result' >>= next') := by
  intro b hb
  cases hresult : result with
  | ok a =>
      rw [hresult] at hb
      rw [h a hresult]
      exact hnext a b hb
  | error e =>
      rw [hresult] at hb
      cases hb

/-- What is read afterwards does not look anything up. -/
theorem bindSame (next : α → Except ε β) (h : Persists result result') :
    Persists (result >>= next) (result' >>= next) :=
  h.bind fun a => refl (next a)

/-- What is read first does not look anything up. -/
theorem sameBind (result : Except ε α) {next next' : α → Except ε β}
    (hnext : ∀ a, Persists (next a) (next' a)) : Persists (result >>= next) (result >>= next') :=
  (refl result).bind hnext

theorem map {f : α → β} (h : Persists result result') :
    Persists (f <$> result) (f <$> result') := by
  intro b hb
  cases hresult : result with
  | ok a =>
      rw [hresult] at hb
      rw [h a hresult]
      exact hb
  | error e =>
      rw [hresult] at hb
      cases hb

end Persists

variable {context richer : Context}

namespace Context.IsPartOf

/-- The text that a message would quote makes no difference to what is found. -/
theorem item (h : context.IsPartOf richer) (source : List Char) (column : Nat) (text : List Char) :
    Persists (context.item source column text) (richer.item source column text) := by
  refine Persists.sameBind _ fun id => ?_
  intro found hfound
  dsimp only at hfound ⊢
  split at hfound
  · rename_i item hitem
    rw [h.items hitem]
    exact hfound
  · cases hfound

theorem skill (h : context.IsPartOf richer) (column : Nat) (name : List Char) :
    Persists (context.skill column name) (richer.skill column name) := by
  intro found hfound
  unfold Context.skill at hfound ⊢
  split at hfound
  · rename_i skill hskill
    rw [h.skills hskill]
    exact hfound
  · cases hfound

end Context.IsPartOf

open Grammar (Clause KeywordClause Argument)

theorem Grammar.KeywordClause.item_persists (h : context.IsPartOf richer) (clause : KeywordClause)
    (argument : Argument) :
    Persists (clause.item context argument) (clause.item richer argument) := by
  unfold KeywordClause.item
  split
  · exact h.item _ _ _
  · exact Persists.refl _

theorem Condition.ofClause_persists (h : context.IsPartOf richer) (keyword : ConditionKeyword)
    (clause : KeywordClause) :
    Persists (ofClause context keyword clause) (ofClause richer keyword clause) := by
  cases keyword with
  | item =>
      simp only [ofClause]
      split
      · exact (KeywordClause.item_persists h clause _).bindSame _
      · exact (KeywordClause.item_persists h clause _).bindSame _
      · exact Persists.refl _
  | skill =>
      refine Persists.sameBind _ fun argument => ?_
      exact (h.skill _ _).bindSame _
  | _ => exact Persists.refl _

theorem Consequence.ofClause_persists (h : context.IsPartOf richer) (keyword : ConsequenceKeyword)
    (clause : KeywordClause) :
    Persists (ofClause context keyword clause) (ofClause richer keyword clause) := by
  cases keyword with
  | item =>
      refine Persists.sameBind _ fun _ => ?_
      dsimp only
      split
      · exact (KeywordClause.item_persists h clause _).bindSame _
      · exact (KeywordClause.item_persists h clause _).bindSame _
      · exact Persists.refl _
  | deleteItem =>
      refine Persists.sameBind _ fun _ => ?_
      split
      · exact (KeywordClause.item_persists h clause _).bindSame _
      · exact Persists.refl _
  | skill =>
      refine Persists.sameBind _ fun argument => ?_
      exact (h.skill _ _).bindSame _
  | _ => exact Persists.refl _

namespace Meaning

theorem before_persists (h : context.IsPartOf richer) (clause : Clause) :
    Persists (before context clause) (before richer clause) := by
  cases clause with
  | answer source => exact Persists.refl _
  | keyword clause =>
      simp only [before]
      split
      · rename_i keyword hkeyword
        exact (Condition.ofClause_persists h keyword clause).map
      · exact Persists.refl _

/-- The side on which a clause is read is decided by the clause alone. -/
theorem after_persists (h : context.IsPartOf richer) (clause : Clause) :
    Persists (after context clause) (after richer clause) := by
  cases clause with
  | answer source => exact Persists.refl _
  | keyword clause =>
      simp only [after]
      split
      · rename_i keyword otherKeyword hkeyword hother
        split
        · exact (Condition.ofClause_persists h keyword clause).map
        · exact (Consequence.ofClause_persists h otherKeyword clause).map
      · rename_i keyword hkeyword hother
        exact (Condition.ofClause_persists h keyword clause).map
      · rename_i keyword hkeyword hother
        exact (Consequence.ofClause_persists h keyword clause).map
      · exact Persists.refl _

end Meaning

end NpcScript
