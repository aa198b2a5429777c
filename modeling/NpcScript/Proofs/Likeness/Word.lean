import NpcScript.Proofs.Grammar.Word
import NpcScript.Proofs.Likeness.Result

/-!
Words, numbers and operands in scripts that are alike. A number has no letters, so there is one way
to write it; items, skills and the members of vocabularies are looked up without regard to letter
case; of an operand only an expression is kept as it was written.
-/

namespace NpcScript

open Text

/-! ### Numbers -/

theorem dropMinus_map {f : Char → Char} (hf : IsRecasing f) (s : List Char) :
    dropMinus (s.map f) = (dropMinus s).map f := by
  cases s with
  | nil => rfl
  | cons c s =>
      by_cases hc : c = '-'
      · subst hc
        have hminus : f '-' = '-' := (hf.eq_iff (by decide)).mpr rfl
        rw [List.map_cons, hminus]
        rfl
      · have hfc : f c ≠ '-' := fun h => hc ((hf.eq_iff (by decide)).mp h)
        have hdrop : ∀ {d : Char} {t : List Char}, d ≠ '-' → dropMinus (d :: t) = d :: t := by
          intro d t hd
          unfold dropMinus
          split <;> simp_all
        rw [List.map_cons, hdrop hfc, hdrop hc, List.map_cons]

theorem isAlpha_of_isDigit {c : Char} (h : c.isDigit = true) : c.isAlpha = false := by
  have hc := Grammar.not_beginsWord_of_isDigit h
  simp only [Grammar.beginsWord, Bool.or_eq_false_iff] at hc
  exact hc.1

/-- What is all digits behind its sign has no letters. -/
theorem lower_eq_self_of_isDigit {s : List Char} (h : (dropMinus s).all Char.isDigit = true) :
    lower s = s := by
  refine (lower_eq_iff ?_).mpr rfl
  have hall : ∀ c ∈ dropMinus s, c.isAlpha = false :=
    fun c hc => isAlpha_of_isDigit (List.all_eq_true.mp h c hc)
  unfold dropMinus at hall
  split at hall
  · intro c hc
    rcases List.mem_cons.mp hc with rfl | hc
    · rfl
    · exact hall c hc
  · exact hall

section Digits

variable {f : Char → Char} (hf : IsRecasing f) {s s' : List Char}

include hf

theorem isDigit_dropMinus_map (s : List Char) :
    (dropMinus (s.map f)).all Char.isDigit = (dropMinus s).all Char.isDigit := by
  rw [dropMinus_map hf, hf.all_map isDigit_toLower]

theorem map_eq_self_of_isDigit (h : (dropMinus s).all Char.isDigit = true) : s.map f = s := by
  have hmap : (dropMinus (s.map f)).all Char.isDigit = true := by
    rw [isDigit_dropMinus_map hf]
    exact h
  rw [← lower_eq_self_of_isDigit hmap, hf.lower_map, lower_eq_self_of_isDigit h]

theorem eq_of_isDigit (h : s.map f = s'.map f) (hs : (dropMinus s).all Char.isDigit = true) :
    s = s' := by
  have hs' : (dropMinus s').all Char.isDigit = true := by
    rw [← isDigit_dropMinus_map hf, ← h, isDigit_dropMinus_map hf]
    exact hs
  rw [← map_eq_self_of_isDigit hf hs, h, map_eq_self_of_isDigit hf hs']

end Digits

variable {L : Likeness} {s s' : List Char} {c c' : Nat}

theorem NumericPlace.read_alike (place : NumericPlace) (hcolumn : L.column c c')
    (htext : L.SameText s s') :
    Agree Eq (Issue.Alike L) (place.read c s) (place.read c' s') := by
  have hnumber := htext.trim
  by_cases hdigits : (dropMinus (trim s)).all Char.isDigit = true
  · -- The same digits are read, so the same is done with them.
    simp only [read, eq_of_isDigit L.isRecasing hnumber hdigits]
    split
    · exact .error (Issue.alike_atColumn hcolumn rfl)
    · split
      · exact .ok rfl
      · exact .error (Issue.alike_atColumn hcolumn rfl)
  · have hmalformed {t : List Char} (ht : (dropMinus (trim t)).all Char.isDigit = false) (c : Nat) :
        place.read c t =
          .error (.atColumn c (.malformedNumber place.field (String.ofList (trim t)))) := by
      simp [read, ht]
    rw [Bool.not_eq_true] at hdigits
    have hdigits' : (dropMinus (trim s')).all Char.isDigit = false := by
      rw [← isDigit_dropMinus_map L.isRecasing, ← hnumber, isDigit_dropMinus_map L.isRecasing]
      exact hdigits
    rw [hmalformed hdigits, hmalformed hdigits']
    refine .error (Issue.alike_atColumn hcolumn ?_)
    simp only [Cause.mapText, hnumber.map_ofList]

theorem Vocabulary.resolve_alike (α : Type) [Vocabulary α] (field : String)
    (hcolumn : L.column c c') (htext : L.SameText s s') :
    Agree Eq (Issue.Alike L) (resolve α field c s) (resolve α field c' s') := by
  unfold resolve
  rw [ofToken?_eq htext.lower_eq]
  split
  · exact .ok rfl
  · refine .error (Issue.alike_atColumn hcolumn ?_)
    simp only [Cause.mapText, htext.trim.map_ofList]

namespace Context

variable (context : Context)

/-- The items are the same ones, though the message may quote other letters. -/
theorem item_alike {source source' : List Char}
    (hsource : L.SameText (trim source) (trim source')) (hcolumn : L.column c c')
    (htext : L.SameText s s') :
    Agree Eq (Issue.Alike L) (context.item source c s) (context.item source' c' s') := by
  refine (NumericPlace.itemId.read_alike hcolumn htext).bindEq fun value => ?_
  dsimp only
  split
  · exact .ok rfl
  · refine .error (Issue.alike_atColumn hcolumn ?_)
    simp only [Cause.mapText, hsource.map_ofList]

theorem skill_alike (hcolumn : L.column c c') (htext : L.SameText s s') :
    Agree Eq (Issue.Alike L) (context.skill c s) (context.skill c' s') := by
  have hfind : context.skills.find? s = context.skills.find? s' := by
    simp only [SkillCatalog.find?, Skill.key, htext.trim.lower_eq]
  unfold skill
  rw [hfind]
  split
  · exact .ok rfl
  · refine .error (Issue.alike_atColumn hcolumn ?_)
    simp only [Cause.mapText, htext.map_ofList]

end Context

/-! ### Operands -/

namespace Quantity

variable {f : Char → Char} (hf : IsRecasing f)

include hf

theorem literalOfText?_map (s : List Char) : literalOfText? (s.map f) = literalOfText? s := by
  by_cases hdigits : (dropMinus s).all Char.isDigit = true
  · rw [map_eq_self_of_isDigit hf hdigits]
  · have hnone {t : List Char} (ht : (dropMinus t).all Char.isDigit = false) :
        literalOfText? t = none := by
      simp [literalOfText?, ht]
    rw [Bool.not_eq_true] at hdigits
    rw [hnone hdigits, hnone (by rw [isDigit_dropMinus_map hf, hdigits])]

theorem expressionBody?_map (s : List Char) :
    expressionBody? (s.map f) = (expressionBody? s).map (List.map f) := by
  have hname : sameLetters ((s.map f).take 5) "expr(".toList =
      sameLetters (s.take 5) "expr(".toList := by
    rw [← List.map_take, hf.sameLetters_map]
  have hclose : (s.map f).getLast? = some ')' ↔ s.getLast? = some ')' := by
    have hchar : ∀ c, f c = ')' ↔ c = ')' := fun c => hf.eq_iff (by decide)
    simp [hchar]
  unfold expressionBody?
  simp only [hname, hclose]
  split
  · simp [List.map_drop, List.map_dropLast]
  · rfl

theorem isTerm_map (s : List Char) : isTerm (s.map f) = isTerm s := by
  have hplain {c : Char} {t : List Char} (hc : c ≠ '%') :
      isTerm (c :: t) = (c :: t).all Char.isDigit := by
    unfold isTerm
    split <;> simp_all
  cases s with
  | nil => rfl
  | cons c s =>
      by_cases hc : c = '%'
      · subst hc
        have hpercent : f '%' = '%' := (hf.eq_iff (by decide)).mpr rfl
        simp only [isTerm, List.map_cons, hpercent, List.all_cons, List.isEmpty_map,
          hf.all_map Grammar.continuesWord_toLower, hf.all_map isDigit_toLower]
      · have hfc : f c ≠ '%' := fun h => hc ((hf.eq_iff (by decide)).mp h)
        rw [List.map_cons, hplain hfc, ← List.map_cons, hf.all_map isDigit_toLower, hplain hc]

theorem isSum_map (s : List Char) : isSum (s.map f) = isSum s := by
  have harithmetic : ∀ c : Char, Grammar.isArithmetic c.toLower = Grammar.isArithmetic c :=
    apply_toLower (by decide)
  have hseparates : ∀ c : Char, separatesTerms c.toLower = separatesTerms c :=
    apply_toLower (by decide)
  have hterm : (isTerm ∘ trim) ∘ List.map f = isTerm ∘ trim := by
    funext t
    simp [hf.trim_map, isTerm_map hf]
  simp only [isSum, dropMinus_map hf, hf.any_map harithmetic, hf.cut_map hseparates]
  rw [← List.map_cons, List.all_map, hterm]

/-- What an operand stands for is rewritten with it. -/
theorem ofOperand?_map (s : List Char) :
    ofOperand? (s.map f) = (ofOperand? s).map (mapText f) := by
  simp only [ofOperand?, hf.trim_map, literalOfText?_map hf, expressionBody?_map hf, isSum_map hf,
    hf.sameLetters_map]
  cases literalOfText? (trim s) with
  | some value => rfl
  | none =>
      cases sameLetters (trim s) "%number".toList with
      | true => rfl
      | false =>
          cases expressionBody? (trim s) with
          | none =>
              cases isSum (trim s) <;> simp [mapText, string_map_ofList]
          | some body =>
              simp only [Option.map_some, hf.trim_map, List.isEmpty_map]
              cases (trim body).isEmpty <;> simp [mapText, string_map_ofList]

end Quantity

theorem Quantity.read_alike (field : String) (hcolumn : L.column c c') (htext : L.SameText s s') :
    Agree (fun value value' => value.mapText L.fold = value'.mapText L.fold) (Issue.Alike L)
      (Quantity.read field c s) (Quantity.read field c' s') := by
  have hoperand : (ofOperand? s).map (mapText L.fold) = (ofOperand? s').map (mapText L.fold) := by
    rw [← ofOperand?_map L.isRecasing, htext, ofOperand?_map L.isRecasing]
  unfold Quantity.read
  cases hs : ofOperand? s <;> cases hs' : ofOperand? s' <;> rw [hs, hs'] at hoperand
  · refine .error (Issue.alike_atColumn hcolumn ?_)
    simp only [Cause.mapText, htext.trim.map_ofList]
  · cases hoperand
  · cases hoperand
  · exact .ok (by simpa using hoperand)

end NpcScript
