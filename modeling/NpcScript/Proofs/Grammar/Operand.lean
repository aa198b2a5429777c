import NpcScript.Proofs.Grammar.Token

/-!
The texts that are operands. `Derives` gives the grammar of sums, one constructor for each way in
which an atom, a term or a sum is written, and the lexers are sound for it: what an operand lexer
takes off the front of a text is a sum or `expr(…)` around balanced text, and the last word or
number of it does not go on behind it. From the derivation it follows that an operand is balanced
and that no blank stands at either end of it.
-/

namespace NpcScript.Grammar

open Text

inductive SumPart where
  | atom | term | sum

inductive Derives : SumPart → List Char → Prop
  | digits {s : List Char} (hs : IsDigits s) : Derives .atom s
  | word {s : List Char} (hs : IsWord s) : Derives .atom s
  | percent {s : List Char} (hs : IsWord s) : Derives .atom ('%' :: s)
  | group {before inner after : List Char} (hbefore : ∀ c ∈ before, isSpace c = true)
      (hinner : Derives .sum inner) (hafter : ∀ c ∈ after, isSpace c = true) :
      Derives .atom ('(' :: (before ++ inner ++ after ++ [')']))
  | plain {s : List Char} (hs : Derives .atom s) : Derives .term s
  | negative {s : List Char} (hs : Derives .atom s) : Derives .term ('-' :: s)
  | single {s : List Char} (hs : Derives .term s) : Derives .sum s
  /-- Two minus signs in a row would begin a comment. -/
  | operation {first before after second : List Char} {op : Char} (hfirst : Derives .sum first)
      (hbefore : ∀ c ∈ before, isSpace c = true) (hop : isArithmetic op = true)
      (hafter : ∀ c ∈ after, isSpace c = true) (hsecond : Derives .term second)
      (hcomment : ¬ ['-', '-'] <+: op :: (after ++ second)) :
      Derives .sum (first ++ (before ++ op :: (after ++ second)))

inductive Operand : List Char → Prop
  | expr {name body : List Char} (hname : sameLetters name "expr".toList = true)
      (hbody : IsBalanced body) : Operand (name ++ '(' :: (body ++ [')']))
  | sum {s : List Char} (hs : Derives .sum s) : Operand s

theorem IsWord.operand {s : List Char} (h : IsWord s) : Operand s :=
  .sum (.single (.plain (.word h)))

/-! ### What the lexers take up -/

theorem not_continuesWord_of_isSpace {c : Char} (h : isSpace c = true) :
    continuesWord c = false := by
  simp only [isSpace, Bool.or_eq_true, beq_iff_eq] at h
  rcases h with rfl | rfl <;> decide

theorem not_continuesWord_of_isArithmetic {c : Char} (h : isArithmetic c = true) :
    continuesWord c = false := by
  simp only [isArithmetic, Bool.or_eq_true, beq_iff_eq] at h
  rcases h with ((rfl | rfl) | rfl) | rfl <;> decide

theorem exists_eq_append_skipSpaces (s : List Char) :
    ∃ spaces, s = spaces ++ skipSpaces s ∧ ∀ c ∈ spaces, isSpace c = true :=
  ⟨s.takeWhile isSpace, by simp [skipSpaces], fun _ hc => List.mem_takeWhile_imp hc⟩

/-- What is assumed of the lexer for sums in parentheses while the lexers around it are looked
at. -/
def SumSound (inner : Lexer) : Prop :=
  ∀ {s rest : List Char}, inner s = some rest → ∃ t, s = t ++ rest ∧ Derives .sum t

theorem atomLexer_sound {inner : Lexer} (hinner : SumSound inner) {s rest : List Char}
    (h : atomLexer inner s = some rest) :
    ∃ t, s = t ++ rest ∧ Derives .atom t ∧ Stops t rest := by
  unfold atomLexer at h
  split at h
  · rename_i s
    split at h
    · cases h
    · rename_i behind hsum
      split at h
      · rename_i closed hclose
        cases h
        obtain ⟨before, hs, hbefore⟩ := exists_eq_append_skipSpaces s
        obtain ⟨t, ht, hderives⟩ := hinner hsum
        obtain ⟨after, hbehind, hafter⟩ := exists_eq_append_skipSpaces behind
        refine ⟨_, ?_, .group hbefore hderives hafter, ?_⟩
        · rw [hs, ht, hbehind, hclose]
          simp
        · exact stops_append_singleton (by decide) ('(' :: (before ++ t ++ after)) rest
      · cases h
  · have hstops := (spares_of_wordLexer h).stops
    obtain ⟨w, rfl, hw⟩ := wordLexer_sound h
    exact ⟨'%' :: w, rfl, .percent hw, hstops _⟩
  · rcases Option.or_eq_some_iff.mp h with hdigits | ⟨-, hword⟩
    · have hspares := spares_of_digitsLexer hdigits
      obtain ⟨w, rfl, hw⟩ := digitsLexer_sound hdigits
      exact ⟨w, rfl, .digits hw, hw.stops hspares⟩
    · have hstops := (spares_of_wordLexer hword).stops
      obtain ⟨w, rfl, hw⟩ := wordLexer_sound hword
      exact ⟨w, rfl, .word hw, hstops w⟩

theorem termLexer_sound {inner : Lexer} (hinner : SumSound inner) {s rest : List Char}
    (h : termLexer inner s = some rest) :
    ∃ t, s = t ++ rest ∧ Derives .term t ∧ Stops t rest := by
  unfold termLexer at h
  split at h
  · obtain ⟨t, rfl, ht, hstops⟩ := atomLexer_sound hinner h
    have hminus : ∀ c ∈ ['-'], continuesWord c = false := List.forall_mem_singleton.mpr (by decide)
    exact ⟨'-' :: t, rfl, .negative ht, hstops.append (by simp) hminus []⟩
  · obtain ⟨t, rfl, ht, hstops⟩ := atomLexer_sound hinner h
    exact ⟨t, rfl, .plain ht, hstops⟩

/-- An operator and a term continue any sum in front of them. -/
theorem operationLexer_sound {inner : Lexer} (hinner : SumSound inner) {s rest : List Char}
    (h : operationLexer inner s = some rest) :
    ∃ t, s = t ++ rest ∧ ∀ first, Derives .sum first →
      Derives .sum (first ++ t) ∧ Stops (first ++ t) rest := by
  obtain ⟨before, hs, hbefore⟩ := exists_eq_append_skipSpaces s
  simp only [operationLexer] at h
  split at h
  · cases h
  · rename_i op behind hcomment hskip
    obtain ⟨hop, hterm⟩ := Option.ite_none_right_eq_some.mp h
    obtain ⟨after, hbehind, hafter⟩ := exists_eq_append_skipSpaces behind
    obtain ⟨t, ht, hderives, hstops⟩ := termLexer_sound hinner hterm
    have hs' : s = before ++ op :: (after ++ t) ++ rest := by
      rw [hs, hskip, hbehind, ht]
      simp
    refine ⟨_, hs', fun first hfirst => ⟨.operation hfirst hbefore hop hafter hderives ?_, ?_⟩⟩
    · -- A comment in the text that was taken up would be one in front of the rest as well, and the
      -- lexer has made sure that there is none.
      rintro ⟨tail, htail⟩
      obtain ⟨rfl, hafter'⟩ : '-' = op ∧ '-' :: tail = after ++ t := by simpa using htail
      refine hcomment (tail ++ rest) rfl ?_
      rw [hbehind, ht, ← List.append_assoc, ← hafter']
      rfl
    · -- The operator keeps the words on either side of it apart.
      have hmarks : ∀ c ∈ op :: after, continuesWord c = false := by
        rintro c (_ | ⟨_, hc⟩)
        · exact not_continuesWord_of_isArithmetic hop
        · exact not_continuesWord_of_isSpace (hafter c hc)
      simpa using hstops.append (by simp) hmarks (first ++ before)
  · cases h

theorem skipAll_operationLexer_sound {inner : Lexer} (hinner : SumSound inner) (s : List Char) :
    ∃ t, s = t ++ skipAll (operationLexer inner) s ∧ ∀ first, Derives .sum first →
      Stops first s → Derives .sum (first ++ t) ∧
        Stops (first ++ t) (skipAll (operationLexer inner) s) := by
  have stay : ∀ s : List Char, ∃ t, s = t ++ s ∧ ∀ first, Derives .sum first → Stops first s →
      Derives .sum (first ++ t) ∧ Stops (first ++ t) s :=
    fun s => ⟨[], rfl, fun first hfirst hstops => by simpa using ⟨hfirst, hstops⟩⟩
  fun_induction skipAll (operationLexer inner) s with
  | case1 s hnone => exact stay s
  | case2 s behind hsome hlt ih =>
      obtain ⟨t, ht, htsum⟩ := operationLexer_sound hinner hsome
      obtain ⟨u, hu, husum⟩ := ih
      refine ⟨t ++ u, ?_, fun first hfirst _ => ?_⟩
      · rw [List.append_assoc, ← hu]
        exact ht
      · obtain ⟨hsum, hstops⟩ := htsum first hfirst
        rw [← List.append_assoc]
        exact husum _ hsum hstops
  | case3 s behind hsome hge => exact stay s

theorem sumLexer_cut {s rest : List Char} (h : sumLexer s = some rest) :
    ∃ t, s = t ++ rest ∧ Derives .sum t ∧ Stops t rest := by
  -- A sum in parentheses is read by the lexer itself, but only where less text is left than here.
  induction hn : s.length using Nat.strong_induction_on generalizing s rest with
  | _ n ih =>
      have hinner : SumSound fun t => if t.length < s.length then sumLexer t else none := by
        intro t rest' ht
        obtain ⟨hlt, ht⟩ := Option.ite_none_right_eq_some.mp ht
        obtain ⟨u, hu, hsum, -⟩ := ih t.length (hn ▸ hlt) ht rfl
        exact ⟨u, hu, hsum⟩
      rw [sumLexer] at h
      obtain ⟨behind, hterm, rfl⟩ := Option.map_eq_some_iff.mp h
      obtain ⟨t, rfl, ht, hstops⟩ := termLexer_sound hinner hterm
      obtain ⟨u, hu, husum⟩ := skipAll_operationLexer_sound hinner behind
      refine ⟨t ++ u, ?_, husum _ (.single ht) hstops⟩
      rw [List.append_assoc, ← hu]

theorem sumLexer_sound : SumSound sumLexer := by
  intro s rest h
  obtain ⟨t, hs, ht, -⟩ := sumLexer_cut h
  exact ⟨t, hs, ht⟩

theorem closingParenthesisLexer_sound {depth : Nat} {s rest : List Char}
    (h : closingParenthesisLexer depth s = some rest) :
    ∃ body, s = body ++ ')' :: rest ∧ nesting depth body = some 0 := by
  fun_induction closingParenthesisLexer depth s with
  | case1 => simp at h
  | case2 depth s ih =>
      obtain ⟨body, rfl, hbody⟩ := ih h
      exact ⟨'(' :: body, rfl, hbody⟩
  | case3 s =>
      obtain rfl : s = rest := by simpa using h
      exact ⟨[], rfl, rfl⟩
  | case4 s depth ih =>
      obtain ⟨body, rfl, hbody⟩ := ih h
      exact ⟨')' :: body, rfl, hbody⟩
  | case5 depth c s hopen hclose hclose' ih =>
      obtain ⟨body, rfl, hbody⟩ := ih h
      have hne : c ≠ ')' := by
        rintro rfl
        cases depth with
        | zero => exact hclose rfl rfl
        | succ depth => exact hclose' depth rfl rfl
      refine ⟨c :: body, rfl, ?_⟩
      rw [nesting_cons_of_ne hopen hne]
      exact hbody

theorem exprLexer_cut {s rest : List Char} (h : exprLexer s = some rest) :
    ∃ t, s = t ++ rest ∧ Operand t ∧ Stops t rest := by
  simp only [exprLexer] at h
  split at h
  · rename_i inside hdrop
    obtain ⟨hname, hclose⟩ := Option.ite_none_right_eq_some.mp h
    obtain ⟨body, rfl, hbody⟩ := closingParenthesisLexer_sound hclose
    refine ⟨_, ?_, .expr hname hbody, ?_⟩
    · calc s = s.take 4 ++ s.drop 4 := (List.take_append_drop 4 s).symm
        _ = _ := by rw [hdrop]; simp
    · simpa using stops_append_singleton (c := ')') (by decide) (s.take 4 ++ '(' :: body) rest
  · cases h

/-- The lexer takes up an operand, and with it the whole of its last word or number. -/
theorem operandLexer_cut {s rest : List Char} (h : operandLexer s = some rest) :
    ∃ t, s = t ++ rest ∧ Operand t ∧ Stops t rest := by
  rcases Option.or_eq_some_iff.mp h with hexpr | ⟨-, hsum⟩
  · exact exprLexer_cut hexpr
  · obtain ⟨t, rfl, ht, hstops⟩ := sumLexer_cut hsum
    exact ⟨t, rfl, .sum ht, hstops⟩

theorem operandLexer_sound {s rest : List Char} (h : operandLexer s = some rest) :
    ∃ t, s = t ++ rest ∧ Operand t := by
  obtain ⟨t, hs, ht, -⟩ := operandLexer_cut h
  exact ⟨t, hs, ht⟩

/-! ### What is known of operands -/

theorem ne_of_isSpace {c : Char} (h : isSpace c = true) : c ≠ '(' ∧ c ≠ ')' :=
  ne_parentheses (by decide) (by decide) h

theorem ne_of_isArithmetic {c : Char} (h : isArithmetic c = true) : c ≠ '(' ∧ c ≠ ')' :=
  ne_parentheses (by decide) (by decide) h

namespace Derives

variable {part : SumPart} {s : List Char}

theorem ne_nil (h : Derives part s) : s ≠ [] := by
  induction h with
  | digits hs => exact hs.ne_nil
  | word hs => exact hs.ne_nil
  | percent hs => simp
  | group hbefore hinner hafter ih => simp
  | plain hs ih => exact ih
  | negative hs ih => simp
  | single hs ih => exact ih
  | operation hfirst hbefore hop hafter hsecond hcomment ihfirst ihsecond => simp

/-- No blank stands at either end. -/
theorem isTrimmed (h : Derives part s) : IsTrimmed s := by
  induction h with
  | digits hs => exact isTrimmed_of_continuesWord hs.continuesWord
  | word hs => exact isTrimmed_of_continuesWord hs.continuesWord
  | percent hs =>
      have hword := isTrimmed_of_continuesWord hs.continuesWord
      exact (isTrimmed_singleton (by decide)).enclose (by simp) hword hs.ne_nil []
  | group hbefore hinner hafter ih =>
      exact (isTrimmed_singleton (by decide)).enclose (by simp) (isTrimmed_singleton (by decide))
        (by simp) _
  | plain hs ih => exact ih
  | negative hs ih => exact (isTrimmed_singleton (by decide)).enclose (by simp) ih hs.ne_nil []
  | single hs ih => exact ih
  | @operation first before after second op hfirst _ _ _ hsecond _ ihfirst ihsecond =>
      have h := ihfirst.enclose hfirst.ne_nil ihsecond hsecond.ne_nil (before ++ op :: after)
      simpa using h

theorem isBalanced (h : Derives part s) : IsBalanced s := by
  have hspaces {spaces : List Char} (h : ∀ c ∈ spaces, isSpace c = true) : IsBalanced spaces :=
    isBalanced_of_forall_ne fun c hc => ne_of_isSpace (h c hc)
  induction h with
  | digits hs => exact isBalanced_of_continuesWord hs.continuesWord
  | word hs => exact isBalanced_of_continuesWord hs.continuesWord
  | percent hs =>
      have hpercent : IsBalanced ['%'] := rfl
      exact hpercent.append (isBalanced_of_continuesWord hs.continuesWord)
  | group hbefore hinner hafter ih =>
      exact (((hspaces hbefore).append ih).append (hspaces hafter)).parenthesised
  | plain hs ih => exact ih
  | negative hs ih =>
      have hminus : IsBalanced ['-'] := rfl
      exact hminus.append ih
  | single hs ih => exact ih
  | @operation first before after second op _ hbefore hop hafter _ _ ihfirst ihsecond =>
      have hop : IsBalanced [op] :=
        isBalanced_of_forall_ne fun c hc => List.mem_singleton.mp hc ▸ ne_of_isArithmetic hop
      have hright := (hspaces hafter).append ihsecond
      exact ihfirst.append ((hspaces hbefore).append (hop.append hright))

/-- A sum that begins with a word has no parenthesis behind this word. -/
theorem head?_dropWhile_ne (h : Derives part s) (hs : s.head?.any beginsWord = true) :
    (s.dropWhile continuesWord).head? ≠ some '(' := by
  induction h with
  | digits hs' =>
      obtain ⟨hc, -⟩ := hs'
      simp [not_beginsWord_of_isDigit hc] at hs
  | word hs' =>
      rw [List.dropWhile_eq_nil_iff.mpr hs'.continuesWord]
      simp
  | percent hs' => simp [beginsWord] at hs
  | group hbefore hinner hafter ih => simp [beginsWord] at hs
  | plain hs' ih => exact ih hs
  | negative hs' ih => simp [beginsWord] at hs
  | single hs' ih => exact ih hs
  | @operation first before after second op hfirst hbefore hop hafter hsecond hcomment ihfirst
      ihsecond =>
      rw [List.head?_append_of_ne_nil _ hfirst.ne_nil] at hs
      have hhead := ihfirst hs
      rw [List.dropWhile_append]
      -- Either the first sum is the word and the operator ends it, or the word ends inside.
      split
      · cases before with
        | nil =>
            have hop' := not_continuesWord_of_isArithmetic hop
            rw [List.nil_append, List.dropWhile_cons_of_neg (by simp [hop'])]
            simpa using (ne_of_isArithmetic hop).1
        | cons c before =>
            have hc := not_continuesWord_of_isSpace (hbefore c (by simp))
            rw [List.cons_append, List.dropWhile_cons_of_neg (by simp [hc])]
            simpa using (ne_of_isSpace (hbefore c (by simp))).1
      · rename_i hne
        rw [List.head?_append_of_ne_nil _ (by simpa using hne)]
        exact hhead

end Derives

theorem isWord_of_name {name : List Char} (h : sameLetters name "expr".toList = true) :
    IsWord name := by
  have hexpr : IsWord ['e', 'x', 'p', 'r'] := .intro rfl (List.all_eq_true.mp rfl)
  exact hexpr.of_sameLetters h

namespace Operand

variable {s : List Char}

theorem ne_nil (h : Operand s) : s ≠ [] := by
  cases h with
  | expr hname hbody => simp
  | sum hs => exact hs.ne_nil

/-- The name in front of the parentheses is a word of four letters. -/
theorem name_eq {name : List Char} (h : sameLetters name "expr".toList = true) :
    name.length = 4 ∧ ∀ c ∈ name, continuesWord c = true :=
  ⟨by simpa [lower] using congrArg List.length (sameLetters_iff.mp h),
    (isWord_of_name h).continuesWord⟩

theorem isTrimmed (h : Operand s) : IsTrimmed s := by
  cases h with
  | @expr name body hname hbody =>
      obtain ⟨hlength, hword⟩ := name_eq hname
      have hclose : IsTrimmed [')'] := isTrimmed_singleton (by decide)
      have hne : name ≠ [] := by
        rintro rfl
        simp at hlength
      exact (isTrimmed_of_continuesWord hword).enclose hne hclose (by simp) ('(' :: body)
  | sum hs => exact hs.isTrimmed

theorem isBalanced (h : Operand s) : IsBalanced s := by
  cases h with
  | expr hname hbody =>
      exact (isBalanced_of_continuesWord (name_eq hname).2).append hbody.parenthesised
  | sum hs => exact hs.isBalanced

theorem cut_expr {s : List Char} (hs : sameLetters (s.take 5) "expr(".toList = true) :
    ∃ name inside, s = name ++ '(' :: inside ∧ sameLetters name "expr".toList = true := by
  have hlower := sameLetters_iff.mp hs
  have hname : sameLetters (s.take 4) "expr".toList = true := by
    rw [sameLetters_iff]
    simpa [lower, List.map_take, List.take_take] using congrArg (List.take 4) hlower
  obtain ⟨c, hc, hparen⟩ : ∃ c, s[4]? = some c ∧ c.toLower = '(' := by
    have hfifth : (lower (s.take 5))[4]? = some '(' := by rw [hlower]; rfl
    simpa [lower, List.getElem?_take] using hfifth
  have hc' : c = '(' := by
    have hsame := apply_toLower (p := (· == '(')) (by decide) c
    simpa [hparen] using hsame
  subst hc'
  refine ⟨s.take 4, s.drop 5, ?_, hname⟩
  obtain ⟨hlt, hget⟩ := List.getElem?_eq_some_iff.mp hc
  conv_lhs => rw [← List.take_append_drop 4 s, List.drop_eq_getElem_cons hlt, hget]

/-- An operand that begins with `expr(` is no sum: a word in a sum has no parenthesis behind it. -/
theorem exists_body (h : Operand s) (hs : sameLetters (s.take 5) "expr(".toList = true) :
    ∃ name body, s = name ++ '(' :: (body ++ [')']) ∧ name.length = 4 ∧ IsBalanced body := by
  cases h with
  | expr hname hbody => exact ⟨_, _, rfl, (name_eq hname).1, hbody⟩
  | sum hsum =>
      -- `expr` is a word, so the sum would have a parenthesis behind its first word.
      exfalso
      obtain ⟨name, inside, rfl, hname⟩ := cut_expr hs
      have hword := isWord_of_name hname
      apply hsum.head?_dropWhile_ne
      · rw [List.head?_append_of_ne_nil _ hword.ne_nil]
        exact hword.beginsWord_head?
      · rw [List.dropWhile_append_of_pos hword.continuesWord]
        rfl

end Operand

end NpcScript.Grammar
