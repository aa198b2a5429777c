import NpcScript.Proofs.Grammar.OperandFront
import NpcScript.Proofs.Text.Recasing

/-!
Lexers and letter case. No lexer tells capital letters from small ones: from a text in small letters
it takes as much as from the text in any other spelling. Most lexers look for a certain character at
the front, which is never a letter, and go different ways by whether it is there.
-/

namespace NpcScript.Grammar

open Text

/-- What is left of a text in small letters is what is left of the text, in small letters. -/
def Caseless (lexer : Lexer) : Prop :=
  ∀ s, lexer (lower s) = (lexer s).map lower

theorem head?_lower_eq_some_iff {c : Char} (hc : c.isAlpha = false) (s : List Char) :
    (lower s).head? = some c ↔ s.head? = some c := by
  cases s with
  | nil => simp
  | cons d s => simp [toLower_eq_iff hc]

/-- What is no letter has only one spelling. -/
theorem isPrefixOf_lower {beginning : List Char} (h : hasNoLetter beginning = true)
    (s : List Char) : beginning.isPrefixOf (lower s) = beginning.isPrefixOf s := by
  rw [hasNoLetter_iff] at h
  induction beginning generalizing s with
  | nil => rfl
  | cons c beginning ih =>
      cases s with
      | nil => rfl
      | cons d s =>
          have hhead : (c == d.toLower) = (c == d) := by
            rw [Bool.eq_iff_iff, beq_iff_eq, beq_iff_eq, eq_comm, toLower_eq_iff (h c (by simp)),
              eq_comm]
          have htail := ih (fun c hc => h c (by simp [hc])) s
          rw [lower_cons, List.isPrefixOf, hhead, htail, List.isPrefixOf]

theorem prefix_lower_iff {beginning : List Char} (h : hasNoLetter beginning = true)
    (s : List Char) : beginning <+: lower s ↔ beginning <+: s := by
  rw [← List.isPrefixOf_iff_prefix, isPrefixOf_lower h, List.isPrefixOf_iff_prefix]

theorem dropWhile_lower {p : Char → Bool} (hp : ∀ c : Char, p c.toLower = p c) (s : List Char) :
    (lower s).dropWhile p = lower (s.dropWhile p) :=
  IsRecasing.toLower.dropWhile_map hp s

namespace Caseless

/-- A lexer that goes one way behind a certain character and another way where it is missing. -/
theorem onHead {lexer first second : Lexer} {c : Char} (hc : c.isAlpha = false)
    (hat : ∀ s, lexer (c :: s) = first s) (hother : ∀ s, s.head? ≠ some c → lexer s = second s)
    (hfirst : Caseless first) (hsecond : Caseless second) : Caseless lexer := by
  intro s
  by_cases hs : s.head? = some c
  · obtain ⟨rest, rfl⟩ := List.head?_eq_some_iff.mp hs
    rw [lower_cons, toLower_of_not_isAlpha hc, hat, hat, hfirst]
  · have hlower : (lower s).head? ≠ some c := mt (head?_lower_eq_some_iff hc s).mp hs
    rw [hother _ hlower, hother _ hs, hsecond]

theorem none : Caseless fun _ => .none :=
  fun _ => rfl

/-- A lexer that wants a certain character. -/
theorem onlyOnHead {lexer first : Lexer} {c : Char} (hc : c.isAlpha = false)
    (hat : ∀ s, lexer (c :: s) = first s) (hother : ∀ s, s.head? ≠ some c → lexer s = .none)
    (hfirst : Caseless first) : Caseless lexer :=
  onHead hc hat hother hfirst none

theorem or {first second : Lexer} (hfirst : Caseless first) (hsecond : Caseless second) :
    Caseless fun s => (first s).or (second s) := by
  intro s
  simp only [hfirst s, hsecond s]
  cases first s <;> rfl

theorem word : Caseless wordLexer := by
  intro s
  cases s with
  | nil => rfl
  | cons c s =>
      rw [lower_cons, wordLexer, wordLexer, beginsWord_toLower,
        dropWhile_lower continuesWord_toLower]
      split <;> rfl

theorem digits : Caseless digitsLexer := by
  intro s
  cases s with
  | nil => rfl
  | cons c s =>
      rw [lower_cons, digitsLexer, digitsLexer, isDigit_toLower, dropWhile_lower isDigit_toLower]
      split <;> rfl

theorem unsigned : Caseless unsignedLexer := by
  intro s
  unfold unsignedLexer
  rw [digits s]
  cases digitsLexer s with
  | none => rfl
  | some rest =>
      have hhead : (lower rest).head?.any beginsWord = rest.head?.any beginsWord := by
        cases rest <;> simp
      simp only [Option.map_some, hhead]
      split <;> rfl

theorem number : Caseless numberLexer :=
  onHead (c := '-') rfl (fun _ => rfl) (fun _ => numberLexer_of_head_ne) unsigned unsigned

theorem keyword : Caseless keywordLexer :=
  onHead (c := '%') rfl (fun _ => rfl) (fun _ => keywordLexer_of_head_ne) word word

/-! ### Literals -/

theorem closingQuote : Caseless closingQuoteLexer := by
  intro s
  fun_induction closingQuoteLexer s with
  | case1 => rfl
  | case2 s => rfl
  | case3 => rfl
  | case4 c s ih => exact ih
  | case5 c s hquote hlast hbackslash ih =>
      have hplain : c ≠ '\\' := by
        intro hc
        cases s with
        | nil => exact hlast hc rfl
        | cons d s => exact hbackslash d s hc rfl
      rw [lower_cons, closingQuoteLexer_cons_of_ne, ih]
      · exact mt (toLower_eq_iff rfl).mp hquote
      · exact mt (toLower_eq_iff rfl).mp hplain

theorem literal : Caseless literalLexer :=
  onlyOnHead (c := '"') rfl (fun _ => rfl) (fun _ => literalLexer_eq_none) closingQuote

/-! ### Operators -/

theorem exactly {beginning : List Char} (h : hasNoLetter beginning = true) :
    Caseless (exactly beginning) := by
  intro s
  rw [Grammar.exactly, Grammar.exactly, isPrefixOf_lower h]
  split
  · rw [lower, ← List.map_drop]
    rfl
  · rfl

theorem operator : Caseless operatorLexer := by
  intro s
  have hoperators : ∀ operator ∈ operators, hasNoLetter operator.toList = true := by decide
  unfold operatorLexer
  generalize operators = found at hoperators
  induction found with
  | nil => rfl
  | cons operator others ih =>
      have hexactly := exactly (hoperators operator List.mem_cons_self) s
      rw [List.findSome?_cons, List.findSome?_cons, hexactly]
      cases Grammar.exactly operator.toList s with
      | some rest => rfl
      | none => exact ih fun other hother => hoperators other (List.mem_cons_of_mem _ hother)

theorem arrow : Caseless arrowLexer :=
  exactly (by decide)

/-! ### Operands -/

theorem closingParenthesisLexer_cons_of_ne {c : Char} (hopen : c ≠ '(') (hclose : c ≠ ')')
    (depth : Nat) (s : List Char) :
    closingParenthesisLexer depth (c :: s) = closingParenthesisLexer depth s := by
  rw [closingParenthesisLexer.eq_def]
  split <;> simp_all

theorem closingParenthesis (depth : Nat) : Caseless (closingParenthesisLexer depth) := by
  intro s
  fun_induction closingParenthesisLexer depth s with
  | case1 => rfl
  | case2 depth s ih => exact ih
  | case3 s => rfl
  | case4 depth s ih => exact ih
  | case5 depth c s hopen hclose hclose' ih =>
      have hne : c ≠ ')' := by
        cases depth with
        | zero => exact hclose rfl
        | succ depth => exact hclose' depth rfl
      rw [lower_cons, closingParenthesisLexer_cons_of_ne, ih]
      · exact mt (toLower_eq_iff rfl).mp hopen
      · exact mt (toLower_eq_iff rfl).mp hne

/-- The name in front of the parenthesis is compared without regard to case. -/
theorem expr : Caseless exprLexer := by
  intro s
  unfold exprLexer
  rw [lower, ← List.map_drop, ← List.map_take]
  generalize s.take 4 = name, s.drop 4 = behind
  have hname : sameLetters (name.map Char.toLower) "expr".toList = sameLetters name "expr".toList :=
    sameLetters_lower name _
  by_cases hopen : behind.head? = some '('
  · obtain ⟨rest, rfl⟩ := List.head?_eq_some_iff.mp hopen
    have hinside := closingParenthesis 0 rest
    rw [lower] at hinside
    simp only [List.map_cons, toLower_of_not_isAlpha (c := '(') rfl, hname, hinside]
    split <;> rfl
  · have hlower : (behind.map Char.toLower).head? ≠ some '(' :=
      mt (head?_lower_eq_some_iff rfl behind).mp hopen
    split
    · rename_i heq
      exact absurd (congrArg List.head? heq) hlower
    · split
      · exact absurd rfl hopen
      · rfl

theorem skipSpaces (s : List Char) : skipSpaces (lower s) = lower (skipSpaces s) :=
  dropWhile_lower (apply_toLower (by decide)) s

section Sums

variable {inner : Lexer} (hinner : Caseless inner)

include hinner

theorem atom : Caseless (atomLexer inner) := by
  have hgroup : Caseless fun s => atomLexer inner ('(' :: s) := by
    intro s
    simp only [atomLexer, skipSpaces, hinner _]
    cases inner (Grammar.skipSpaces s) with
    | none => rfl
    | some rest =>
        simp only [Option.map_some, skipSpaces]
        generalize Grammar.skipSpaces rest = behind
        by_cases hclose : behind.head? = some ')'
        · obtain ⟨rest, rfl⟩ := List.head?_eq_some_iff.mp hclose
          rfl
        · have hlower : (lower behind).head? ≠ some ')' :=
            mt (head?_lower_eq_some_iff rfl behind).mp hclose
          split
          · rename_i heq
            exact absurd (congrArg List.head? heq) hlower
          · split
            · exact absurd rfl hclose
            · rfl
  intro s
  by_cases hopen : s.head? = some '('
  · obtain ⟨rest, rfl⟩ := List.head?_eq_some_iff.mp hopen
    exact hgroup rest
  by_cases hpercent : s.head? = some '%'
  · obtain ⟨rest, rfl⟩ := List.head?_eq_some_iff.mp hpercent
    exact word rest
  · have hopen' : (lower s).head? ≠ some '(' := mt (head?_lower_eq_some_iff rfl s).mp hopen
    have hpercent' : (lower s).head? ≠ some '%' := mt (head?_lower_eq_some_iff rfl s).mp hpercent
    rw [atomLexer_of_spares hopen hpercent, atomLexer_of_spares hopen' hpercent']
    exact or digits word s

theorem term : Caseless (termLexer inner) :=
  onHead (c := '-') rfl (fun _ => rfl) (fun _ => termLexer_of_head_ne) (atom hinner) (atom hinner)

/-- A second minus sign behind the first one is looked for before the term is. -/
theorem operation : Caseless (operationLexer inner) := by
  intro s
  have hskip := skipSpaces s
  cases hbehind : Grammar.skipSpaces s with
  | nil =>
      rw [hbehind, lower_nil] at hskip
      simp [operationLexer, hbehind, hskip]
  | cons c rest =>
      rw [hbehind, lower_cons] at hskip
      by_cases hcomment : ['-', '-'] <+: c :: rest
      · have hcomment' : ['-', '-'] <+: c.toLower :: lower rest :=
          (prefix_lower_iff (by decide) (c :: rest)).mpr hcomment
        rw [operationLexer_of_comment (hskip ▸ hcomment'),
          operationLexer_of_comment (hbehind ▸ hcomment), Option.map_none]
      · have hcomment' : ¬ ['-', '-'] <+: c.toLower :: lower rest :=
          mt (prefix_lower_iff (by decide) (c :: rest)).mp hcomment
        have harithmetic : isArithmetic c.toLower = isArithmetic c :=
          apply_toLower (by decide) c
        rw [operationLexer_of_skipSpaces hskip hcomment',
          operationLexer_of_skipSpaces hbehind hcomment, harithmetic, skipSpaces, term hinner]
        split <;> rfl

end Sums

theorem skipAll_lower {unit : Lexer} (hunit : Caseless unit) (s : List Char) :
    skipAll unit (lower s) = lower (skipAll unit s) := by
  fun_induction skipAll unit s with
  | case1 s hnone => rw [skipAll, hunit, hnone]; rfl
  | case2 s rest hsome hlt ih =>
      rw [skipAll, hunit, hsome]
      simpa [hlt] using ih
  | case3 s rest hsome hge =>
      rw [skipAll, hunit, hsome]
      simp [hge]

theorem sum : Caseless sumLexer := by
  intro s
  -- A sum in parentheses is read by the lexer itself, but only where less text is left than here.
  induction hn : s.length using Nat.strong_induction_on generalizing s with
  | _ n ih =>
      have hinner : Caseless fun t => if t.length < s.length then sumLexer t else .none := by
        intro t
        simp only [length_lower]
        split
        · rename_i hlt
          exact ih t.length (hn ▸ hlt) t rfl
        · rfl
      rw [sumLexer, sumLexer, length_lower, term hinner s]
      cases termLexer _ s with
      | none => rfl
      | some rest => exact congrArg some (skipAll_lower (operation hinner) rest)

theorem operand : Caseless operandLexer :=
  or expr sum

end Caseless

end NpcScript.Grammar
