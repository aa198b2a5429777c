import NpcScript.Proofs.Text.Trim

/-!
Balanced parentheses. A text is read from the left with the number of parentheses that are open;
closing one that is not open is not possible. Balanced texts are closed under putting them one
behind the other and into parentheses, and trimming keeps them balanced.
-/

namespace NpcScript.Text

/-- How many parentheses are open behind a character in front of which `depth` were. -/
def nestingBehind (depth : Nat) (c : Char) : Option Nat :=
  if c = '(' then some (depth + 1)
  else if c = ')' then
    match depth with
    | 0 => none
    | depth + 1 => some depth
  else some depth

def nesting (depth : Nat) (s : List Char) : Option Nat :=
  s.foldlM nestingBehind depth

/-- Every parenthesis that the text opens is closed in it, and no other one is. -/
def IsBalanced (s : List Char) : Prop :=
  nesting 0 s = some 0

@[simp] theorem nesting_nil (depth : Nat) : nesting depth [] = some depth := rfl

theorem nesting_cons (depth : Nat) (c : Char) (s : List Char) :
    nesting depth (c :: s) = (nestingBehind depth c).bind (nesting · s) := rfl

@[simp] theorem nesting_open (depth : Nat) (s : List Char) :
    nesting depth ('(' :: s) = nesting (depth + 1) s := rfl

@[simp] theorem nesting_close (depth : Nat) (s : List Char) :
    nesting (depth + 1) (')' :: s) = nesting depth s := rfl

theorem nesting_cons_of_ne {c : Char} (hopen : c ≠ '(') (hclose : c ≠ ')') (depth : Nat)
    (s : List Char) : nesting depth (c :: s) = nesting depth s := by
  simp [nesting_cons, nestingBehind, hopen, hclose]

theorem nesting_append (depth : Nat) (s t : List Char) :
    nesting depth (s ++ t) = (nesting depth s).bind (nesting · t) :=
  List.foldlM_append

theorem nesting_of_forall_ne {s : List Char} (h : ∀ c ∈ s, c ≠ '(' ∧ c ≠ ')') (depth : Nat) :
    nesting depth s = some depth := by
  induction s with
  | nil => rfl
  | cons c s ih =>
      obtain ⟨hopen, hclose⟩ := h c (by simp)
      rw [nesting_cons_of_ne hopen hclose]
      exact ih fun d hd => h d (by simp [hd])

/-- No character of a class that holds neither parenthesis is one. -/
theorem ne_parentheses {p : Char → Bool} (hopen : p '(' = false) (hclose : p ')' = false)
    {c : Char} (h : p c = true) : c ≠ '(' ∧ c ≠ ')' := by
  constructor
  · rintro rfl
    rw [hopen] at h
    cases h
  · rintro rfl
    rw [hclose] at h
    cases h

/-- More parentheses open in front of a text are open behind it as well. -/
theorem nesting_add {depth behind : Nat} {s : List Char} (h : nesting depth s = some behind)
    (more : Nat) : nesting (depth + more) s = some (behind + more) := by
  induction s generalizing depth with
  | nil =>
      obtain rfl : depth = behind := by simpa using h
      rfl
  | cons c s ih =>
      -- A closing parenthesis is the one case where something has to be open in front of it.
      by_cases hopen : c = '('
      · subst hopen
        rw [nesting_open] at h ⊢
        rw [show depth + more + 1 = depth + 1 + more by omega]
        exact ih h
      · by_cases hclose : c = ')'
        · subst hclose
          cases depth with
          | zero => simp [nesting_cons, nestingBehind] at h
          | succ depth =>
              rw [nesting_close] at h
              rw [show depth + 1 + more = depth + more + 1 by omega, nesting_close]
              exact ih h
        · rw [nesting_cons_of_ne hopen hclose] at h ⊢
          exact ih h

theorem isBalanced_of_forall_ne {s : List Char} (h : ∀ c ∈ s, c ≠ '(' ∧ c ≠ ')') :
    IsBalanced s :=
  nesting_of_forall_ne h 0

theorem IsBalanced.append {s t : List Char} (hs : IsBalanced s) (ht : IsBalanced t) :
    IsBalanced (s ++ t) := by
  rw [IsBalanced, nesting_append, hs]
  exact ht

theorem IsBalanced.parenthesised {s : List Char} (hs : IsBalanced s) :
    IsBalanced ('(' :: s ++ [')']) := by
  have hinside : nesting 1 s = some 1 := by simpa using nesting_add hs 1
  rw [List.cons_append, IsBalanced, nesting_open, nesting_append, hinside]
  rfl

/-! ### Trimming -/

theorem ne_of_isBlank {c : Char} (h : isBlank c = true) : c ≠ '(' ∧ c ≠ ')' :=
  ne_parentheses (by decide) (by decide) h

theorem IsBalanced.trim {s : List Char} (hs : IsBalanced s) : IsBalanced (trim s) := by
  obtain ⟨before, after, heq, hbefore, hafter⟩ := exists_eq_append_trim s
  -- The blanks on either side count for nothing, whatever the depth they stand at.
  have hnest : nesting 0 s = nesting 0 (Text.trim s) := by
    conv_lhs => rw [heq]
    rw [nesting_append, nesting_append,
      nesting_of_forall_ne fun c hc => ne_of_isBlank (hbefore c hc), Option.bind_some]
    cases nesting 0 (Text.trim s) with
    | none => rfl
    | some depth => exact nesting_of_forall_ne (fun c hc => ne_of_isBlank (hafter c hc)) depth
  rw [IsBalanced, ← hnest]
  exact hs

end NpcScript.Text
