import NpcScript.Proofs.Grammar.Token
import NpcScript.Text.Escape

/-!
Escaped text shows every character. A character is shown as itself, behind a backslash or as its
code point, and which of the three it is can be told from the first two characters; so a text and
the place where it ends can be told from what it is shown as, whatever follows.
-/

namespace NpcScript.Text

open Grammar (spares_cons_iff append_inj_of_spares)

/-! ### Code points -/

theorem hexDigit_inj : ∀ m < 16, ∀ n < 16, hexDigit m = hexDigit n → m = n := by
  decide

theorem hexDigit_ne : ∀ n < 16, hexDigit n ≠ '\x7d' := by
  decide

theorem hexDigits_of_lt {n : Nat} (hn : n < 16) : hexDigits n = [hexDigit n] := by
  rw [hexDigits, if_pos hn]

theorem hexDigits_of_not_lt {n : Nat} (hn : ¬n < 16) :
    hexDigits n = hexDigits (n / 16) ++ [hexDigit (n % 16)] := by
  rw [hexDigits, if_neg hn]

theorem hexDigits_ne_nil (n : Nat) : hexDigits n ≠ [] := by
  rw [hexDigits]
  split <;> simp

theorem ne_of_mem_hexDigits (n : Nat) : ∀ c ∈ hexDigits n, (c != '\x7d') = true := by
  induction n using hexDigits.induct with
  | case1 n hn =>
      rw [hexDigits_of_lt hn]
      simpa using hexDigit_ne n hn
  | case2 n hn ih =>
      rw [hexDigits_of_not_lt hn]
      intro c hc
      rcases List.mem_append.mp hc with hc | hc
      · exact ih c hc
      · rw [List.mem_singleton.mp hc]
        simpa using hexDigit_ne _ (Nat.mod_lt n (by decide))

/-- One digit is not what several digits are. -/
theorem singleton_ne_hexDigits {n : Nat} (hn : ¬n < 16) (c : Char) : [c] ≠ hexDigits n := by
  rw [hexDigits_of_not_lt hn]
  intro h
  obtain ⟨hfront, -⟩ := List.append_inj' (show [] ++ [c] = _ from h) rfl
  exact hexDigits_ne_nil _ hfront.symm

theorem hexDigits_inj {m n : Nat} (h : hexDigits m = hexDigits n) : m = n := by
  induction m using hexDigits.induct generalizing n with
  | case1 m hm =>
      rw [hexDigits_of_lt hm] at h
      by_cases hn : n < 16
      · rw [hexDigits_of_lt hn] at h
        exact hexDigit_inj m hm n hn (List.singleton_inj.mp h)
      · exact absurd h (singleton_ne_hexDigits hn _)
  | case2 m hm ih =>
      by_cases hn : n < 16
      · rw [hexDigits_of_lt hn] at h
        exact absurd h.symm (singleton_ne_hexDigits hm _)
      · rw [hexDigits_of_not_lt hm, hexDigits_of_not_lt hn] at h
        obtain ⟨hfront, hlast⟩ := List.append_inj' h rfl
        have hquotient : m / 16 = n / 16 := ih hfront
        have hremainder : m % 16 = n % 16 := hexDigit_inj _ (Nat.mod_lt m (by decide)) _
          (Nat.mod_lt n (by decide)) (List.singleton_inj.mp hlast)
        omega

theorem escapeCode_append_inj {c d : Char} {r s : List Char}
    (h : escapeCode c ++ r = escapeCode d ++ s) : c = d ∧ r = s := by
  simp only [escapeCode, List.append_assoc, List.append_cancel_left_eq] at h
  obtain ⟨hdigits, hrest⟩ := append_inj_of_spares (ne_of_mem_hexDigits _) (ne_of_mem_hexDigits _)
    (spares_cons_iff.mpr (by decide)) (spares_cons_iff.mpr (by decide)) h
  exact ⟨Char.toNat_inj.mp (hexDigits_inj hdigits), by simpa using hrest⟩

/-! ### Characters -/

/-- The characters that are shown as a backslash and a mark. -/
def shorthands : List (Char × Char) :=
  [('\x00', '0'), ('\t', 't'), ('\r', 'r'), ('\n', 'n'), ('\\', '\\'), ('"', '"'), ('\'', '\'')]

theorem shorthands_inj :
    ∀ a ∈ shorthands, ∀ b ∈ shorthands, a.2 = b.2 → a.1 = b.1 := by
  decide

theorem mark_ne : ∀ a ∈ shorthands, a.2 ≠ 'u' := by
  decide

inductive IsShownAs (c : Char) : List Char → Prop
  | shorthand {mark : Char} (h : (c, mark) ∈ shorthands) : IsShownAs c ['\\', mark]
  | plain (hbackslash : c ≠ '\\') (hquote : c ≠ '"') : IsShownAs c [c]
  | code : IsShownAs c (escapeCode c)

theorem isShownAs_escapeChar (c : Char) : IsShownAs c (escapeChar c) := by
  unfold escapeChar
  split
  case h_8 hbackslash hquote _ =>
    split
    · exact .plain hbackslash hquote
    · exact .code
  all_goals exact .shorthand (by decide)

namespace IsShownAs

variable {c d : Char} {s t r r' : List Char}

theorem append_inj (hs : IsShownAs c s) (ht : IsShownAs d t) (h : s ++ r = t ++ r') :
    c = d ∧ r = r' := by
  cases hs with
  | shorthand hc =>
      cases ht with
      | shorthand hd =>
          obtain ⟨rfl, rfl⟩ : _ ∧ r = r' := by simpa using h
          exact ⟨shorthands_inj _ hc _ hd rfl, rfl⟩
      | plain hbackslash _ => exact absurd (List.cons_eq_cons.mp h).1.symm hbackslash
      | code =>
          obtain ⟨-, hmark⟩ := List.cons_eq_cons.mp h
          obtain ⟨rfl, -⟩ := List.cons_eq_cons.mp hmark
          exact absurd rfl (mark_ne _ hc)
  | plain hbackslash _ =>
      cases ht with
      | shorthand hd => exact absurd (List.cons_eq_cons.mp h).1 hbackslash
      | plain _ _ => simpa using h
      | code => exact absurd (List.cons_eq_cons.mp h).1 hbackslash
  | code =>
      cases ht with
      | shorthand hd =>
          obtain ⟨-, hmark⟩ := List.cons_eq_cons.mp h
          obtain ⟨rfl, -⟩ := List.cons_eq_cons.mp hmark
          exact absurd rfl (mark_ne _ hd)
      | plain hbackslash _ => exact absurd (List.cons_eq_cons.mp h).1.symm hbackslash
      | code => exact escapeCode_append_inj h

/-- What a character is shown as does not look like the end of the text. -/
theorem append_ne (hs : IsShownAs c s) : s ++ r ≠ '"' :: r' := by
  cases hs with
  | shorthand _ => simp
  | plain _ hquote => simp [hquote]
  | code => simp [escapeCode]

end IsShownAs

/-! ### Texts -/

/-- A text shown in quotes is told from what it is shown as, and so is what follows it. -/
theorem escape_append_inj {s t r r' : List Char} (h : escape s ++ r = escape t ++ r') :
    s = t ∧ r = r' := by
  simp only [escape, List.cons_append, List.cons.injEq, true_and, List.append_assoc] at h
  induction s generalizing t with
  | nil =>
      cases t with
      | nil => simpa using h
      | cons d t => exact absurd (by simpa using h.symm) (isShownAs_escapeChar d).append_ne
  | cons c s ih =>
      cases t with
      | nil => exact absurd (by simpa using h) (isShownAs_escapeChar c).append_ne
      | cons d t =>
          simp only [List.flatMap_cons, List.append_assoc] at h
          obtain ⟨rfl, hrest⟩ := (isShownAs_escapeChar c).append_inj (isShownAs_escapeChar d) h
          obtain ⟨rfl, rfl⟩ := ih hrest
          exact ⟨rfl, rfl⟩

end NpcScript.Text
