/-!
# Blanks and letter case

Two notions of blank meet in a script. Around whole lines and tokens every character with the
Unicode property `White_Space` is trimmed away; this module holds that notion. Between the tokens of
a statement only three of these characters may stand, which is a matter of the grammar.

Keywords and tokens are matched without regard to the case of the letters A to Z. No other letter
has a case here: `Ä` and `ä` stay different.
-/

namespace NpcScript.Text

/-- The characters with the Unicode property `White_Space`. -/
def isBlank (c : Char) : Bool :=
  let n := c.toNat
  (0x09 ≤ n && n ≤ 0x0D) || n == 0x20 || n == 0x85 || n == 0xA0 || n == 0x1680 ||
    (0x2000 ≤ n && n ≤ 0x200A) || n == 0x2028 || n == 0x2029 || n == 0x202F || n == 0x205F ||
    n == 0x3000

def trimStart (s : List Char) : List Char :=
  s.dropWhile isBlank

def trimEnd (s : List Char) : List Char :=
  (s.reverse.dropWhile isBlank).reverse

def trim (s : List Char) : List Char :=
  trimEnd (trimStart s)

/-! ### Letter case -/

/-- The text with A to Z written as a to z and all else kept. -/
def lower (s : List Char) : List Char :=
  s.map Char.toLower

def sameLetters (s t : List Char) : Bool :=
  lower s == lower t

theorem sameLetters_iff {s t : List Char} : sameLetters s t = true ↔ lower s = lower t := by
  simp [sameLetters]

end NpcScript.Text
