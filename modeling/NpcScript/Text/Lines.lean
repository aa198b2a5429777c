/-!
# Lines and columns

A text is cut at separating characters into the stretches between them. There is always one stretch
more than there are separators, so the first one is given apart from the others.

A newline ends a line, and one carriage return directly before it belongs to the line end. A text
that does not end in a newline has a last line without an end; there a carriage return stays. Places
in a line are given as columns: one more than the number of characters before the place.
-/

namespace NpcScript.Text

/-- The stretches between the separators of a text: the first one, and those behind each
separator. -/
def cut (isSeparator : Char → Bool) (s : List Char) : List Char × List (List Char) :=
  s.foldr (fun c (first, others) =>
    if isSeparator c then ([], first :: others) else (c :: first, others)) ([], [])

@[simp]
theorem cut_nil (isSeparator : Char → Bool) : cut isSeparator [] = ([], []) :=
  rfl

theorem cut_cons (isSeparator : Char → Bool) (c : Char) (s : List Char) :
    cut isSeparator (c :: s) =
      if isSeparator c then ([], (cut isSeparator s).1 :: (cut isSeparator s).2)
      else (c :: (cut isSeparator s).1, (cut isSeparator s).2) :=
  rfl

/-! ### Lines -/

def dropReturn (s : List Char) : List Char :=
  if s.getLast? = some '\r' then s.dropLast else s

/-- The lines of stretches of which all but the last were ended by a newline. -/
def linesOfStretches (first : List Char) : List (List Char) → List (List Char)
  | [] => if first.isEmpty then [] else [first]
  | second :: others => dropReturn first :: linesOfStretches second others

def lines (s : List Char) : List (List Char) :=
  let (first, others) := cut (· == '\n') s
  linesOfStretches first others

/-! ### Columns -/

def byteLength : List Char → Nat
  | [] => 0
  | c :: s => c.utf8Size + byteLength s

@[simp] theorem byteLength_nil : byteLength [] = 0 :=
  rfl

@[simp] theorem byteLength_cons (c : Char) (s : List Char) :
    byteLength (c :: s) = c.utf8Size + byteLength s :=
  rfl

@[simp] theorem byteLength_append (s t : List Char) :
    byteLength (s ++ t) = byteLength s + byteLength t := by
  induction s with
  | nil => simp
  | cons c s ih => rw [List.cons_append, byteLength_cons, byteLength_cons, ih, Nat.add_assoc]

/-- How many characters of a text end at or before a byte offset of its UTF-8 form. An offset behind
the end stands for the end; one inside a character answers nothing. -/
def charactersBefore : List Char → Nat → Option Nat
  | _, 0 => some 0
  | [], _ => some 0
  | c :: rest, bytes =>
    if c.utf8Size ≤ bytes then (charactersBefore rest (bytes - c.utf8Size)).map (· + 1) else none

/-- The column of a byte offset. Bytes are counted where the offset lies inside a character. -/
def columnOfByte (text : List Char) (bytes : Nat) : Nat :=
  (charactersBefore text bytes).getD bytes + 1

theorem charactersBefore_append (s t : List Char) :
    charactersBefore (s ++ t) (byteLength s) = some s.length := by
  induction s with
  | nil => simp [charactersBefore]
  | cons c s ih =>
      have hpos := c.utf8Size_pos
      rw [List.cons_append, byteLength_cons, charactersBefore, if_pos (Nat.le_add_right ..),
        Nat.add_sub_cancel_left, ih]
      · rfl
      · omega

/-- Columns count characters: where a text stands in front of the byte, the column is one more than
its length. -/
theorem columnOfByte_append (s t : List Char) :
    columnOfByte (s ++ t) (byteLength s) = s.length + 1 := by
  rw [columnOfByte, charactersBefore_append]
  rfl

/-- The column of a character offset within the last of the lines that have begun before it. -/
def columnInLastLine (text : List Char) (offset : Nat) : Nat :=
  ((text.take offset).reverse.takeWhile (· ≠ '\n')).length + 1

end NpcScript.Text
