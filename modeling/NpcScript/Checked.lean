import NpcScript.Diagnostic

/-!
# Checked results

Some statements have several parts that are read each by itself, so that every part that is wrong is
reported and not only the first. A checked result is a value or the issues of all parts.
-/

namespace NpcScript

/-- A value, or all that is wrong with it in the order in which it is written. -/
abbrev Checked (α : Type) :=
  Except (List Issue) α

namespace Checked

variable {α β : Type}

def ofPart : Except Issue α → Checked α
  | .ok a => .ok a
  | .error issue => .error [issue]

/-- Both of two results; the issues of the first come before those of the second. -/
def both : Checked α → Checked β → Checked (α × β)
  | .ok a, .ok b => .ok (a, b)
  | .ok _, .error issues => .error issues
  | .error issues, .ok _ => .error issues
  | .error issues, .error more => .error (issues ++ more)

theorem both_eq_ok_iff {first : Checked α} {second : Checked β} {a : α} {b : β} :
    both first second = .ok (a, b) ↔ first = .ok a ∧ second = .ok b := by
  cases first <;> cases second <;> simp [both]

def each (read : α → Except Issue β) : List α → Checked (List β)
  | [] => .ok []
  | a :: others => (both (ofPart (read a)) (each read others)).map fun (b, bs) => b :: bs

@[simp]
theorem each_nil (read : α → Except Issue β) : each read [] = .ok [] :=
  rfl

theorem each_cons_of_ok {read : α → Except Issue β} {a : α} {b : β} (h : read a = .ok b)
    (others : List α) : each read (a :: others) = (each read others).map (b :: ·) := by
  cases hs : each read others <;> simp [each, h, hs, ofPart, both, Except.map]

theorem each_cons_of_error {read : α → Except Issue β} {a : α} {issue : Issue}
    (h : read a = .error issue) (others : List α) :
    each read (a :: others) =
      .error (issue :: match each read others with | .ok _ => [] | .error issues => issues) := by
  cases hs : each read others <;> simp [each, h, hs, ofPart, both, Except.map]

end Checked

end NpcScript
