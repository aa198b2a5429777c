import NpcScript.Proofs.Context
import NpcScript.Statement.Value

/-!
Values of statements. Numbers that are read lie in the range of their place. Whatever else is said
to have been expected, it is never just a complete statement.
-/

namespace NpcScript

open Grammar (Assignment Value)

namespace Grammar.Value

theorem integer_ends (place : NumericPlace) (value : Value) :
    Ends (value.integer place) place.Admits Issue.IsFault := by
  unfold integer
  split
  · exact place.read_ends _ _
  · exact True.intro

theorem natural_ends (place : NumericPlace) {min max : Nat} (hmin : place.min = min)
    (hmax : place.max = max) (value : Value) :
    Ends (value.natural place) (fun n => min ≤ n ∧ n ≤ max) Issue.IsFault :=
  (integer_ends place value).toNat hmin hmax

theorem position_ends (x y z : Value) :
    Ends (position x y z) Position.IsValid Issue.IsFault := by
  refine (x.integer_ends .coordinateX).bind fun x hx => ?_
  refine (y.integer_ends .coordinateY).bind fun y hy => ?_
  exact (z.integer_ends .coordinateZ).bind fun z hz => ⟨hx, hy, hz⟩

variable {keyword : List Char} {expected : String}

theorem quotedText_ends (h : expected ≠ completeStatement) (value : Value) :
    Ends (value.quotedText keyword expected) (fun _ => True) Issue.IsFault := by
  unfold quotedText
  split
  · exact True.intro
  · exact h

theorem token_ends (h : expected ≠ completeStatement) (value : Value) :
    Ends (value.token keyword expected) (fun _ => True) Issue.IsFault := by
  unfold token
  split
  · exact True.intro
  · exact True.intro
  · exact h

end Grammar.Value

namespace Grammar.Assignment

variable {assignment : Assignment} {expected : String}

theorem single_ends (h : expected ≠ completeStatement) :
    Ends (assignment.single expected) (fun _ => True) Issue.IsFault := by
  unfold single
  split
  · exact True.intro
  · exact h

theorem triple_ends (h : expected ≠ completeStatement) :
    Ends (assignment.triple expected) (fun _ => True) Issue.IsFault := by
  unfold triple
  split
  · exact True.intro
  · exact h

theorem quadruple_ends (h : expected ≠ completeStatement) :
    Ends (assignment.quadruple expected) (fun _ => True) Issue.IsFault := by
  unfold quadruple
  split
  · exact True.intro
  · exact h

theorem localizedText_ends (h : expected ≠ completeStatement) :
    Ends (assignment.localizedText expected) (fun _ => True) Issue.IsFault := by
  unfold localizedText
  split
  · refine (Value.quotedText_ends h _).bind fun german _ => ?_
    exact (Value.quotedText_ends h _).bind fun english _ => True.intro
  · exact h

end Grammar.Assignment

end NpcScript
