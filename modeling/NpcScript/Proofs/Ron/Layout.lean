import NpcScript.Proofs.Ron.Part

/-!
RON loses nothing. A legible value is told from its layout whatever follows it, as long as what
follows cannot belong to it. This goes down from a value to its content and from there to its
members: the elements of a list and the fields of a record stand on lines that are indented more
than the closing bracket, and the elements of a tuple are separated by commas.
-/

namespace NpcScript.Ron

open Grammar (Spares spares_nil spares_cons_iff append_inj_of_spares)

namespace Value

/-- What can follow a value: the end of the text, a comma or a closing parenthesis. -/
inductive EndsValue : List Char → Prop
  | nothing : EndsValue []
  | comma (s : List Char) : EndsValue (',' :: s)
  | closing (s : List Char) : EndsValue (')' :: s)

/-- What is written for the one is not taken for the other, nor for more or less than it is. -/
def Tells {α : Type} (write : α → List Char) (a b : α) : Prop :=
  ∀ ⦃r s : List Char⦄, EndsValue r → EndsValue s → write a ++ r = write b ++ s → a = b ∧ r = s

/-- The layout of a value, at any level, is taken for that of no other legible one. -/
def IsTold (v : Value) : Prop :=
  ∀ ⦃w : Value⦄ (level : Nat), IsLegible w → Tells (layout level) v w

/-! ### Lines -/

def lines {α : Type} (level : Nat) (write : α → List Char) (as : List α) : List Char :=
  as.flatMap fun a => indent level ++ (write a ++ [',', '\n'])

def layoutField (level : Nat) (field : String × Value) : List Char :=
  field.1.toList ++ ':' :: ' ' :: field.2.layout level

theorem layoutElements_eq_lines (level : Nat) (vs : List Value) :
    layoutElements level vs = lines level (layout level) vs := by
  induction vs with
  | nil => rfl
  | cons v vs ih =>
      show indent level ++ _ ++ _ ++ layoutElements level vs = _
      rw [ih, List.append_assoc (indent level)]
      rfl

theorem layoutFields_eq_lines (level : Nat) (fs : List (String × Value)) :
    layoutFields level fs = lines level (layoutField level) fs := by
  induction fs with
  | nil => rfl
  | cons f fs ih =>
      show indent level ++ _ ++ _ ++ _ ++ _ ++ layoutFields level fs = _
      rw [ih]
      simp [lines, layoutField]

theorem indent_succ (level : Nat) : indent (level + 1) = indent level ++ [' ', ' ', ' ', ' '] := by
  simp [indent, Nat.mul_add, List.replicate_add]

section Lines

variable {α : Type} {level : Nat} {write : α → List Char}

theorem lines_cons_append (a : α) (as : List α) (s : List Char) :
    lines level write (a :: as) ++ s =
      indent level ++ (write a ++ ',' :: '\n' :: (lines level write as ++ s)) := by
  simp [lines]

/-- A line that is indented more than a closing bracket does not look like it. -/
theorem lines_cons_append_ne {c : Char} (hc : c ≠ ' ') (a : α) (as : List α) (s t : List Char) :
    lines (level + 1) write (a :: as) ++ s ≠ indent level ++ c :: t := by
  rw [lines_cons_append, indent_succ, List.append_assoc]
  intro h
  obtain ⟨rfl, -⟩ := List.cons_eq_cons.mp (List.append_cancel_left h)
  exact hc rfl

theorem lines_append_inj {as bs : List α} {c : Char} (hc : c ≠ ' ')
    (hwrite : ∀ a ∈ as, ∀ b ∈ bs, Tells write a b) {r s : List Char}
    (h : lines (level + 1) write as ++ (indent level ++ c :: r) =
      lines (level + 1) write bs ++ (indent level ++ c :: s)) : as = bs ∧ r = s := by
  induction as generalizing bs with
  | nil =>
      cases bs with
      | nil => simpa [lines] using h
      | cons b bs => exact absurd h.symm (lines_cons_append_ne hc b bs _ _)
  | cons a as ih =>
      cases bs with
      | nil => exact absurd h (lines_cons_append_ne hc a as _ _)
      | cons b bs =>
          rw [lines_cons_append, lines_cons_append] at h
          obtain ⟨rfl, hrest⟩ := hwrite a (by simp) b (by simp) (.comma _) (.comma _)
            (List.append_cancel_left h)
          have hothers : ∀ x ∈ as, ∀ y ∈ bs, Tells write x y :=
            fun x hx y hy => hwrite x (by simp [hx]) y (by simp [hy])
          obtain ⟨rfl, rfl⟩ := ih hothers (by simpa using hrest)
          exact ⟨rfl, rfl⟩

end Lines

theorem tells_layoutField {f g : String × Value} (level : Nat) (hf : IsName f.1) (hg : IsName g.1)
    (h : Tells (layout level) f.2 g.2) : Tells (layoutField level) f g := by
  intro r s hr hs heq
  simp only [layoutField, List.append_assoc, List.cons_append] at heq
  obtain ⟨hname, hrest⟩ := append_inj_of_spares hf.isWordPart hg.isWordPart
    (spares_cons_iff.mpr (by decide)) (spares_cons_iff.mpr (by decide)) heq
  obtain ⟨hvalue, hrest⟩ := h hr hs (by simpa using hrest)
  exact ⟨Prod.ext (String.toList_inj.mp hname) hvalue, hrest⟩

/-! ### Tuples -/

def layoutOthers (level : Nat) (vs : List Value) : List Char :=
  vs.flatMap fun v => ',' :: ' ' :: v.layout level

theorem layoutTuple_cons (level : Nat) (v : Value) (vs : List Value) :
    layoutTuple level (v :: vs) = v.layout level ++ layoutOthers level vs := by
  induction vs generalizing v with
  | nil => exact (List.append_nil _).symm
  | cons w vs ih =>
      show v.layout level ++ [',', ' '] ++ layoutTuple level (w :: vs) = _
      rw [ih w]
      simp [layoutOthers]

theorem endsValue_others (level : Nat) (vs : List Value) (s : List Char) :
    EndsValue (layoutOthers level vs ++ ')' :: s) := by
  cases vs with
  | nil => exact .closing s
  | cons v vs => exact .comma _

theorem layoutOthers_append_inj {level : Nat} {vs ws : List Value} (hvs : ∀ v ∈ vs, IsTold v)
    (hws : ∀ w ∈ ws, IsLegible w) {r s : List Char}
    (h : layoutOthers level vs ++ ')' :: r = layoutOthers level ws ++ ')' :: s) :
    vs = ws ∧ r = s := by
  induction vs generalizing ws with
  | nil =>
      cases ws with
      | nil => simpa [layoutOthers] using h
      | cons w ws => simp [layoutOthers] at h
  | cons v vs ih =>
      cases ws with
      | nil => simp [layoutOthers] at h
      | cons w ws =>
          obtain ⟨hv, hothers⟩ := List.forall_mem_cons.mp hvs
          obtain ⟨hw, hlegible⟩ := List.forall_mem_cons.mp hws
          simp only [layoutOthers, List.flatMap_cons, List.cons_append, List.append_assoc,
            List.cons.injEq, true_and] at h
          obtain ⟨rfl, hrest⟩ :=
            hv level hw (endsValue_others level vs r) (endsValue_others level ws s) h
          obtain ⟨rfl, rfl⟩ := ih hothers hlegible hrest
          exact ⟨rfl, rfl⟩

theorem layout_append_ne {v : Value} (hv : IsLegible v) {c : Char} (hc : beginsValue c = false)
    (level : Nat) (s t : List Char) : v.layout level ++ s ≠ c :: t := by
  obtain ⟨d, rest, hlayout, hd⟩ := exists_layout_eq_cons hv level
  rw [hlayout]
  intro h
  obtain ⟨rfl, -⟩ := List.cons_eq_cons.mp h
  rw [hc] at hd
  cases hd

theorem layoutTuple_append_inj {level : Nat} {vs ws : List Value} (hvs : ∀ v ∈ vs, IsLegible v)
    (htold : ∀ v ∈ vs, IsTold v) (hws : ∀ w ∈ ws, IsLegible w) {r s : List Char}
    (h : layoutTuple level vs ++ ')' :: r = layoutTuple level ws ++ ')' :: s) :
    vs = ws ∧ r = s := by
  cases vs with
  | nil =>
      cases ws with
      | nil => simpa [layoutTuple] using h
      | cons w ws =>
          rw [layoutTuple_cons, List.append_assoc] at h
          exact absurd h.symm (layout_append_ne (hws w (by simp)) (by decide) _ _ _)
  | cons v vs =>
      obtain ⟨hv, hothers⟩ := List.forall_mem_cons.mp htold
      cases ws with
      | nil =>
          rw [layoutTuple_cons, List.append_assoc] at h
          exact absurd h (layout_append_ne (hvs v (by simp)) (by decide) _ _ _)
      | cons w ws =>
          obtain ⟨hw, hlegible⟩ := List.forall_mem_cons.mp hws
          rw [layoutTuple_cons, layoutTuple_cons, List.append_assoc, List.append_assoc] at h
          obtain ⟨rfl, hrest⟩ :=
            hv level hw (endsValue_others level vs r) (endsValue_others level ws s) h
          obtain ⟨rfl, rfl⟩ := layoutOthers_append_inj hothers hlegible hrest
          exact ⟨rfl, rfl⟩

/-- What stands between the parentheses of a tuple does not begin a line. -/
theorem layoutTuple_append_ne {vs : List Value} (hvs : ∀ v ∈ vs, IsLegible v) (level : Nat)
    (r s : List Char) : layoutTuple level vs ++ ')' :: r ≠ '\n' :: s := by
  cases vs with
  | nil => simp [layoutTuple]
  | cons v vs =>
      rw [layoutTuple_cons, List.append_assoc]
      exact layout_append_ne (hvs v (by simp)) (by decide) _ _ _

/-! ### Contents -/

def Content.members : Content → List Value
  | nothing | text _ => []
  | elements vs | values vs => vs
  | fields fs => fs.map (·.2)

inductive Content.IsLegible : Content → Prop
  | nothing : Content.IsLegible .nothing
  | text (s : String) : Content.IsLegible (.text s)
  | elements {vs : List Value} (h : ∀ v ∈ vs, v.IsLegible) : Content.IsLegible (.elements vs)
  | values {vs : List Value} (h : ∀ v ∈ vs, v.IsLegible) : Content.IsLegible (.values vs)
  | fields {fs : List (String × Value)} (hnames : ∀ f ∈ fs, IsName f.1)
      (h : ∀ f ∈ fs, f.2.IsLegible) : Content.IsLegible (.fields fs)

theorem isLegible_content {v : Value} (h : IsLegible v) : v.content.IsLegible := by
  cases h with
  | integer n => exact .nothing
  | boolean b => exact .nothing
  | absent => exact .nothing
  | tag _ => exact .nothing
  | text s => exact .text s
  | present h => exact .values (by simpa using h)
  | tagged _ h => exact .values (by simpa using h)
  | list h => exact .elements h
  | tuple h => exact .values h
  | record hnames h => exact .fields hnames h
  | taggedRecord _ hnames h => exact .fields hnames h

section Contents

variable {level : Nat} {r s : List Char}

theorem layout_elements_append_inj {vs ws : List Value} (hvs : ∀ v ∈ vs, IsTold v)
    (hws : ∀ w ∈ ws, IsLegible w)
    (h : (list vs).layout level ++ r = (list ws).layout level ++ s) : vs = ws ∧ r = s := by
  cases vs with
  | nil =>
      cases ws with
      | nil => exact ⟨rfl, List.append_cancel_left h⟩
      | cons w ws => cases h
  | cons v vs =>
      cases ws with
      | nil => cases h
      | cons w ws =>
          have hlines : layoutElements (level + 1) (v :: vs) ++ indent level ++ [']'] ++ r =
              layoutElements (level + 1) (w :: ws) ++ indent level ++ [']'] ++ s :=
            (List.cons_eq_cons.mp (List.cons_eq_cons.mp h).2).2
          simp only [layoutElements_eq_lines, List.append_assoc] at hlines
          exact lines_append_inj (by decide) (fun v hv w hw => hvs v hv _ (hws w hw)) hlines

theorem layout_fields_append_inj {fs gs : List (String × Value)} (hfs : ∀ f ∈ fs, IsName f.1)
    (htold : ∀ f ∈ fs, IsTold f.2) (hgs : ∀ g ∈ gs, IsName g.1)
    (hlegible : ∀ g ∈ gs, g.2.IsLegible)
    (h : (record fs).layout level ++ r = (record gs).layout level ++ s) : fs = gs ∧ r = s := by
  have hlines : layoutFields (level + 1) fs ++ indent level ++ [')'] ++ r =
      layoutFields (level + 1) gs ++ indent level ++ [')'] ++ s :=
    (List.cons_eq_cons.mp (List.cons_eq_cons.mp h).2).2
  simp only [layoutFields_eq_lines, List.append_assoc] at hlines
  exact lines_append_inj (by decide) (fun f hf g hg =>
    tells_layoutField _ (hfs f hf) (hgs g hg) (htold f hf _ (hlegible g hg))) hlines

theorem layout_values_append_inj {vs ws : List Value} (hvs : ∀ v ∈ vs, IsLegible v)
    (htold : ∀ v ∈ vs, IsTold v) (hws : ∀ w ∈ ws, IsLegible w)
    (h : (tuple vs).layout level ++ r = (tuple ws).layout level ++ s) : vs = ws ∧ r = s := by
  have hinside : layoutTuple level vs ++ [')'] ++ r = layoutTuple level ws ++ [')'] ++ s :=
    (List.cons_eq_cons.mp h).2
  rw [List.append_assoc, List.append_assoc] at hinside
  exact layoutTuple_append_inj hvs htold hws hinside

theorem layout_values_append_ne_fields {vs : List Value} (hvs : ∀ v ∈ vs, IsLegible v)
    (fs : List (String × Value)) :
    (tuple vs).layout level ++ r ≠ (record fs).layout level ++ s := by
  intro h
  have hinside : layoutTuple level vs ++ [')'] ++ r = '\n' :: _ := (List.cons_eq_cons.mp h).2
  rw [List.append_assoc] at hinside
  exact layoutTuple_append_ne hvs level r _ hinside

theorem content_append_inj {c d : Content} (hc : c.IsLegible) (hd : d.IsLegible)
    (htold : ∀ v ∈ c.members, IsTold v) (hr : EndsValue r) (hs : EndsValue s)
    (h : c.layout level ++ r = d.layout level ++ s) : c = d ∧ r = s := by
  -- Contents of different kinds begin differently, or where both are in parentheses, the fields
  -- begin a line and the values do not.
  cases hc with
  | nothing =>
      cases hd with
      | nothing => exact ⟨rfl, h⟩
      | @elements ws _ => cases hr <;> cases ws <;> cases h
      | _ => cases hr <;> cases h
  | text a =>
      cases hd with
      | nothing => cases hs <;> cases h
      | text b =>
          obtain ⟨hab, hrest⟩ := Text.escape_append_inj h
          exact ⟨congrArg _ (String.toList_inj.mp hab), hrest⟩
      | @elements ws _ => cases ws <;> cases h
      | _ => cases h
  | @elements vs hvs =>
      cases hd with
      | elements hws =>
          obtain ⟨rfl, hrest⟩ := layout_elements_append_inj htold hws h
          exact ⟨rfl, hrest⟩
      | nothing => cases vs <;> cases hs <;> cases h
      | _ => cases vs <;> cases h
  | values hvs =>
      cases hd with
      | nothing => cases hs <;> cases h
      | text b => cases h
      | @elements ws _ => cases ws <;> cases h
      | values hws =>
          obtain ⟨rfl, hrest⟩ := layout_values_append_inj hvs htold hws h
          exact ⟨rfl, hrest⟩
      | fields _ _ => exact absurd h (layout_values_append_ne_fields hvs _)
  | fields hfs _ =>
      cases hd with
      | nothing => cases hs <;> cases h
      | text b => cases h
      | @elements ws _ => cases ws <;> cases h
      | values hws => exact absurd h.symm (layout_values_append_ne_fields hws _)
      | fields hgs hlegible =>
          obtain ⟨rfl, hrest⟩ := layout_fields_append_inj hfs
            (fun f hf => htold f.2 (List.mem_map_of_mem hf)) hgs hlegible h
          exact ⟨rfl, hrest⟩

/-- The word of a value ends where its content begins. -/
theorem spares_content (c : Content) (level : Nat) (hr : EndsValue r) :
    Spares isWordPart (c.layout level ++ r) := by
  cases c with
  | nothing =>
      cases hr with
      | nothing => exact spares_nil
      | comma _ => exact spares_cons_iff.mpr (by decide)
      | closing _ => exact spares_cons_iff.mpr (by decide)
  | elements vs => cases vs <;> exact spares_cons_iff.mpr (by decide)
  | _ => exact spares_cons_iff.mpr (by decide)

end Contents

/-! ### Values -/

theorem isTold_of_members {v : Value} (hv : IsLegible v)
    (htold : ∀ u ∈ v.content.members, IsTold u) : IsTold v := by
  intro w level hw r s hr hs h
  rw [layout_eq, layout_eq, List.append_assoc, List.append_assoc] at h
  obtain ⟨hword, hbehind⟩ := append_inj_of_spares (isWordPart_of_mem hv) (isWordPart_of_mem hw)
    (spares_content _ level hr) (spares_content _ level hs) h
  obtain ⟨hcontent, hrest⟩ := content_append_inj (isLegible_content hv) (isLegible_content hw)
    htold hr hs hbehind
  exact ⟨eq_of_word_of_content hv hw hword hcontent, hrest⟩

theorem IsLegible.isTold {v : Value} (hv : IsLegible v) : IsTold v := by
  have hnone : ∀ u ∈ ([] : List Value), IsTold u := by simp
  induction hv with
  | integer n => exact isTold_of_members (.integer n) hnone
  | boolean b => exact isTold_of_members (.boolean b) hnone
  | text s => exact isTold_of_members (.text s) hnone
  | absent => exact isTold_of_members .absent hnone
  | tag hname => exact isTold_of_members (.tag hname) hnone
  | present h ih => exact isTold_of_members (.present h) (List.forall_mem_singleton.mpr ih)
  | tagged hname h ih =>
      exact isTold_of_members (.tagged hname h) (List.forall_mem_singleton.mpr ih)
  | list h ih => exact isTold_of_members (.list h) ih
  | tuple h ih => exact isTold_of_members (.tuple h) ih
  | record hnames h ih =>
      exact isTold_of_members (.record hnames h) (List.forall_mem_map.mpr ih)
  | taggedRecord hname hnames h ih =>
      exact isTold_of_members (.taggedRecord hname hnames h) (List.forall_mem_map.mpr ih)

/-- Legible values that are written alike are the same. -/
theorem render_inj {v w : Value} (hv : IsLegible v) (hw : IsLegible w)
    (h : v.render = w.render) : v = w := by
  have hlayout : v.layout 0 = w.layout 0 := String.ofList_injective h
  exact (hv.isTold 0 hw .nothing .nothing (congrArg (· ++ []) hlayout)).1

end Value

end NpcScript.Ron
