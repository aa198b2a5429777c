import NpcScript.Grammar.Assignment
import NpcScript.Proofs.Grammar.Reading
import NpcScript.Proofs.Grammar.Spelling

/-!
The text of assignments. A value has one text, or one for each choice of the blanks inside a call,
and `IsWritten` says which; an assignment has these texts behind its key, with blanks between its
tokens and perhaps a comment at the end. Lines are read exactly as they are written in this sense.
-/

namespace NpcScript.Grammar

open Reader
open Text (IsLiteral)

inductive Value.IsWritten : List Char → Nat → Value → Prop
  | quoted {offset : Nat} {s : List Char} (hs : IsLiteral s) :
      IsWritten s offset (.quoted ⟨offset + 1, s⟩)
  | number {offset : Nat} {s : List Char} (hs : IsNumber s) :
      IsWritten s offset (.number ⟨offset + 1, s⟩)
  | word {offset : Nat} {s : List Char} (hs : IsWord s) :
      IsWritten s offset (.word ⟨offset + 1, s⟩)
  | call {offset : Nat} {name gap s : List Char} {arguments : List Value} (hname : IsWord name)
      (hgap : IsGap gap)
      (harguments : IsParenthesised IsWritten s (offset + name.length + gap.length) arguments) :
      IsWritten (name ++ (gap ++ s)) offset
        (.call ⟨offset + 1, name ++ (gap ++ s)⟩ name arguments)

/-- What may stand between a key and its values: an equals sign, or only blanks. Where a letter, a
digit or an underscore follows, there has to be a blank. -/
inductive IsLink : List Char → List Char → Prop
  | equals {link values : List Char} (hlink : IsMark '=' link) : IsLink link values
  | blank {gap values : List Char} (hgap : IsGap gap)
      (hvalues : gap ≠ [] ∨ Spares continuesWord values) : IsLink gap values

inductive Assignment.IsWritten : List Char → Assignment → Prop
  | intro {start key link text ending : List Char} {values : List Value} (hstart : IsGap start)
      (hkey : IsWord key) (hlink : IsLink link text)
      (hvalues : IsRow (IsMark ',') Value.IsWritten text
        (start.length + key.length + link.length) values)
      (hne : values ≠ []) (hending : IsEnding ending) :
      IsWritten (start ++ (key ++ (link ++ (text ++ ending)))) ⟨key, values⟩

theorem IsLink.of_parts {before equals after values : List Char} (hbefore : IsGap before)
    (hequals : equals = [] ∨ equals = ['=']) (hafter : IsGap after)
    (hvalues : before ++ (equals ++ after) = [] → Spares continuesWord values) :
    IsLink (before ++ (equals ++ after)) values := by
  rcases hequals with rfl | rfl
  · refine .blank (hbefore.append hafter) ?_
    by_cases hnone : before ++ after = []
    · exact .inr (hvalues hnone)
    · exact .inl hnone
  · exact .equals (.intro hbefore hafter)

/-! ### What is read is written so -/

theorem call_spells {inner : Reader Value} {offset : Nat} {text : List Char}
    (hinner : ∀ offset text, Spells inner offset text fun s a _ => Value.IsWritten s offset a) :
    Spells (call inner) offset text fun s a _ => Value.IsWritten s offset a := by
  have hpiece : Spells (do
        let name ← lexeme wordLexer
        blanks
        let arguments ← parenthesised inner
        return (name.text, arguments)) offset text fun s found _ =>
      ∃ gap t, s = found.1 ++ (gap ++ t) ∧ IsWord found.1 ∧ IsGap gap ∧
        IsParenthesised Value.IsWritten t (offset + found.1.length + gap.length) found.2 := by
    refine .bind (.lexeme fun _ _ => wordLexer_sound) fun name found _ hname => ?_
    obtain ⟨rfl, hname, -⟩ := hname
    refine .bind .blanks fun gap _ _ hgap => ?_
    refine .bind (.parenthesised hinner) fun t arguments _ harguments => .pure ?_
    exact ⟨gap, t, by simp, hname, hgap, harguments⟩
  refine .bind hpiece.withText fun s found _ hs => .pure ?_
  obtain ⟨hsource, gap, t, rfl, hname, hgap, ht⟩ := hs
  rw [List.append_nil, hsource]
  exact .call hname hgap ht

theorem value_spells (offset : Nat) (text : List Char) :
    Spells value offset text fun s a _ => Value.IsWritten s offset a := by
  -- The arguments of a call stand in what is left behind its name, which is shorter.
  induction hn : text.length using Nat.strong_induction_on generalizing offset text with
  | _ n ih =>
      intro a last ha
      rw [value] at ha
      refine Spells.orElse ?_ (.orElse ?_ (.orElse (call_spells fun offset' text' => ?_) ?_))
        a last ha
      · refine .bind (.lexeme fun _ _ => literalLexer_sound) fun s found _ hs => .pure ?_
        obtain ⟨rfl, hs, -⟩ := hs
        rw [List.append_nil]
        exact .quoted hs
      · refine .bind (.lexeme fun _ _ => numberLexer_sound) fun s found _ hs => .pure ?_
        obtain ⟨rfl, hs, -⟩ := hs
        rw [List.append_nil]
        exact .number hs
      · exact .guarded fun hlt => ih text'.length (hn ▸ hlt) offset' text' rfl
      · refine .bind (.lexeme fun _ _ => wordLexer_sound) fun s found _ hs => .pure ?_
        obtain ⟨rfl, hs, -⟩ := hs
        rw [List.append_nil]
        exact .word hs

theorem assignment_spells (line : List Char) :
    Spells assignment 0 line fun s assignment rest => assignment.IsWritten s ∧ rest = [] := by
  refine .bind .blanks fun start _ _ hstart => ?_
  refine .bind (.lexeme fun _ _ => wordLexer_sound) fun key found rest hkey => ?_
  obtain ⟨rfl, hkey, hlexer⟩ := hkey
  have hrest := spares_of_wordLexer hlexer
  refine .bind (.cut .blanks) fun before _ _ hbefore => ?_
  obtain ⟨rfl, hbefore⟩ := hbefore
  refine .bind (.cut (.maybeMark '=')) fun equals _ _ hequals => ?_
  obtain ⟨rfl, hequals⟩ := hequals
  refine .bind (.cut .blanks) fun after _ _ hafter => ?_
  obtain ⟨rfl, hafter⟩ := hafter
  refine .bind (.cut (.commaSeparated value_spells)) fun text values _ hvalues => ?_
  obtain ⟨rfl, hne, hvalues⟩ := hvalues
  refine (Spells.ending _).mono fun ending assignment behind h => ?_
  obtain ⟨rfl, hending, rfl⟩ := h
  refine ⟨?_, rfl⟩
  have hlink : IsLink (before ++ (equals ++ after)) text := by
    refine .of_parts hbefore hequals hafter fun hnone => ?_
    rw [← List.append_assoc equals, ← List.append_assoc before, hnone,
      List.nil_append] at hrest
    exact hrest.of_append
  have hoffset : 0 + start.length + key.length + before.length + equals.length + after.length =
      start.length + key.length + (before ++ (equals ++ after)).length := by
    simp only [List.length_append]
    omega
  rw [hoffset] at hvalues
  simpa using Assignment.IsWritten.intro hstart hkey hlink hvalues hne hending

/-! ### What is written so is read -/

theorem Value.IsWritten.startsPiece {s : List Char} {offset : Nat} {value : Value}
    (h : value.IsWritten s offset) : StartsPiece s := by
  cases h with
  | quoted hs => exact IsLiteral.startsPiece hs
  | number hs => exact hs.startsPiece
  | word hs => exact hs.startsPiece
  | call hname hgap harguments => exact hname.startsPiece.append _

section Alternatives

variable {offset : Nat} {s rest : List Char}

theorem quoted_misses (hs : s ≠ []) (h : s.head? ≠ some '"') :
    Misses (do return Value.quoted (← lexeme literalLexer)) ⟨offset, s ++ rest⟩ := by
  refine Misses.bind (Misses.lexeme (literalLexer_eq_none ?_))
  rwa [List.head?_append_of_ne_nil s hs]

theorem number_misses (h : IsWord s) :
    Misses (do return Value.number (← lexeme numberLexer)) ⟨offset, s ++ rest⟩ := by
  have hspares := h.spares_isDigit.append h.ne_nil rest
  refine Misses.bind (Misses.lexeme (numberLexer_eq_none ?_ hspares))
  rw [List.head?_append_of_ne_nil s h.ne_nil]
  exact h.head_ne (by decide)

/-- Behind a word that is no call there is no parenthesis. -/
theorem call_misses (h : IsWord s) (hrest : EndsPiece rest) (inner : Reader Value) :
    Misses (call inner) ⟨offset, s ++ rest⟩ := by
  refine Misses.bind (Misses.withText ?_)
  refine (Reads.lexeme (wordLexer_append h hrest.spares)).bind_misses ?_
  refine (Reads.blanks _).bind_misses ?_
  refine Misses.bind (Misses.bind (Misses.mark ?_))
  exact hrest.next.head_ne_open

/-- No value begins with a closing parenthesis. -/
theorem value_misses_closing : Misses value ⟨offset, ')' :: rest⟩ := by
  have hword : Misses (lexeme wordLexer) ⟨offset, ')' :: rest⟩ := Misses.lexeme rfl
  unfold Misses
  rw [value]
  refine Misses.orElse_misses (Misses.bind (Misses.lexeme rfl)) ?_
  refine Misses.orElse_misses (Misses.bind (Misses.lexeme rfl)) ?_
  refine Misses.orElse_misses ?_ (Misses.bind hword)
  exact Misses.bind (Misses.withText (Misses.bind hword))

end Alternatives

theorem call_reads {bound : Nat} {inner : Reader Value} {name gap : List Char}
    {arguments : List Value} (hname : IsWord name) (hgap : IsGap gap)
    (harguments : IsParenthesised Value.IsWritten s (offset + name.length + gap.length) arguments)
    (hinner : Takes bound inner Value.IsWritten)
    (hclose : ∀ {offset : Nat} {rest : List Char}, Misses inner ⟨offset, ')' :: rest⟩)
    (hbound : s.length + rest.length < bound) :
    Reads (call inner) ⟨offset, name ++ (gap ++ (s ++ rest))⟩
      (.call ⟨offset + 1, name ++ (gap ++ s)⟩ name arguments)
      ⟨offset + (name ++ (gap ++ s)).length, rest⟩ := by
  have hopen : s.head? = some '(' := by
    obtain ⟨hbefore, hinside, hafter⟩ := harguments
    rfl
  have hends : Spares continuesWord (gap ++ (s ++ rest)) := by
    refine spares_append_of_forall hgap (fun c => not_continuesWord_of_isGap) ?_
    exact (spares_of_head_ne (by decide) hopen).append (by rintro rfl; cases hopen) rest
  have hsettle : Cursor.settle ⟨offset + name.length, gap ++ (s ++ rest)⟩ =
      ⟨offset + name.length + gap.length, s ++ rest⟩ := by
    refine Cursor.settle_append hgap ?_
    exact (spares_of_head_ne (by decide) hopen).append (by rintro rfl; cases hopen) rest
  have hlength : offset + (name ++ (gap ++ s)).length =
      offset + name.length + gap.length + s.length := by
    simp only [List.length_append]
    omega
  have hpiece : Reads (do
        let name ← lexeme wordLexer
        blanks
        let arguments ← parenthesised inner
        return (name.text, arguments))
      ⟨offset, name ++ (gap ++ s) ++ rest⟩ (name, arguments)
      ⟨offset + (name ++ (gap ++ s)).length, rest⟩ := by
    rw [hlength, List.append_assoc, List.append_assoc]
    refine (Reads.lexeme (wordLexer_append hname hends)).bind ?_
    refine (Reads.blanks _).bind ?_
    rw [hsettle]
    refine Reads.bind ?_ (.pure _ _)
    exact Reads.parenthesised hinner Value.IsWritten.startsPiece hclose harguments hbound
  have hreads : Reads (call inner) ⟨offset, name ++ (gap ++ s) ++ rest⟩
      (.call ⟨offset + 1, name ++ (gap ++ s)⟩ name arguments)
      ⟨offset + (name ++ (gap ++ s)).length, rest⟩ :=
    Reads.bind hpiece.withText (.pure _ _)
  rwa [List.append_assoc, List.append_assoc] at hreads

theorem value_takes (bound : Nat) :
    Takes bound value fun s offset value => value.IsWritten s offset := by
  induction bound with
  | zero =>
      intro offset s rest a cursor ha hrest hlt hcursor
      omega
  | succ bound ih =>
      intro offset s rest a cursor ha hrest hlt hcursor
      obtain rfl := hcursor.eq_of_spares (ha.startsPiece.append rest).spares_isGap
      refine ⟨⟨offset + s.length, rest⟩, ?_, .refl _⟩
      unfold Reads
      rw [value]
      cases ha with
      | quoted hs =>
          have hreads : Reads (do return Value.quoted (← lexeme literalLexer)) ⟨offset, s ++ rest⟩
              (.quoted ⟨offset + 1, s⟩) ⟨offset + s.length, rest⟩ :=
            (Reads.lexeme (literalLexer_append hs rest)).bind (.pure _ _)
          exact hreads.orElse _
      | number hs =>
          have hreads : Reads (do return Value.number (← lexeme numberLexer)) ⟨offset, s ++ rest⟩
              (.number ⟨offset + 1, s⟩) ⟨offset + s.length, rest⟩ :=
            (Reads.lexeme (numberLexer_append hs hrest.spares)).bind (.pure _ _)
          have hquote : s.head? ≠ some '"' := hs.head_ne (by decide) (by decide)
          exact Misses.orElse (quoted_misses hs.startsPiece.ne_nil hquote) (hreads.orElse _)
      | word hs =>
          have hreads : Reads (do return Value.word (← lexeme wordLexer)) ⟨offset, s ++ rest⟩
              (.word ⟨offset + 1, s⟩) ⟨offset + s.length, rest⟩ :=
            (Reads.lexeme (wordLexer_append hs hrest.spares)).bind (.pure _ _)
          refine Misses.orElse (quoted_misses hs.ne_nil (hs.head_ne (by decide))) ?_
          refine Misses.orElse (number_misses hs) ?_
          exact Misses.orElse (call_misses hs hrest _) hreads
      | @call _ name gap s arguments hname hgap harguments =>
          simp only [List.append_assoc]
          refine Misses.orElse (quoted_misses hname.ne_nil (hname.head_ne (by decide))) ?_
          refine Misses.orElse (number_misses hname) ?_
          have hlength : (name ++ (gap ++ (s ++ rest))).length ≤ bound := by
            simp only [List.length_append] at hlt ⊢
            omega
          have hbound : s.length + rest.length < (name ++ (gap ++ (s ++ rest))).length := by
            have hpos := List.length_pos_iff.mpr hname.ne_nil
            simp only [List.length_append]
            omega
          have hreads := call_reads hname hgap harguments (ih.mono hlength).guarded
            value_misses_closing.guarded hbound
          exact hreads.orElse _

theorem IsLink.spares {link text : List Char} (h : IsLink link text) (htext : StartsPiece text)
    (rest : List Char) : Spares continuesWord (link ++ (text ++ rest)) := by
  cases h with
  | equals hlink =>
      obtain ⟨hbefore, hafter⟩ := hlink
      rw [List.append_assoc]
      exact spares_append_of_forall hbefore (fun c => not_continuesWord_of_isGap)
        (spares_cons_iff.mpr (by decide))
  | blank hgap hvalues =>
      rcases hvalues with hne | hspares
      · have hfront : Spares continuesWord link := by
          have h := spares_append_of_forall hgap (fun c => not_continuesWord_of_isGap)
            (spares_nil (p := continuesWord))
          rwa [List.append_nil] at h
        exact hfront.append hne _
      · exact spares_append_of_forall hgap (fun c => not_continuesWord_of_isGap)
          (hspares.append htext.ne_nil rest)

theorem IsLink.equals_or_gap {link text : List Char} (h : IsLink link text) :
    IsMark '=' link ∨ IsGap link := by
  cases h with
  | equals hlink => exact .inl hlink
  | blank hgap hvalues => exact .inr hgap

theorem Assignment.IsWritten.isWord_key {line : List Char} {assignment : Assignment}
    (h : assignment.IsWritten line) : IsWord assignment.key := by
  obtain ⟨hstart, hkey, hlink, hvalues, hne, hending⟩ := h
  exact hkey

/-- Blanks and a comment may be added to any assignment. -/
theorem Assignment.IsWritten.append_ending {line ending : List Char} {assignment : Assignment}
    (h : assignment.IsWritten line) (hending : IsEnding ending) :
    assignment.IsWritten (line ++ ending) := by
  obtain ⟨hstart, hkey, hlink, hvalues, hne, hlast⟩ := h
  simpa using Assignment.IsWritten.intro hstart hkey hlink hvalues hne (hlast.append_ending hending)

theorem startsPiece_of_values {s : List Char} {offset : Nat} {values : List Value}
    (h : IsRow (IsMark ',') Value.IsWritten s offset values) (hne : values ≠ []) :
    StartsPiece s := by
  cases h with
  | nil => exact absurd rfl hne
  | cons ha has => exact ha.startsPiece.append _

/-- The key stands at the front, blanks aside, and nothing behind it continues it. -/
theorem Assignment.IsWritten.exists_rest {line : List Char} {assignment : Assignment}
    (h : assignment.IsWritten line) : ∃ start rest, line = start ++ (assignment.key ++ rest) ∧
      IsGap start ∧ Spares continuesWord rest := by
  obtain ⟨hstart, hkey, hlink, hvalues, hne, hending⟩ := h
  exact ⟨_, _, rfl, hstart, hlink.spares (startsPiece_of_values hvalues hne) _⟩

theorem assignment_reads {line : List Char} {found : Assignment} (h : found.IsWritten line) :
    ∃ last, Reads assignment ⟨0, line⟩ found last := by
  obtain ⟨hstart, hkey, hlink, hvalues, hne, hending⟩ := h
  rename_i start key link text ending values
  have htext := startsPiece_of_values hvalues hne
  have hsettle : Cursor.settle ⟨0, start ++ (key ++ (link ++ (text ++ ending)))⟩ =
      ⟨start.length, key ++ (link ++ (text ++ ending))⟩ := by
    have hspares := (hkey.startsPiece.append (link ++ (text ++ ending))).spares_isGap
    rw [Cursor.settle_append hstart hspares, Nat.zero_add]
  have htext' := htext.append ending
  obtain ⟨equals, middle, hequals, hmiddle⟩ := maybeMark_reads hlink.equals_or_gap (by decide)
    htext'.spares_isGap (htext'.head_ne (by decide) (by decide)) (start.length + key.length)
  obtain ⟨behind, hreads, hbehind⟩ := Reads.commaSeparated (value_takes _)
    Value.IsWritten.startsPiece hvalues hne hending.endsPiece hending.head?_dropWhile_ne
    (Nat.lt_succ_self _) (.refl _)
  obtain ⟨last, hlast⟩ := Reads.ending hending hbehind (Assignment.mk key values)
  refine ⟨last, (Reads.blanks _).bind ?_⟩
  rw [hsettle]
  refine (Reads.lexeme (wordLexer_append hkey (hlink.spares htext ending))).bind ?_
  refine (Reads.blanks _).bind ?_
  refine hequals.bind ?_
  refine (Reads.blanks _).bind ?_
  rw [hmiddle]
  exact hreads.bind hlast

theorem Assignment.IsWritten.ofLine {line : List Char} {assignment : Assignment}
    (h : assignment.IsWritten line) : Assignment.ofLine line = .ok assignment := by
  obtain ⟨last, hreads⟩ := assignment_reads h
  exact hreads.run

theorem Assignment.isWritten_of_ofLine {line : List Char} {assignment : Assignment}
    (h : ofLine line = .ok assignment) : assignment.IsWritten line := by
  obtain ⟨s, rest, rfl, hwritten, rfl⟩ := (assignment_spells line).run h
  rwa [List.append_nil]

theorem Assignment.ofLine_iff_isWritten {line : List Char} {assignment : Assignment} :
    Assignment.ofLine line = .ok assignment ↔ assignment.IsWritten line :=
  ⟨isWritten_of_ofLine, IsWritten.ofLine⟩

end NpcScript.Grammar
