import NpcScript.Proofs.Clause.Named
import NpcScript.Proofs.Likeness.Line
import NpcScript.Proofs.Script.Exchanged
import NpcScript.Proofs.Script.Number

/-!
Names in quotes. Wherever a word is asked for that names something, it may as well stand between
quotes: an assignment makes the same statement of both, and a clause that takes an argument by its
name comes to the same with either. All that changes in the line is the columns behind the quotes.
-/

namespace NpcScript

open Grammar (Argument Assignment Clause DialogueForm IsEnding IsGap IsLink IsWord KeywordClause
  Lexeme Operand Value)

/-! ### Assignments -/

/-- The keys of statements that say who an NPC is by a word of a fixed set. -/
def IdentityKey.takingToken : List IdentityKey :=
  [.race, .sex, .direction, .affiliation, .defaultLanguage, .language, .autoIntroduce]

theorem IdentityKey.isLocalized_of_mem_takingToken : ∀ key ∈ takingToken, key.isLocalized = false :=
  by decide

theorem IdentityKey.isWord_of_isWrittenAs {key : IdentityKey} {word : List Char}
    (h : AssignmentKey.isWrittenAs (.identity key) word = true) : IsWord word := by
  have hall : ∀ key ∈ (Vocabulary.all : List IdentityKey),
      ∀ spelling ∈ Vocabulary.spellings key, Grammar.wordLexer spelling.toList = some [] := by
    decide +kernel
  obtain ⟨spelling, hmem, hsame⟩ := List.any_eq_true.mp h
  have hspelling := Grammar.isWord_of_wordLexer (hall key (Vocabulary.mem_all key) spelling hmem)
  exact hspelling.of_sameLetters hsame

/-- In front of a quote no blank is needed behind the key. -/
theorem Grammar.IsLink.quoted {link values : List Char} (h : IsLink link values)
    (text : List Char) : IsLink link ('"' :: text) := by
  cases h with
  | equals hlink => exact .equals hlink
  | blank hgap hvalues => exact .blank hgap (.inr (by simp [Grammar.Spares]; decide))

/-- An assignment of one value is written as the value behind its key. -/
theorem Grammar.Assignment.isWritten_single {start key link text ending : List Char} {value : Value}
    (hstart : IsGap start) (hkey : IsWord key) (hlink : IsLink link text)
    (hvalue : value.IsWritten text (start.length + key.length + link.length))
    (hending : IsEnding ending) :
    Assignment.IsWritten (start ++ (key ++ (link ++ (text ++ ending)))) ⟨key, [value]⟩ := by
  have hvalues : Grammar.IsRow (Grammar.IsMark ',') Value.IsWritten (text ++ [])
      (start.length + key.length + link.length) [value] := .cons hvalue .nil
  rw [List.append_nil] at hvalues
  exact .intro hstart hkey hlink hvalues (by simp) hending

theorem Identity.ofAssignment_quoted {w : List Char} (hw : IsWord w) {key : IdentityKey}
    (hkey : key ∈ IdentityKey.takingToken) (word : List Char) (column : Nat) :
    ofAssignment key ⟨word, [.word ⟨column, w⟩]⟩ =
      ofAssignment key ⟨word, [.quoted ⟨column, '"' :: (w ++ ['"'])⟩]⟩ := by
  have htoken (expected : String) :
      Value.token word expected (.word ⟨column, w⟩) =
        Value.token word expected (.quoted ⟨column, '"' :: (w ++ ['"'])⟩) := by
    rw [Value.token, Value.token, hw.unquote_eq]
  simp only [IdentityKey.takingToken, List.mem_cons, List.not_mem_nil, or_false] at hkey
  rcases hkey with rfl | rfl | rfl | rfl | rfl | rfl | rfl <;>
    simp only [ofAssignment, Assignment.single, bind, Except.bind, htoken] <;> rfl

theorem Scanner.feed_identity {context : Context} {line : SourceLine} {assignment : Assignment}
    (hline : assignment.IsWritten line.text.toList) {key : IdentityKey}
    (hkey : AssignmentKey.isWrittenAs (.identity key) assignment.key = true)
    (hlocalized : key.isLocalized = false) (document : Document) :
    feed context ⟨document, .scanning⟩ line =
      ⟨document.addResult context line.number (.identity <$> Identity.ofAssignment key assignment),
        .scanning⟩ :=
  feed_of_statement_eq hline hkey hlocalized (Checked.map_ofPart Statement.identity _) document

/-- The same line with the word of its assignment in quotes: one reading of both. -/
theorem Scanner.feed_quoted_token (context : Context) {w : List Char} (hw : IsWord w)
    {line line' : SourceLine} (hnumber : line'.number = line.number) {key : IdentityKey}
    (hkey : key ∈ IdentityKey.takingToken) {start word link ending : List Char}
    (hstart : IsGap start) (hword : AssignmentKey.isWrittenAs (.identity key) word = true)
    (hlink : IsLink link w) (hending : IsEnding ending)
    (hline : line.text.toList = start ++ (word ++ (link ++ (w ++ ending))))
    (hline' : line'.text.toList = start ++ (word ++ (link ++ '"' :: (w ++ '"' :: ending))))
    (document : Document) :
    feed context ⟨document, .scanning⟩ line = feed context ⟨document, .scanning⟩ line' := by
  have hkeyword := IdentityKey.isWord_of_isWrittenAs hword
  let column : Nat := start.length + word.length + link.length + 1
  have hbare : Assignment.IsWritten line.text.toList ⟨word, [.word ⟨column, w⟩]⟩ := by
    rw [hline]
    exact Assignment.isWritten_single hstart hkeyword hlink (.word hw) hending
  have hquoted : Assignment.IsWritten line'.text.toList
      ⟨word, [.quoted ⟨column, '"' :: (w ++ ['"'])⟩]⟩ := by
    rw [hline']
    simpa using Assignment.isWritten_single hstart hkeyword (hlink.quoted (w ++ ['"']))
      (.quoted hw.isLiteral) hending
  have hlocalized := IdentityKey.isLocalized_of_mem_takingToken key hkey
  rw [feed_identity hbare hword hlocalized, feed_identity hquoted hword hlocalized,
    Identity.ofAssignment_quoted hw hkey, hnumber]

/-! ### Clauses -/

section Clauses

variable {form : DialogueForm} {side : Side} {before after : List Clause} {clause : KeywordClause}
  {first others : List Argument} {u v w : List Char}

theorem Grammar.KeywordClause.TakesName.congr {clause' : KeywordClause}
    (h : clause.TakesName side first) (hkeyword : clause.keyword.text = clause'.keyword.text)
    (hcompares : clause.compares = clause'.compares) : clause'.TakesName side first := by
  cases h with
  | attrib h first => exact .attrib (hkeyword ▸ h) first
  | skill h first => exact .skill (hkeyword ▸ h) first
  | arena h first => exact .arena (hkeyword ▸ h) first
  | location h hside number first => exact .location (hkeyword ▸ h) (hcompares ▸ hside) number first

/-- Quotes around an argument that is a word: the line with them spells a form that differs from one
like the form without them in no more than this argument. -/
theorem Grammar.DialogueForm.IsSpelt.exists_quoted (h : form.IsSpelt (u ++ (w ++ v)))
    (hw : IsWord w) (hon : form.on side = before ++ .keyword clause :: after)
    (harguments : clause.arguments = some (first ++ .operand ⟨u.length + 1, w⟩ :: others)) :
    ∃ clause' quoted after' others',
      (form.place side before after' others' (.keyword quoted)).IsSpelt
        (u ++ ('"' :: (w ++ '"' :: v))) ∧
      form.Alike (.exchanged 0 2) (form.place side before after' others' (.keyword clause')) ∧
      clause.Alike (.exchanged 0 2) clause' ∧ clause'.SharesNames first quoted := by
  obtain ⟨front, text, behind, hline, hcut⟩ := h.exists_isClauseCut hon
  obtain _ | hclause := hcut.written
  obtain ⟨front', text', behind', rfl, hcut'⟩ := hclause.exists_isArgumentCut harguments
  -- The word is where the cut finds the text of the argument.
  have hargument := hcut'.argument
  generalize hoffset : front.length + front'.length = offset at hargument
  generalize hcolumn : u.length + 1 = column at hargument
  cases hargument with
  | operand hs =>
      obtain ⟨rfl, hrest⟩ : u = front ++ front' ∧ w ++ v = w ++ (behind' ++ behind) := by
        refine List.append_inj (by simpa using hline) ?_
        rw [List.length_append]
        omega
      obtain rfl : v = behind' ++ behind := List.append_cancel_left hrest
      let literal : List Char := '"' :: (w ++ ['"'])
      have hliteral : literal.length = w.length + 2 := by simp [literal]
      obtain ⟨last, found, hlast, hfound, hput⟩ := hcut'.exchange literal
      have hhead : (front' ++ (literal ++ behind')).head? = (front' ++ (w ++ behind')).head? := by
        obtain ⟨c, front', rfl⟩ := List.exists_cons_of_ne_nil hcut'.nonempty
        rfl
      obtain ⟨after', others', hafter, hothers, -, hplace⟩ := hcut.exchange _ hhead
        fun hside => hcut'.stops _ _ (hcut.stops hside)
      -- It is two characters more, in the argument and in the clause.
      have hcloser : Likeness.exchanged w.length literal.length = .exchanged 0 2 :=
        Likeness.exchanged_eq (by omega)
      have hcloser' : Likeness.exchanged (front' ++ (w ++ behind')).length
          (front' ++ (literal ++ behind')).length = .exchanged 0 2 :=
        Likeness.exchanged_eq (by simp only [List.length_append]; omega)
      rw [hcloser'] at hafter hothers
      rw [List.length_append] at harguments
      let argument : Argument := .operand ⟨front.length + front'.length + 1, w⟩
      let argument' : Argument := .quoted ⟨front.length + front'.length + 1, literal⟩
      let clause' : KeywordClause := ⟨clause.keyword, some (first ++ argument :: last), found⟩
      let quoted : KeywordClause := ⟨clause.keyword, some (first ++ argument' :: last), found⟩
      have halike : clause.Alike (.exchanged 0 2) clause' :=
        hcloser ▸ clause.alike_exchange harguments argument.alike_exchanged hlast hfound
      have hnames : clause'.SharesNames first quoted :=
        .intro rfl hw.unquote_eq.symm rfl rfl
      have hspelt : quoted.IsWritten (front' ++ (literal ++ behind')) front.length :=
        hput argument' (.quoted hw.isLiteral)
      refine ⟨clause', quoted, after', others', ?_,
        alike_place hon (.keyword halike) hafter hothers, halike, hnames⟩
      simpa [literal] using hplace _ (.keyword hspelt)

/-- What alike forms come to, side by side. -/
theorem Grammar.DialogueForm.Alike.on {L : Likeness} {form' : DialogueForm} (h : form.Alike L form')
    (hL : L.KeepsLiterals) (context : Context) (side : Side) :
    List.Forall₂ (Agree (fun found found' : Meaning =>
        found.mapText L.fold = found'.mapText L.fold) (Issue.Alike L))
      ((form.on side).map (Meaning.on side context))
      ((form'.on side).map (Meaning.on side context)) := by
  cases side with
  | before => exact List.rel_map (fun _ _ h => Meaning.before_alike context hL h) h.before
  | after => exact List.rel_map (fun _ _ h => Meaning.after_alike context hL h) h.after

/-- The issues have the same cause. The second one is at the same column as the first one, or `k`
columns further on. -/
structure Issue.IsSetOff (k : Nat) (issue issue' : Issue) : Prop where
  column : ∃ c, issue.column = some c ∧ (issue'.column = some c ∨ issue'.column = some (c + k))
  cause : issue.cause = issue'.cause

theorem Issue.Alike.isSetOff {k : Nat} {issue issue' : Issue}
    (h : issue.Alike (.exchanged 0 k) issue') : issue.IsSetOff k issue' := by
  obtain ⟨⟨c, c', hc, hc', hcolumn⟩, hcause⟩ := h
  refine ⟨⟨c, hc, ?_⟩, by simpa [Likeness.exchanged] using hcause⟩
  rw [hc', Option.some.injEq, Option.some.injEq]
  exact hcolumn.imp_right fun h => by omega

section Placed

variable {context : Context} {k : Nat} {one one' : Clause} {after' others' : List Clause}

/-- A form like this one, and at one place of it another clause that comes to the same. -/
theorem Grammar.DialogueForm.Alike.agree_of_place
    (h : form.Alike (.exchanged 0 k) (form.place side before after' others' one))
    (hone : Meaning.on side context one = Meaning.on side context one') (side' : Side) :
    List.Forall₂ (Agree Eq (Issue.IsSetOff k))
      ((form.on side').map (Meaning.on side' context))
      (((form.place side before after' others' one').on side').map
        (Meaning.on side' context)) := by
  rw [← DialogueForm.map_on_place_congr hone side']
  refine (h.on (Likeness.exchanged_keepsLiterals 0 k) context side').imp ?_
  rintro result result' (hfound | hissue)
  · exact .ok (by simpa [Likeness.exchanged] using hfound)
  · exact .error hissue.isSetOff

theorem Grammar.DialogueForm.Alike.line_eq_of_place
    (h : form.Alike (.exchanged 0 k) (form.place side before after' others' one))
    (hone : Meaning.on side context one = Meaning.on side context one') :
    form.line context = (form.place side before after' others' one').line context := by
  let placed := form.place side before after' others' one
  let placed' := form.place side before after' others' one'
  have hmeanings : placed.meanings context = placed'.meanings context :=
    congrArg₂ (· ++ ·) (DialogueForm.map_on_place_congr hone .before)
      (DialogueForm.map_on_place_congr hone .after)
  calc form.line context = placed.line context := by
        simpa [Likeness.exchanged] using
          DialogueForm.line_alike h (Likeness.exchanged_keepsLiterals 0 k) context
    _ = placed'.line context := by
        simp only [DialogueForm.line_eq_filterMap, hmeanings, placed, placed',
          DialogueForm.trigger_place]

end Placed

end Clauses

/-- A name may stand in quotes. An assignment that takes a word of a fixed set makes the same
statement, or reports the same issue at the same column, if the word is quoted. In a dialogue line,
an argument that is taken by its name may be quoted: the clause is read on the same side, every
clause of the line comes to what it came to, and the same dialogue line is added. Behind the quotes
the issues move by two columns. -/
theorem Scanner.feed_quoted_name (context : Context) {w : List Char} (hw : IsWord w)
    {line line' : SourceLine} (hnumber : line'.number = line.number) :
    (∀ key ∈ IdentityKey.takingToken, ∀ start word link ending : List Char, IsGap start →
      AssignmentKey.isWrittenAs (.identity key) word = true → IsLink link w → IsEnding ending →
      line.text.toList = start ++ (word ++ (link ++ (w ++ ending))) →
      line'.text.toList = start ++ (word ++ (link ++ '"' :: (w ++ '"' :: ending))) →
      ∀ document,
        feed context ⟨document, .scanning⟩ line = feed context ⟨document, .scanning⟩ line') ∧
    ∀ (front behind : List Char) (form : DialogueForm) side before clause after first others,
      line.text.toList = front ++ (w ++ behind) →
      line'.text.toList = front ++ '"' :: (w ++ '"' :: behind) →
      DialogueForm.ofLine line.text.toList = .ok form →
      form.on side = before ++ .keyword clause :: after →
      clause.arguments = some (first ++ .operand ⟨front.length + 1, w⟩ :: others) →
      clause.TakesName side first →
      ∃ form' clause' after', DialogueForm.ofLine line'.text.toList = .ok form' ∧
        form'.on side = before ++ .keyword clause' :: after' ∧
        clause'.role? side = clause.role? side ∧
        (∀ side', List.Forall₂ (Agree Eq (Issue.IsSetOff 2))
          ((form.on side').map (Meaning.on side' context))
          ((form'.on side').map (Meaning.on side' context))) ∧
        ∀ document state,
          feed context ⟨document, state⟩ line =
            ⟨(document.reportAll context line.number (form.issues context)).add line.number
              (.dialogue (form.line context)), .scanning⟩ ∧
          feed context ⟨document, state⟩ line' =
            ⟨(document.reportAll context line.number (form'.issues context)).add line.number
              (.dialogue (form.line context)), .scanning⟩ := by
  refine ⟨?_, ?_⟩
  · intro key hkey start word link ending hstart hword hlink hending hline hline'
    exact feed_quoted_token context hw hnumber hkey hstart hword hlink hending hline hline'
  · intro front behind form side before clause after first others hline hline' hform hon harguments
      hnames
    have hspelt : form.IsSpelt (front ++ (w ++ behind)) :=
      hline ▸ DialogueForm.ofLine_iff_isSpelt.mp hform
    obtain ⟨clause', quoted, after', others', hspelt', hform', hclause, hshares⟩ :=
      hspelt.exists_quoted hw hon harguments
    let quotedForm := form.place side before after' others' (.keyword quoted)
    have hquoted : DialogueForm.ofLine line'.text.toList = .ok quotedForm :=
      DialogueForm.ofLine_iff_isSpelt.mpr (hline' ▸ hspelt')
    have hkeyword : clause.keyword.text = clause'.keyword.text := by
      simpa [Likeness.SameText, Likeness.exchanged] using hclause.keyword.text
    have hcompares := KeywordClause.compares_eq hclause
    -- The two clauses with the argument at this place come to the same.
    have hresult : Meaning.on side context (.keyword clause') =
        Meaning.on side context (.keyword quoted) :=
      Meaning.on_eq_of_sharesNames hshares (hnames.congr hkeyword hcompares)
    refine ⟨quotedForm, quoted, after', hquoted, form.on_place _ _ _ _ _, ?_,
      hform'.agree_of_place hresult, fun document state => ?_⟩
    · rw [← hshares.role?_eq, KeywordClause.role?_congr hkeyword hcompares]
    · refine ⟨feed_of_ofLine hform document state, ?_⟩
      rw [hform'.line_eq_of_place hresult, ← hnumber]
      exact feed_of_ofLine hquoted document state

/-- A race in quotes, and in quotes a skill that is not known, with a clause behind it. -/
theorem Scanner.feed_quoted_name_human :
    let context : Context := { items := .ofList [], skills := {} }
    let bare : SourceLine := ⟨2, "\"hi\" -> skill(cooking) += 1, %number"⟩
    let quoted : SourceLine := ⟨2, "\"hi\" -> skill(\"cooking\") += 1, %number"⟩
    let race : SourceLine := ⟨1, "race human -- one of them"⟩
    let quotedRace : SourceLine := ⟨1, "race \"human\" -- one of them"⟩
    feed context {} race = feed context {} quotedRace ∧
    ∃ form form' : DialogueForm, DialogueForm.ofLine bare.text.toList = .ok form ∧
      DialogueForm.ofLine quoted.text.toList = .ok form' ∧ ∀ document state,
        feed context ⟨document, state⟩ bare =
          ⟨(document.reportAll context 2 (form.issues context)).add 2
            (.dialogue (form.line context)), .scanning⟩ ∧
        feed context ⟨document, state⟩ quoted =
          ⟨(document.reportAll context 2 (form'.issues context)).add 2
            (.dialogue (form.line context)), .scanning⟩ := by
  intro context bare quoted race quotedRace
  have hhuman : IsWord "human".toList := Grammar.isWord_of_wordLexer (by decide)
  have hcooking : IsWord "cooking".toList := Grammar.isWord_of_wordLexer (by decide)
  refine ⟨?_, ?_⟩
  · exact (@feed_quoted_name context _ hhuman race quotedRace rfl).1 .race (by decide) []
      "race".toList [' '] ([' '] ++ '-' :: '-' :: " one of them".toList) Grammar.isGap_nil
      (by decide) (.blank Grammar.isGap_space (by simp)) (.comment Grammar.isGap_space _)
      (by decide +kernel) (by decide +kernel) {}
  · let skill : KeywordClause :=
      ⟨⟨9, "skill".toList⟩, some [.operand ⟨15, "cooking".toList⟩],
        some ⟨⟨24, "+=".toList⟩, ⟨27, "1".toList⟩⟩⟩
    let number : KeywordClause := ⟨⟨30, "%number".toList⟩, none, none⟩
    let form : DialogueForm := ⟨⟨1, "\"hi\"".toList⟩, [], [.keyword skill, .keyword number]⟩
    have hform : DialogueForm.ofLine bare.text.toList = .ok form := by decide +kernel
    obtain ⟨form', clause', after', hform', -, -, -, hfeed⟩ :=
      (@feed_quoted_name context _ hcooking bare quoted rfl).2
        "\"hi\" -> skill(".toList ") += 1, %number".toList form .after [] skill [.keyword number]
        [] [] (by decide +kernel) (by decide +kernel) hform rfl rfl (.skill (by decide) [])
    exact ⟨form, form', hform, hform', hfeed⟩

end NpcScript
