import NpcScript.Proofs.Clause.Inside
import NpcScript.Proofs.Script.Texts

/-!
Lines with a comparison inside the parentheses of a clause. Where the last argument is taken by its
name, the line says the same with the comparison behind the parentheses, whatever stands around the
clause.
-/

namespace NpcScript

open Grammar
open Text (IsLiteral sameLetters)

def IsPlainArgument (text : List Char) : Prop :=
  ∃ argument : Argument, argument.IsWritten text 0 ∧ argument.comparison? = none

def IsClauseText (text : List Char) : Prop :=
  ∃ clause : Clause, clause.IsWritten text 0

/-- The texts of a clause with a comparison as its last argument: `attrib(strength > 10)`. -/
inductive IsInside (keyword : List Char) (others : List (List Char))
    (subject operator operand : List Char) : List Char → Prop
  | intro {gap gap' gap'' arguments : List Char} (hgap : IsGap gap) (hgap' : IsGap gap')
      (hgap'' : IsGap gap'')
      (harguments : IsParenthesised (fun s _ t => s = t) arguments 0
        (others ++ [subject ++ (gap' ++ (operator ++ (gap'' ++ operand)))])) :
      IsInside keyword others subject operator operand (keyword ++ (gap ++ arguments))

/-- The texts of the clause with the comparison behind the parentheses: `attrib(strength) > 10`. -/
inductive IsOutside (keyword : List Char) (others : List (List Char))
    (subject operator operand : List Char) : List Char → Prop
  | intro {gap gap' gap'' arguments : List Char} (hgap : IsGap gap) (hgap' : IsGap gap')
      (hgap'' : IsGap gap'')
      (harguments : IsParenthesised (fun s _ t => s = t) arguments 0 (others ++ [subject])) :
      IsOutside keyword others subject operator operand
        (keyword ++ (gap ++ arguments ++ (gap' ++ (operator ++ (gap'' ++ operand)))))

/-- The keywords that take the name behind so many other arguments on a side of the arrow. The
keyword `item` does so in a condition only, and behind the arrow the operator tells that it is one.
-/
inductive NamesSubject (side : Side) (operator : List Char) : List Char → Nat → Prop
  | attrib {keyword : List Char} (h : sameLetters keyword "attrib".toList = true) (count : Nat) :
      NamesSubject side operator keyword count
  | skill {keyword : List Char} (h : sameLetters keyword "skill".toList = true) (count : Nat) :
      NamesSubject side operator keyword count
  | item {keyword : List Char} (h : sameLetters keyword "item".toList = true) {count : Nat}
      (hcount : 1 ≤ count) (hside : side = .before ∨ isCompareOnly operator = true) :
      NamesSubject side operator keyword count

namespace NamesSubject

variable {side : Side} {operator keyword : List Char} {count : Nat}

theorem isKeyword (h : NamesSubject side operator keyword count) : IsKeyword keyword := by
  cases h with
  | attrib h => exact .plain (.of_sameLetters (.intro rfl (List.all_eq_true.mp rfl)) h)
  | skill h => exact .plain (.of_sameLetters (.intro rfl (List.all_eq_true.mp rfl)) h)
  | item h => exact .plain (.of_sameLetters (.intro rfl (List.all_eq_true.mp rfl)) h)

/-- A clause with the keyword, the operator and one argument more has a role on the side that takes
the last argument by its name. -/
theorem exists_role (h : NamesSubject side operator keyword count) {clause : KeywordClause}
    (hkeyword : clause.keyword.text = keyword)
    (hcompares : clause.compares = isCompareOnly operator)
    (hcount : clause.argumentList.length = count + 1) :
    ∃ role, clause.role? side = some role ∧ role.NamesLast clause.argumentList.length := by
  subst hkeyword
  have hrole (keyword : ConditionKeyword) (otherKeyword : ConsequenceKeyword) {name : String}
      (h : sameLetters clause.keyword.text name.toList = true)
      (hcondition : Vocabulary.ofWord? ConditionKeyword name.toList = some keyword)
      (hconsequence : Vocabulary.ofWord? ConsequenceKeyword name.toList = some otherKeyword) :=
    KeywordClause.role?_of_both
      ((Vocabulary.ofWord?_eq (Text.sameLetters_iff.mp h)).trans hcondition)
      ((Vocabulary.ofWord?_eq (Text.sameLetters_iff.mp h)).trans hconsequence) side
  cases h with
  | attrib h =>
      rw [hrole .attrib .attrib h rfl rfl]
      split
      · exact ⟨.condition .attrib, rfl, True.intro⟩
      · exact ⟨.consequence .attrib, rfl, True.intro⟩
  | skill h =>
      rw [hrole .skill .skill h rfl rfl]
      split
      · exact ⟨.condition .skill, rfl, True.intro⟩
      · exact ⟨.consequence .skill, rfl, True.intro⟩
  | item h hle hside =>
      rw [← hcompares] at hside
      rw [hrole .item .item h rfl rfl, if_pos hside]
      refine ⟨.condition .item, rfl, ?_⟩
      show 2 ≤ clause.argumentList.length
      omega

end NamesSubject

/-! ### The clauses of the texts -/

def Grammar.Argument.IsWrittenAlike (text : List Char) (argument : Argument) : Prop :=
  ∀ offset, ∃ found : Argument, found.IsWritten text offset ∧ argument.Alike .anywhere found

theorem Grammar.Argument.IsWritten.isWrittenAlike {text : List Char} {argument : Argument}
    (h : argument.IsWritten text 0) : argument.IsWrittenAlike text := by
  intro offset
  have hshifted := h.shift offset
  rw [Nat.zero_add] at hshifted
  have halike := argument.alike_shift 0 offset
  rw [Argument.shift_zero] at halike
  exact ⟨argument.shift offset, hshifted, halike⟩

theorem exists_plainArguments {texts : List (List Char)} (h : ∀ t ∈ texts, IsPlainArgument t) :
    ∃ arguments, List.Forall₂ Argument.IsWrittenAlike texts arguments ∧
      ∀ argument ∈ arguments, argument.comparison? = none := by
  induction texts with
  | nil => exact ⟨[], .nil, by simp⟩
  | cons t texts ih =>
      obtain ⟨argument, hwritten, hplain⟩ := h t (by simp)
      obtain ⟨arguments, hall, hnone⟩ := ih fun t ht => h t (by simp [ht])
      refine ⟨argument :: arguments, .cons hwritten.isWrittenAlike hall, ?_⟩
      simpa [hplain] using hnone

section Texts

variable {keyword subject operator operand : List Char} {others : List (List Char)}
  {arguments : List Argument} (hkeyword : IsKeyword keyword) (hsubject : IsWord subject)
  (hoperator : IsOperator operator) (hoperand : Operand operand)
  (hothers : List.Forall₂ Argument.IsWrittenAlike others arguments)

include hkeyword hsubject hoperator hoperand hothers

theorem IsInside.exists_isWritten {t : List Char}
    (h : IsInside keyword others subject operator operand t) :
    ∃ clause : KeywordClause, clause.IsWritten t 0 ∧ KeywordClause.Alike .anywhere
      ⟨⟨1, keyword⟩, some (arguments ++ [.comparison ⟨1, subject⟩ ⟨⟨1, operator⟩, ⟨1, operand⟩⟩]),
        none⟩ clause := by
  obtain ⟨hgap, hgap', hgap'', harguments⟩ := h
  rename_i gap gap' gap'' inside
  have hlast : Argument.IsWrittenAlike (subject ++ (gap' ++ (operator ++ (gap'' ++ operand))))
      (.comparison ⟨1, subject⟩ ⟨⟨1, operator⟩, ⟨1, operand⟩⟩) := by
    intro offset
    refine ⟨_, .comparison hsubject hgap' (.intro hoperator hgap'' hoperand), ?_⟩
    exact .comparison ⟨True.intro, rfl⟩ ⟨⟨True.intro, rfl⟩, ⟨True.intro, rfl⟩⟩
  obtain ⟨found, hfound, halike⟩ := harguments.exists_of_texts (fun _ _ h => h)
    (List.rel_append hothers (.cons hlast .nil)) (0 + keyword.length + gap.length)
  have hwritten := KeywordClause.IsWritten.intro hkeyword (.some hgap hfound) .none
  rw [List.append_nil] at hwritten
  exact ⟨_, hwritten, ⟨True.intro, rfl⟩, .some halike, .none⟩

theorem IsOutside.exists_isWritten {t : List Char}
    (h : IsOutside keyword others subject operator operand t) :
    ∃ clause : KeywordClause, clause.IsWritten t 0 ∧ KeywordClause.Alike .anywhere
      ⟨⟨1, keyword⟩, some (arguments ++ [.operand ⟨1, subject⟩]),
        some ⟨⟨1, operator⟩, ⟨1, operand⟩⟩⟩ clause := by
  obtain ⟨hgap, hgap', hgap'', harguments⟩ := h
  rename_i gap gap' gap'' inside
  have hlast : Argument.IsWrittenAlike subject (.operand ⟨1, subject⟩) := by
    intro offset
    exact ⟨_, .operand hsubject.operand, .operand ⟨True.intro, rfl⟩⟩
  obtain ⟨found, hfound, halike⟩ := harguments.exists_of_texts (fun _ _ h => h)
    (List.rel_append hothers (.cons hlast .nil)) (0 + keyword.length + gap.length)
  have hwritten := KeywordClause.IsWritten.intro hkeyword (.some hgap hfound)
    (.some hgap' (.intro hoperator hgap'' hoperand))
  refine ⟨_, hwritten, ⟨True.intro, rfl⟩, .some halike, ?_⟩
  exact .some ⟨⟨True.intro, rfl⟩, ⟨True.intro, rfl⟩⟩

/-- Where the keyword takes the last argument by its name, both texts say the same. -/
theorem exists_says_inside_outside (context : Context) {side : Side}
    (hnone : ∀ argument ∈ arguments, argument.comparison? = none)
    (hnames : NamesSubject side operator keyword others.length) {inside outside : List Char}
    (hinside : IsInside keyword others subject operator operand inside)
    (houtside : IsOutside keyword others subject operator operand outside) :
    ∃ result,
      Meaning.Says context side inside result ∧ Meaning.Says context side outside result := by
  obtain ⟨clause, hclause, halike⟩ :=
    hinside.exists_isWritten hkeyword hsubject hoperator hoperand hothers
  obtain ⟨clause', hclause', halike'⟩ :=
    houtside.exists_isWritten hkeyword hsubject hoperator hoperand hothers
  let found : Comparison := ⟨⟨1, operator⟩, ⟨1, operand⟩⟩
  let moved : KeywordClause :=
    ⟨⟨1, keyword⟩, some (arguments ++ [.comparison ⟨1, subject⟩ found]), none⟩
  let moved' : KeywordClause :=
    ⟨⟨1, keyword⟩, some (arguments ++ [.operand ⟨1, subject⟩]), some found⟩
  have hmoves : moved.MovesOut moved' := .intro hnone
  have hcount : moved.argumentList.length = others.length + 1 := by
    simp [moved, KeywordClause.argumentList, hothers.length_eq]
  obtain ⟨role, hrole, hlast⟩ :
      ∃ role, moved.role? side = some role ∧ role.NamesLast moved.argumentList.length :=
    hnames.exists_role rfl hmoves.compares_eq hcount
  refine ⟨Meaning.outcome side context (.keyword moved), ?_, ?_⟩
  · exact ⟨_, .keyword hclause, (Meaning.outcome_eq_of_alike (.keyword halike)).symm⟩
  · refine ⟨_, .keyword hclause', ?_⟩
    rw [← Meaning.outcome_eq_of_alike (.keyword halike'), Meaning.outcome, Meaning.outcome,
      Meaning.on_eq_of_movesOut hmoves hrole hlast]

end Texts

/-! ### Lines with either text -/

theorem exists_says (context : Context) (side : Side) {texts : List (List Char)}
    (h : ∀ t ∈ texts, IsClauseText t) :
    ∃ results, List.Forall₂ (Meaning.Says context side) texts results := by
  induction texts with
  | nil => exact ⟨[], .nil⟩
  | cons t texts ih =>
      obtain ⟨clause, hclause⟩ := h t (by simp)
      obtain ⟨results, hall⟩ := ih fun t ht => h t (by simp [ht])
      exact ⟨_ :: results, .cons ⟨clause, hclause, rfl⟩ hall⟩

section Lines

variable (context : Context) {trigger : List Char} (htrigger : IsLiteral trigger) {side : Side}
  {keyword subject operator operand : List Char} {others : List (List Char)}
  (hnames : NamesSubject side operator keyword others.length)
  (hothers : ∀ t ∈ others, IsPlainArgument t) (hsubject : IsWord subject)
  (hoperator : IsOperator operator) (hoperand : operandLexer operand = some [])
  {inside outside : List Char} (hinside : IsInside keyword others subject operator operand inside)
  (houtside : IsOutside keyword others subject operator operand outside)
  {texts : Side → List (List Char)} (htexts : ∀ side, ∀ t ∈ texts side, IsClauseText t)
  {first last : List (List Char)} (hfirst : ∀ t ∈ first, IsClauseText t)
  (hlast : ∀ t ∈ last, IsClauseText t)

include hnames hothers hsubject hoperator hoperand hinside houtside htexts hfirst hlast

/-- Among other clauses either text can stand for the same result. -/
theorem exists_says_update : ∃ results : Side → List (Except Cause Meaning),
    ∀ t, t = inside ∨ t = outside → ∀ other,
      List.Forall₂ (Meaning.Says context other)
        (Function.update texts side (first ++ t :: last) other) (results other) := by
  obtain ⟨arguments, harguments, hnone⟩ := exists_plainArguments hothers
  obtain ⟨result, htells, htells'⟩ := exists_says_inside_outside hnames.isKeyword hsubject hoperator
    (Operand.iff_operandLexer.mpr hoperand) harguments context hnone hnames hinside houtside
  choose results hresults using fun side => exists_says context side (htexts side)
  obtain ⟨before, hbefore⟩ := exists_says context side hfirst
  obtain ⟨after, hafter⟩ := exists_says context side hlast
  refine ⟨Function.update results side (before ++ result :: after), fun t ht other => ?_⟩
  have hresult : Meaning.Says context side t result := by
    rcases ht with rfl | rfl
    · exact htells
    · exact htells'
  by_cases hother : other = side
  · subst hother
    simp only [Function.update_self]
    exact List.rel_append hbefore (.cons hresult hafter)
  · simp only [Function.update_of_ne hother]
    exact hresults other

include htrigger

/-- What the documents then hold: the same dialogue line more in either of them. -/
theorem Scanner.gains_inside_eq_outside {line line' : SourceLine}
    (hline : IsLineOfTexts trigger (Function.update texts side (first ++ inside :: last))
      line.text.toList)
    (hline' : IsLineOfTexts trigger (Function.update texts side (first ++ outside :: last))
      line'.text.toList) :
    ∃ found issues issues', issues.map Issue.cause = issues'.map Issue.cause ∧
      ∀ (document : Document) state,
        let next := (feed context ⟨document, state⟩ line).document
        let next' := (feed context ⟨document, state⟩ line').document
        document.Gains context line.number ⟨some (.dialogue found), issues⟩ next ∧
        document.Gains context line'.number ⟨some (.dialogue found), issues'⟩ next' ∧
        next.entries = document.entries.push ⟨line.number, .dialogue found⟩ ∧
        next'.entries = document.entries.push ⟨line'.number, .dialogue found⟩ := by
  obtain ⟨results, htells⟩ := exists_says_update context hnames hothers hsubject hoperator hoperand
    hinside houtside htexts hfirst hlast
  obtain ⟨issues, hissues, hfeed⟩ := feed_of_says htrigger (htells inside (.inl rfl)) hline
  obtain ⟨issues', hissues', hfeed'⟩ := feed_of_says htrigger (htells outside (.inr rfl)) hline'
  let found : DialogueLine := .ofResults trigger (results .before ++ results .after)
  refine ⟨found, issues, issues', hissues.trans hissues'.symm, fun document state => ?_⟩
  rw [hfeed, hfeed']
  have hgains := document.gains_dialogue context line.number found issues
  have hgains' := document.gains_dialogue context line'.number found issues'
  exact ⟨hgains, hgains', hgains.entries_eq_push, hgains'.entries_eq_push⟩

end Lines

/-- A comparison inside the parentheses of a clause says the same as one behind them, for every
name, operator and operand, on either side of the arrow and among any other clauses: the two lines
are added alike, and what is reported for them has the same causes. -/
theorem Scanner.feed_inside_eq_outside (context : Context) {trigger : List Char}
    (htrigger : IsLiteral trigger) {side : Side} {keyword subject operator operand : List Char}
    {others : List (List Char)} (hnames : NamesSubject side operator keyword others.length)
    (hothers : ∀ t ∈ others, IsPlainArgument t) (hsubject : IsWord subject)
    (hoperator : IsOperator operator) (hoperand : operandLexer operand = some [])
    {inside outside : List Char} (hinside : IsInside keyword others subject operator operand inside)
    (houtside : IsOutside keyword others subject operator operand outside)
    {texts : Side → List (List Char)} (htexts : ∀ side, ∀ t ∈ texts side, IsClauseText t)
    {first last : List (List Char)} (hfirst : ∀ t ∈ first, IsClauseText t)
    (hlast : ∀ t ∈ last, IsClauseText t) {line line' : SourceLine}
    (hline : IsLineOfTexts trigger (Function.update texts side (first ++ inside :: last))
      line.text.toList)
    (hline' : IsLineOfTexts trigger (Function.update texts side (first ++ outside :: last))
      line'.text.toList) :
    ∃ found issues issues', issues.map Issue.cause = issues'.map Issue.cause ∧
      ∀ document state,
        feed context ⟨document, state⟩ line =
          ⟨(document.reportAll context line.number issues).add line.number (.dialogue found),
            .scanning⟩ ∧
        feed context ⟨document, state⟩ line' =
          ⟨(document.reportAll context line'.number issues').add line'.number (.dialogue found),
            .scanning⟩ := by
  obtain ⟨results, htells⟩ := exists_says_update context hnames hothers hsubject hoperator hoperand
    hinside houtside htexts hfirst hlast
  obtain ⟨issues, hissues, hfeed⟩ := feed_of_says htrigger (htells inside (.inl rfl)) hline
  obtain ⟨issues', hissues', hfeed'⟩ := feed_of_says htrigger (htells outside (.inr rfl)) hline'
  exact ⟨_, issues, issues', hissues.trans hissues'.symm,
    fun document state => ⟨hfeed document state, hfeed' document state⟩⟩

/-- A place where an item is looked for, inside the parentheses and before them. -/
theorem Scanner.feed_inside_eq_outside_item :
    let context : Context := { items := .ofList [⟨23, "hammer"⟩], skills := {} }
    let line : SourceLine := ⟨1, "\"hi\", isadmin -> item(23, all >= 2), \"Hi\""⟩
    let line' : SourceLine := ⟨2, "\"hi\", isadmin -> item(23, all) >= 2 \"Hi\""⟩
    ∃ found issues issues', issues.map Issue.cause = issues'.map Issue.cause ∧
      ∀ document state,
        feed context ⟨document, state⟩ line =
          ⟨(document.reportAll context 1 issues).add 1 (.dialogue found), .scanning⟩ ∧
        feed context ⟨document, state⟩ line' =
          ⟨(document.reportAll context 2 issues').add 2 (.dialogue found), .scanning⟩ := by
  intro context line line'
  let trigger : List Char := "\"hi\"".toList
  let answer : List Char := "\"Hi\"".toList
  let isAdmin : List Char := "isadmin".toList
  let texts : Side → List (List Char) := Function.update (fun _ => []) .before [isAdmin]
  have htrigger : IsLiteral trigger := ⟨_, Text.denotes_quote ['h', 'i']⟩
  have hanswer : IsClauseText answer := ⟨_, .answer ⟨_, Text.denotes_quote ['H', 'i']⟩⟩
  have hkeyword : IsKeyword isAdmin := .plain (.intro rfl (List.all_eq_true.mp rfl))
  have hadmin : KeywordClause.IsWritten isAdmin 0 ⟨⟨1, isAdmin⟩, none, none⟩ :=
    .intro hkeyword .none .none
  have htexts : ∀ side, ∀ t ∈ texts side, IsClauseText t := by
    rintro (_ | _) t ht
    · rw [List.mem_singleton.mp ht]
      exact ⟨_, .keyword hadmin⟩
    · cases ht
  have hid : IsPlainArgument "23".toList :=
    ⟨_, .operand (Operand.iff_operandLexer.mpr (by decide +kernel)), rfl⟩
  have hnames : NamesSubject .after ">=".toList "item".toList ["23".toList].length :=
    .item (by decide +kernel) (by decide) (.inr (by decide))
  have hsubject : IsWord "all".toList := .intro rfl (List.all_eq_true.mp rfl)
  have hbefore : IsChain (IsMark ',') (fun s _ t => s = t)
      ([] ++ ',' :: [' '] ++ (isAdmin ++ [])) 0 [isAdmin] :=
    .cons (.intro isGap_nil isGap_space) rfl .nil
  -- Both texts name the item and the place in one list.
  let list (last : List Char) : List Char :=
    '(' :: ([] ++ ("23".toList ++ ([] ++ ',' :: [' '] ++ (last ++ [])) ++ ([] ++ [')'])))
  have hlist (last : List Char) :
      IsParenthesised (fun s _ t => s = t) (list last) 0 ["23".toList, last] :=
    .intro isGap_nil (.cons rfl (.cons (.intro isGap_nil isGap_space) rfl .nil)) isGap_nil
  let comparison : List Char := ">=".toList ++ ([' '] ++ "2".toList)
  have hinside : IsInside "item".toList ["23".toList] "all".toList ">=".toList "2".toList
      ("item".toList ++ ([] ++ list ("all".toList ++ ([' '] ++ comparison)))) :=
    .intro isGap_nil isGap_space isGap_space (hlist _)
  have houtside : IsOutside "item".toList ["23".toList] "all".toList ">=".toList "2".toList
      ("item".toList ++ ([] ++ list "all".toList ++ ([' '] ++ comparison))) :=
    .intro isGap_nil isGap_space isGap_space (hlist _)
  have hline (text : List Char) {sep : List Char} (hsep : IsBreak sep) {source : SourceLine}
      (h : source.text.toList =
        [] ++ (trigger ++ ([] ++ ',' :: [' '] ++ (isAdmin ++ []) ++ ([' '] ++ '-' :: '>' ::
          ([' '] ++ (text ++ (sep ++ (answer ++ [])) ++ [])))))) :
      IsLineOfTexts trigger (Function.update texts .after ([] ++ text :: [answer]))
        source.text.toList := by
    rw [h]
    exact .intro isGap_nil hbefore isGap_space isGap_space
      (.cons rfl (.cons hsep rfl .nil)) (.blank isGap_nil)
  have hfirst : IsLineOfTexts trigger _ line.text.toList :=
    hline ("item".toList ++ ([] ++ list ("all".toList ++ ([' '] ++ comparison))))
      (.comma (.intro isGap_nil isGap_space)) (by decide +kernel)
  have hsecond : IsLineOfTexts trigger _ line'.text.toList :=
    hline ("item".toList ++ ([] ++ list "all".toList ++ ([' '] ++ comparison)))
      (.blank isGap_space (by simp)) (by decide +kernel)
  exact feed_inside_eq_outside context htrigger hnames (by simpa using hid) hsubject
    ⟨">=", by decide, rfl⟩ (by decide +kernel) hinside houtside htexts (by simp)
    (by simpa using hanswer) hfirst hsecond

end NpcScript
