import NpcScript.Proofs.Checked
import NpcScript.Proofs.Likeness.Placed
import NpcScript.Proofs.Number
import NpcScript.Proofs.Statement.Assigned

/-!
Trade statements part by part. Whether a value names an item, and on which term a property puts it,
is said here of the value alone; the readers find just that. Terms that are set one after another
come to the last one of each kind and to all data in their order, so terms of different kinds may
change places.
-/

namespace NpcScript

open Text
open Grammar (Assignment Value Lexeme)

/-! ### Results without their issues -/

section Results

variable {α β ε : Type}

theorem Except.toOption_bind (result : Except ε α) (next : α → Except ε β) :
    (result >>= next).toOption = result.toOption.bind fun a => (next a).toOption := by
  cases result <;> rfl

theorem Except.toOption_map (f : α → β) (result : Except ε α) :
    (f <$> result).toOption = result.toOption.map f := by
  cases result <;> rfl

theorem Agree.toOption_eq {ε' : Type} {bad : ε → ε' → Prop} {result : Except ε α}
    {result' : Except ε' α} (h : Agree Eq bad result result') :
    result.toOption = result'.toOption := by
  cases h with
  | ok h => exact congrArg some h
  | error h => rfl

theorem exists_map_eq_map_some {found? : α → Option β} {as : List α}
    (h : ∀ a ∈ as, found? a ≠ none) : ∃ bs : List β, as.map found? = bs.map some := by
  induction as with
  | nil => exact ⟨[], rfl⟩
  | cons a others ih =>
      obtain ⟨ha, hothers⟩ := List.forall_mem_cons.mp h
      obtain ⟨b, hb⟩ := Option.ne_none_iff_exists'.mp ha
      obtain ⟨bs, hbs⟩ := ih hothers
      exact ⟨b :: bs, by rw [List.map_cons, List.map_cons, hb, hbs]⟩

end Results

/-! ### Values -/

namespace Grammar.Value

def natural? (place : NumericPlace) : Value → Option Nat
  | .number source =>
    if place.Takes source.text then some (integerOfDigits source.text).toNat else none
  | _ => none

def namedItem? (context : Context) (value : Value) : Option Item :=
  (value.natural? .itemId).bind context.items.find?

def quotedText? : Value → Option String
  | .quoted source => some (String.ofList (Text.unquote source.text))
  | _ => none

def property? : Value → Option TradeProperty
  | .call _ name _ => Vocabulary.ofToken? TradeProperty name
  | _ => none

theorem toOption_natural {value : Value} (h : value.IsPlaced) (place : NumericPlace) :
    (value.natural place).toOption = value.natural? place := by
  cases value with
  | quoted source | word source | call source name arguments => rfl
  | number source =>
      rw [natural, Except.toOption_map, integer, natural?]
      split
      · rename_i htakes
        rw [NumericPlace.read_of_takes _ h.isNumber htakes]
        rfl
      · rename_i htakes
        obtain ⟨cause, hread⟩ :=
          NumericPlace.exists_read_of_not_takes source.column h.isNumber htakes
        rw [hread]
        rfl

end Grammar.Value

theorem toOption_tradedItemOfValue {value : Value} (h : value.IsPlaced) (context : Context)
    (line keyword : List Char) (expected : String) :
    (tradedItemOfValue context line keyword expected value).toOption =
      value.namedItem? context := by
  cases value with
  | quoted source | word source | call source name arguments => rfl
  | number source =>
      have hid : (NumericPlace.itemId.read source.column source.text).toOption.map Int.toNat =
          (Value.number source).natural? .itemId := by
        rw [← Value.toOption_natural h, Value.natural, Except.toOption_map]
        rfl
      rw [tradedItemOfValue, Context.item, Except.toOption_bind, Value.namedItem?, ← hid]
      cases (NumericPlace.itemId.read source.column source.text).toOption with
      | none => rfl
      | some id =>
          simp only [Option.bind_some, Option.map_some]
          cases context.items.find? id.toNat <;> rfl

theorem each_tradedItemOfValue_iff {values : List Value} (h : ∀ value ∈ values, value.IsPlaced)
    (context : Context) (line keyword : List Char) (expected : String) {items : List Item} :
    Checked.each (tradedItemOfValue context line keyword expected) values = .ok items ↔
      values.map (·.namedItem? context) = items.map some :=
  Checked.each_eq_ok_iff fun value hvalue =>
    toOption_tradedItemOfValue (h value hvalue) context line keyword expected

/-! ### Terms -/

/-- The term that a property states with these arguments: it takes so many of them, and each has to
be of the right kind. -/
def TradeProperty.term? : TradeProperty → List Value → Option TradeTerm
  | .de, [text] => text.quotedText?.map .germanName
  | .us, [text] => text.quotedText?.map .englishName
  | .price, [amount] => (amount.natural? .price).map .price
  | .stack, [count] => (count.natural? .stackSize).map .stackSize
  | .quality, [value] => (value.natural? .quality).map .quality
  | .data, [key, text] => key.quotedText?.bind fun key => text.quotedText?.map (.datum key)
  | _, _ => none

def Grammar.Value.term? : Value → Option TradeTerm
  | .call source name arguments =>
    (property? (.call source name arguments)).bind (·.term? arguments)
  | _ => none

namespace TradeTerm

theorem toOption_ofValue {value : Value} (h : value.IsPlaced) (keyword : List Char)
    (expected : String) : (ofValue keyword expected value).toOption = value.term? := by
  cases value with
  | quoted source | number source | word source => rfl
  | call source name arguments =>
      have hproperty : (Vocabulary.resolve TradeProperty "trade item property" source.column
          name).toOption = (Value.call source name arguments).property? := by
        rw [Vocabulary.resolve, Value.property?]
        cases Vocabulary.ofToken? TradeProperty name <;> rfl
      have hnatural (place : NumericPlace) {argument : Value} (hargument : arguments = [argument]) :
          (argument.natural place).toOption = argument.natural? place :=
        Value.toOption_natural (h.argument argument (by simp [hargument])) place
      unfold ofValue
      rw [Except.toOption_bind, hproperty, Value.term?]
      refine congrArg (Option.bind _) (funext fun property => ?_)
      cases property with
      | de | us =>
          obtain _ | ⟨text, _ | _⟩ := arguments
          · rfl
          · cases text <;> rfl
          · rfl
      | price | stack | quality =>
          obtain _ | ⟨number, _ | _⟩ := arguments
          · rfl
          · rw [TradeProperty.term?, ← hnatural _ rfl]
            simp only [onlyArgument]
            exact Except.toOption_map _ _
          · rfl
      | data =>
          obtain _ | ⟨key, _ | ⟨text, _ | _⟩⟩ := arguments
          · rfl
          · rfl
          · cases key <;> cases text <;> rfl
          · rfl

theorem each_ofValue_iff {values : List Value} (h : ∀ value ∈ values, value.IsPlaced)
    (keyword : List Char) (expected : String) {terms : List TradeTerm} :
    Checked.each (ofValue keyword expected) values = .ok terms ↔
      values.map Value.term? = terms.map some :=
  Checked.each_eq_ok_iff fun value hvalue => toOption_ofValue (h value hvalue) keyword expected

end TradeTerm

/-! ### What is wrong with a value -/

/-- The issue is more than a warning, and it is found where the value is written. -/
structure Issue.Concerns (issue : Issue) (value : Value) : Prop where
  column : ∃ column, issue.column = some column ∧ value.Covers column
  isWarning : issue.cause.isWarning = false

section Wrong

variable {value : Value} (h : value.IsPlaced) {keyword : List Char} {expected : String}
  (hexpected : expected ≠ completeStatement) {issue : Issue}

include h hexpected

/-- What is wrong with a value that is to name an item is told of its first column. -/
theorem concerns_of_tradedItemOfValue {context : Context} {line : List Char}
    (hissue : tradedItemOfValue context line keyword expected value = .error issue) :
    issue.Concerns value ∧ issue.column = some value.column := by
  have hends := tradedItemOfValue_ends context line keyword hexpected value
  refine ⟨⟨?_, (hends.error hissue).isWarning_eq_false⟩, ?_⟩
  · exact h.covers_of_agree (fun _ _ halike =>
      tradedItemOfValue_alike (.refl keyword) expected halike context (.refl _)) hissue
  · cases value with
    | number source => exact Context.column_of_item hissue
    | quoted source | word source | call source name arguments =>
        cases hissue
        rfl

theorem TradeTerm.concerns_of_ofValue (hissue : ofValue keyword expected value = .error issue) :
    issue.Concerns value where
  column := h.covers_of_agree (fun _ _ halike =>
    ofValue_alike (Likeness.within_keepsLiterals _ _) (.refl keyword) expected halike) hissue
  isWarning := ((ofValue_ends keyword hexpected value).error hissue).isWarning_eq_false

end Wrong

/-! ### Terms in a row -/

namespace TradeTerm

def property : TradeTerm → TradeProperty
  | germanName _ => .de
  | englishName _ => .us
  | price _ => .price
  | stackSize _ => .stack
  | quality _ => .quality
  | datum _ _ => .data

def germanName? : TradeTerm → Option String
  | germanName text => some text
  | _ => none

def englishName? : TradeTerm → Option String
  | englishName text => some text
  | _ => none

def price? : TradeTerm → Option Nat
  | price amount => some amount
  | _ => none

def stackSize? : TradeTerm → Option Nat
  | stackSize count => some count
  | _ => none

def quality? : TradeTerm → Option Nat
  | quality value => some value
  | _ => none

def datum? : TradeTerm → Option (String × String)
  | datum key value => some (key, value)
  | _ => none

/-- What a term of one kind says depends on the terms of this kind only. -/
theorem filterMap_eq {α : Type} {found? : TradeTerm → Option α} {kind : TradeProperty}
    (hfound : ∀ term a, found? term = some a → term.property = kind) {terms terms' : List TradeTerm}
    (h : terms.filter (·.property = kind) = terms'.filter (·.property = kind)) :
    terms.filterMap found? = terms'.filterMap found? := by
  have hfilter (terms : List TradeTerm) :
      (terms.filter (·.property = kind)).filterMap found? = terms.filterMap found? := by
    rw [List.filterMap_filter]
    refine List.filterMap_congr fun term _ => ?_
    split
    · rfl
    · rename_i hkind
      refine (Option.eq_none_iff_forall_ne_some.mpr fun a ha => ?_).symm
      exact hkind (by simpa using hfound term a ha)
  rw [← hfilter terms, h, hfilter]

end TradeTerm

/-- The item on the terms of a list: of each kind the last one, and all the data in their order. -/
def TradedItem.onTerms (mode : TradeMode) (item : Item) (terms : List TradeTerm) : TradedItem where
  mode := mode
  item := item
  germanName := (terms.filterMap TradeTerm.germanName?).getLast?
  englishName := (terms.filterMap TradeTerm.englishName?).getLast?
  price := (terms.filterMap TradeTerm.price?).getLast?
  stackSize := (terms.filterMap TradeTerm.stackSize?).getLast?
  quality := (terms.filterMap TradeTerm.quality?).getLast?
  data := terms.filterMap TradeTerm.datum?

/-- Terms of different kinds may change places. -/
theorem TradedItem.onTerms_congr {terms terms' : List TradeTerm}
    (h : ∀ kind, terms.filter (·.property = kind) = terms'.filter (·.property = kind))
    (mode : TradeMode) (item : Item) : onTerms mode item terms = onTerms mode item terms' := by
  have hkind {α : Type} (found? : TradeTerm → Option α) (kind : TradeProperty)
      (hfound : ∀ term a, found? term = some a → term.property = kind) :
      terms.filterMap found? = terms'.filterMap found? := TradeTerm.filterMap_eq hfound (h kind)
  have hgerman := hkind TradeTerm.germanName? .de (by rintro (_ | _ | _ | _ | _ | _) a ⟨⟩; rfl)
  have henglish := hkind TradeTerm.englishName? .us (by rintro (_ | _ | _ | _ | _ | _) a ⟨⟩; rfl)
  have hprice := hkind TradeTerm.price? .price (by rintro (_ | _ | _ | _ | _ | _) a ⟨⟩; rfl)
  have hstack := hkind TradeTerm.stackSize? .stack (by rintro (_ | _ | _ | _ | _ | _) a ⟨⟩; rfl)
  have hquality := hkind TradeTerm.quality? .quality (by rintro (_ | _ | _ | _ | _ | _) a ⟨⟩; rfl)
  have hdata := hkind TradeTerm.datum? .data (by rintro (_ | _ | _ | _ | _ | _) a ⟨⟩; rfl)
  simp only [onTerms, hgerman, henglish, hprice, hstack, hquality, hdata]

/-- One more term replaces the one of its kind. -/
theorem TradedItem.setTerm_onTerms (mode : TradeMode) (item : Item) (terms : List TradeTerm)
    (term : TradeTerm) :
    (onTerms mode item terms).setTerm term = onTerms mode item (terms ++ [term]) := by
  cases term <;>
    simp [onTerms, setTerm, TradeTerm.germanName?, TradeTerm.englishName?, TradeTerm.price?,
      TradeTerm.stackSize?, TradeTerm.quality?, TradeTerm.datum?]

theorem TradedItem.foldl_setTerm (mode : TradeMode) (item : Item) (terms : List TradeTerm) :
    terms.foldl setTerm { mode := mode, item := item } = onTerms mode item terms := by
  induction terms using List.reverseRecOn with
  | nil => rfl
  | append_singleton terms term ih =>
      rw [List.foldl_append, ih, List.foldl_cons, List.foldl_nil, setTerm_onTerms]

/-! ### Properties in another order -/

/-- The second list has the properties of the first, as they are written, in another order; those
of one name keep theirs. -/
structure IsReordered (properties properties' : List Value) : Prop where
  perm : (properties.map Value.text).Perm (properties'.map Value.text)
  inOrder : ∀ kind, (properties.filter (·.property? = some kind)).map Value.text =
    (properties'.filter (·.property? = some kind)).map Value.text

instance (properties properties' : List Value) : Decidable (IsReordered properties properties') :=
  decidable_of_iff ((properties.map Value.text).Perm (properties'.map Value.text) ∧
      ∀ kind ∈ (Vocabulary.all : List TradeProperty),
        (properties.filter (·.property? = some kind)).map Value.text =
          (properties'.filter (·.property? = some kind)).map Value.text)
    ⟨fun h => ⟨h.1, fun kind => h.2 kind (Vocabulary.mem_all kind)⟩,
      fun h => ⟨h.perm, fun kind _ => h.inOrder kind⟩⟩

theorem IsReordered.symm {properties properties' : List Value}
    (h : IsReordered properties properties') : IsReordered properties' properties where
  perm := h.perm.symm
  inOrder := fun kind => (h.inOrder kind).symm

section Reordered

variable {value value' : Value}

theorem Grammar.Value.namedItem?_eq_of_text_eq (h : value.IsPlaced) (h' : value'.IsPlaced)
    (htext : value.text = value'.text) (context : Context) :
    value.namedItem? context = value'.namedItem? context := by
  obtain ⟨k, k', halike⟩ := h.alike_of_text_eq h' htext
  rw [← toOption_tradedItemOfValue h context [] [] "", ← toOption_tradedItemOfValue h' _ [] [] ""]
  exact (tradedItemOfValue_alike (.refl _) "" halike context (.refl _)).toOption_eq

theorem Grammar.Value.term?_eq_of_text_eq (h : value.IsPlaced) (h' : value'.IsPlaced)
    (htext : value.text = value'.text) : value.term? = value'.term? := by
  obtain ⟨k, k', halike⟩ := h.alike_of_text_eq h' htext
  rw [← TradeTerm.toOption_ofValue h [] "", ← TradeTerm.toOption_ofValue h' [] ""]
  have hterms := TradeTerm.ofValue_alike (Likeness.moved_keepsLiterals k k') (.refl []) "" halike
  exact hterms.toOption_eq

theorem TradeProperty.property_of_term? {kind : TradeProperty} {arguments : List Value}
    {term : TradeTerm} (h : kind.term? arguments = some term) : term.property = kind := by
  cases kind with
  | de | us | price | stack | quality =>
      obtain _ | ⟨argument, _ | _⟩ := arguments
      · cases h
      · obtain ⟨found, -, rfl⟩ := Option.map_eq_some_iff.mp h
        rfl
      · cases h
  | data =>
      obtain _ | ⟨key, _ | ⟨text, _ | _⟩⟩ := arguments
      · cases h
      · cases h
      · obtain ⟨key, -, hterm⟩ := Option.bind_eq_some_iff.mp h
        obtain ⟨text, -, rfl⟩ := Option.map_eq_some_iff.mp hterm
        rfl
      · cases h

theorem Grammar.Value.property?_of_term? {term : TradeTerm} (h : value.term? = some term) :
    value.property? = some term.property := by
  cases value with
  | quoted source | number source | word source => cases h
  | call source name arguments =>
      obtain ⟨kind, hkind, hterm⟩ := Option.bind_eq_some_iff.mp h
      rw [hkind, TradeProperty.property_of_term? hterm]

theorem map_some_filter_terms {properties : List Value} {terms : List TradeTerm}
    (h : properties.map Value.term? = terms.map some) (kind : TradeProperty) :
    (properties.filter (·.property? = some kind)).map Value.term? =
      (terms.filter (·.property = kind)).map some := by
  induction properties generalizing terms with
  | nil =>
      cases terms with
      | nil => rfl
      | cons term terms => cases h
  | cons value properties ih =>
      cases terms with
      | nil => cases h
      | cons term terms =>
          obtain ⟨hterm, h⟩ := List.cons.inj h
          have hkind := Value.property?_of_term? hterm
          by_cases hsame : term.property = kind
          · simp [hkind, hsame, hterm, ih h]
          · simp [hkind, hsame, ih h]

/-- Texts decide what is found, so lists with the same texts come to the same. -/
theorem map_term?_eq_of_map_text_eq {values values' : List Value}
    (h : ∀ value ∈ values, value.IsPlaced) (h' : ∀ value ∈ values', value.IsPlaced)
    (htext : values.map Value.text = values'.map Value.text) :
    values.map Value.term? = values'.map Value.term? := by
  induction values generalizing values' with
  | nil =>
      cases values' with
      | nil => rfl
      | cons value values' => cases htext
  | cons value values ih =>
      cases values' with
      | nil => cases htext
      | cons value' values' =>
          obtain ⟨hvalue, hothers⟩ := List.forall_mem_cons.mp h
          obtain ⟨hvalue', hothers'⟩ := List.forall_mem_cons.mp h'
          obtain ⟨hfirst, htext⟩ := List.cons.inj htext
          rw [List.map_cons, List.map_cons, Value.term?_eq_of_text_eq hvalue hvalue' hfirst,
            ih hothers hothers' htext]

/-- Properties in another order state terms just as the others do, and the item on these terms is
the same. -/
theorem IsReordered.exists_terms {properties properties' : List Value}
    (hsame : IsReordered properties properties') (h : ∀ value ∈ properties, value.IsPlaced)
    (h' : ∀ value ∈ properties', value.IsPlaced) {terms : List TradeTerm}
    (hterms : properties.map Value.term? = terms.map some) :
    ∃ terms', properties'.map Value.term? = terms'.map some ∧ ∀ mode item,
      TradedItem.onTerms mode item terms' = TradedItem.onTerms mode item terms := by
  have hsome : ∀ value' ∈ properties', value'.term? ≠ none := by
    intro value' hvalue'
    -- The same text stands among the first properties.
    obtain ⟨value, hvalue, htext⟩ :=
      List.mem_map.mp (hsame.perm.mem_iff.mpr (List.mem_map_of_mem hvalue'))
    rw [← Value.term?_eq_of_text_eq (h value hvalue) (h' value' hvalue') htext]
    have hmem : value.term? ∈ properties.map Value.term? := List.mem_map_of_mem hvalue
    rw [hterms] at hmem
    obtain ⟨term, -, hterm⟩ := List.mem_map.mp hmem
    simp [← hterm]
  obtain ⟨terms', hterms'⟩ := exists_map_eq_map_some hsome
  refine ⟨terms', hterms', fun mode item => TradedItem.onTerms_congr (fun kind => ?_) mode item⟩
  refine List.map_injective_iff.mpr (Option.some_injective _) ?_
  rw [← map_some_filter_terms hterms, ← map_some_filter_terms hterms']
  refine map_term?_eq_of_map_text_eq (fun value hvalue => ?_) (fun value hvalue => ?_)
    (hsame.inOrder kind).symm
  · exact h' value (List.mem_of_mem_filter hvalue)
  · exact h value (List.mem_of_mem_filter hvalue)

end Reordered

end NpcScript
