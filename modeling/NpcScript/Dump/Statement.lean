import NpcScript.Npc.Statement
import NpcScript.Ron.Value

/-!
# Statements as data

Every statement as a RON value: alternatives by their names, records by the names of their fields.
-/

namespace NpcScript

open Ron (Value)

def Vocabulary.toRon {α : Type} [Vocabulary α] (a : α) : Value :=
  .tag (name a)

def Ron.Value.ofOption {α : Type} (toRon : α → Value) : Option α → Value
  | none => .absent
  | some a => .present (toRon a)

def Item.toRon (item : Item) : Value :=
  .record [("id", .integer item.id), ("name", .text item.name)]

def Position.toRon (position : Position) : Value :=
  .record [("x", .integer position.x), ("y", .integer position.y), ("z", .integer position.z)]

def Color.toRon (color : Color) : Value :=
  .record
    [("red", .integer color.red), ("green", .integer color.green), ("blue", .integer color.blue)]

def LocalizedText.toRon (text : LocalizedText) : Value :=
  .record [("german", .text text.german), ("english", .text text.english)]

def Quantity.toRon : Quantity → Value
  | literal value => .tagged "Literal" (.integer value)
  | saidNumber => .tag "SaidNumber"
  | expression text => .tagged "Expression" (.text text)

namespace Condition

def comparisonFields (op : CompareOperator) (value : Quantity) : List (String × Value) :=
  [("op", Vocabulary.toRon op), ("value", value.toRon)]

def toRon : Condition → Value
  | isAdmin => .tag "IsAdmin"
  | attrib stat op value =>
    .taggedRecord "Attribute" (("attribute", Vocabulary.toRon stat) :: comparisonFields op value)
  | chance percent => .tagged "Chance" (.integer percent)
  | item found location op value =>
    .taggedRecord "Item"
      (("item", found.toRon) :: ("location", Vocabulary.toRon location) ::
        comparisonFields op value)
  | magicType magic => .tagged "MagicType" (Vocabulary.toRon magic)
  | money op value => .taggedRecord "Money" (comparisonFields op value)
  | number op value => .taggedRecord "Number" (comparisonFields op value)
  | questStatus quest op value =>
    .taggedRecord "QuestStatus" (("quest", .integer quest) :: comparisonFields op value)
  | race people negated =>
    .taggedRecord "Race" [("race", Vocabulary.toRon people), ("negated", .boolean negated)]
  | rank op value => .taggedRecord "Rank" (comparisonFields op value)
  | sex gender negated =>
    .taggedRecord "Sex" [("sex", Vocabulary.toRon gender), ("negated", .boolean negated)]
  | skill name op value =>
    .taggedRecord "Skill" (("skill", .text name) :: comparisonFields op value)
  | state op value => .taggedRecord "State" (comparisonFields op value)
  | talkMode mode => .tagged "TalkMode" (Vocabulary.toRon mode)
  | talkState stage => .tagged "TalkState" (Vocabulary.toRon stage)
  | town faction negated =>
    .taggedRecord "Town" [("town", Vocabulary.toRon faction), ("negated", .boolean negated)]
  | locale reader => .tagged "Locale" (Vocabulary.toRon reader)
  | language spoken => .tagged "Language" (Vocabulary.toRon spoken)

end Condition

namespace Consequence

def calculationFields (op : CalculationOperator) (value : Quantity) : List (String × Value) :=
  [("op", Vocabulary.toRon op), ("value", value.toRon)]

def toRon : Consequence → Value
  | arena task => .tagged "Arena" (Vocabulary.toRon task)
  | attrib stat op value =>
    .taggedRecord "Attribute" (("attribute", Vocabulary.toRon stat) :: calculationFields op value)
  | deleteItem found amount =>
    .taggedRecord "DeleteItem" [("item", found.toRon), ("amount", amount.toRon)]
  | gemCraft => .tag "GemCraft"
  | inform text => .tagged "Inform" (.text text)
  | introduce => .tag "Introduce"
  | item found amount quality =>
    .taggedRecord "Item"
      [("item", found.toRon), ("amount", amount.toRon),
       ("quality", .ofOption (fun n : Nat => .integer n) quality)]
  | money op value => .taggedRecord "Money" (calculationFields op value)
  | questStatus quest op value =>
    .taggedRecord "QuestStatus" (("quest", .integer quest) :: calculationFields op value)
  | rankPoints op value => .taggedRecord "RankPoints" (calculationFields op value)
  | repair => .tag "Repair"
  | rune runeClass number =>
    .taggedRecord "Rune" [("class", .integer runeClass), ("number", .integer number)]
  | skill name op value =>
    .taggedRecord "Skill" (("skill", .text name) :: calculationFields op value)
  | state op value => .taggedRecord "State" (calculationFields op value)
  | town faction => .tagged "Town" (Vocabulary.toRon faction)
  | trade => .tag "Trade"
  | treasure level => .tagged "Treasure" (.integer level)
  | warp target => .tagged "Warp" target.toRon
  | talkState stage => .tagged "TalkState" (Vocabulary.toRon stage)
  | answer text => .tagged "Answer" (.text text)

end Consequence

def DialogueLine.toRon (line : DialogueLine) : Value :=
  .record
    [("trigger", .text line.trigger),
     ("conditions", .list (line.conditions.map Condition.toRon)),
     ("consequences", .list (line.consequences.map Consequence.toRon))]

def Identity.toRon (fact : Identity) : Value :=
  let plain (content : Value) : Value := .tagged fact.kind.label content
  let localized (locale : Locale) (text : String) : Value :=
    .taggedRecord fact.kind.label [("locale", Vocabulary.toRon locale), ("text", .text text)]
  match fact with
  | name text | author text | job text => plain (.text text)
  | sex gender => plain (Vocabulary.toRon gender)
  | race people => plain (Vocabulary.toRon people)
  | direction facing => plain (Vocabulary.toRon facing)
  | position place => plain place.toRon
  | affiliation town => plain (Vocabulary.toRon town)
  | defaultLanguage spoken | language spoken => plain (Vocabulary.toRon spoken)
  | lookAt locale text | useMessage locale text | wrongLanguage locale text =>
    localized locale text
  | autoIntroduce on => plain (.boolean on)

def Appearance.toRon : Appearance → Value
  | hairId id => .tagged "HairId" (.integer id)
  | beardId id => .tagged "BeardId" (.integer id)
  | skinColor color => .tagged "SkinColor" color.toRon
  | hairColor color => .tagged "HairColor" color.toRon

def TradedItem.toRon (traded : TradedItem) : Value :=
  .record
    [("mode", Vocabulary.toRon traded.mode),
     ("item", traded.item.toRon),
     ("german_name", .ofOption .text traded.germanName),
     ("english_name", .ofOption .text traded.englishName),
     ("price", .ofOption (fun n : Nat => .integer n) traded.price),
     ("stack_size", .ofOption (fun n : Nat => .integer n) traded.stackSize),
     ("quality", .ofOption (fun n : Nat => .integer n) traded.quality),
     ("data", .list (traded.data.map fun (key, value) => .tuple [.text key, .text value]))]

def Trade.toRon : Trade → Value
  | simple mode items =>
    .taggedRecord "Simple"
      [("mode", Vocabulary.toRon mode), ("items", .list (items.map Item.toRon))]
  | complex item => .tagged "Complex" item.toRon
  | message kind text =>
    .taggedRecord "Message" [("kind", Vocabulary.toRon kind), ("text", text.toRon)]

def Guard.toRon : Guard → Value
  | range north south west east =>
    .taggedRecord "Range"
      [("north", .integer north), ("south", .integer south), ("west", .integer west),
       ("east", .integer east)]
  | warpTarget target => .tagged "WarpTarget" target.toRon
  | text kind both =>
    .taggedRecord "Text" [("kind", Vocabulary.toRon kind), ("text", both.toRon)]

def Statement.toRon : Statement → Value
  | identity fact => .tagged "Identity" fact.toRon
  | appearance fact => .tagged "Appearance" fact.toRon
  | equipment slot item =>
    .taggedRecord "Equipment"
      [("slot", Vocabulary.toRon slot), ("item", .ofOption Item.toRon item)]
  | trade fact => .tagged "Trade" fact.toRon
  | guard fact => .tagged "Guard" fact.toRon
  | cycleText text => .tagged "CycleText" text.toRon
  | dialogue line => .tagged "Dialogue" line.toRon
  | comment text => .tagged "Comment" (.text text)
  | emptyLine => .tag "EmptyLine"

end NpcScript
