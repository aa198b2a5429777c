import NpcScript.Vocabulary

/-!
# Keywords

The words that begin a statement or a clause and decide how the rest of it is read.
-/

namespace NpcScript

inductive IdentityKey where
  | name | race | sex | direction | position | author | job | affiliation | defaultLanguage
  | language | lookAtDe | lookAtUs | useMsgDe | useMsgUs | wrongLangDe | wrongLangUs
  | autoIntroduce
  deriving DecidableEq

instance : Vocabulary IdentityKey where
  all :=
    [.name, .race, .sex, .direction, .position, .author, .job, .affiliation, .defaultLanguage,
     .language, .lookAtDe, .lookAtUs, .useMsgDe, .useMsgUs, .wrongLangDe, .wrongLangUs,
     .autoIntroduce]
  word
    | .name => { name := "Name", token := "name" }
    | .race => { name := "Race", token := "race" }
    | .sex => { name := "Sex", token := "sex" }
    | .direction => { name := "Direction", token := "direction" }
    | .position => { name := "Position", token := "position" }
    | .author => { name := "Author", token := "author" }
    | .job => { name := "Job", token := "job" }
    | .affiliation => { name := "Affiliation", token := "affiliation" }
    | .defaultLanguage => { name := "DefaultLanguage", token := "defaultLanguage" }
    | .language => { name := "Language", token := "language" }
    | .lookAtDe => { name := "LookAtDe", token := "lookatDE" }
    | .lookAtUs => { name := "LookAtUs", token := "lookatUS" }
    | .useMsgDe => { name := "UseMsgDe", token := "useMsgDE" }
    | .useMsgUs => { name := "UseMsgUs", token := "useMsgUS" }
    | .wrongLangDe => { name := "WrongLangDe", token := "wrongLangDE" }
    | .wrongLangUs => { name := "WrongLangUs", token := "wrongLangUS" }
    | .autoIntroduce => { name := "AutoIntroduce", token := "autointroduce" }
  mem_all a := by cases a <;> decide

inductive AppearanceKey where
  | hairId | beardId | colorHair | colorSkin
  deriving DecidableEq

instance : Vocabulary AppearanceKey where
  all := [.hairId, .beardId, .colorHair, .colorSkin]
  word
    | .hairId => { name := "HairId", token := "hairID" }
    | .beardId => { name := "BeardId", token := "beardID" }
    | .colorHair => { name := "ColorHair", token := "colorHair" }
    | .colorSkin => { name := "ColorSkin", token := "colorSkin" }
  mem_all a := by cases a <;> decide

inductive TradeKey where
  | sellItems | buyPrimaryItems | buySecondaryItems | sellItem | buyPrimaryItem
  | buySecondaryItem | tradeNotEnoughMoneyMsg | tradeFinishedMsg | tradeFinishedWithoutTradingMsg
  | tradeWrongItemMsg
  deriving DecidableEq

instance : Vocabulary TradeKey where
  all :=
    [.sellItems, .buyPrimaryItems, .buySecondaryItems, .sellItem, .buyPrimaryItem,
     .buySecondaryItem, .tradeNotEnoughMoneyMsg, .tradeFinishedMsg,
     .tradeFinishedWithoutTradingMsg, .tradeWrongItemMsg]
  word
    | .sellItems => { name := "SellItems", token := "sellItems" }
    | .buyPrimaryItems => { name := "BuyPrimaryItems", token := "buyPrimaryItems" }
    | .buySecondaryItems => { name := "BuySecondaryItems", token := "buySecondaryItems" }
    | .sellItem => { name := "SellItem", token := "sellItem" }
    | .buyPrimaryItem => { name := "BuyPrimaryItem", token := "buyPrimaryItem" }
    | .buySecondaryItem => { name := "BuySecondaryItem", token := "buySecondaryItem" }
    | .tradeNotEnoughMoneyMsg =>
      { name := "TradeNotEnoughMoneyMsg", token := "tradeNotEnoughMoneyMsg" }
    | .tradeFinishedMsg => { name := "TradeFinishedMsg", token := "tradeFinishedMsg" }
    | .tradeFinishedWithoutTradingMsg =>
      { name := "TradeFinishedWithoutTradingMsg", token := "tradeFinishedWithoutTradingMsg" }
    | .tradeWrongItemMsg => { name := "TradeWrongItemMsg", token := "tradeWrongItemMsg" }
  mem_all a := by cases a <;> decide

inductive GuardKey where
  | guardRange | guardWarpTarget | warpedMonsterMsg | warpedPlayerMsg | hitPlayerMsg
  deriving DecidableEq

instance : Vocabulary GuardKey where
  all := [.guardRange, .guardWarpTarget, .warpedMonsterMsg, .warpedPlayerMsg, .hitPlayerMsg]
  word
    | .guardRange => { name := "GuardRange", token := "guardRange" }
    | .guardWarpTarget => { name := "GuardWarpTarget", token := "guardWarpTarget" }
    | .warpedMonsterMsg => { name := "WarpedMonsterMsg", token := "warpedMonsterMsg" }
    | .warpedPlayerMsg => { name := "WarpedPlayerMsg", token := "warpedPlayerMsg" }
    | .hitPlayerMsg => { name := "HitPlayerMsg", token := "hitPlayerMsg" }
  mem_all a := by cases a <;> decide

/-- What can be set of a single traded item. -/
inductive TradeProperty where
  | de | us | price | stack | quality | data
  deriving DecidableEq

instance : Vocabulary TradeProperty where
  all := [.de, .us, .price, .stack, .quality, .data]
  word
    | .de => { name := "De", token := "de" }
    | .us => { name := "Us", token := "us" }
    | .price => { name := "Price", token := "price" }
    | .stack => { name := "Stack", token := "stack" }
    | .quality => { name := "Quality", token := "quality" }
    | .data => { name := "Data", token := "data" }
  mem_all a := by cases a <;> decide

inductive ConditionKeyword where
  | isAdmin | attrib | chance | item | magicType | money | number | questStatus | race | rank
  | sex | skill | state | talkMode | talkState | town | english | german | language
  deriving DecidableEq

instance : Vocabulary ConditionKeyword where
  all :=
    [.isAdmin, .attrib, .chance, .item, .magicType, .money, .number, .questStatus, .race, .rank,
     .sex, .skill, .state, .talkMode, .talkState, .town, .english, .german, .language]
  word
    | .isAdmin => { name := "IsAdmin", token := "isadmin" }
    | .attrib => { name := "Attrib", token := "attrib" }
    | .chance => { name := "Chance", token := "chance" }
    | .item => { name := "Item", token := "item" }
    | .magicType => { name := "MagicType", token := "magictype" }
    | .money => { name := "Money", token := "money" }
    | .number => { name := "Number", token := "%number" }
    | .questStatus => { name := "QuestStatus", token := "queststatus" }
    | .race => { name := "Race", token := "race" }
    | .rank => { name := "Rank", token := "rank" }
    | .sex => { name := "Sex", token := "sex" }
    | .skill => { name := "Skill", token := "skill" }
    | .state => { name := "State", token := "state" }
    | .talkMode => { name := "TalkMode", token := "talkmode" }
    | .talkState => { name := "TalkState", token := "talkstate" }
    | .town => { name := "Town", token := "town" }
    | .english => { name := "English", token := "english" }
    | .german => { name := "German", token := "german" }
    | .language => { name := "Language", token := "language" }
  mem_all a := by cases a <;> decide

inductive ConsequenceKeyword where
  | arena | attrib | deleteItem | gemCraft | inform | introduce | item | money | questStatus
  | rankPoints | repair | rune | skill | state | town | trade | treasure | warp | talkState
  deriving DecidableEq

instance : Vocabulary ConsequenceKeyword where
  all :=
    [.arena, .attrib, .deleteItem, .gemCraft, .inform, .introduce, .item, .money, .questStatus,
     .rankPoints, .repair, .rune, .skill, .state, .town, .trade, .treasure, .warp, .talkState]
  word
    | .arena => { name := "Arena", token := "arena" }
    | .attrib => { name := "Attrib", token := "attrib" }
    | .deleteItem => { name := "DeleteItem", token := "deleteitem" }
    | .gemCraft => { name := "GemCraft", token := "gemcraft" }
    | .inform => { name := "Inform", token := "inform" }
    | .introduce => { name := "Introduce", token := "introduce" }
    | .item => { name := "Item", token := "item" }
    | .money => { name := "Money", token := "money" }
    | .questStatus => { name := "QuestStatus", token := "queststatus" }
    | .rankPoints => { name := "RankPoints", token := "rankpoints" }
    | .repair => { name := "Repair", token := "repair" }
    | .rune => { name := "Rune", token := "rune" }
    | .skill => { name := "Skill", token := "skill" }
    | .state => { name := "State", token := "state" }
    | .town => { name := "Town", token := "town" }
    | .trade => { name := "Trade", token := "trade" }
    | .treasure => { name := "Treasure", token := "treasure" }
    | .warp => { name := "Warp", token := "warp" }
    | .talkState => { name := "TalkState", token := "talkstate" }
  mem_all a := by cases a <;> decide

end NpcScript
