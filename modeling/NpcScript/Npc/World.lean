import NpcScript.Vocabulary

/-!
# Vocabularies of the game world

The closed sets of words that describe an NPC and that dialogues test and change, each with the
tokens it is written with.
-/

namespace NpcScript

inductive Race where
  | human | dwarf | halfling | elf | orc | lizardman | gnome | fairy | goblin
  deriving DecidableEq

instance : Vocabulary Race where
  all := [.human, .dwarf, .halfling, .elf, .orc, .lizardman, .gnome, .fairy, .goblin]
  word
    | .human => { name := "Human", token := "human" }
    | .dwarf => { name := "Dwarf", token := "dwarf" }
    | .halfling => { name := "Halfling", token := "halfling" }
    | .elf => { name := "Elf", token := "elf" }
    | .orc => { name := "Orc", token := "orc" }
    | .lizardman => { name := "Lizardman", token := "lizardman" }
    | .gnome => { name := "Gnome", token := "gnome" }
    | .fairy => { name := "Fairy", token := "fairy" }
    | .goblin => { name := "Goblin", token := "goblin" }
  mem_all a := by cases a <;> decide

inductive Sex where
  | male | female
  deriving DecidableEq

instance : Vocabulary Sex where
  all := [.male, .female]
  word
    | .male => { name := "Male", token := "male" }
    | .female => { name := "Female", token := "female" }
  mem_all a := by cases a <;> decide

inductive Direction where
  | north | northeast | east | southeast | south | southwest | west | northwest
  deriving DecidableEq

instance : Vocabulary Direction where
  all := [.north, .northeast, .east, .southeast, .south, .southwest, .west, .northwest]
  word
    | .north => { name := "North", token := "north" }
    | .northeast => { name := "Northeast", token := "northeast" }
    | .east => { name := "East", token := "east" }
    | .southeast => { name := "Southeast", token := "southeast" }
    | .south => { name := "South", token := "south" }
    | .southwest => { name := "Southwest", token := "southwest" }
    | .west => { name := "West", token := "west" }
    | .northwest => { name := "Northwest", token := "northwest" }
  mem_all a := by cases a <;> decide

/-- A town, that is the faction a character belongs to. -/
inductive Town where
  | cadomyr | runewick | galmair | free
  deriving DecidableEq

instance : Vocabulary Town where
  all := [.cadomyr, .runewick, .galmair, .free]
  word
    | .cadomyr => { name := "Cadomyr", token := "cadomyr" }
    | .runewick => { name := "Runewick", token := "runewick" }
    | .galmair => { name := "Galmair", token := "galmair" }
    | .free => { name := "Free", token := "free" }
  mem_all a := by cases a <;> decide

inductive Language where
  | common | human | dwarf | elf | lizard | orc | halfling | fairy | gnome | goblin | ancient
  deriving DecidableEq

instance : Vocabulary Language where
  all :=
    [.common, .human, .dwarf, .elf, .lizard, .orc, .halfling, .fairy, .gnome, .goblin, .ancient]
  word
    | .common => { name := "Common", token := "common" }
    | .human => { name := "Human", token := "human" }
    | .dwarf => { name := "Dwarf", token := "dwarf" }
    | .elf => { name := "Elf", token := "elf" }
    | .lizard => { name := "Lizard", token := "lizard" }
    | .orc => { name := "Orc", token := "orc" }
    | .halfling => { name := "Halfling", token := "halfling" }
    | .fairy => { name := "Fairy", token := "fairy" }
    | .gnome => { name := "Gnome", token := "gnome" }
    | .goblin => { name := "Goblin", token := "goblin" }
    | .ancient => { name := "Ancient", token := "ancient" }
  mem_all a := by cases a <;> decide

/-- The language a player reads; texts are written once for each. -/
inductive Locale where
  | german | english
  deriving DecidableEq

instance : Vocabulary Locale where
  all := [.german, .english]
  word
    | .german => { name := "German", token := "german", aliases := ["de"] }
    | .english => { name := "English", token := "english", aliases := ["us", "en"] }
  mem_all a := by cases a <;> decide

inductive EquipmentSlot where
  | head | chest | coat | hands | mainHand | secondHand | trousers | feet
  deriving DecidableEq

instance : Vocabulary EquipmentSlot where
  all := [.head, .chest, .coat, .hands, .mainHand, .secondHand, .trousers, .feet]
  word
    | .head => { name := "Head", token := "head" }
    | .chest => { name := "Chest", token := "chest" }
    | .coat => { name := "Coat", token := "coat" }
    | .hands => { name := "Hands", token := "hands" }
    | .mainHand => { name := "MainHand", token := "mainHand" }
    | .secondHand => { name := "SecondHand", token := "secondHand" }
    | .trousers => { name := "Trousers", token := "trousers" }
    | .feet => { name := "Feet", token := "feet", aliases := ["shoes"] }
  mem_all a := by cases a <;> decide

inductive CharacterAttribute where
  | sex | age | weight | bodyHeight | attitude | luck | strength | perception | dexterity
  | constitution | intelligence | essence | willpower | agility | foodLevel | hitpoints | mana
  | poisonLevel | mentalCapacity
  deriving DecidableEq

instance : Vocabulary CharacterAttribute where
  all :=
    [.sex, .age, .weight, .bodyHeight, .attitude, .luck, .strength, .perception, .dexterity,
     .constitution, .intelligence, .essence, .willpower, .agility, .foodLevel, .hitpoints, .mana,
     .poisonLevel, .mentalCapacity]
  word
    | .sex => { name := "Sex", token := "sex" }
    | .age => { name := "Age", token := "age" }
    | .weight => { name := "Weight", token := "weight" }
    | .bodyHeight => { name := "BodyHeight", token := "bodyheight" }
    | .attitude => { name := "Attitude", token := "attitude" }
    | .luck => { name := "Luck", token := "luck" }
    | .strength => { name := "Strength", token := "strength" }
    | .perception => { name := "Perception", token := "perception" }
    | .dexterity => { name := "Dexterity", token := "dexterity" }
    | .constitution => { name := "Constitution", token := "constitution" }
    | .intelligence => { name := "Intelligence", token := "intelligence" }
    | .essence => { name := "Essence", token := "essence" }
    | .willpower => { name := "Willpower", token := "willpower" }
    | .agility => { name := "Agility", token := "agility" }
    | .foodLevel => { name := "FoodLevel", token := "foodlevel" }
    | .hitpoints => { name := "Hitpoints", token := "hitpoints" }
    | .mana => { name := "Mana", token := "mana" }
    | .poisonLevel => { name := "PoisonLevel", token := "poisonlevel" }
    | .mentalCapacity => { name := "MentalCapacity", token := "mentalcapacity" }
  mem_all a := by cases a <;> decide

inductive ItemLocation where
  | all | belt | body | backpack
  deriving DecidableEq

instance : Vocabulary ItemLocation where
  all := [.all, .belt, .body, .backpack]
  word
    | .all => { name := "All", token := "all" }
    | .belt => { name := "Belt", token := "belt" }
    | .body => { name := "Body", token := "body" }
    | .backpack => { name := "Backpack", token := "backpack" }
  mem_all a := by cases a <;> decide

inductive MagicType where
  | mage | priest | bard | druid | noMagic
  deriving DecidableEq

instance : Vocabulary MagicType where
  all := [.mage, .priest, .bard, .druid, .noMagic]
  word
    | .mage => { name := "Mage", token := "mage" }
    | .priest => { name := "Priest", token := "priest" }
    | .bard => { name := "Bard", token := "bard" }
    | .druid => { name := "Druid", token := "druid" }
    | .noMagic => { name := "NoMagic", token := "nomagic" }
  mem_all a := by cases a <;> decide

inductive TalkMode where
  | busy | idle
  deriving DecidableEq

instance : Vocabulary TalkMode where
  all := [.busy, .idle]
  word
    | .busy => { name := "Busy", token := "busy" }
    | .idle => { name := "Idle", token := "idle" }
  mem_all a := by cases a <;> decide

/-- How far the conversation of an NPC with the current speaker has come. -/
inductive TalkState where
  | begin | finish | idle
  deriving DecidableEq

instance : Vocabulary TalkState where
  all := [.begin, .finish, .idle]
  word
    | .begin => { name := "Begin", token := "begin" }
    | .finish => { name := "End", token := "end" }
    | .idle => { name := "Idle", token := "idle" }
  mem_all a := by cases a <;> decide

inductive ArenaTask where
  | requestMonster | getStats | getRanking
  deriving DecidableEq

instance : Vocabulary ArenaTask where
  all := [.requestMonster, .getStats, .getRanking]
  word
    | .requestMonster => { name := "RequestMonster", token := "requestMonster" }
    | .getStats => { name := "GetStats", token := "getStats" }
    | .getRanking => { name := "GetRanking", token := "getRanking" }
  mem_all a := by cases a <;> decide

/-- Whether an NPC sells an item or buys it, at the better or the lower price. -/
inductive TradeMode where
  | sell | buyPrimary | buySecondary
  deriving DecidableEq

instance : Vocabulary TradeMode where
  all := [.sell, .buyPrimary, .buySecondary]
  word
    | .sell => { name := "Sell", token := "sell" }
    | .buyPrimary => { name := "BuyPrimary", token := "buyPrimary" }
    | .buySecondary => { name := "BuySecondary", token := "buySecondary" }
  mem_all a := by cases a <;> decide

inductive TradeMessageKind where
  | notEnoughMoney | finished | finishedWithoutTrading | wrongItem
  deriving DecidableEq

instance : Vocabulary TradeMessageKind where
  all := [.notEnoughMoney, .finished, .finishedWithoutTrading, .wrongItem]
  word
    | .notEnoughMoney => { name := "NotEnoughMoney", token := "notEnoughMoney" }
    | .finished => { name := "Finished", token := "finished" }
    | .finishedWithoutTrading =>
      { name := "FinishedWithoutTrading", token := "finishedWithoutTrading" }
    | .wrongItem => { name := "WrongItem", token := "wrongItem" }
  mem_all a := by cases a <;> decide

inductive GuardTextKind where
  | warpedMonster | warpedPlayer | hitPlayer
  deriving DecidableEq

instance : Vocabulary GuardTextKind where
  all := [.warpedMonster, .warpedPlayer, .hitPlayer]
  word
    | .warpedMonster => { name := "WarpedMonster", token := "warpedMonster" }
    | .warpedPlayer => { name := "WarpedPlayer", token := "warpedPlayer" }
    | .hitPlayer => { name := "HitPlayer", token := "hitPlayer" }
  mem_all a := by cases a <;> decide

end NpcScript
