import NpcScript.Checked
import NpcScript.Keyword
import NpcScript.Statement.Value

/-!
# Trade statements

`sellItems = 15, 23` lists items that are traded on the usual terms. `sellItem = 15, price(10)`
names one item and sets terms of its own. The other trade statements are texts that the trader
speaks.
-/

namespace NpcScript

open Grammar (Assignment Value)

inductive TradeForm where
  | list (mode : TradeMode)
  | single (mode : TradeMode)
  | message (kind : TradeMessageKind)
  deriving DecidableEq

def TradeKey.form : TradeKey → TradeForm
  | sellItems => .list .sell
  | buyPrimaryItems => .list .buyPrimary
  | buySecondaryItems => .list .buySecondary
  | sellItem => .single .sell
  | buyPrimaryItem => .single .buyPrimary
  | buySecondaryItem => .single .buySecondary
  | tradeNotEnoughMoneyMsg => .message .notEnoughMoney
  | tradeFinishedMsg => .message .finished
  | tradeFinishedWithoutTradingMsg => .message .finishedWithoutTrading
  | tradeWrongItemMsg => .message .wrongItem

def TradeForm.expected : TradeForm → String
  | list _ => "a list of item ids"
  | single _ =>
    "`id, de(\"..\"), us(\"..\"), price(n), stack(n), quality(n), data(\"key\", \"value\")`"
  | message _ => "a German and an English text"

inductive TradeTerm where
  | germanName (text : String)
  | englishName (text : String)
  | price (amount : Nat)
  | stackSize (count : Nat)
  | quality (value : Nat)
  | datum (key value : String)
  deriving DecidableEq

/-- The traded item on one more term. A later term replaces an earlier one of its kind, except that
data add up. -/
def TradedItem.setTerm (traded : TradedItem) : TradeTerm → TradedItem
  | .germanName text => { traded with germanName := some text }
  | .englishName text => { traded with englishName := some text }
  | .price amount => { traded with price := some amount }
  | .stackSize count => { traded with stackSize := some count }
  | .quality value => { traded with quality := some value }
  | .datum key value => { traded with data := traded.data ++ [(key, value)] }

def TradeTerm.onlyArgument (name : List Char) (column : Nat) : List Value → Except Issue Value
  | [argument] => .ok argument
  | _ => .error (malformed name "a single value" column)

/-- Reads one of the values behind the number of a single traded item. `keyword` is the key of the
statement; what is wrong inside a property is told of the property's own name. -/
def TradeTerm.ofValue (keyword : List Char) (expected : String) :
    Value → Except Issue TradeTerm
  | .call source name arguments => do
    let property ← Vocabulary.resolve TradeProperty "trade item property" source.column name
    let single := onlyArgument name source.column arguments
    match property with
    | .de => return .germanName (← (← single).quotedText name "a quoted name")
    | .us => return .englishName (← (← single).quotedText name "a quoted name")
    | .price => return .price (← (← single).natural .price)
    | .stack => return .stackSize (← (← single).natural .stackSize)
    | .quality => return .quality (← (← single).natural .quality)
    | .data =>
      match arguments with
      | [key, value] =>
        let key ← key.quotedText name "a quoted key"
        let value ← value.quotedText name "a quoted value"
        return .datum key value
      | _ => throw (malformed name "a key and a value" source.column)
  | other => .error (malformed keyword expected other.column)

def tradedItemOfValue (context : Context) (line keyword : List Char) (expected : String) :
    Value → Except Issue Item
  | .number source => context.item line source.column source.text
  | other => .error (malformed keyword expected other.column)

/-- The fact that a trade statement states. Every value that is wrong is reported, and one of them
is enough to keep the statement out. -/
def Trade.ofAssignment (context : Context) (line : List Char) (form : TradeForm)
    (assignment : Assignment) : Checked Trade :=
  let item := tradedItemOfValue context line assignment.key form.expected
  match form with
  | .list mode => (Checked.each item assignment.values).map (.simple mode)
  | .single mode =>
    match assignment.values with
    | [] => .error [malformed assignment.key form.expected 1]
    | first :: others =>
      let terms := Checked.each (TradeTerm.ofValue assignment.key form.expected) others
      (Checked.both (.ofPart (item first)) terms).map fun (item, terms) =>
        .complex (terms.foldl TradedItem.setTerm { mode := mode, item := item })
  | .message kind =>
    (Checked.ofPart (assignment.localizedText form.expected)).map (.message kind)

end NpcScript
