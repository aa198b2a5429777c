import NpcScript.Text.Escape

/-!
# RON values

RON is a notation for data made of numbers, texts, lists, records and tagged alternatives. A value
is laid out over several lines: each field and each element has a line of its own, indented by four
spaces per level and ended by a comma.
-/

namespace NpcScript.Ron

inductive Value where
  | integer (n : Int)
  | boolean (b : Bool)
  | text (s : String)
  | absent
  | present (value : Value)
  | list (elements : List Value)
  | tuple (elements : List Value)
  | record (fields : List (String × Value))
  /-- An alternative that holds nothing. -/
  | tag (name : String)
  /-- An alternative that holds one value. -/
  | tagged (name : String) (value : Value)
  /-- An alternative that holds fields. -/
  | taggedRecord (name : String) (fields : List (String × Value))

def indent (level : Nat) : List Char :=
  List.replicate (4 * level) ' '

namespace Value

mutual

/-- A value laid out at a level; its first line is already begun. -/
def layout (level : Nat) : Value → List Char
  | integer n => (toString n).toList
  | boolean b => (toString b).toList
  | text s => Text.escape s.toList
  | absent => "None".toList
  | present value => "Some(".toList ++ layout level value ++ [')']
  | list [] => "[]".toList
  | list elements => '[' :: '\n' :: layoutElements (level + 1) elements ++ indent level ++ [']']
  | tuple elements => '(' :: layoutTuple level elements ++ [')']
  | record fields => '(' :: '\n' :: layoutFields (level + 1) fields ++ indent level ++ [')']
  | tag name => name.toList
  | tagged name value => name.toList ++ '(' :: layout level value ++ [')']
  | taggedRecord name fields =>
    name.toList ++ '(' :: '\n' :: layoutFields (level + 1) fields ++ indent level ++ [')']

def layoutElements (level : Nat) : List Value → List Char
  | [] => []
  | value :: others =>
    indent level ++ layout level value ++ [',', '\n'] ++ layoutElements level others

/-- The elements of a tuple, all on the line that is begun. -/
def layoutTuple (level : Nat) : List Value → List Char
  | [] => []
  | [value] => layout level value
  | value :: others => layout level value ++ [',', ' '] ++ layoutTuple level others

def layoutFields (level : Nat) : List (String × Value) → List Char
  | [] => []
  | (name, value) :: others =>
    indent level ++ name.toList ++ [':', ' '] ++ layout level value ++ [',', '\n'] ++
      layoutFields level others

end

def render (value : Value) : String :=
  String.ofList (layout 0 value)

end Value

end NpcScript.Ron
