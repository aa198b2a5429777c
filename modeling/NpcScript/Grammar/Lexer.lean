import NpcScript.Text.Character

/-!
# Lexers

The smallest units of a script line: words, numbers, string literals, operators and operands. A
lexer looks at the front of a text and answers what is left behind the unit it finds there. No
blanks may stand inside a unit except in string literals and operands.

An operand is either `expr(…)` with any text in balanced parentheses or a sum of signed terms. A
sum may hold sums in parentheses, so its lexer calls itself on what follows an opening parenthesis,
which is always a shorter text.
-/

namespace NpcScript.Grammar

/-- Answers the rest of a text behind the unit at its front, or nothing if none is there. -/
abbrev Lexer := List Char → Option (List Char)

def beginsWord (c : Char) : Bool :=
  c.isAlpha || c == '_'

def continuesWord (c : Char) : Bool :=
  c.isAlphanum || c == '_'

/-- A letter or underscore, then letters, digits and underscores. -/
def wordLexer : Lexer
  | [] => none
  | c :: rest => if beginsWord c then some (rest.dropWhile continuesWord) else none

def digitsLexer : Lexer
  | [] => none
  | c :: rest => if c.isDigit then some (rest.dropWhile Char.isDigit) else none

/-- Digits that no letter or underscore follows. -/
def unsignedLexer (s : List Char) : Option (List Char) :=
  match digitsLexer s with
  | none => none
  | some rest => if rest.head?.any beginsWord then none else some rest

def numberLexer : Lexer
  | '-' :: rest => unsignedLexer rest
  | s => unsignedLexer s

/-- What follows an opening quote, up to the closing one. A backslash takes the next character
along, so a quote behind a backslash closes nothing. -/
def closingQuoteLexer : Lexer
  | [] => none
  | '"' :: rest => some rest
  | ['\\'] => none
  | '\\' :: _ :: rest => closingQuoteLexer rest
  | _ :: rest => closingQuoteLexer rest

def literalLexer : Lexer
  | '"' :: rest => closingQuoteLexer rest
  | _ => none

def keywordLexer : Lexer
  | '%' :: rest => wordLexer rest
  | s => wordLexer s

def exactly (beginning : List Char) (s : List Char) : Option (List Char) :=
  if beginning.isPrefixOf s then some (s.drop beginning.length) else none

/-- The operators, the longer before those they begin with. -/
def operators : List String :=
  ["+=", "-=", "==", "!=", "~=", "<=", ">=", "=", "<", ">"]

def operatorLexer : Lexer := fun s =>
  operators.findSome? fun operator => exactly operator.toList s

def arrowLexer : Lexer :=
  exactly ['-', '>']

/-! ### Operands -/

/-- The rest behind the parenthesis that closes an open one, with `depth` more opened inside. -/
def closingParenthesisLexer : Nat → Lexer
  | _, [] => none
  | depth, '(' :: rest => closingParenthesisLexer (depth + 1) rest
  | 0, ')' :: rest => some rest
  | depth + 1, ')' :: rest => closingParenthesisLexer depth rest
  | depth, _ :: rest => closingParenthesisLexer depth rest

/-- `expr(…)` around any text with balanced parentheses. -/
def exprLexer : Lexer := fun s =>
  match s.drop 4 with
  | '(' :: rest =>
    if Text.sameLetters (s.take 4) "expr".toList then closingParenthesisLexer 0 rest else none
  | _ => none

def isSpace (c : Char) : Bool :=
  c == ' ' || c == '\t'

def skipSpaces (s : List Char) : List Char :=
  s.dropWhile isSpace

def isArithmetic (c : Char) : Bool :=
  c == '+' || c == '-' || c == '*' || c == '/'

/-- A term without its sign: a sum in parentheses, a variable with its percent sign, digits or a
word. -/
def atomLexer (inner : Lexer) : Lexer
  | '(' :: rest =>
    match inner (skipSpaces rest) with
    | none => none
    | some rest =>
      match skipSpaces rest with
      | ')' :: rest => some rest
      | _ => none
  | '%' :: rest => wordLexer rest
  | s => (digitsLexer s).or (wordLexer s)

def termLexer (inner : Lexer) : Lexer
  | '-' :: rest => atomLexer inner rest
  | s => atomLexer inner s

/-- An arithmetic operator and the term on its right. Two minus signs begin a comment instead. -/
def operationLexer (inner : Lexer) : Lexer := fun s =>
  match skipSpaces s with
  | '-' :: '-' :: _ => none
  | c :: rest => if isArithmetic c then termLexer inner (skipSpaces rest) else none
  | [] => none

def skipAll (unit : Lexer) (s : List Char) : List Char :=
  match unit s with
  | none => s
  | some rest => if rest.length < s.length then skipAll unit rest else s
termination_by s.length

def sumLexer (s : List Char) : Option (List Char) :=
  let inner : Lexer := fun t => if t.length < s.length then sumLexer t else none
  (termLexer inner s).map (skipAll (operationLexer inner))
termination_by s.length

def operandLexer : Lexer := fun s =>
  (exprLexer s).or (sumLexer s)

end NpcScript.Grammar
