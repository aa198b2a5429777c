import NpcScript.Clause.Condition
import NpcScript.Clause.Consequence

/-!
# Dialogue lines clause by clause

Each clause of a dialogue line becomes a condition, a consequence or an issue, whatever becomes of
its neighbours. Before the arrow only conditions may stand. Behind it a string literal is an answer;
a keyword that both sides know makes a condition if its operator can only compare, and a consequence
otherwise.
-/

namespace NpcScript

open Grammar (Clause KeywordClause DialogueForm)

inductive Meaning where
  | condition (condition : Condition)
  | consequence (consequence : Consequence)
  deriving DecidableEq

namespace Meaning

def unknownKeyword (clause : KeywordClause) : Issue :=
  .atColumn clause.keyword.column (.unknownKeyword (String.ofList clause.keyword.text))

def before (context : Context) : Clause → Except Issue Meaning
  | .answer source =>
    .error (invalidClause "answer".toList "answers belong after `->`" source.column)
  | .keyword clause =>
    match Vocabulary.ofWord? ConditionKeyword clause.keyword.text with
    | some keyword => condition <$> Condition.ofClause context keyword clause
    | none =>
      if (Vocabulary.ofWord? ConsequenceKeyword clause.keyword.text).isSome then
        .error (clause.invalid "is a consequence and belongs after `->`")
      else .error (unknownKeyword clause)

def after (context : Context) : Clause → Except Issue Meaning
  | .answer source =>
    .ok (consequence (.answer (String.ofList (Text.unquote source.text))))
  | .keyword clause =>
    match Vocabulary.ofWord? ConditionKeyword clause.keyword.text,
      Vocabulary.ofWord? ConsequenceKeyword clause.keyword.text with
    | some keyword, some otherKeyword =>
      if clause.compares then condition <$> Condition.ofClause context keyword clause
      else consequence <$> Consequence.ofClause context otherKeyword clause
    | some keyword, none => condition <$> Condition.ofClause context keyword clause
    | none, some keyword => consequence <$> Consequence.ofClause context keyword clause
    | none, none => .error (unknownKeyword clause)

end Meaning

def DialogueLine.attach (line : DialogueLine) : Meaning → DialogueLine
  | .condition found => { line with conditions := line.conditions ++ [found] }
  | .consequence found => { line with consequences := line.consequences ++ [found] }

def Grammar.DialogueForm.meanings (form : DialogueForm) (context : Context) :
    List (Except Issue Meaning) :=
  form.before.map (Meaning.before context) ++ form.after.map (Meaning.after context)

end NpcScript
