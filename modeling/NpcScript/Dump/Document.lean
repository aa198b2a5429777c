import NpcScript.Document
import NpcScript.Dump.Statement

/-!
# Dumps

A dump shows a whole document in RON: the statements with their lines, then the diagnostics.
-/

namespace NpcScript

open Ron (Value)

def Cause.toRon : Cause → Value
  | unparseableLine text => .taggedRecord "UnparseableLine" [("text", .text text)]
  | malformedStatement keyword expected =>
    .taggedRecord "MalformedStatement"
      [("keyword", .text keyword), ("expected", .text expected)]
  | valueOutOfRange field value min max =>
    .taggedRecord "ValueOutOfRange"
      [("field", .text field), ("value", .text value), ("min", .integer min),
       ("max", .integer max)]
  | malformedNumber field text =>
    .taggedRecord "MalformedNumber" [("field", .text field), ("text", .text text)]
  | unknownToken field token expected =>
    .taggedRecord "UnknownEnumerator"
      [("field", .text field), ("token", .text token), ("expected", .text expected)]
  | unknownItem id text =>
    .taggedRecord "UnknownItem" [("id", .integer id), ("text", .text text)]
  | unknownSkill name => .taggedRecord "UnknownSkill" [("name", .text name)]
  | unknownKeyword keyword => .taggedRecord "UnknownKeyword" [("keyword", .text keyword)]
  | invalidClause keyword reason =>
    .taggedRecord "InvalidClause" [("keyword", .text keyword), ("reason", .text reason)]
  | suspiciousQuote field text =>
    .taggedRecord "SuspiciousQuote" [("field", .text field), ("text", .text text)]

def Diagnostic.toRon (diagnostic : Diagnostic) : Value :=
  .record
    [("line", .integer diagnostic.line),
     ("column", .ofOption (fun n : Nat => .integer n) diagnostic.column),
     ("kind", diagnostic.cause.toRon),
     ("message", .text diagnostic.message)]

def Entry.toRon (entry : Entry) : Value :=
  .record [("line", .integer entry.line), ("item", entry.statement.toRon)]

/-- All that a document shows; the slots follow from the statements and are left out. -/
def Document.toRon (document : Document) : Value :=
  .record
    [("items", .list (document.entries.toList.map Entry.toRon)),
     ("errors", .list (document.diagnostics.toList.map Diagnostic.toRon))]

def Document.dump (document : Document) : String :=
  document.toRon.render

end NpcScript
