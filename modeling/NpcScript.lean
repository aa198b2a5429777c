import NpcScript.Main
import NpcScript.Proofs.Clause.Classification
import NpcScript.Proofs.Clause.Line
import NpcScript.Proofs.Document.Edits
import NpcScript.Proofs.Statement.Assigned
import NpcScript.Proofs.Script.Line
import NpcScript.Proofs.Script.Outcome
import NpcScript.Proofs.Script.Locality
import NpcScript.Proofs.Script.Soundness
import NpcScript.Proofs.Grammar.Token
import NpcScript.Proofs.Grammar.Layout
import NpcScript.Proofs.Grammar.OperandFront
import NpcScript.Proofs.Grammar.Derivation
import NpcScript.Proofs.Grammar.Spelling
import NpcScript.Proofs.Grammar.Reading
import NpcScript.Proofs.Grammar.Assignment
import NpcScript.Proofs.Grammar.Clause
import NpcScript.Proofs.Grammar.Dialogue
import NpcScript.Proofs.Statement.Kind
import NpcScript.Proofs.Script.Clauses
import NpcScript.Proofs.Writing.Number
import NpcScript.Proofs.Writing.Quantity
import NpcScript.Proofs.Writing.Assignment
import NpcScript.Proofs.Writing.Assigned
import NpcScript.Proofs.Writing.Trade
import NpcScript.Proofs.Writing.Clause
import NpcScript.Proofs.Writing.Condition
import NpcScript.Proofs.Writing.Consequence
import NpcScript.Proofs.Writing.Dialogue
import NpcScript.Proofs.Writing.Script
import NpcScript.Proofs.CommandLine.Check
import NpcScript.Proofs.Dump.Document
import NpcScript.Proofs.Checked
import NpcScript.Proofs.Clause.Growth
import NpcScript.Proofs.Script.Growth
import NpcScript.Proofs.Text.Recasing
import NpcScript.Proofs.Likeness.Result
import NpcScript.Proofs.Likeness.Word
import NpcScript.Proofs.Likeness.Form
import NpcScript.Proofs.Likeness.Clause
import NpcScript.Proofs.Likeness.Statement
import NpcScript.Proofs.Likeness.Shift
import NpcScript.Proofs.Likeness.Within
import NpcScript.Proofs.Script.Sides
import NpcScript.Proofs.Script.Order
import NpcScript.Proofs.Grammar.Caseless
import NpcScript.Proofs.Grammar.Recasing
import NpcScript.Proofs.Statement.Caseless
import NpcScript.Proofs.Script.Recasing
import NpcScript.Proofs.Clause.Role
import NpcScript.Proofs.Clause.Stray
import NpcScript.Proofs.Script.Stray
import NpcScript.Proofs.Text.EscapedQuote
import NpcScript.Proofs.Statement.Localized
import NpcScript.Proofs.Script.Localized
import NpcScript.Proofs.Clause.Inside
import NpcScript.Proofs.Script.Texts
import NpcScript.Proofs.Script.Inside
import NpcScript.Proofs.Script.Separator
import NpcScript.Proofs.Script.Accepted
import NpcScript.Proofs.Grammar.LastCharacter
import NpcScript.Proofs.Likeness.Moved
import NpcScript.Proofs.Likeness.Line
import NpcScript.Proofs.Script.Commented
import NpcScript.Proofs.Script.Surrounded
import NpcScript.Proofs.Grammar.Beginning
import NpcScript.Proofs.Grammar.Completion
import NpcScript.Proofs.Script.Rejected
import NpcScript.Proofs.Grammar.Place
import NpcScript.Proofs.Quoting
import NpcScript.Proofs.Statement.Quoting
import NpcScript.Proofs.Clause.Quoting
import NpcScript.Proofs.Script.Quoting
import NpcScript.Proofs.Likeness.Placed
import NpcScript.Proofs.Number
import NpcScript.Proofs.Statement.Trade
import NpcScript.Proofs.Script.Trade
import NpcScript.Proofs.Statement.Number
import NpcScript.Proofs.Clause.Number
import NpcScript.Proofs.Script.Number
import NpcScript.Proofs.Catalog
import NpcScript.Proofs.Likeness.Exchanged
import NpcScript.Proofs.Script.Exchanged
import NpcScript.Proofs.Clause.Named
import NpcScript.Proofs.Script.Named
import NpcScript.Proofs.Choice
import NpcScript.Proofs.Clause.Choice
import NpcScript.Proofs.Statement.Choice
import NpcScript.Proofs.Clause.Mended
import NpcScript.Proofs.Statement.Mended
import NpcScript.Proofs.Script.Mended
import NpcScript.Proofs.FileTree.Walk
import NpcScript.Proofs.Script.LineEnds
import NpcScript.Proofs.Grammar.Literal
