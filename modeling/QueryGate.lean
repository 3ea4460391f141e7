import QueryGate.Config.Printer
import QueryGate.Main
import QueryGate.Proofs.Plan.Conformance
import QueryGate.Proofs.Plan.Forced
import QueryGate.Proofs.Plan.Meaning
import QueryGate.Proofs.Plan.Order
import QueryGate.Proofs.Filter.Fits
import QueryGate.Proofs.Plan.Singular
import QueryGate.Proofs.Text.Percent
import QueryGate.Proofs.Plan.Acceptance
import QueryGate.Proofs.Expression.Position
import QueryGate.Proofs.Request.Numbering
import QueryGate.Proofs.Request.Edit
import QueryGate.Proofs.Scanner.Control
import QueryGate.Proofs.Scanner.Edits
import QueryGate.Proofs.Scanner.Spelling
import QueryGate.Proofs.Scanner.Nesting
import QueryGate.Proofs.Scanner.Chain
import QueryGate.Proofs.Request.Combine
import QueryGate.Proofs.Scanner.Concatenation
import QueryGate.Proofs.Expression.Phrase
import QueryGate.Proofs.Scanner.Writing
import QueryGate.Proofs.Arena.Scanned
import QueryGate.Proofs.Arena.Policies
import QueryGate.Proofs.Arena.Filled
import QueryGate.Proofs.Gate.Entities
import QueryGate.Proofs.Checked.Gate
import QueryGate.Proofs.Expression.Grouped
import QueryGate.Proofs.Scanner.Fault
import QueryGate.Proofs.Scanner.Missing
import QueryGate.Proofs.Arena.Canonical
import QueryGate.Proofs.Scanner.Groups
import QueryGate.Proofs.Plan.Numbers
import QueryGate.Proofs.Plan.Groups
import QueryGate.Proofs.Plan.Unambiguous
import QueryGate.Proofs.Plan.Twins
import QueryGate.Proofs.Scanner.Values
import QueryGate.Proofs.Scanner.Depth
import QueryGate.Proofs.Plan.Bounded
import QueryGate.Proofs.Expression.Pieces
import QueryGate.Proofs.Plan.Literal
import QueryGate.Proofs.Plan.Outline
import QueryGate.Proofs.Plan.Projection
import QueryGate.Proofs.Plan.Styles
import QueryGate.Proofs.Plan.Blank
import QueryGate.Proofs.Checked.Loose
import QueryGate.Proofs.Checked.Parts
import QueryGate.Proofs.Json.Text
import QueryGate.Proofs.Json.Decode
import QueryGate.Proofs.Config.Sound
import QueryGate.Proofs.Config.Reread
import QueryGate.Proofs.Expression.Arguments
import QueryGate.Proofs.Scanner.Handover
