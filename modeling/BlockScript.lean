import BlockScript.Command.Tool
import BlockScript.Main
import BlockScript.Proofs.Activity
import BlockScript.Proofs.Allocation
import BlockScript.Proofs.Appending
import BlockScript.Proofs.Body
import BlockScript.Proofs.Charter
import BlockScript.Proofs.Conduct.Kind
import BlockScript.Proofs.Cycles
import BlockScript.Proofs.Effect
import BlockScript.Proofs.Folding
import BlockScript.Proofs.Forest.Attach
import BlockScript.Proofs.Forest.Check
import BlockScript.Proofs.Forest.LinkOrder
import BlockScript.Proofs.Forest.Load
import BlockScript.Proofs.Forest.Resolve
import BlockScript.Proofs.Forest.Spelling
import BlockScript.Proofs.FreeSuffix
import BlockScript.Proofs.FrontEnds
import BlockScript.Proofs.GlobalLine
import BlockScript.Proofs.Growth
import BlockScript.Proofs.Hindsight
import BlockScript.Proofs.Hygiene
import BlockScript.Proofs.Instrumentation
import BlockScript.Proofs.Layout
import BlockScript.Proofs.Literal
import BlockScript.Proofs.Location
import BlockScript.Proofs.Machine
import BlockScript.Proofs.Mentions
import BlockScript.Proofs.NumericField
import BlockScript.Proofs.Operations
import BlockScript.Proofs.Origin
import BlockScript.Proofs.Precedence
import BlockScript.Proofs.Preorder
import BlockScript.Proofs.Provision
import BlockScript.Proofs.Receiver
import BlockScript.Proofs.Reindentation
import BlockScript.Proofs.Reservation
import BlockScript.Proofs.Slicing
import BlockScript.Proofs.Snippets
import BlockScript.Proofs.Spans
import BlockScript.Proofs.Verbatim
import BlockScript.Proofs.Walk
import BlockScript.Proofs.WellFormed
import BlockScript.Service
