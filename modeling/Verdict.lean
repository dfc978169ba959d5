import Verdict.Main
import Verdict.Rule.Edit
import Verdict.RuleBook
import Verdict.Proofs.Cache
import Verdict.Proofs.Session
import Verdict.Proofs.Decimal.Scale
import Verdict.Proofs.Decimal.Shortest
import Verdict.Proofs.Decimal.Text
import Verdict.Proofs.Path.Descent
import Verdict.Proofs.Path.Lookup
import Verdict.Proofs.Json.Members
import Verdict.Proofs.Json.Text
import Verdict.Proofs.Locale
import Verdict.Proofs.Operand.Meaning
import Verdict.Proofs.Operand.Plain
import Verdict.Proofs.Pattern.Valid
import Verdict.Proofs.Rule.Agreement
import Verdict.Proofs.Rule.Digest
import Verdict.Proofs.Rule.Editing
import Verdict.Proofs.Rule.Staleness
import Verdict.Proofs.Rule.Usable
import Verdict.Proofs.Rule.Faults
import Verdict.Proofs.Rule.Account
import Verdict.Proofs.RuleBook.Run
import Verdict.Proofs.Rule.Environment
import Verdict.Proofs.Rule.Names
import Verdict.Proofs.Rule.Recompile
import Verdict.Proofs.Rule.Timeless
import Verdict.Proofs.Grove.Life
import Verdict.Proofs.Grove.Snapshot
import Verdict.Proofs.Cache.Run
import Verdict.Proofs.Path.Composition
import Verdict.Proofs.RuleBook.Paths
import Verdict.Proofs.Rule.Redating
import Verdict.Proofs.Calendar.Shift
import Verdict.Proofs.Rule.Absence
import Verdict.Proofs.Rule.Days
import Verdict.Proofs.Rule.Extent
import Verdict.Proofs.Decimal.Comparison
import Verdict.Proofs.Decimal.Whole
import Verdict.Proofs.Json.Equality
import Verdict.Proofs.Json.Form
import Verdict.Proofs.Json.Order
import Verdict.Proofs.Operator.Between
import Verdict.Proofs.Operator.Equality
import Verdict.Proofs.Operator.Order
import Verdict.Proofs.Operator.Symmetry
import Verdict.Proofs.Operand.Shape
import Verdict.Proofs.Rule.Shape
import Verdict.Proofs.Step.Elements
import Verdict.Proofs.Step.Numeral
import Verdict.Proofs.Step.Shape
import Verdict.Proofs.Step.Table
import Verdict.Proofs.Calendar.Format
import Verdict.Proofs.Step.Places
import Verdict.Proofs.Step.Slice
import Verdict.Proofs.Decimal.Nearest
import Verdict.Proofs.CommandLine
