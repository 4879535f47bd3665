import LedgerScript.Compilation.Given
import LedgerScript.Json.Printer
import LedgerScript.Json.Reader
import LedgerScript.Settings.Dotenv
import LedgerScript.Proofs.Compilation.NormalForm
import LedgerScript.Proofs.Compilation.Unambiguous
import LedgerScript.Proofs.Json.Document
import LedgerScript.Proofs.Flow.Outcomes
import LedgerScript.Proofs.Flow.Trail
import LedgerScript.Proofs.Compilation.Unchecked
import LedgerScript.Proofs.Compilation.Faults
import LedgerScript.Proofs.Compilation.Strictness
import LedgerScript.Proofs.Schema.Transport
import LedgerScript.Proofs.Intent.DefaultAsset
import LedgerScript.Proofs.Flow.Independence
import LedgerScript.Proofs.Compilation.Composition
import LedgerScript.Proofs.Intent.Grammar
import LedgerScript.Proofs.Decimal.Digits
import LedgerScript.Proofs.Schema.Paths
import LedgerScript.Proofs.Schema.Order
import LedgerScript.Proofs.Schema.Locality
import LedgerScript.Proofs.Intent.Issues
import LedgerScript.Proofs.Timestamp.Calendar
import LedgerScript.Proofs.Timestamp.Text
import LedgerScript.Proofs.Uuid
import LedgerScript.Proofs.Schema.RoundTrip
import LedgerScript.Proofs.Records
import LedgerScript.Proofs.Flow.Undeclared
import LedgerScript.Proofs.Compilation.StatementCounts
import LedgerScript.Proofs.Settings.Noninterference
import LedgerScript.Proofs.Session.Logged
import LedgerScript.Proofs.Compilation.SplitFallback
import LedgerScript.Proofs.Compilation.Warnings
import LedgerScript.Proofs.Flow.Tallies
import LedgerScript.Proofs.Script.Spellings
import LedgerScript.Proofs.Settings.Startup
import LedgerScript.Proofs.Compilation.Blameless
import LedgerScript.Proofs.Session.Startup
import LedgerScript.Proofs.Flow.Denomination
