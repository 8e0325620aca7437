import Chronomap.Main
import Chronomap.Filter.Evaluation
import Chronomap.Proofs.Calendar.Civil
import Chronomap.Proofs.Calendar.DecimalOrder
import Chronomap.Proofs.Command.Redating
import Chronomap.Proofs.Evaluation.IsoDates
import Chronomap.Proofs.Evaluation.LegacyTests
import Chronomap.Proofs.Evaluation.Substitution
import Chronomap.Proofs.Guard.Days
import Chronomap.Proofs.Guard.Failures
import Chronomap.Proofs.Guard.Idempotence
import Chronomap.Proofs.Guard.Meaning
import Chronomap.Proofs.Guard.Qualifiers
import Chronomap.Proofs.Guard.Rebinding
import Chronomap.Proofs.Guard.Towers
import Chronomap.Proofs.Guard.Updates
import Chronomap.Proofs.Guard.Widening
import Chronomap.Proofs.Period.Between
import Chronomap.Proofs.Period.RoundTrip
import Chronomap.Proofs.Period.Tiling
import Chronomap.Proofs.Style.Frame
import Chronomap.Proofs.Guard.Forms
import Chronomap.Proofs.Command.Files
import Chronomap.Proofs.Style.Access
import Chronomap.Proofs.Command.Apply
