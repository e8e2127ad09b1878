import Renumber.Codec
import Renumber.History.Edit
import Renumber.Json.Reader
import Renumber.Json.Writer
import Renumber.Logging.Session
import Renumber.Logging.Workplace
import Renumber.Registry.Request
import Renumber.Settings.Load
import Renumber.Proofs.GapFree
import Renumber.Proofs.Restart
import Renumber.Proofs.Uniqueness
import Renumber.Proofs.Ascent
import Renumber.Proofs.Alarm
import Renumber.Proofs.Consistency
import Renumber.Proofs.Forgetting
import Renumber.Proofs.Recognition
import Renumber.Proofs.Exclusion
import Renumber.Proofs.Accounting
import Renumber.Proofs.Tracking
import Renumber.Proofs.Handles
import Renumber.Proofs.Isolation
import Renumber.Proofs.Lateness
import Renumber.Proofs.Recovery
import Renumber.Proofs.Refusals
import Renumber.Proofs.Journal
import Renumber.Proofs.Retention
import Renumber.Proofs.Composition
import Renumber.Proofs.Padding
import Renumber.Proofs.Admission
import Renumber.Proofs.Reset
import Renumber.Proofs.PartialSettings
import Renumber.Proofs.Precedence
import Renumber.Proofs.Wording
import Renumber.Proofs.PlainOrder
import Renumber.Proofs.Translation
import Renumber.Proofs.Highest
import Renumber.Proofs.Recording
import Renumber.Proofs.HalfRange
