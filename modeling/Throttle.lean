import Throttle.Config.Document
import Throttle.Main
import Throttle.Proofs.Ledger
import Throttle.Proofs.Spacing
import Throttle.Proofs.FullLog
import Throttle.Proofs.Limiter
import Throttle.Proofs.Advice
import Throttle.Proofs.Callers
import Throttle.Proofs.Sharing
import Throttle.Proofs.Standstill
import Throttle.Proofs.Request
import Throttle.Proofs.Crowding
import Throttle.Proofs.Independence
import Throttle.Proofs.Generosity
import Throttle.Proofs.Conservation
import Throttle.Proofs.Overflow
import Throttle.Proofs.Reordering
import Throttle.Proofs.Replay
import Throttle.Proofs.Tracking
import Throttle.Proofs.Forecast
import Throttle.Proofs.EarlyReturn
import Throttle.Proofs.ClosedForm
import Throttle.Proofs.FirstAttempt
import Throttle.Proofs.Charging
import Throttle.Proofs.Purge
import Throttle.Proofs.Scope
import Throttle.Proofs.Credentials
import Throttle.Proofs.Membership
import Throttle.Proofs.Validation
import Throttle.Proofs.Overrides
import Throttle.Proofs.Unreadable
