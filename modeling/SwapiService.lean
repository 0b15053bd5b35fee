import SwapiService.System
import SwapiService.Activations
import SwapiService.Ownership
import SwapiService.InFlight
import SwapiService.Provenance
import SwapiService.Completion
import SwapiService.LostWork
import SwapiService.ResultHandling
import SwapiService.Webhook
import SwapiService.AdmissionControl
import SwapiService.RateLimit
import SwapiService.Sequential
import SwapiService.DeliveryOrder
import SwapiService.ApiGateway
import SwapiService.Scheduling
import SwapiService.Decision
import SwapiService.CallbackBody
import SwapiService.UsageWindow
import SwapiService.FetchOnce
import SwapiService.Lib.Books
import SwapiService.CallAccounting
import SwapiService.Freshness
import SwapiService.Containment
import SwapiService.Calls
import SwapiService.Answering
import SwapiService.Atomicity
import SwapiService.ConcurrentUpdates
import SwapiService.Lib.Ledger
import SwapiService.Lib.Refinement
import SwapiService.QueryLedger
import SwapiService.Lib.Tickets
import SwapiService.RequestAccounting
import SwapiService.Lib.Settling
import SwapiService.Settling
import SwapiService.Punctuality
import SwapiService.Backlog
import SwapiService.Lib.Losses
import SwapiService.UnreliableDelivery
import SwapiService.Unshared
import SwapiService.Caching
import SwapiService.Origins
import SwapiService.SinglePath
import SwapiService.Progress
import SwapiService.Lib.Pacing
import SwapiService.Retries
import SwapiService.Isolation
import SwapiService.Lib.Redelivery
import SwapiService.Redelivery
import SwapiService.Lib.Pattern
import SwapiService.Lib.Screening
import SwapiService.Validation
