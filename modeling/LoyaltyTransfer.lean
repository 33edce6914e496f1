import LoyaltyTransfer.Lib.Transaction
import LoyaltyTransfer.Lib.Table
import LoyaltyTransfer.Lib.Runs
import LoyaltyTransfer.Lib.Json
import LoyaltyTransfer.Lib.JsonOrder
import LoyaltyTransfer.Lib.Uppercase
import LoyaltyTransfer.Lib.Printable
import LoyaltyTransfer.Lib.Tally
import LoyaltyTransfer.Lib.Timeline
import LoyaltyTransfer.Lib.Double
import LoyaltyTransfer.Lib.Locks
import LoyaltyTransfer.Lib.Moves
import LoyaltyTransfer.Lib.History
import LoyaltyTransfer.Domain
import LoyaltyTransfer.Schema
import LoyaltyTransfer.Ledger
import LoyaltyTransfer.LedgerInvariants
import LoyaltyTransfer.Journals
import LoyaltyTransfer.Rates
import LoyaltyTransfer.RateAdmin
import LoyaltyTransfer.Partner
import LoyaltyTransfer.Saga
import LoyaltyTransfer.Reconciler
import LoyaltyTransfer.Idempotency
import LoyaltyTransfer.KeyStore
import LoyaltyTransfer.Exclusion
import LoyaltyTransfer.Trail
import LoyaltyTransfer.Records
import LoyaltyTransfer.Changes
import LoyaltyTransfer.Conservation
import LoyaltyTransfer.Seed
import LoyaltyTransfer.Guards
import LoyaltyTransfer.Engine
import LoyaltyTransfer.Settings
import LoyaltyTransfer.Safety
import LoyaltyTransfer.Audit
import LoyaltyTransfer.Ownership
import LoyaltyTransfer.Reach
import LoyaltyTransfer.Books
import LoyaltyTransfer.Answers
import LoyaltyTransfer.Resilience
import LoyaltyTransfer.Breaker
import LoyaltyTransfer.BreakerCalls
import LoyaltyTransfer.Attempts
import LoyaltyTransfer.Recording
import LoyaltyTransfer.Verification
import LoyaltyTransfer.RateVersions
import LoyaltyTransfer.RateCalls
import LoyaltyTransfer.Routes
import LoyaltyTransfer.RouteCache
import LoyaltyTransfer.Tariffs
import LoyaltyTransfer.Snapshots
import LoyaltyTransfer.Timing
import LoyaltyTransfer.Workers
import LoyaltyTransfer.Rounds
import LoyaltyTransfer.LockOrder
import LoyaltyTransfer.Simulator
import LoyaltyTransfer.Composition
import LoyaltyTransfer.Credits
import LoyaltyTransfer.Settlement
import LoyaltyTransfer.Conversions
import LoyaltyTransfer.RateLimiter
import LoyaltyTransfer.Ids
import LoyaltyTransfer.JournalChecks
import LoyaltyTransfer.Cursors
import LoyaltyTransfer.RouteText
import LoyaltyTransfer.Recovery
import LoyaltyTransfer.Invalidation
import LoyaltyTransfer.Reseeding
import LoyaltyTransfer.Lib.Keyset
import LoyaltyTransfer.Listing
import LoyaltyTransfer.Fingerprints
import LoyaltyTransfer.Views
import LoyaltyTransfer.Lib.Lease
import LoyaltyTransfer.Locking
import LoyaltyTransfer.Verdicts
import LoyaltyTransfer.Lib.OrderBy
import LoyaltyTransfer.RateListing
