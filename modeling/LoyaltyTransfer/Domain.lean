/-
# `LoyaltyTransfer.Domain` — enumerations, errors and the transfer state machine

`app/domain`: the enumerated values the database stores, the catalogue of
error codes with their HTTP status, the faults a service call can end in, and
the table of allowed transfer transitions.

A fault is any Python exception a transaction of the engine can raise.  A
`DomainError` is the only one that reaches the client as a 4xx answer; every
other one becomes a 500.
-/
import LoyaltyTransfer.Lib.Json

namespace LoyaltyTransfer

/-- Python's truth of an optional string: there is one and it is not empty. -/
def nonempty (s : Option String) : Option String := s.filter fun x => x != ""

/-! ## `app/domain/enums.py` -/

inductive ProgramType where
  | card
  | loyalty
  deriving DecidableEq, Repr

def ProgramType.value : ProgramType → String
  | .card => "CARD"
  | .loyalty => "LOYALTY"

inductive OwnerType where
  | user
  | system
  deriving DecidableEq, Repr

inductive AccountType where
  | userBalance
  | transferClearing
  | partnerSettlement
  deriving DecidableEq, Repr

inductive EntryDirection where
  | debit
  | credit
  deriving DecidableEq, Repr

inductive JournalType where
  | seed
  | transferDebit
  | transferSettle
  | transferReversal
  deriving DecidableEq, Repr

inductive TransferStatus where
  | pending
  | sourceDebited
  | partnerSubmitted
  | pendingVerification
  | completed
  | reversed
  | manualReview
  deriving DecidableEq, Repr

/-! ## `app/domain/errors.py` -/

inductive ErrorCode where
  | validationError
  | notFound
  | methodNotAllowed
  | adminAuthRequired
  | authenticationRequired
  | rateLimited
  | invalidCursor
  | httpError
  | internalError
  | programNotFound
  | programInactive
  | sameProgram
  | routeNotSupported
  | belowMinimum
  | aboveMaximum
  | invalidIncrement
  | zeroDestinationPoints
  | accountNotFound
  | insufficientBalance
  | transferNotFound
  | idempotencyKeyRequired
  | idempotencyKeyInvalid
  | idempotencyRequestInProgress
  | idempotencyKeyReused
  | invalidRate
  | invalidBonus
  | bonusOverlap
  deriving DecidableEq, Repr

/-- `ERROR_CATALOGUE`: the HTTP status of a code. -/
def ErrorCode.status : ErrorCode → Nat
  | .notFound | .transferNotFound => 404
  | .methodNotAllowed => 405
  | .adminAuthRequired | .authenticationRequired => 401
  | .rateLimited => 429
  | .invalidCursor | .httpError | .idempotencyKeyRequired | .idempotencyKeyInvalid => 400
  | .idempotencyRequestInProgress | .bonusOverlap => 409
  | .internalError => 500
  | _ => 422

/-- An expected, client-facing failure. -/
structure DomainError where
  code : ErrorCode
  detail : String
  extra : List (String × Json.Value) := []

def DomainError.status (e : DomainError) : Nat := e.code.status

/-! ## `app/domain/transfer_state.py` -/

/-- `ALLOWED_TRANSITIONS`. -/
def allowedTransitions : TransferStatus → List TransferStatus
  | .pending => [.sourceDebited]
  | .sourceDebited => [.partnerSubmitted, .reversed]
  | .partnerSubmitted => [.completed, .reversed, .pendingVerification]
  | .pendingVerification => [.completed, .reversed, .manualReview]
  | .completed | .reversed | .manualReview => []

/-- `FINAL_STATUSES`: the ledger is settled and nothing will change. -/
def finalStatuses : List TransferStatus := [.completed, .reversed]

def canTransition (fromStatus toStatus : TransferStatus) : Bool :=
  decide (toStatus ∈ allowedTransitions fromStatus)

/-- Why a transfer was reversed or needs review. -/
inductive TransferFailureCode where
  | partnerRejected
  | partnerUnavailable
  | partnerNotReceived
  | transferInterrupted
  | verificationExhausted
  deriving DecidableEq, Repr

def TransferFailureCode.value : TransferFailureCode → String
  | .partnerRejected => "PARTNER_REJECTED"
  | .partnerUnavailable => "PARTNER_UNAVAILABLE"
  | .partnerNotReceived => "PARTNER_NOT_RECEIVED"
  | .transferInterrupted => "TRANSFER_INTERRUPTED"
  | .verificationExhausted => "VERIFICATION_EXHAUSTED"

/-! ## Faults -/

/-- The constraints of the schema that an `IntegrityError` can name. -/
inductive Constraint where
  | pkTransfers
  | uqTransfersPartnerReference
  | uqTransfersUserIdempotencyKey
  | ckTransfersBasePointsNonNegative
  | ckTransfersBonusPointsNonNegative
  | ckTransfersCompletedHasConfirmation
  | ckTransfersDestinationPointsPositive
  | ckTransfersDestinationPointsSum
  | ckTransfersDistinctPrograms
  | ckTransfersFinalHasCompletedAt
  | ckTransfersIdFormat
  | ckTransfersReversedHasFailureCode
  | ckTransfersSourcePointsPositive
  | ckTransfersVerificationAttemptsNonNegative
  | fkTransfersDestinationAccountProgram
  | fkTransfersRateId
  | fkTransfersSourceAccountProgram
  | fkTransfersUserId
  | ckLedgerJournalsTransferLinkConsistent
  | uqLedgerJournalsTransferType
  | fkLedgerJournalsTransferId
  | ckLedgerEntriesAmountPositive
  | fkLedgerEntriesAccountProgram
  | ckAccountsUserBalanceNonNegative
  | ckConversionRatesDenominatorPositive
  | ckConversionRatesDistinctPrograms
  | ckConversionRatesEffectiveWindowValid
  | ckConversionRatesMaxNotBelowMin
  | ckConversionRatesMinSourcePointsPositive
  | ckConversionRatesNumeratorPositive
  | ckConversionRatesSourceIncrementPositive
  | ckConversionRatesVersionPositive
  | uqConversionRatesRouteVersion
  | uqConversionRatesRouteOpenVersion
  | ckTransferBonusesBonusBpsRange
  | ckTransferBonusesDistinctPrograms
  | ckTransferBonusesWindowValid
  deriving DecidableEq, Repr

/-- The columns that refuse some values by their type: text too long or with a
NUL, integers out of range. -/
inductive Column where
  | id
  | idempotencyKey
  | points
  | failureMessage
  | partnerReference
  | partnerConfirmationId
  | verificationAttempts
  | eventMetadata
  | amount
  | balance
  deriving DecidableEq, Repr

/-- `LedgerError`: the caller built an invalid journal, or named accounts that
do not exist. -/
inductive LedgerFault where
  | tooFewPostings
  | amountNotPositive (amount : Int)
  | unbalanced (nets : List (Nat × Int))
  | accountsDoNotExist (ids : List Nat)
  | noSystemAccount (programId : Nat) (accountType : AccountType)
  deriving DecidableEq, Repr

/-- An exception out of a transaction. -/
inductive Fault where
  | domain (e : DomainError)
  | ledger (e : LedgerFault)
  | journalAlreadyPosted (transferId : Option String) (journalType : JournalType)
  | invalidStateTransition (transferId : String) (fromStatus toStatus : TransferStatus)
  | integrity (c : Constraint)
  | data (c : Column)
  | lookup (what : String)
  | runtime (what : String)

end LoyaltyTransfer
