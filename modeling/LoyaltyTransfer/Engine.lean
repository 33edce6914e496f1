/-
# `LoyaltyTransfer.Engine` — the whole service as a transition system

Any number of API requests (`app/api/routes/transfers.py` through
`run_idempotent` and `TransferService.create_transfer`), any number of
reconciles (the workers' and the admin endpoint's), claims, rate changes and
key cleanups, over one database and one idempotency table.

A step is one committed transaction, one SQL statement of the idempotency
service, or one moment of a partner call.  Everything the code does not decide
is part of the action: which process moves, what its clock and PostgreSQL's read,
the new transfer id, what Redis and the partner answer, which rows another
transaction holds, that an exception strikes or the process dies.

    request    begin … ─▶ admitted ─▶ debited ─▶ submitted ─▶ calling ─▶ answered ─▶ created
                            └─▶ collided ─────────────────────────────────────────▶ created
               created ─▶ storing ─▶ responded          any fault ─▶ releasing ─▶ failed
    reconcile  started ─▶ snapshotted ─▶ (reversing | asking ─▶ resolving) ─▶ finished
-/
import LoyaltyTransfer.Reconciler
import LoyaltyTransfer.Idempotency
import LoyaltyTransfer.RateAdmin
import LoyaltyTransfer.Changes
import LoyaltyTransfer.Lib.Runs

namespace LoyaltyTransfer

open Transaction

/-! ## What a client is told -/

structure TransferFailureOut where
  code : TransferFailureCode
  message : Option String
  deriving DecidableEq

/-- `TransferOut`, as `transfer_out` fills it. -/
structure TransferOut where
  id : String
  status : TransferStatus
  sourceProgram : String
  sourcePoints : Int
  destinationProgram : String
  destinationPoints : Int
  basePoints : Int
  bonusPoints : Int
  rate : RateSnapshot
  failure : Option TransferFailureOut
  partnerConfirmationId : Option String
  createdAt : Time
  updatedAt : Time
  completedAt : Option Time
  events : List TransferEvent

def transferOut (t : Transfer) (updatedAt : Time) (sourceProgram destinationProgram : String)
    (events : List TransferEvent) : TransferOut where
  id := t.id
  status := t.status
  sourceProgram := sourceProgram
  sourcePoints := t.sourcePoints
  destinationProgram := destinationProgram
  destinationPoints := t.destinationPoints
  basePoints := t.basePoints
  bonusPoints := t.bonusPoints
  rate := t.rateSnapshot
  failure := t.failureCode.map fun code => ⟨code, t.failureMessage⟩
  partnerConfirmationId := t.partnerConfirmationId
  createdAt := t.createdAt
  updatedAt := updatedAt
  completedAt := t.completedAt
  events := events

/-- `get_transfer_details` and `transfer_out`: the transfer, if it is this
user's, with the codes of its programs and its events. -/
def Database.transferDetails? (db : Database) (transferId userId : String) :
    Option TransferOut := do
  let t ← db.transfers.find? fun t => decide (t.id = transferId ∧ t.userId = userId)
  let source ← db.program? t.sourceProgramId
  let destination ← db.program? t.destinationProgramId
  pure (transferOut t (db.updatedAt.transfers t.id) source.code destination.code
    (db.transferEvents.filter fun e => decide (e.transferId = transferId)))

def httpStatusFor (status : TransferStatus) : Nat := if status ∈ finalStatuses then 201 else 202

inductive ResponseBody where
  | transfer (out : TransferOut)
  | problem (error : DomainError)

structure Response where
  statusCode : Nat
  body : Option ResponseBody

/-! ## Requests -/

/-- Where a request stands.  `record` is the id of the idempotency row its
`begin` inserted. -/
inductive RequestPc where
  | beginning (pc : BeginPc ResponseBody)
  | admitted (record : Nat)
  | debited (record : Nat) (d : DebitedTransfer)
  | collided (record : Nat)
  | submitted (record : Nat) (d : DebitedTransfer)
  | calling (record : Nat) (d : DebitedTransfer) (startedAt : Time)
  | answered (record : Nat) (d : DebitedTransfer) (result : PartnerCreditResult)
  | created (record : Nat) (transferId : String)
  | storing (record statusCode : Nat) (body : ResponseBody) (resourceId : Option String)
  | releasing (record : Nat) (fault : Fault)
  | responded (response : Response) (replayed : Bool)
  | refused (error : DomainError)
  | failed (fault : Fault)
  | crashed

structure Request where
  userId : String
  key : String
  body : TransferRequest
  pc : RequestPc

/-- `^[A-Z][A-Z0-9_]{1,49}$`. -/
def programCodeFormat (code : String) : Bool :=
  match code.toList with
  | c :: cs => c.isUpper && cs.all (fun x => x.isUpper || x.isDigit || x == '_') &&
      decide (1 ≤ cs.length) && decide (cs.length ≤ 49)
  | [] => false

def maxPoints : Int := 1000000000000

/-- `TransferCreateRequest`: what the route's validation lets through. -/
def TransferRequest.valid (body : TransferRequest) : Bool :=
  programCodeFormat body.sourceProgram && programCodeFormat body.destinationProgram &&
    decide (0 < body.sourcePoints) && decide (body.sourcePoints ≤ maxPoints)

/-- `body.model_dump(mode="json")`. -/
def TransferRequest.dump (body : TransferRequest) : Json.Value :=
  .obj [("source_program", .str body.sourceProgram),
    ("destination_program", .str body.destinationProgram),
    ("source_points", .int body.sourcePoints)]

structure Config where
  maxTransferPoints : Option Int
  verificationDelay : Time
  partnerDeadline : Time
  policy : ReconciliationPolicy
  ttls : KeyTtls
  sha256 : String → String

def Config.fingerprint (cfg : Config) (body : TransferRequest) : String :=
  computeFingerprint cfg.sha256 "POST" "/v1/transfers" body.dump

/-- What all processes share, and a record of what was sent to partners: each
`credit_points` call with the request that made it, and each attempt of one. -/
structure Store where
  db : Database
  keys : KeyTable ResponseBody
  creditCalls : List (Nat × String)
  attempts : List (String × Time)

inductive RequestAction where
  | statement (input : BeginInput)
  | debit (now createdAt : Time) (transferId : String)
  | find
  | submit (now : Time)
  | call (now : Time)
  | attempt (now : Time)
  | answer (result : PartnerCreditResult)
  | outcome (now wall : Time)
  | details
  | store
  | release
  | fault (what : String)
  | crash

/-- The layer's own answer to a key reused for another request. -/
def keyReused : DomainError where
  code := .idempotencyKeyReused
  detail := "This Idempotency-Key was used with a different request. Use a new key."

/-- The layer's own answer while the key's first request runs. -/
def requestInProgress : DomainError where
  code := .idempotencyRequestInProgress
  detail := "A request with this Idempotency-Key is still being processed. Retry shortly."

/-- `run_idempotent` up to the handler. -/
def afterBegin (r : BeginResult ResponseBody) : RequestPc :=
  match r.outcome with
  | .replay =>
      match r.statusCode with
      | some code => .responded ⟨code, r.body⟩ true
      | none => .failed (.runtime "completed idempotency record has no status code")
  | .conflictMismatch => .refused keyReused
  | .conflictInProgress => .refused requestInProgress
  | .new =>
      match r.record with
      | some record => .admitted record
      | none => .failed (.runtime "NEW idempotency outcome without a record")

/-- `run_idempotent` when the handler raises: a business rejection is a final
answer, stored and replayed; anything else forgets the key. -/
def handlerRaised (record : Nat) : Fault → RequestPc
  | .domain e =>
      if 500 ≤ e.status then .releasing record (.domain e)
      else .storing record e.status (.problem e) none
  | f => .releasing record f

/-- Where an unexpected exception leaves a request. -/
def faulted (f : Fault) : RequestPc → Option RequestPc
  | .beginning _ | .storing _ _ _ _ | .releasing _ _ => some (.failed f)
  | .admitted record | .debited record _ | .collided record | .submitted record _
  | .calling record _ _ | .answered record _ _ | .created record _ =>
      some (.releasing record f)
  | .responded _ _ | .refused _ | .failed _ | .crashed => none

/-- The request is over. -/
def RequestPc.over : RequestPc → Bool
  | .responded _ _ | .refused _ | .failed _ | .crashed => true
  | _ => false

section

variable (cfg : Config)

/-- After a transaction of the handler: where to go on, or the exception. -/
def afterTx {α : Type} (st : Store) (record : Nat) (tx : DbTx α) (next : α → RequestPc) :
    Store × RequestPc :=
  match tx.commit st.db with
  | (.ok a, db) => ({ st with db }, next a)
  | (.error f, db) => ({ st with db }, handlerRaised record f)

/-- `create_transfer` catches one fault of its debit: the unique violation of
its key. -/
def afterDebit (st : Store) (record : Nat) (tx : DbTx DebitedTransfer) : Store × RequestPc :=
  match tx.commit st.db with
  | (.ok d, db) => ({ st with db }, .debited record d)
  | (.error (.integrity .uqTransfersUserIdempotencyKey), db) => ({ st with db }, .collided record)
  | (.error f, db) => ({ st with db }, handlerRaised record f)

/-- The handler's read of the transfer it created or found. -/
def detailsPc (db : Database) (userId : String) (record : Nat) (transferId : String) : RequestPc :=
  match db.transferDetails? transferId userId with
  | some out => .storing record (httpStatusFor out.status) (.transfer out) (some transferId)
  | none => .releasing record (.runtime s!"transfer {transferId} vanished after creation")

/-- One step of request `i`. -/
def requestStep (i : Nat) (r : Request) (st : Store) : RequestAction → Option (Store × RequestPc)
  | .statement input =>
      match r.pc with
      | .beginning pc =>
          let (keys, pc') := beginStep cfg.ttls r.userId r.key (cfg.fingerprint r.body) input
            st.keys pc
          match pc' with
          | .finished result => some ({ st with keys }, afterBegin result)
          | pc' => some ({ st with keys }, .beginning pc')
      | _ => none
  | .debit now createdAt transferId =>
      match r.pc with
      | .admitted record => some (afterDebit st record
          (openTransfer cfg.maxTransferPoints now createdAt transferId r.userId r.body r.key))
      | _ => none
  | .find =>
      match r.pc with
      | .collided record =>
          some (afterTx st record (findByIdempotencyKey r.userId r.key) (.created record))
      | _ => none
  | .submit now =>
      match r.pc with
      | .debited record d => some (afterTx st record (markSubmitted now d.transferId d.partnerCode)
          fun _ => .submitted record d)
      | _ => none
  | .call now =>
      match r.pc with
      | .submitted record d =>
          some ({ st with creditCalls := st.creditCalls ++ [(i, d.transferId)] },
            .calling record d now)
      | _ => none
  | .attempt now =>
      match r.pc with
      | .calling _ d startedAt =>
          if now < startedAt + cfg.partnerDeadline then
            some ({ st with attempts := st.attempts ++ [(d.transferId, now)] }, r.pc)
          else none
      | _ => none
  | .answer result =>
      match r.pc with
      | .calling record d _ => some (st, .answered record d result)
      | _ => none
  | .outcome now wall =>
      match r.pc with
      | .answered record d result => some (afterTx st record
          (applyPartnerOutcome cfg.verificationDelay now wall d.transferId result)
          fun _ => .created record d.transferId)
      | _ => none
  | .details =>
      match r.pc with
      | .created record transferId => some (st, detailsPc st.db r.userId record transferId)
      | _ => none
  | .store =>
      match r.pc with
      | .storing record statusCode body resourceId =>
          some ({ st with keys := st.keys.complete record statusCode body resourceId },
            .responded ⟨statusCode, some body⟩ false)
      | _ => none
  | .release =>
      match r.pc with
      | .releasing record f => some ({ st with keys := st.keys.release record }, .failed f)
      | _ => none
  | .fault what => (faulted (.runtime what) r.pc).map fun pc => (st, pc)
  | .crash => if r.pc.over then none else some (st, .crashed)

/-! ## Reconciles -/

inductive ReconcilePc where
  | started
  | snapshotted (snap : Snapshot)
  | reversing
  | asking (snap : Snapshot)
  | resolving (answer : PartnerStatusResult)
  | finished (r : ReconcileResult)
  | stopped (f : Fault)

/-- `ReconciliationService.reconcile` of one transfer. -/
structure Reconcile where
  transferId : String
  pc : ReconcilePc

inductive ReconcileAction where
  | snapshot
  | decide (now : Time)
  | reverse (wall : Time)
  | status (answer : PartnerStatusResult)
  | apply (now wall : Time)
  | fault (what : String)

/-- After a transaction of a reconcile. -/
def afterReconcileTx {α : Type} (st : Store) (tx : DbTx α) (next : α → ReconcilePc) :
    Store × ReconcilePc :=
  match tx.commit st.db with
  | (.ok a, db) => ({ st with db }, next a)
  | (.error f, db) => ({ st with db }, .stopped f)

def decidePc (now : Time) (snap : Snapshot) : ReconcilePc :=
  match reconcileDecision cfg.policy now snap with
  | .ok (.answer r) => .finished r
  | .ok .reverseInterrupted => .reversing
  | .ok .askPartner => .asking snap
  | .error f => .stopped f

def reconcileStep (p : Reconcile) (st : Store) : ReconcileAction → Option (Store × ReconcilePc)
  | .snapshot =>
      match p.pc with
      | .started => some (afterReconcileTx st (snapshot p.transferId) .snapshotted)
      | _ => none
  | .decide now =>
      match p.pc with
      | .snapshotted snap => some (st, decidePc cfg now snap)
      | _ => none
  | .reverse wall =>
      match p.pc with
      | .reversing => some (afterReconcileTx st (reverseInterrupted wall p.transferId) .finished)
      | _ => none
  | .status answer =>
      match p.pc with
      | .asking _ => some (st, .resolving answer)
      | _ => none
  | .apply now wall =>
      match p.pc with
      | .resolving answer =>
          some (afterReconcileTx st (applyStatus cfg.policy now wall p.transferId answer) .finished)
      | _ => none
  | .fault what =>
      match p.pc with
      | .finished _ | .stopped _ => none
      | _ => some (st, .stopped (.runtime what))

end

/-! ## The system -/

structure State where
  store : Store
  requests : List Request
  reconciles : List Reconcile

/-- `create_rate_version` and `create_bonus`. -/
inductive RateChange where
  | rate (newRate : NewRate) (changedAt : Time)
  | bonus (newBonus : NewBonus) (now : Time)

def RateChange.apply (db : Database) : RateChange → Database
  | .rate newRate changedAt => ((createRateVersion newRate changedAt).commit db).2
  | .bonus newBonus now => ((createBonus newBonus now).commit db).2

inductive Action where
  | arrive (userId key : String) (body : TransferRequest)
  | request (i : Nat) (a : RequestAction)
  | claimDue (now : Time) (batchSize : Nat) (locked : List String)
  | startReconcile (transferId : String)
  | reconcile (k : Nat) (a : ReconcileAction)
  | cleanup (now : Time) (batchSize : Nat) (locked : List Nat)
  | rates (change : RateChange)
  | clock (moment : Time)

/-- What the route's dependencies let through: a known user, a valid key, a
valid body. -/
def admissible (db : Database) (userId key : String) (body : TransferRequest) : Bool :=
  decide (userId ∈ db.users) && (validateIdempotencyKey (some key)).isOk && body.valid

def State.withDb (s : State) (db : Database) : State := { s with store := { s.store with db } }

/-- One step of the system; `none` when the action is not enabled. -/
def step (cfg : Config) (s : State) : Action → Option State
  | .arrive userId key body =>
      if admissible s.store.db userId key body then
        some { s with requests := s.requests ++ [⟨userId, key, body, .beginning .acquiring⟩] }
      else none
  | .request i a =>
      match s.requests[i]? with
      | some r => (requestStep cfg i r s.store a).map fun (store, pc) =>
          { s with store, requests := s.requests.set i { r with pc } }
      | none => none
  | .claimDue now batchSize locked =>
      some (s.withDb ((claimDue cfg.policy now batchSize locked).commit s.store.db).2)
  | .startReconcile transferId =>
      some { s with reconciles := s.reconciles ++ [⟨transferId, .started⟩] }
  | .reconcile k a =>
      match s.reconciles[k]? with
      | some p => (reconcileStep cfg p s.store a).map fun (store, pc) =>
          { s with store, reconciles := s.reconciles.set k { p with pc } }
      | none => none
  | .cleanup now batchSize locked =>
      some { s with store :=
        { s.store with keys := s.store.keys.cleanup now batchSize locked } }
  | .rates change => some (s.withDb (change.apply s.store.db))
  | .clock moment => some (s.withDb { s.store.db with clock := moment })

/-! ## What a step can do

`RequestMove` and `ReconcileMove` list the steps of one process with everything
a step requires; the proofs about runs are case analyses on these lists. -/

theorem afterTx_cases {α : Type} {st st' : Store} {record : Nat} {tx : DbTx α}
    {next : α → RequestPc} {pc : RequestPc} (h : afterTx st record tx next = (st', pc)) :
    (∃ a db, tx.run st.db = .ok (a, db) ∧ st' = { st with db } ∧ pc = next a) ∨
      ∃ f, tx.run st.db = .error f ∧ st' = st ∧ pc = handlerRaised record f := by
  rcases Tx.commit_cases tx st.db with ⟨a, db, hrun, hcommit⟩ | ⟨f, hrun, hcommit⟩
  · rw [afterTx, hcommit] at h
    cases h
    exact .inl ⟨a, db, hrun, rfl, rfl⟩
  · rw [afterTx, hcommit] at h
    cases h
    exact .inr ⟨f, hrun, rfl, rfl⟩

theorem afterDebit_cases {st st' : Store} {record : Nat} {tx : DbTx DebitedTransfer}
    {pc : RequestPc} (h : afterDebit st record tx = (st', pc)) :
    (∃ d db, tx.run st.db = .ok (d, db) ∧ st' = { st with db } ∧ pc = .debited record d) ∨
      (tx.run st.db = .error (.integrity .uqTransfersUserIdempotencyKey) ∧ st' = st ∧
        pc = .collided record) ∨
      ∃ f, tx.run st.db = .error f ∧ st' = st ∧ pc = handlerRaised record f := by
  rcases Tx.commit_cases tx st.db with ⟨d, db, hrun, hcommit⟩ | ⟨f, hrun, hcommit⟩
  · rw [afterDebit, hcommit] at h
    cases h
    exact .inl ⟨d, db, hrun, rfl, rfl⟩
  · rw [afterDebit, hcommit] at h
    split at h
    · rename_i heq
      cases heq
    · rename_i heq
      cases heq
      cases h
      exact .inr (.inl ⟨hrun, rfl, rfl⟩)
    · rename_i heq
      cases heq
      cases h
      exact .inr (.inr ⟨_, hrun, rfl, rfl⟩)

/-- Where a request stands after a statement of its `begin`. -/
def beginPc : BeginPc ResponseBody → RequestPc
  | .finished result => afterBegin result
  | pc => .beginning pc

inductive RequestMove (cfg : Config) (i : Nat) (r : Request) (st : Store) :
    RequestAction → Store → RequestPc → Prop
  | statement {input : BeginInput} {pc pc' : BeginPc ResponseBody} {keys : KeyTable ResponseBody}
      (hpc : r.pc = .beginning pc)
      (h : beginStep cfg.ttls r.userId r.key (cfg.fingerprint r.body) input st.keys pc =
        (keys, pc')) :
      RequestMove cfg i r st (.statement input) { st with keys } (beginPc pc')
  | debited {now createdAt : Time} {transferId : String} {record : Nat} {d : DebitedTransfer}
      {db : Database} (hpc : r.pc = .admitted record)
      (h : (openTransfer cfg.maxTransferPoints now createdAt transferId r.userId r.body
        r.key).run st.db = .ok (d, db)) :
      RequestMove cfg i r st (.debit now createdAt transferId) { st with db } (.debited record d)
  | collided {now createdAt : Time} {transferId : String} {record : Nat}
      (hpc : r.pc = .admitted record)
      (h : (openTransfer cfg.maxTransferPoints now createdAt transferId r.userId r.body
        r.key).run st.db = .error (.integrity .uqTransfersUserIdempotencyKey)) :
      RequestMove cfg i r st (.debit now createdAt transferId) st (.collided record)
  | debitRaised {now createdAt : Time} {transferId : String} {record : Nat} {f : Fault}
      (hpc : r.pc = .admitted record)
      (h : (openTransfer cfg.maxTransferPoints now createdAt transferId r.userId r.body
        r.key).run st.db = .error f) :
      RequestMove cfg i r st (.debit now createdAt transferId) st (handlerRaised record f)
  | found {record : Nat} {id : String} {db : Database} (hpc : r.pc = .collided record)
      (h : (findByIdempotencyKey r.userId r.key).run st.db = .ok (id, db)) :
      RequestMove cfg i r st .find { st with db } (.created record id)
  | findRaised {record : Nat} {f : Fault} (hpc : r.pc = .collided record)
      (h : (findByIdempotencyKey r.userId r.key).run st.db = .error f) :
      RequestMove cfg i r st .find st (handlerRaised record f)
  | submitted {now : Time} {record : Nat} {d : DebitedTransfer} {u : Unit} {db : Database}
      (hpc : r.pc = .debited record d)
      (h : (markSubmitted now d.transferId d.partnerCode).run st.db = .ok (u, db)) :
      RequestMove cfg i r st (.submit now) { st with db } (.submitted record d)
  | submitRaised {now : Time} {record : Nat} {d : DebitedTransfer} {f : Fault}
      (hpc : r.pc = .debited record d)
      (h : (markSubmitted now d.transferId d.partnerCode).run st.db = .error f) :
      RequestMove cfg i r st (.submit now) st (handlerRaised record f)
  | call {now : Time} {record : Nat} {d : DebitedTransfer} (hpc : r.pc = .submitted record d) :
      RequestMove cfg i r st (.call now)
        { st with creditCalls := st.creditCalls ++ [(i, d.transferId)] } (.calling record d now)
  | attempt {now startedAt : Time} {record : Nat} {d : DebitedTransfer}
      (hpc : r.pc = .calling record d startedAt) (h : now < startedAt + cfg.partnerDeadline) :
      RequestMove cfg i r st (.attempt now)
        { st with attempts := st.attempts ++ [(d.transferId, now)] } r.pc
  | answer {result : PartnerCreditResult} {startedAt : Time} {record : Nat} {d : DebitedTransfer}
      (hpc : r.pc = .calling record d startedAt) :
      RequestMove cfg i r st (.answer result) st (.answered record d result)
  | recorded {now wall : Time} {record : Nat} {d : DebitedTransfer} {result : PartnerCreditResult}
      {status : TransferStatus} {db : Database} (hpc : r.pc = .answered record d result)
      (h : (applyPartnerOutcome cfg.verificationDelay now wall d.transferId result).run st.db =
        .ok (status, db)) :
      RequestMove cfg i r st (.outcome now wall) { st with db } (.created record d.transferId)
  | recordRaised {now wall : Time} {record : Nat} {d : DebitedTransfer}
      {result : PartnerCreditResult} {f : Fault} (hpc : r.pc = .answered record d result)
      (h : (applyPartnerOutcome cfg.verificationDelay now wall d.transferId result).run st.db =
        .error f) :
      RequestMove cfg i r st (.outcome now wall) st (handlerRaised record f)
  | details {record : Nat} {transferId : String} (hpc : r.pc = .created record transferId) :
      RequestMove cfg i r st .details st (detailsPc st.db r.userId record transferId)
  | store {record statusCode : Nat} {body : ResponseBody} {resourceId : Option String}
      (hpc : r.pc = .storing record statusCode body resourceId) :
      RequestMove cfg i r st .store
        { st with keys := st.keys.complete record statusCode body resourceId }
        (.responded ⟨statusCode, some body⟩ false)
  | release {record : Nat} {f : Fault} (hpc : r.pc = .releasing record f) :
      RequestMove cfg i r st .release { st with keys := st.keys.release record } (.failed f)
  | fault {what : String} {pc : RequestPc} (h : faulted (.runtime what) r.pc = some pc) :
      RequestMove cfg i r st (.fault what) st pc
  | crash (h : r.pc.over = false) : RequestMove cfg i r st .crash st .crashed

theorem requestStep_move {cfg : Config} {i : Nat} {r : Request} {st st' : Store}
    {a : RequestAction} {pc : RequestPc} (h : requestStep cfg i r st a = some (st', pc)) :
    RequestMove cfg i r st a st' pc := by
  cases a with
  | statement input =>
      cases hpc : r.pc with
      | beginning bpc =>
          simp only [requestStep, hpc] at h
          generalize hb : beginStep cfg.ttls r.userId r.key (cfg.fingerprint r.body) input
            st.keys bpc = out at h
          obtain ⟨keys, pc'⟩ := out
          cases pc' <;> cases h <;> exact .statement hpc hb
      | _ => simp [requestStep, hpc] at h
  | debit now createdAt transferId =>
      cases hpc : r.pc with
      | admitted record =>
          simp only [requestStep, hpc, Option.some.injEq] at h
          rcases afterDebit_cases h with ⟨d, db, hrun, rfl, rfl⟩ | ⟨hrun, rfl, rfl⟩ |
            ⟨f, hrun, rfl, rfl⟩
          · exact .debited hpc hrun
          · exact .collided hpc hrun
          · exact .debitRaised hpc hrun
      | _ => simp [requestStep, hpc] at h
  | find =>
      cases hpc : r.pc with
      | collided record =>
          simp only [requestStep, hpc, Option.some.injEq] at h
          rcases afterTx_cases h with ⟨id, db, hrun, rfl, rfl⟩ | ⟨f, hrun, rfl, rfl⟩
          · exact .found hpc hrun
          · exact .findRaised hpc hrun
      | _ => simp [requestStep, hpc] at h
  | submit now =>
      cases hpc : r.pc with
      | debited record d =>
          simp only [requestStep, hpc, Option.some.injEq] at h
          rcases afterTx_cases h with ⟨u, db, hrun, rfl, rfl⟩ | ⟨f, hrun, rfl, rfl⟩
          · exact .submitted hpc hrun
          · exact .submitRaised hpc hrun
      | _ => simp [requestStep, hpc] at h
  | call now =>
      cases hpc : r.pc with
      | submitted record d =>
          simp only [requestStep, hpc, Option.some.injEq] at h
          cases h
          exact .call hpc
      | _ => simp [requestStep, hpc] at h
  | attempt now =>
      cases hpc : r.pc with
      | calling record d startedAt =>
          simp only [requestStep, hpc] at h
          split at h
          · rename_i hlt
            cases h
            rw [← hpc]
            exact .attempt hpc hlt
          · cases h
      | _ => simp [requestStep, hpc] at h
  | answer result =>
      cases hpc : r.pc with
      | calling record d startedAt =>
          simp only [requestStep, hpc, Option.some.injEq] at h
          cases h
          exact .answer hpc
      | _ => simp [requestStep, hpc] at h
  | outcome now wall =>
      cases hpc : r.pc with
      | answered record d result =>
          simp only [requestStep, hpc, Option.some.injEq] at h
          rcases afterTx_cases h with ⟨u, db, hrun, rfl, rfl⟩ | ⟨f, hrun, rfl, rfl⟩
          · exact .recorded hpc hrun
          · exact .recordRaised hpc hrun
      | _ => simp [requestStep, hpc] at h
  | details =>
      cases hpc : r.pc with
      | created record transferId =>
          simp only [requestStep, hpc, Option.some.injEq] at h
          cases h
          exact .details hpc
      | _ => simp [requestStep, hpc] at h
  | store =>
      cases hpc : r.pc with
      | storing record statusCode body resourceId =>
          simp only [requestStep, hpc, Option.some.injEq] at h
          cases h
          exact .store hpc
      | _ => simp [requestStep, hpc] at h
  | release =>
      cases hpc : r.pc with
      | releasing record f =>
          simp only [requestStep, hpc, Option.some.injEq] at h
          cases h
          exact .release hpc
      | _ => simp [requestStep, hpc] at h
  | fault what =>
      simp only [requestStep, Option.map_eq_some_iff] at h
      obtain ⟨pc', hf, e⟩ := h
      cases e
      exact .fault hf
  | crash =>
      simp only [requestStep] at h
      split at h
      · cases h
      · rename_i hover
        cases h
        exact .crash (by simpa using hover)

inductive ReconcileMove (cfg : Config) (p : Reconcile) (st : Store) :
    ReconcileAction → Store → ReconcilePc → Prop
  | snapshotted {snap : Snapshot} {db : Database} (hpc : p.pc = .started)
      (h : (snapshot p.transferId).run st.db = .ok (snap, db)) :
      ReconcileMove cfg p st .snapshot { st with db } (.snapshotted snap)
  | snapshotRaised {f : Fault} (hpc : p.pc = .started)
      (h : (snapshot p.transferId).run st.db = .error f) :
      ReconcileMove cfg p st .snapshot st (.stopped f)
  | decided {now : Time} {snap : Snapshot} (hpc : p.pc = .snapshotted snap) :
      ReconcileMove cfg p st (.decide now) st (decidePc cfg now snap)
  | reversed {wall : Time} {r : ReconcileResult} {db : Database} (hpc : p.pc = .reversing)
      (h : (reverseInterrupted wall p.transferId).run st.db = .ok (r, db)) :
      ReconcileMove cfg p st (.reverse wall) { st with db } (.finished r)
  | reverseRaised {wall : Time} {f : Fault} (hpc : p.pc = .reversing)
      (h : (reverseInterrupted wall p.transferId).run st.db = .error f) :
      ReconcileMove cfg p st (.reverse wall) st (.stopped f)
  | status {answer : PartnerStatusResult} {snap : Snapshot} (hpc : p.pc = .asking snap) :
      ReconcileMove cfg p st (.status answer) st (.resolving answer)
  | applied {now wall : Time} {answer : PartnerStatusResult} {r : ReconcileResult}
      {db : Database} (hpc : p.pc = .resolving answer)
      (h : (applyStatus cfg.policy now wall p.transferId answer).run st.db = .ok (r, db)) :
      ReconcileMove cfg p st (.apply now wall) { st with db } (.finished r)
  | applyRaised {now wall : Time} {answer : PartnerStatusResult} {f : Fault}
      (hpc : p.pc = .resolving answer)
      (h : (applyStatus cfg.policy now wall p.transferId answer).run st.db = .error f) :
      ReconcileMove cfg p st (.apply now wall) st (.stopped f)
  | fault {what : String} :
      ReconcileMove cfg p st (.fault what) st (.stopped (.runtime what))

theorem afterReconcileTx_cases {α : Type} {st st' : Store} {tx : DbTx α} {next : α → ReconcilePc}
    {pc : ReconcilePc} (h : afterReconcileTx st tx next = (st', pc)) :
    (∃ a db, tx.run st.db = .ok (a, db) ∧ st' = { st with db } ∧ pc = next a) ∨
      ∃ f, tx.run st.db = .error f ∧ st' = st ∧ pc = .stopped f := by
  rcases Tx.commit_cases tx st.db with ⟨a, db, hrun, hcommit⟩ | ⟨f, hrun, hcommit⟩
  · rw [afterReconcileTx, hcommit] at h
    cases h
    exact .inl ⟨a, db, hrun, rfl, rfl⟩
  · rw [afterReconcileTx, hcommit] at h
    cases h
    exact .inr ⟨f, hrun, rfl, rfl⟩

theorem reconcileStep_move {cfg : Config} {p : Reconcile} {st st' : Store} {a : ReconcileAction}
    {pc : ReconcilePc} (h : reconcileStep cfg p st a = some (st', pc)) :
    ReconcileMove cfg p st a st' pc := by
  cases a with
  | snapshot =>
      cases hpc : p.pc with
      | started =>
          simp only [reconcileStep, hpc, Option.some.injEq] at h
          rcases afterReconcileTx_cases h with ⟨a, db, hrun, rfl, rfl⟩ | ⟨f, hrun, rfl, rfl⟩
          · exact .snapshotted hpc hrun
          · exact .snapshotRaised hpc hrun
      | _ => simp [reconcileStep, hpc] at h
  | decide now =>
      cases hpc : p.pc with
      | snapshotted snap =>
          simp only [reconcileStep, hpc, Option.some.injEq] at h
          cases h
          exact .decided hpc
      | _ => simp [reconcileStep, hpc] at h
  | reverse wall =>
      cases hpc : p.pc with
      | reversing =>
          simp only [reconcileStep, hpc, Option.some.injEq] at h
          rcases afterReconcileTx_cases h with ⟨a, db, hrun, rfl, rfl⟩ | ⟨f, hrun, rfl, rfl⟩
          · exact .reversed hpc hrun
          · exact .reverseRaised hpc hrun
      | _ => simp [reconcileStep, hpc] at h
  | status answer =>
      cases hpc : p.pc with
      | asking snap =>
          simp only [reconcileStep, hpc, Option.some.injEq] at h
          cases h
          exact .status hpc
      | _ => simp [reconcileStep, hpc] at h
  | apply now wall =>
      cases hpc : p.pc with
      | resolving answer =>
          simp only [reconcileStep, hpc, Option.some.injEq] at h
          rcases afterReconcileTx_cases h with ⟨a, db, hrun, rfl, rfl⟩ | ⟨f, hrun, rfl, rfl⟩
          · exact .applied hpc hrun
          · exact .applyRaised hpc hrun
      | _ => simp [reconcileStep, hpc] at h
  | fault what =>
      simp only [reconcileStep] at h
      split at h
      · cases h
      · cases h
      · cases h
        exact .fault

/-- A step of the system, inverted. -/
inductive Step (cfg : Config) (s : State) : Action → State → Prop
  | arrive {userId key : String} {body : TransferRequest}
      (h : admissible s.store.db userId key body = true) :
      Step cfg s (.arrive userId key body)
        { s with requests := s.requests ++ [⟨userId, key, body, .beginning .acquiring⟩] }
  | request {i : Nat} {r : Request} {a : RequestAction} {st : Store} {pc : RequestPc}
      (hr : s.requests[i]? = some r) (h : RequestMove cfg i r s.store a st pc) :
      Step cfg s (.request i a)
        { s with store := st, requests := s.requests.set i { r with pc } }
  | claimDue {now : Time} {batchSize : Nat} {locked claimed : List String} {db : Database}
      (h : (LoyaltyTransfer.claimDue cfg.policy now batchSize locked).run s.store.db =
        .ok (claimed, db)) :
      Step cfg s (.claimDue now batchSize locked) (s.withDb db)
  | claimRaised {now : Time} {batchSize : Nat} {locked : List String} {f : Fault}
      (h : (LoyaltyTransfer.claimDue cfg.policy now batchSize locked).run s.store.db =
        .error f) :
      Step cfg s (.claimDue now batchSize locked) s
  | startReconcile {transferId : String} :
      Step cfg s (.startReconcile transferId)
        { s with reconciles := s.reconciles ++ [⟨transferId, .started⟩] }
  | reconcile {k : Nat} {p : Reconcile} {a : ReconcileAction} {st : Store} {pc : ReconcilePc}
      (hp : s.reconciles[k]? = some p) (h : ReconcileMove cfg p s.store a st pc) :
      Step cfg s (.reconcile k a)
        { s with store := st, reconciles := s.reconciles.set k { p with pc } }
  | cleanup {now : Time} {batchSize : Nat} {locked : List Nat} :
      Step cfg s (.cleanup now batchSize locked)
        { s with store := { s.store with keys := s.store.keys.cleanup now batchSize locked } }
  | rates {change : RateChange} :
      Step cfg s (.rates change) (s.withDb (change.apply s.store.db))
  | clock {moment : Time} :
      Step cfg s (.clock moment) (s.withDb { s.store.db with clock := moment })

theorem step_inv {cfg : Config} {s s' : State} {a : Action} (h : step cfg s a = some s') :
    Step cfg s a s' := by
  cases a with
  | arrive userId key body =>
      simp only [step] at h
      split at h
      · rename_i hadm
        cases h
        exact .arrive hadm
      · cases h
  | request i a =>
      simp only [step] at h
      cases hr : s.requests[i]? with
      | none => rw [hr] at h; cases h
      | some r =>
          rw [hr, Option.map_eq_some_iff] at h
          obtain ⟨⟨st, pc⟩, hstep, rfl⟩ := h
          exact .request hr (requestStep_move hstep)
  | claimDue now batchSize locked =>
      rcases Tx.commit_cases (claimDue cfg.policy now batchSize locked) s.store.db with
        ⟨claimed, db, hrun, hcommit⟩ | ⟨f, hrun, hcommit⟩
      · simp only [step, hcommit, Option.some.injEq] at h
        subst h
        exact .claimDue hrun
      · simp only [step, hcommit, Option.some.injEq] at h
        subst h
        exact .claimRaised hrun
  | startReconcile transferId =>
      simp only [step, Option.some.injEq] at h
      subst h
      exact .startReconcile
  | reconcile k a =>
      simp only [step] at h
      cases hp : s.reconciles[k]? with
      | none => rw [hp] at h; cases h
      | some p =>
          rw [hp, Option.map_eq_some_iff] at h
          obtain ⟨⟨st, pc⟩, hstep, rfl⟩ := h
          exact .reconcile hp (reconcileStep_move hstep)
  | cleanup now batchSize locked =>
      simp only [step, Option.some.injEq] at h
      subst h
      exact .cleanup
  | rates change =>
      simp only [step, Option.some.injEq] at h
      subst h
      exact .rates
  | clock moment =>
      simp only [step, Option.some.injEq] at h
      subst h
      exact .clock

end LoyaltyTransfer
