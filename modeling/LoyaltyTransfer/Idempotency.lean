/-
# `LoyaltyTransfer.Idempotency` — one answer per idempotency key

`app/services/idempotency.py` and `scripts/cleanup_idempotency.py`, one SQL
statement a step: the rows of `idempotency_keys` are what is committed, and
between two statements of a `begin` any other caller may move.  What Redis
answers to a lock request is an input of the step, with no relation to who
holds the lock: nothing here may rest on it.

    begin     acquiring ─▶ contended ─▶ finished
              acquiring ─▶ claiming ─▶ (deleting ─▶) inserting ─▶ (reloading ─▶) finished
    complete  UPDATE … WHERE id = record AND status = IN_PROGRESS
    release   DELETE … WHERE id = record AND status = IN_PROGRESS
    cleanup   DELETE … WHERE expires_at <= now

The response body is a parameter: the table stores it and gives it back.

**Proved here.**  Every statement removes rows, inserts one under a fresh id,
or completes one (`beginStep_change`), and any of these keeps the ids and the
keys of the rows apart (`KeyTable.Sound.change`).
-/
import LoyaltyTransfer.Lib.Uppercase
import LoyaltyTransfer.Schema

namespace LoyaltyTransfer

/-! ## Fingerprints and keys -/

/-- The text a fingerprint is the digest of. -/
def fingerprintText (method path : String) (body : Json.Value) : String :=
  Unicode.upper method ++ "\n" ++ path ++ "\n" ++ Json.canonical body

/-- SHA-256 over method, path and canonical JSON. -/
def computeFingerprint (sha256 : String → String) (method path : String) (body : Json.Value) :
    String :=
  sha256 (fingerprintText method path body)

def maxKeyLength : Nat := 255

/-- `str.isascii` and `str.isprintable` of one character. -/
def printableAscii (c : Char) : Bool := decide (32 ≤ c.toNat) && decide (c.toNat < 127)

def validateIdempotencyKey (key : Option String) : Except DomainError String :=
  match nonempty key with
  | none => throw {
      code := .idempotencyKeyRequired
      detail := "Send a unique Idempotency-Key header (for example a UUID) with this request." }
  | some key =>
      if maxKeyLength < key.length ∨ !key.toList.all printableAscii then throw {
        code := .idempotencyKeyInvalid
        detail := s!"Idempotency-Key must be 1-{maxKeyLength} printable ASCII characters." }
      else pure key

/-! ## The table -/

inductive IdempotencyStatus where
  | inProgress
  | completed
  deriving DecidableEq, Repr

structure IdempotencyKey (β : Type) where
  id : Nat
  userId : String
  key : String
  requestFingerprint : String
  status : IdempotencyStatus
  responseStatusCode : Option Nat
  responseBody : Option β
  transferId : Option String
  createdAt : Time
  expiresAt : Time
  deriving DecidableEq

/-- The rows, and the next value of the identity sequence: an id is never used
twice, not even after its row is gone. -/
structure KeyTable (β : Type) where
  rows : List (IdempotencyKey β)
  nextId : Nat
  deriving DecidableEq

inductive BeginOutcome where
  | new
  | replay
  | conflictInProgress
  | conflictMismatch
  deriving DecidableEq, Repr

/-- `BeginResult`; the record of a NEW outcome is the id of its row. -/
structure BeginResult (β : Type) where
  outcome : BeginOutcome
  record : Option Nat := none
  statusCode : Option Nat := none
  body : Option β := none
  deriving DecidableEq

/-- `_key_ttl` and `_lock_ttl`. -/
structure KeyTtls where
  keyTtl : Time
  lockTtl : Time

section

variable {β : Type}

/-- `_load`. -/
def KeyTable.load (table : KeyTable β) (userId key : String) : Option (IdempotencyKey β) :=
  table.rows.find? fun r => decide (r.userId = userId ∧ r.key = key)

/-- `_replay`. -/
def replay (existing : IdempotencyKey β) : BeginResult β :=
  { outcome := .replay, statusCode := existing.responseStatusCode, body := existing.responseBody }

/-- `_classify`. -/
def classify (existing : IdempotencyKey β) (fingerprint : String) : BeginResult β :=
  if existing.requestFingerprint ≠ fingerprint then { outcome := .conflictMismatch }
  else if existing.status = .completed then replay existing
  else { outcome := .conflictInProgress }

/-- `_is_reusable`: expired, or in progress for longer than the lock lives. -/
def KeyTtls.isReusable (ttls : KeyTtls) (existing : IdempotencyKey β) (now : Time) : Bool :=
  decide (existing.expiresAt ≤ now) ||
    (decide (existing.status = .inProgress) && decide (existing.createdAt ≤ now - ttls.lockTtl))

/-- `DELETE … WHERE id = id`. -/
def KeyTable.delete (table : KeyTable β) (id : Nat) : KeyTable β :=
  { table with rows := table.rows.filter fun r => decide (r.id ≠ id) }

/-- `INSERT … ON CONFLICT DO NOTHING RETURNING id`. -/
def KeyTable.insert (table : KeyTable β) (ttls : KeyTtls) (userId key fingerprint : String)
    (now : Time) : Option (KeyTable β) :=
  if (table.load userId key).isSome then none
  else some {
    rows := table.rows ++ [{
      id := table.nextId, userId, key
      requestFingerprint := fingerprint
      status := .inProgress
      responseStatusCode := none
      responseBody := none
      transferId := none
      createdAt := now
      expiresAt := now + ttls.keyTtl }]
    nextId := table.nextId + 1 }

/-- `complete`: store the final response, if the row is still in progress. -/
def KeyTable.complete (table : KeyTable β) (record statusCode : Nat) (body : β)
    (transferId : Option String) : KeyTable β :=
  { table with
    rows := table.rows.map fun r =>
      if r.id = record ∧ r.status = .inProgress then
        { r with
          status := .completed
          responseStatusCode := some statusCode
          responseBody := some body
          transferId := transferId }
      else r }

/-- `release`: forget an unfinished key. -/
def KeyTable.release (table : KeyTable β) (record : Nat) : KeyTable β :=
  { table with
    rows := table.rows.filter fun r => decide ¬ (r.id = record ∧ r.status = .inProgress) }

/-- One batch of `delete_expired_keys`; SKIP LOCKED passes over `locked`. -/
def KeyTable.cleanup (table : KeyTable β) (now : Time) (batchSize : Nat) (locked : List Nat) :
    KeyTable β :=
  let batch := ((table.rows.filter fun r =>
    decide (r.expiresAt ≤ now) && !locked.contains r.id).take batchSize).map IdempotencyKey.id
  { table with rows := table.rows.filter fun r => !batch.contains r.id }

/-! ## `begin`, statement by statement -/

/-- What Redis answers to `SET NX PX`. -/
inductive LockAnswer where
  | acquired
  | held
  | unavailable
  deriving DecidableEq, Repr

/-- Where a `begin` stands. -/
inductive BeginPc (β : Type) where
  | acquiring
  | contended
  | claiming
  | deleting (id : Nat) (now : Time)
  | inserting (now : Time)
  | reloading
  | finished (r : BeginResult β)
  deriving DecidableEq

/-- What a step of `begin` takes from outside: the answer of Redis, or the
reading of its clock. -/
structure BeginInput where
  lock : LockAnswer
  now : Time

/-- The lock-contended path: a finished record still wins. -/
def contendedResult (existing : Option (IdempotencyKey β)) (fingerprint : String) :
    BeginResult β :=
  match existing with
  | some r =>
      if r.requestFingerprint ≠ fingerprint then { outcome := .conflictMismatch }
      else if r.status = .completed then replay r
      else { outcome := .conflictInProgress }
  | none => { outcome := .conflictInProgress }

/-- One statement of `begin`: the table it leaves and where the call stands. -/
def beginStep (ttls : KeyTtls) (userId key fingerprint : String) (input : BeginInput)
    (table : KeyTable β) : BeginPc β → KeyTable β × BeginPc β
  | .acquiring =>
      match input.lock with
      | .held => (table, .contended)
      | .acquired | .unavailable => (table, .claiming)
  | .contended => (table, .finished (contendedResult (table.load userId key) fingerprint))
  | .claiming =>
      match table.load userId key with
      | some existing =>
          if ttls.isReusable existing input.now then (table, .deleting existing.id input.now)
          else (table, .finished (classify existing fingerprint))
      | none => (table, .inserting input.now)
  | .deleting id now => (table.delete id, .inserting now)
  | .inserting now =>
      match table.insert ttls userId key fingerprint now with
      | some table' => (table', .finished { outcome := .new, record := some table.nextId })
      | none => (table, .reloading)
  | .reloading =>
      match table.load userId key with
      | some winner => (table, .finished (classify winner fingerprint))
      | none => (table, .finished { outcome := .conflictInProgress })
  | .finished r => (table, .finished r)

/-! ## What a statement can do -/

/-- The row a `begin` inserts. -/
def KeyTable.newRow (table : KeyTable β) (ttls : KeyTtls) (userId key fingerprint : String)
    (now : Time) : IdempotencyKey β :=
  ⟨table.nextId, userId, key, fingerprint, .inProgress, none, none, none, now, now + ttls.keyTtl⟩

/-- The row with a response stored in it. -/
def IdempotencyKey.answered (row : IdempotencyKey β) (statusCode : Nat) (body : β)
    (transferId : Option String) : IdempotencyKey β :=
  { row with
    status := .completed
    responseStatusCode := some statusCode
    responseBody := some body
    transferId := transferId }

inductive KeyChange (table : KeyTable β) : KeyTable β → Prop
  | removed {rows : List (IdempotencyKey β)} (h : rows.Sublist table.rows) :
      KeyChange table ⟨rows, table.nextId⟩
  | inserted {ttls : KeyTtls} {userId key fingerprint : String} {now : Time}
      (h : table.load userId key = none) :
      KeyChange table
        ⟨table.rows ++ [table.newRow ttls userId key fingerprint now], table.nextId + 1⟩
  | completed (record statusCode : Nat) (body : β) (transferId : Option String) :
      KeyChange table (table.complete record statusCode body transferId)

variable {table table' : KeyTable β}

theorem KeyChange.none : KeyChange table table := .removed (List.Sublist.refl _)

theorem delete_change (id : Nat) : KeyChange table (table.delete id) :=
  .removed List.filter_sublist

theorem release_change (record : Nat) : KeyChange table (table.release record) :=
  .removed List.filter_sublist

theorem cleanup_change (now : Time) (batchSize : Nat) (locked : List Nat) :
    KeyChange table (table.cleanup now batchSize locked) :=
  .removed List.filter_sublist

theorem insert_some {ttls : KeyTtls} {userId key fingerprint : String} {now : Time}
    (h : table.insert ttls userId key fingerprint now = some table') :
    table.load userId key = none ∧
      table' = ⟨table.rows ++ [table.newRow ttls userId key fingerprint now],
        table.nextId + 1⟩ := by
  simp only [KeyTable.insert] at h
  split at h
  · cases h
  · rename_i hload
    cases h
    exact ⟨by simpa using hload, rfl⟩

theorem beginStep_change {ttls : KeyTtls} {userId key fingerprint : String} {input : BeginInput}
    {pc pc' : BeginPc β}
    (h : beginStep ttls userId key fingerprint input table pc = (table', pc')) :
    KeyChange table table' := by
  cases pc with
  | acquiring =>
      simp only [beginStep] at h
      split at h <;> cases h <;> exact .none
  | contended => cases h; exact .none
  | claiming =>
      simp only [beginStep] at h
      split at h
      · split at h <;> cases h <;> exact .none
      · cases h; exact .none
  | deleting id now => cases h; exact delete_change id
  | inserting now =>
      simp only [beginStep] at h
      split at h
      · rename_i hins
        cases h
        obtain ⟨hload, rfl⟩ := insert_some hins
        exact .inserted hload
      · cases h; exact .none
  | reloading =>
      simp only [beginStep] at h
      split at h <;> cases h <;> exact .none
  | finished r => cases h; exact .none

/-- How a `begin` ends: with a row of its own, with a stored response, or with
a refusal. -/
inductive BeginEnd (ttls : KeyTtls) (userId key fingerprint : String) (table table' : KeyTable β)
    (result : BeginResult β) : Prop
  | new {now : Time} (hload : table.load userId key = none)
      (htable : table' = ⟨table.rows ++ [table.newRow ttls userId key fingerprint now],
        table.nextId + 1⟩)
      (hresult : result = { outcome := .new, record := some table.nextId })
  | replayed {row : IdempotencyKey β} (hload : table.load userId key = some row)
      (hfingerprint : row.requestFingerprint = fingerprint) (hdone : row.status = .completed)
      (htable : table' = table) (hresult : result = replay row)
  | refused (htable : table' = table)
      (hresult : result = { outcome := .conflictMismatch } ∨
        result = { outcome := .conflictInProgress })

theorem classify_end {ttls : KeyTtls} {userId key fingerprint : String} {row : IdempotencyKey β}
    (hload : table.load userId key = some row) :
    BeginEnd ttls userId key fingerprint table table (classify row fingerprint) := by
  by_cases hfp : row.requestFingerprint = fingerprint
  · by_cases hdone : row.status = .completed
    · exact .replayed hload hfp hdone rfl (by simp [classify, hfp, hdone])
    · exact .refused rfl (.inr (by simp [classify, hfp, hdone]))
  · exact .refused rfl (.inl (by simp [classify, hfp]))

theorem beginStep_finished {ttls : KeyTtls} {userId key fingerprint : String} {input : BeginInput}
    {pc : BeginPc β} {result : BeginResult β} (hpc : ∀ r, pc ≠ .finished r)
    (h : beginStep ttls userId key fingerprint input table pc = (table', .finished result)) :
    BeginEnd ttls userId key fingerprint table table' result := by
  cases pc with
  | acquiring =>
      simp only [beginStep] at h
      split at h <;> cases h
  | contended =>
      simp only [beginStep, Prod.mk.injEq, BeginPc.finished.injEq] at h
      obtain ⟨rfl, rfl⟩ := h
      cases hload : table.load userId key with
      | none => exact .refused rfl (.inr rfl)
      | some row =>
          have hsame : contendedResult (some row) fingerprint = classify row fingerprint := rfl
          rw [hsame]
          exact classify_end hload
  | claiming =>
      simp only [beginStep] at h
      split at h
      · rename_i row hload
        split at h
        · cases h
        · cases h
          exact classify_end hload
      · cases h
  | deleting id now => cases h
  | inserting now =>
      simp only [beginStep] at h
      split at h
      · rename_i hins
        cases h
        obtain ⟨hload, rfl⟩ := insert_some hins
        exact .new hload rfl rfl
      · cases h
  | reloading =>
      simp only [beginStep] at h
      split at h
      · rename_i row hload
        cases h
        exact classify_end hload
      · cases h
        exact .refused rfl (.inr rfl)
  | finished r => exact absurd rfl (hpc r)

/-- A statement adds at most the row of its own `begin`. -/
theorem mem_beginStep {ttls : KeyTtls} {userId key fingerprint : String} {input : BeginInput}
    {pc pc' : BeginPc β} {row : IdempotencyKey β}
    (h : beginStep ttls userId key fingerprint input table pc = (table', pc'))
    (hrow : row ∈ table'.rows) :
    row ∈ table.rows ∨ ∃ now, row = table.newRow ttls userId key fingerprint now := by
  cases pc with
  | acquiring =>
      simp only [beginStep] at h
      split at h <;> cases h <;> exact .inl hrow
  | contended => cases h; exact .inl hrow
  | claiming =>
      simp only [beginStep] at h
      split at h
      · split at h <;> cases h <;> exact .inl hrow
      · cases h; exact .inl hrow
  | deleting id now => cases h; exact .inl (List.mem_filter.mp hrow).1
  | inserting now =>
      simp only [beginStep] at h
      split at h
      · rename_i hins
        cases h
        obtain ⟨-, rfl⟩ := insert_some hins
        rcases List.mem_append.mp hrow with hrow | hrow
        · exact .inl hrow
        · exact .inr ⟨now, List.mem_singleton.mp hrow⟩
      · cases h; exact .inl hrow
  | reloading =>
      simp only [beginStep] at h
      split at h <;> cases h <;> exact .inl hrow
  | finished r => cases h; exact .inl hrow

theorem KeyChange.nextId_le (h : KeyChange table table') : table.nextId ≤ table'.nextId := by
  cases h with
  | removed => exact le_rfl
  | inserted => exact Nat.le_succ _
  | completed => exact le_rfl

/-! ## Ids and keys -/

/-- The identity sequence and the UNIQUE (user_id, key) constraint. -/
structure KeyTable.Sound (table : KeyTable β) : Prop where
  below : ∀ row ∈ table.rows, row.id < table.nextId
  ids : (table.rows.map IdempotencyKey.id).Nodup
  keys : table.rows.Pairwise fun a b => ¬ (a.userId = b.userId ∧ a.key = b.key)

/-- A completion changes only what it stores. -/
theorem complete_rows (record statusCode : Nat) (body : β) (transferId : Option String) :
    (table.complete record statusCode body transferId).rows = table.rows.map fun row =>
      if row.id = record ∧ row.status = .inProgress then
        row.answered statusCode body transferId
      else row := rfl

theorem mem_complete {record statusCode : Nat} {body : β} {transferId : Option String}
    {row' : IdempotencyKey β}
    (h : row' ∈ (table.complete record statusCode body transferId).rows) :
    row' ∈ table.rows ∨ ∃ row ∈ table.rows, row.id = record ∧ row.status = .inProgress ∧
      row' = row.answered statusCode body transferId := by
  rw [complete_rows] at h
  obtain ⟨row, hrow, rfl⟩ := List.mem_map.mp h
  split
  · rename_i hc
    exact .inr ⟨row, hrow, hc.1, hc.2, rfl⟩
  · exact .inl hrow

theorem load_some {userId key : String} {row : IdempotencyKey β}
    (h : table.load userId key = some row) :
    row ∈ table.rows ∧ row.userId = userId ∧ row.key = key := by
  refine ⟨List.mem_of_find?_eq_some h, ?_⟩
  simpa using List.find?_some h

theorem load_none {userId key : String} (h : table.load userId key = none)
    {row : IdempotencyKey β} (hrow : row ∈ table.rows) :
    ¬ (row.userId = userId ∧ row.key = key) := by
  simpa using List.find?_eq_none.mp h row hrow

theorem KeyTable.Sound.eq_of_id (h : table.Sound) {row row' : IdempotencyKey β}
    (hrow : row ∈ table.rows) (hrow' : row' ∈ table.rows) (hid : row.id = row'.id) : row = row' :=
  List.inj_on_of_nodup_map h.ids hrow hrow' hid

theorem KeyTable.Sound.eq_of_key (h : table.Sound) {row row' : IdempotencyKey β}
    (hrow : row ∈ table.rows) (hrow' : row' ∈ table.rows) (huser : row.userId = row'.userId)
    (hkey : row.key = row'.key) : row = row' := by
  by_contra hne
  have : Std.Symm fun a b : IdempotencyKey β => ¬ (a.userId = b.userId ∧ a.key = b.key) :=
    ⟨fun _ _ hab hba => hab ⟨hba.1.symm, hba.2.symm⟩⟩
  exact h.keys.forall hrow hrow' hne ⟨huser, hkey⟩

/-- The row of a key is the one `_load` finds. -/
theorem KeyTable.Sound.load_eq (h : table.Sound) {row : IdempotencyKey β}
    (hrow : row ∈ table.rows) : table.load row.userId row.key = some row := by
  cases hload : table.load row.userId row.key with
  | none => exact absurd ⟨rfl, rfl⟩ (load_none hload hrow)
  | some x =>
      obtain ⟨hx, huser, hkey⟩ := load_some hload
      rw [h.eq_of_key hx hrow huser hkey]

theorem KeyTable.Sound.change (h : table.Sound) (hc : KeyChange table table') : table'.Sound := by
  cases hc with
  | removed hsub =>
      refine ⟨?_, ?_, ?_⟩
      · intro row hrow
        exact h.below row (hsub.subset hrow)
      · exact h.ids.sublist (hsub.map _)
      · exact h.keys.sublist hsub
  | inserted hload =>
      refine ⟨?_, ?_, ?_⟩
      · intro row hrow
        rcases List.mem_append.mp hrow with hrow | hrow
        · exact Nat.lt_succ_of_lt (h.below row hrow)
        · rw [List.mem_singleton.mp hrow]
          exact Nat.lt_succ_self _
      · rw [List.map_append]
        refine List.nodup_append.mpr ⟨h.ids, by simp, ?_⟩
        intro x hx y hy hxy
        obtain ⟨row, hrow, rfl⟩ := List.mem_map.mp hx
        have hlt := h.below row hrow
        have hy : y = table.nextId := by simpa [KeyTable.newRow] using hy
        omega
      · refine List.pairwise_append.mpr ⟨h.keys, by simp, ?_⟩
        intro row hrow row' hrow'
        rw [List.mem_singleton.mp hrow']
        exact load_none hload hrow
  | completed record statusCode body transferId =>
      have hsame : ∀ row : IdempotencyKey β, ∀ p : Prop, ∀ [Decidable p],
          (if p then row.answered statusCode body transferId else row).id = row.id ∧
          (if p then row.answered statusCode body transferId else row).userId = row.userId ∧
          (if p then row.answered statusCode body transferId else row).key = row.key := by
        intro row p _
        split <;> exact ⟨rfl, rfl, rfl⟩
      refine ⟨?_, ?_, ?_⟩
      · intro row' hrow'
        rw [complete_rows] at hrow'
        obtain ⟨row, hrow, rfl⟩ := List.mem_map.mp hrow'
        rw [(hsame row _).1]
        exact h.below row hrow
      · rw [complete_rows, List.map_map]
        have hid : (IdempotencyKey.id ∘ fun row : IdempotencyKey β =>
            if row.id = record ∧ row.status = .inProgress then
              row.answered statusCode body transferId
            else row) = IdempotencyKey.id := by
          funext row
          exact (hsame row _).1
        rw [hid]
        exact h.ids
      · rw [complete_rows]
        refine List.pairwise_map.mpr (h.keys.imp ?_)
        intro a b hab
        rw [(hsame a _).2.1, (hsame a _).2.2, (hsame b _).2.1, (hsame b _).2.2]
        exact hab

end

end LoyaltyTransfer
