/-
# `LoyaltyTransfer.Locking` — what the Redis lock adds

`KeyStore` lets Redis answer anything.  Here it is the server it is: `SET NX PX` sets
a free key until a deadline, the release script deletes a key that still holds the
caller's token, and commands and answers may be lost.

    begin     acquiring ─▶ beginning ─▶ handling        the lock is kept with the record
                                └─▶ unlocking           every other outcome, and any fault
    complete  handling ─▶ unlocking
    release   handling ─▶ unlocking
    unlock    unlocking ─▶ ended

Redis and the service read one clock.

**Proved here.**

    whatever Redis does, this is `KeyStore` again                    (`locks_refine`)
    a held lock is freed by its own request and by time              (`lock_lasts`)
    no row is taken from a request whose lock has not expired        (`owner_keeps_row`)
    while Redis answers and nobody outstays the lock, one request
    of a key at a time claims it, and claims it in one piece         (`lock_serialises`)
-/
import LoyaltyTransfer.Exclusion
import LoyaltyTransfer.Lib.Lease

namespace LoyaltyTransfer

/-! ## The system -/

/-- `px` is `int(lock_ttl.total_seconds() * 1000)` milliseconds; in floating point that
may be one millisecond short. -/
structure LockConfig where
  ttls : KeyTtls
  px : Time
  px_pos : 0 < px
  px_le : px ≤ ttls.lockTtl
  sha256 : String → String

/-- `_lock_key`. -/
def LockConfig.lockKey (cfg : LockConfig) (userId key : String) : String :=
  "idempotency:lock:" ++ userId ++ ":" ++ cfg.sha256 key

/-- Where a request stands.  `lock` is the deadline of the lock it was granted, if it
was; what the code keeps of it is the token. -/
inductive LockPc (β : Type) where
  | acquiring
  | beginning (lock : Option Time) (pc : BeginPc β)
  | handling (lock : Option Time) (record : Nat)
  | unlocking (lock : Option Time) (result : Option (BeginResult β))
  | ended (result : Option (BeginResult β))
  deriving DecidableEq

structure LockCall (β : Type) where
  userId : String
  key : String
  fingerprint : String
  token : String
  pc : LockPc β
  deriving DecidableEq

structure LockState (β : Type) where
  redis : Lease.Store String String Time
  table : KeyTable β
  calls : List (LockCall β)
  clock : Time

/-- No lock, no row and no call yet. -/
def LockState.empty {β : Type} : LockState β := ⟨fun _ => none, ⟨[], 1⟩, [], 0⟩

/-- What one request does next.  `applied`: the SET took effect though its answer was
lost; `reached`: the release script was run; `fault`: the claim raises, and the lock is
released; `crash`: the process dies, or `complete` or `release` raises, and the lock is
left to expire.  A transaction that fails has done nothing, so it fails before its first
write. -/
inductive CallAction (β : Type) where
  | acquire
  | acquireFails (applied : Bool)
  | statement
  | complete (statusCode : Nat) (body : β) (transferId : Option String)
  | release
  | unlock (reached : Bool)
  | fault
  | crash

inductive LockAction (β : Type) where
  | call (userId key fingerprint token : String)
  | step (i : Nat) (now : Time) (a : CallAction β)
  | lose (lockKey : String)
  | cleanup (now : Time) (batchSize : Nat) (locked : List Nat)

/-- After a statement of `begin`: with a record the lock is kept, else it is released. -/
def afterStatement {β : Type} (lock : Option Time) : BeginPc β → LockPc β
  | .finished result =>
      match result.outcome, result.record with
      | .new, some record => .handling lock record
      | _, _ => .unlocking lock (some result)
  | pc => .beginning lock pc

/-- The lock a request has and has not given up. -/
def LockPc.lock? {β : Type} : LockPc β → Option Time
  | .beginning lock _ | .handling lock _ | .unlocking lock _ => lock
  | _ => none

section

variable {β : Type} (cfg : LockConfig)

def lockCallStep (c : LockCall β) (now : Time) (redis : Lease.Store String String Time)
    (table : KeyTable β) : CallAction β → Option (Lease.Store String String Time ×
      KeyTable β × LockPc β)
  | .acquire =>
      match c.pc with
      | .acquiring =>
          let (granted, redis) := redis.setNx now (cfg.lockKey c.userId c.key) c.token
            (now + cfg.px)
          let answer := if granted then LockAnswer.acquired else .held
          some (redis, table, .beginning (if granted then some (now + cfg.px) else none)
            (beginStep cfg.ttls c.userId c.key c.fingerprint ⟨answer, now⟩ table .acquiring).2)
      | _ => none
  | .acquireFails applied =>
      match c.pc with
      | .acquiring =>
          let set := redis.setNx now (cfg.lockKey c.userId c.key) c.token (now + cfg.px)
          some (if applied then set.2 else redis, table, .beginning none
            (beginStep cfg.ttls c.userId c.key c.fingerprint ⟨.unavailable, now⟩ table
              .acquiring).2)
      | _ => none
  | .statement =>
      match c.pc with
      | .beginning lock pc =>
          let (table, pc) := beginStep cfg.ttls c.userId c.key c.fingerprint ⟨.unavailable, now⟩
            table pc
          some (redis, table, afterStatement lock pc)
      | _ => none
  | .complete statusCode body transferId =>
      match c.pc with
      | .handling lock record =>
          some (redis, table.complete record statusCode body transferId, .unlocking lock none)
      | _ => none
  | .release =>
      match c.pc with
      | .handling lock record => some (redis, table.release record, .unlocking lock none)
      | _ => none
  | .unlock reached =>
      match c.pc with
      | .unlocking lock result =>
          some (if lock.isSome && reached then
              redis.compareDelete now (cfg.lockKey c.userId c.key) c.token
            else redis, table, .ended result)
      | _ => none
  | .fault =>
      match c.pc with
      | .beginning lock .contended | .beginning lock .claiming | .beginning lock (.deleting _ _)
      -- the COMMIT took effect, and its answer was lost
      | .handling lock _ => some (redis, table, .unlocking lock none)
      | _ => none
  | .crash =>
      match c.pc with
      | .beginning _ (.inserting _) | .beginning _ .reloading | .ended _ => none
      | _ => some (redis, table, .ended none)

/-- One step; time does not run backwards, and no two requests draw one token. -/
def lockingStep (s : LockState β) : LockAction β → Option (LockState β)
  | .call userId key fingerprint token =>
      if token ∈ s.calls.map LockCall.token then none
      else some { s with calls := s.calls ++ [⟨userId, key, fingerprint, token, .acquiring⟩] }
  | .step i now a =>
      if s.clock ≤ now then
        match s.calls[i]? with
        | some c => (lockCallStep cfg c now s.redis s.table a).map fun (redis, table, pc) =>
            ⟨redis, table, s.calls.set i { c with pc }, now⟩
        | none => none
      else none
  | .lose lockKey => some { s with redis := s.redis.lose lockKey }
  | .cleanup now batchSize locked =>
      if s.clock ≤ now then
        some { s with table := s.table.cleanup now batchSize locked, clock := now }
      else none

end

/-! ## What a step can do -/

section

variable {β : Type}

inductive LockCallMove (cfg : LockConfig) (c : LockCall β) (now : Time)
    (redis : Lease.Store String String Time) (table : KeyTable β) :
    CallAction β → Lease.Store String String Time → KeyTable β → LockPc β → Prop
  | granted {redis' : Lease.Store String String Time} (hpc : c.pc = .acquiring)
      (hset : redis.setNx now (cfg.lockKey c.userId c.key) c.token (now + cfg.px) =
        (true, redis')) :
      LockCallMove cfg c now redis table .acquire redis' table
        (.beginning (some (now + cfg.px)) .claiming)
  | refused {holder : String} {deadline : Time} (hpc : c.pc = .acquiring)
      (hheld : redis.Holds now (cfg.lockKey c.userId c.key) holder deadline) :
      LockCallMove cfg c now redis table .acquire redis table (.beginning none .contended)
  | unanswered {applied : Bool} {redis' : Lease.Store String String Time}
      (hpc : c.pc = .acquiring) (hredis : redis' = redis ∨ redis' =
        (redis.setNx now (cfg.lockKey c.userId c.key) c.token (now + cfg.px)).2) :
      LockCallMove cfg c now redis table (.acquireFails applied) redis' table
        (.beginning none .claiming)
  | statement {lock : Option Time} {pc pc' : BeginPc β} {table' : KeyTable β}
      (hpc : c.pc = .beginning lock pc)
      (hb : beginStep cfg.ttls c.userId c.key c.fingerprint ⟨.unavailable, now⟩ table pc =
        (table', pc')) :
      LockCallMove cfg c now redis table .statement redis table' (afterStatement lock pc')
  | completed {lock : Option Time} {record statusCode : Nat} {body : β}
      {transferId : Option String} (hpc : c.pc = .handling lock record) :
      LockCallMove cfg c now redis table (.complete statusCode body transferId) redis
        (table.complete record statusCode body transferId) (.unlocking lock none)
  | released {lock : Option Time} {record : Nat} (hpc : c.pc = .handling lock record) :
      LockCallMove cfg c now redis table .release redis (table.release record)
        (.unlocking lock none)
  | unlocked {reached : Bool} {lock : Option Time} {result : Option (BeginResult β)}
      {redis' : Lease.Store String String Time} (hpc : c.pc = .unlocking lock result)
      (hredis : redis' = redis ∨ redis' =
        redis.compareDelete now (cfg.lockKey c.userId c.key) c.token) :
      LockCallMove cfg c now redis table (.unlock reached) redis' table (.ended result)
  | raised {lock : Option Time} (hlock : c.pc.lock? = lock) :
      LockCallMove cfg c now redis table .fault redis table (.unlocking lock none)
  | stopped : LockCallMove cfg c now redis table .crash redis table (.ended none)

variable {cfg : LockConfig} {c : LockCall β} {now : Time}
  {redis redis' : Lease.Store String String Time} {table table' : KeyTable β}
  {act : CallAction β} {pc : LockPc β}

theorem lockCallStep_move (h : lockCallStep cfg c now redis table act = some (redis', table', pc)) :
    LockCallMove cfg c now redis table act redis' table' pc := by
  cases act with
  | acquire =>
      cases hpc : c.pc with
      | acquiring =>
          simp only [lockCallStep, hpc] at h
          rcases Lease.setNx_cases redis now (cfg.lockKey c.userId c.key) c.token
            (now + cfg.px) with ⟨holder, deadline, hheld, heq⟩ | heq
          · rw [heq] at h
            cases h
            exact .refused hpc hheld
          · rw [heq] at h
            cases h
            exact .granted hpc heq
      | _ => simp [lockCallStep, hpc] at h
  | acquireFails applied =>
      cases hpc : c.pc with
      | acquiring =>
          simp only [lockCallStep, hpc] at h
          cases h
          refine .unanswered hpc ?_
          cases applied with
          | true => exact .inr rfl
          | false => exact .inl rfl
      | _ => simp [lockCallStep, hpc] at h
  | statement =>
      cases hpc : c.pc with
      | beginning lock bpc =>
          simp only [lockCallStep, hpc] at h
          cases h
          exact .statement hpc rfl
      | _ => simp [lockCallStep, hpc] at h
  | complete statusCode body transferId =>
      cases hpc : c.pc with
      | handling lock record =>
          simp only [lockCallStep, hpc] at h
          cases h
          exact .completed hpc
      | _ => simp [lockCallStep, hpc] at h
  | release =>
      cases hpc : c.pc with
      | handling lock record =>
          simp only [lockCallStep, hpc] at h
          cases h
          exact .released hpc
      | _ => simp [lockCallStep, hpc] at h
  | unlock reached =>
      cases hpc : c.pc with
      | unlocking lock result =>
          simp only [lockCallStep, hpc] at h
          cases h
          refine .unlocked hpc ?_
          split
          · exact .inr rfl
          · exact .inl rfl
      | _ => simp [lockCallStep, hpc] at h
  | fault =>
      cases hpc : c.pc with
      | beginning lock bpc =>
          cases bpc <;> simp only [lockCallStep, hpc, reduceCtorEq] at h <;> cases h <;>
            exact .raised (by rw [hpc]; rfl)
      | handling lock record =>
          simp only [lockCallStep, hpc] at h
          cases h
          exact .raised (by rw [hpc]; rfl)
      | _ => simp [lockCallStep, hpc] at h
  | crash =>
      cases hpc : c.pc with
      | beginning lock bpc =>
          cases bpc <;> simp only [lockCallStep, hpc, reduceCtorEq] at h <;> cases h <;>
            exact .stopped
      | ended result => simp [lockCallStep, hpc] at h
      | _ =>
          simp only [lockCallStep, hpc] at h
          cases h
          exact .stopped

inductive LockMove (cfg : LockConfig) (s : LockState β) : LockAction β → LockState β → Prop
  | call {userId key fingerprint token : String} (htoken : token ∉ s.calls.map LockCall.token) :
      LockMove cfg s (.call userId key fingerprint token)
        { s with calls := s.calls ++ [⟨userId, key, fingerprint, token, .acquiring⟩] }
  | step {i : Nat} {c : LockCall β} {now : Time} {act : CallAction β}
      {redis : Lease.Store String String Time} {table : KeyTable β} {pc : LockPc β}
      (hc : s.calls[i]? = some c) (hnow : s.clock ≤ now)
      (hm : LockCallMove cfg c now s.redis s.table act redis table pc) :
      LockMove cfg s (.step i now act) ⟨redis, table, s.calls.set i { c with pc }, now⟩
  | lose (lockKey : String) : LockMove cfg s (.lose lockKey)
      { s with redis := s.redis.lose lockKey }
  | cleanup {now : Time} {batchSize : Nat} {locked : List Nat} (hnow : s.clock ≤ now) :
      LockMove cfg s (.cleanup now batchSize locked)
        { s with table := s.table.cleanup now batchSize locked, clock := now }

theorem lockingStep_move {s s' : LockState β} {a : LockAction β}
    (h : lockingStep cfg s a = some s') : LockMove cfg s a s' := by
  cases a with
  | call userId key fingerprint token =>
      simp only [lockingStep] at h
      split at h
      · cases h
      · rename_i htoken
        cases h
        exact .call htoken
  | step i now act =>
      simp only [lockingStep] at h
      split at h
      · rename_i hnow
        cases hc : s.calls[i]? with
        | none => rw [hc] at h; cases h
        | some c =>
            simp only [hc, Option.map_eq_some_iff] at h
            obtain ⟨⟨redis, table, pc⟩, hstep, rfl⟩ := h
            exact .step hc hnow (lockCallStep_move hstep)
      · cases h
  | lose lockKey => cases h; exact .lose lockKey
  | cleanup now batchSize locked =>
      simp only [lockingStep] at h
      split at h
      · rename_i hnow
        cases h
        exact .cleanup hnow
      · cases h

end

/-! ## Redis forgotten -/

section

variable {β : Type} {cfg : LockConfig} {s s' : LockState β} {ks : KeyState β} {a : LockAction β}

/-- Where the `begin` of a request stands. -/
def LockPc.Shows : LockPc β → BeginPc β → Prop
  | .acquiring, pc => pc = .acquiring
  | .beginning _ pc, pc' => pc' = pc
  | .handling _ record, pc => ∃ r, pc = .finished r ∧ r.outcome = .new ∧ r.record = some record
  | .unlocking _ (some r), pc | .ended (some r), pc => pc = .finished r
  | _, _ => True

structure LockCall.Shows (c : LockCall β) (k : BeginCall β) : Prop where
  userId : k.userId = c.userId
  key : k.key = c.key
  fingerprint : k.fingerprint = c.fingerprint
  pc : c.pc.Shows k.pc

/-- The key store under the locks. -/
structure Refines (s : LockState β) (ks : KeyState β) : Prop where
  table : ks.table = s.table
  length : ks.calls.length = s.calls.length
  calls : ∀ (i : Nat) c, s.calls[i]? = some c → ∃ k, ks.calls[i]? = some k ∧ c.Shows k

theorem afterStatement_shows (lock : Option Time) (pc : BeginPc β) :
    (afterStatement lock pc).Shows pc := by
  cases pc with
  | finished r =>
      simp only [afterStatement]
      split
      · rename_i hnew hrecord
        exact ⟨r, rfl, hnew, hrecord⟩
      · exact rfl
  | _ => exact rfl

/-- One call goes on, the others stay. -/
theorem Refines.set (h : Refines s ks) {i : Nat} {c : LockCall β} {k : BeginCall β}
    {pc : LockPc β} {kpc : BeginPc β} (hk : c.Shows k) (hpc : pc.Shows kpc)
    {redis : Lease.Store String String Time} {table : KeyTable β} {clock : Time} :
    Refines ⟨redis, table, s.calls.set i { c with pc }, clock⟩
      ⟨table, ks.calls.set i { k with pc := kpc }⟩ where
  table := rfl
  length := by simp [h.length]
  calls := by
    intro j c' hc'
    rcases Runs.getElem?_set_cases hc' with ⟨rfl, rfl⟩ | ⟨hne, hold⟩
    · have hlt : j < s.calls.length := by
        have := (List.getElem?_eq_some_iff.mp hc').1
        rwa [List.length_set] at this
      refine ⟨{ k with pc := kpc }, ?_, hk.userId, hk.key, hk.fingerprint, hpc⟩
      rw [List.getElem?_set_self (by rw [h.length]; exact hlt)]
    · obtain ⟨k', hk', hshows⟩ := h.calls j c' hold
      exact ⟨k', by rw [List.getElem?_set_ne (Ne.symm hne)]; exact hk', hshows⟩

/-- A call goes on where its `begin` is over. -/
theorem Refines.idle (h : Refines s ks) {i : Nat} {c : LockCall β} {k : BeginCall β}
    (pc : LockPc β) (hki : ks.calls[i]? = some k) (hk : c.Shows k) (hpc : pc.Shows k.pc)
    {redis : Lease.Store String String Time} {table : KeyTable β} {clock : Time}
    {ks' : KeyState β} (htable : ks'.table = table) (hcalls : ks'.calls = ks.calls) :
    Refines ⟨redis, table, s.calls.set i { c with pc }, clock⟩ ks' := by
  have hset : ks.calls.set i { k with pc := k.pc } = ks'.calls := by
    obtain ⟨hlt, hget⟩ := List.getElem?_eq_some_iff.mp hki
    rw [hcalls, ← hget, List.set_getElem_self]
  have hrefines : Refines ⟨redis, table, s.calls.set i { c with pc }, clock⟩
      ⟨table, ks.calls.set i { k with pc := k.pc }⟩ := h.set hk hpc
  rw [hset] at hrefines
  exact ⟨htable, hrefines.length, hrefines.calls⟩

theorem LockCallMove.refines {i : Nat} {c : LockCall β} {now : Time} {act : CallAction β}
    {redis : Lease.Store String String Time} {table : KeyTable β} {pc : LockPc β}
    (hm : LockCallMove cfg c now s.redis s.table act redis table pc) (h : Refines s ks)
    (hc : s.calls[i]? = some c) :
    ∃ as ks', Runs.run (keyStep cfg.ttls) ks as = some ks' ∧
      Refines ⟨redis, table, s.calls.set i { c with pc }, now⟩ ks' := by
  obtain ⟨k, hki, hk⟩ := h.calls i c hc
  have hpc := hk.pc
  have hstatement : ∀ (input : BeginInput) {kpc kpc' : BeginPc β} {table' : KeyTable β}
      {pc' : LockPc β}, k.pc = kpc →
      beginStep cfg.ttls c.userId c.key c.fingerprint input s.table kpc = (table', kpc') →
      pc'.Shows kpc' → ∃ as ks', Runs.run (keyStep cfg.ttls) ks as = some ks' ∧
        Refines ⟨redis, table', s.calls.set i { c with pc := pc' }, now⟩ ks' := by
    intro input kpc kpc' table' pc' hkpc hb hshows
    refine ⟨[.statement i input], ⟨table', ks.calls.set i { k with pc := kpc' }⟩, ?_,
      h.set hk hshows⟩
    simp only [Runs.run, keyStep, hki, hkpc, h.table, hk.userId, hk.key, hk.fingerprint, hb,
      Option.bind_some]
  cases hm with
  | granted hacq =>
      rw [hacq] at hpc
      exact hstatement ⟨.acquired, now⟩ hpc rfl rfl
  | refused hacq =>
      rw [hacq] at hpc
      exact hstatement ⟨.held, now⟩ hpc rfl rfl
  | unanswered hacq =>
      rw [hacq] at hpc
      exact hstatement ⟨.unavailable, now⟩ hpc rfl rfl
  | statement hbeg hb =>
      rw [hbeg] at hpc
      exact hstatement _ hpc hb (afterStatement_shows _ _)
  | @completed lock record statusCode body transferId hhand =>
      refine ⟨[.complete record statusCode body transferId],
        ⟨s.table.complete record statusCode body transferId, ks.calls⟩, ?_,
        h.idle (.unlocking lock none) hki hk trivial rfl rfl⟩
      simp only [Runs.run, keyStep, h.table, Option.bind_some]
  | @released lock record hhand =>
      refine ⟨[.release record], ⟨s.table.release record, ks.calls⟩, ?_,
        h.idle (.unlocking lock none) hki hk trivial rfl rfl⟩
      simp only [Runs.run, keyStep, h.table, Option.bind_some]
  | @unlocked reached lock result redis hunl =>
      rw [hunl] at hpc
      have hshows : (LockPc.ended result).Shows k.pc := by
        cases result with
        | none => trivial
        | some r => exact hpc
      exact ⟨[], ks, rfl, h.idle _ hki hk hshows h.table rfl⟩
  | @raised lock pc => exact ⟨[], ks, rfl, h.idle (.unlocking lock none) hki hk trivial
      h.table rfl⟩
  | stopped => exact ⟨[], ks, rfl, h.idle (.ended none) hki hk trivial h.table rfl⟩

theorem LockMove.refines (hm : LockMove cfg s a s') (h : Refines s ks) :
    ∃ as ks', Runs.run (keyStep cfg.ttls) ks as = some ks' ∧ Refines s' ks' := by
  cases hm with
  | @call userId key fingerprint token htoken =>
      refine ⟨[.call userId key fingerprint],
        ⟨ks.table, ks.calls ++ [⟨userId, key, fingerprint, .acquiring⟩]⟩, rfl, h.table, ?_, ?_⟩
      · simp [h.length]
      · intro j c hc
        rcases Nat.lt_or_ge j s.calls.length with hlt | hge
        · rw [List.getElem?_append_left hlt] at hc
          obtain ⟨k, hk, hshows⟩ := h.calls j c hc
          exact ⟨k, by rw [List.getElem?_append_left (by rw [h.length]; exact hlt)]; exact hk,
            hshows⟩
        · rw [List.getElem?_append_right hge] at hc
          have hlast := List.mem_singleton.mp (List.mem_of_getElem? hc)
          have hzero : j - s.calls.length = 0 := by
            have := (List.getElem?_eq_some_iff.mp hc).1
            simp only [List.length_cons, List.length_nil] at this
            omega
          refine ⟨⟨userId, key, fingerprint, .acquiring⟩, ?_, ?_⟩
          · rw [List.getElem?_append_right (by rw [h.length]; exact hge), h.length, hzero]
            rfl
          · rw [hlast]
            exact ⟨rfl, rfl, rfl, rfl⟩
  | step hc hnow hm => exact hm.refines h hc
  | lose => exact ⟨[], ks, rfl, h.table, h.length, h.calls⟩
  | @cleanup now batchSize locked hnow =>
      refine ⟨[.cleanup now batchSize locked],
        ⟨s.table.cleanup now batchSize locked, ks.calls⟩, ?_, rfl, h.length, h.calls⟩
      simp only [Runs.run, keyStep, h.table, Option.bind_some]

/-- With its locks the service does what it does when Redis may answer anything: every
run of it is a run of the key store. -/
theorem locks_refine {as : List (LockAction β)}
    (h : Runs.run (lockingStep cfg) LockState.empty as = some s) :
    ∃ as' ks, Runs.run (keyStep cfg.ttls) KeyState.empty as' = some ks ∧ Refines s ks := by
  refine Runs.run_invariant (I := fun s => ∃ as' ks,
    Runs.run (keyStep cfg.ttls) KeyState.empty as' = some ks ∧ Refines s ks) ?_ ?_ h
  · rintro s a s' ⟨as₁, ks₁, hrun₁, href₁⟩ hstep
    obtain ⟨as₂, ks₂, hrun₂, href₂⟩ := (lockingStep_move hstep).refines href₁
    exact ⟨as₁ ++ as₂, ks₂, Runs.run_append.mpr ⟨ks₁, hrun₁, hrun₂⟩, href₂⟩
  · exact ⟨[], KeyState.empty, rfl, rfl, rfl, by simp [LockState.empty]⟩

end

/-! ## What a step leaves of the rows and the calls -/

section

variable {β : Type} {cfg : LockConfig} {c : LockCall β} {now : Time}
  {redis redis' : Lease.Store String String Time} {table table' : KeyTable β}
  {act : CallAction β} {pc : LockPc β} {row : IdempotencyKey β}

/-- A statement inserts the row of its own `begin`. -/
theorem beginStep_rows {userId key fingerprint : String} {input : BeginInput} {ttls : KeyTtls}
    {bpc bpc' : BeginPc β}
    (h : beginStep ttls userId key fingerprint input table bpc = (table', bpc'))
    (hrow : row ∈ table'.rows) :
    row ∈ table.rows ∨ ∃ moment, bpc = .inserting moment ∧
      row = table.newRow ttls userId key fingerprint moment := by
  cases bpc with
  | inserting moment =>
      simp only [beginStep] at h
      split at h
      · rename_i hins
        cases h
        obtain ⟨-, rfl⟩ := insert_some hins
        rcases List.mem_append.mp hrow with hrow | hrow
        · exact .inl hrow
        · exact .inr ⟨moment, rfl, List.mem_singleton.mp hrow⟩
      · cases h
        exact .inl hrow
  | deleting id moment =>
      cases h
      exact .inl (List.mem_filter.mp hrow).1
  | _ =>
      simp only [beginStep] at h
      repeat' split at h
      all_goals
        cases h
        exact .inl hrow

/-- Where the rows after a step come from. -/
theorem LockCallMove.rows (hm : LockCallMove cfg c now redis table act redis' table' pc)
    (hrow : row ∈ table'.rows) :
    row ∈ table.rows ∨
      (∃ lock moment, act = .statement ∧ c.pc = .beginning lock (.inserting moment) ∧
        row = table.newRow cfg.ttls c.userId c.key c.fingerprint moment) ∨
      ∃ lock x statusCode body transferId, x ∈ table.rows ∧ c.pc = .handling lock x.id ∧
        row = x.answered statusCode body transferId := by
  cases hm with
  | statement hpc hb =>
      rcases beginStep_rows hb hrow with hrow | ⟨moment, rfl, hrow⟩
      · exact .inl hrow
      · exact .inr (.inl ⟨_, moment, rfl, hpc, hrow⟩)
  | completed hpc =>
      rcases mem_complete hrow with hrow | ⟨x, hx, rfl, -, rfl⟩
      · exact .inl hrow
      · exact .inr (.inr ⟨_, x, _, _, _, hx, hpc, rfl⟩)
  | released => exact .inl (List.mem_filter.mp hrow).1
  | _ => exact .inl hrow

/-- Who changes a row or takes it away. -/
theorem LockCallMove.kept (hm : LockCallMove cfg c now redis table act redis' table' pc)
    (hrow : row ∈ table.rows) :
    row ∈ table'.rows ∨ (∃ lock moment, c.pc = .beginning lock (.deleting row.id moment)) ∨
      ∃ lock, c.pc = .handling lock row.id := by
  cases hm with
  | @statement lock bpc bpc' _ hpc hb =>
      cases bpc with
      | deleting id moment =>
          cases hb
          by_cases hid : row.id = id
          · exact .inr (.inl ⟨lock, moment, by rw [hpc, hid]⟩)
          · exact .inl (List.mem_filter.mpr ⟨hrow, by simpa using hid⟩)
      | inserting moment =>
          simp only [beginStep] at hb
          split at hb
          · rename_i hins
            cases hb
            obtain ⟨-, rfl⟩ := insert_some hins
            exact .inl (List.mem_append_left _ hrow)
          · cases hb
            exact .inl hrow
      | _ =>
          simp only [beginStep] at hb
          repeat' split at hb
          all_goals
            cases hb
            exact .inl hrow
  | @completed lock record statusCode body transferId hpc =>
      by_cases hid : row.id = record
      · exact .inr (.inr ⟨lock, by rw [hpc, hid]⟩)
      · refine .inl ?_
        rw [complete_rows]
        refine List.mem_map.mpr ⟨row, hrow, ?_⟩
        rw [if_neg fun h => hid h.1]
  | @released lock record hpc =>
      by_cases hid : row.id = record
      · exact .inr (.inr ⟨lock, by rw [hpc, hid]⟩)
      · refine .inl (List.mem_filter.mpr ⟨hrow, ?_⟩)
        simp [hid]
  | _ => exact .inl hrow

theorem LockCallMove.change (hm : LockCallMove cfg c now redis table act redis' table' pc) :
    KeyChange table table' := by
  cases hm with
  | statement hpc hb => exact beginStep_change hb
  | completed => exact .completed _ _ _ _
  | released => exact release_change _
  | _ => exact .none

/-- A cleanup takes expired rows only. -/
theorem mem_cleanup (hs : table.Sound) (hrow : row ∈ table.rows) (hlive : now < row.expiresAt)
    (batchSize : Nat) (locked : List Nat) : row ∈ (table.cleanup now batchSize locked).rows := by
  refine List.mem_filter.mpr ⟨hrow, ?_⟩
  rw [Bool.not_eq_true', ← Bool.not_eq_true, List.contains_iff_mem, List.mem_map]
  rintro ⟨x, hx, hid⟩
  have hx := List.mem_filter.mp (List.mem_of_mem_take hx)
  rw [hs.eq_of_id hx.1 hrow hid] at hx
  simp [not_le.mpr hlive] at hx

/-- What stands where after a statement. -/
theorem afterStatement_beginning {lock lock' : Option Time} {bpc bpc' : BeginPc β}
    (h : afterStatement lock bpc' = .beginning lock' bpc) :
    lock' = lock ∧ bpc = bpc' ∧ ∀ r, bpc ≠ .finished r := by
  cases bpc' with
  | finished r =>
      simp only [afterStatement] at h
      split at h <;> cases h
  | _ =>
      cases h
      exact ⟨rfl, rfl, by simp⟩

theorem afterStatement_handling {lock lock' : Option Time} {record : Nat} {bpc : BeginPc β}
    (h : afterStatement lock bpc = .handling lock' record) :
    lock' = lock ∧ ∃ r, bpc = .finished r ∧ r.outcome = .new ∧ r.record = some record := by
  cases bpc with
  | finished r =>
      simp only [afterStatement] at h
      split at h
      · rename_i hnew hrecord
        cases h
        exact ⟨rfl, r, rfl, hnew, hrecord⟩
      · cases h
  | _ => cases h

theorem afterStatement_lock (lock : Option Time) (bpc : BeginPc β) :
    (afterStatement lock bpc).lock? = lock := by
  cases bpc with
  | finished r =>
      simp only [afterStatement]
      split <;> rfl
  | _ => rfl

/-- A call comes to its DELETE by reading the row. -/
theorem beginStep_decides {userId key fingerprint : String} {input : BeginInput} {ttls : KeyTtls}
    {bpc : BeginPc β} {id : Nat} {moment : Time}
    (h : beginStep ttls userId key fingerprint input table bpc = (table', .deleting id moment)) :
    moment = input.now ∧ table' = table ∧ ∃ row, table.load userId key = some row ∧
      row.id = id ∧ ttls.isReusable row moment = true := by
  cases bpc with
  | claiming =>
      simp only [beginStep] at h
      split at h
      · rename_i existing hload
        split at h
        · rename_i hreuse
          cases h
          exact ⟨rfl, rfl, existing, hload, rfl, hreuse⟩
        · cases h
      · cases h
  | _ =>
      simp only [beginStep] at h
      repeat' split at h
      all_goals cases h

/-- A call comes to its INSERT past its own DELETE, or where there is no row. -/
theorem beginStep_inserting {userId key fingerprint : String} {input : BeginInput}
    {ttls : KeyTtls} {bpc : BeginPc β} {moment : Time}
    (h : beginStep ttls userId key fingerprint input table bpc = (table', .inserting moment)) :
    (bpc = .claiming ∧ moment = input.now ∧ table' = table ∧ table.load userId key = none) ∨
      ∃ id, bpc = .deleting id moment ∧ table' = table.delete id := by
  cases bpc with
  | claiming =>
      simp only [beginStep] at h
      split at h
      · split at h <;> cases h
      · rename_i hload
        cases h
        exact .inl ⟨rfl, rfl, rfl, hload⟩
  | deleting id moment' =>
      cases h
      exact .inr ⟨id, rfl, rfl⟩
  | _ =>
      simp only [beginStep] at h
      repeat' split at h
      all_goals cases h

theorem classify_outcome (row : IdempotencyKey β) (fingerprint : String) :
    (classify row fingerprint).outcome ≠ .new := by
  rw [classify]
  split
  · simp
  · split <;> simp [replay]

theorem contendedResult_outcome (existing : Option (IdempotencyKey β)) (fingerprint : String) :
    (contendedResult existing fingerprint).outcome ≠ .new := by
  cases existing with
  | none => simp [contendedResult]
  | some row => exact classify_outcome row fingerprint

theorem beginStep_record {userId key fingerprint : String} {input : BeginInput} {ttls : KeyTtls}
    {bpc bpc' : BeginPc β} {lock lock' : Option Time} {record : Nat}
    (h : beginStep ttls userId key fingerprint input table bpc = (table', bpc'))
    (hfin : ∀ r, bpc ≠ .finished r) (hpc : afterStatement lock bpc' = .handling lock' record) :
    lock' = lock ∧ record = table.nextId ∧ ∃ moment, bpc = .inserting moment ∧ table' =
      ⟨table.rows ++ [table.newRow ttls userId key fingerprint moment], table.nextId + 1⟩ := by
  obtain ⟨hlock, r, rfl, hnew, hrecord⟩ := afterStatement_handling hpc
  cases bpc with
  | inserting moment =>
      simp only [beginStep] at h
      split at h
      · rename_i hins
        obtain ⟨-, rfl⟩ := insert_some hins
        cases h
        cases hrecord
        exact ⟨hlock, rfl, moment, rfl, rfl⟩
      · cases h
  | finished r => exact absurd rfl (hfin r)
  | contended =>
      cases h
      exact absurd hnew (contendedResult_outcome _ _)
  | _ =>
      simp only [beginStep] at h
      repeat' split at h
      all_goals cases h
      all_goals first
        | exact absurd hnew (classify_outcome _ _)
        | cases hnew

variable {s s' : LockState β} {a : LockAction β}

/-- The call of a number after a step: it did nothing, it is new, or the step is its own. -/
theorem LockMove.call_at {i : Nat} (hm : LockMove cfg s a s') (hc : s'.calls[i]? = some c) :
    (s.calls[i]? = some c ∧ ∀ moment act, a ≠ .step i moment act) ∨ c.pc = .acquiring ∨
      ∃ c₀ act, a = .step i s'.clock act ∧ s.calls[i]? = some c₀ ∧
        LockCallMove cfg c₀ s'.clock s.redis s.table act s'.redis s'.table c.pc ∧
        c = { c₀ with pc := c.pc } := by
  cases hm with
  | call htoken =>
      rcases Nat.lt_or_ge i s.calls.length with hlt | hge
      · rw [List.getElem?_append_left hlt] at hc
        exact .inl ⟨hc, by simp⟩
      · rw [List.getElem?_append_right hge] at hc
        rw [List.mem_singleton.mp (List.mem_of_getElem? hc)]
        exact .inr (.inl rfl)
  | @step j c₀ moment act redis table pc hc₀ hnow hcall =>
      rcases Runs.getElem?_set_cases hc with ⟨rfl, rfl⟩ | ⟨hne, hold⟩
      · exact .inr (.inr ⟨c₀, act, rfl, hc₀, hcall, rfl⟩)
      · refine .inl ⟨hold, ?_⟩
        intro moment' act' heq
        cases heq
        exact hne rfl
  | _ => exact .inl ⟨hc, by simp⟩

theorem LockMove.clock_le (hm : LockMove cfg s a s') : s.clock ≤ s'.clock := by
  cases hm with
  | step hc hnow => exact hnow
  | cleanup hnow => exact hnow
  | _ => exact le_refl _

theorem LockMove.change (hm : LockMove cfg s a s') : KeyChange s.table s'.table := by
  cases hm with
  | step hc hnow hcall => exact hcall.change
  | cleanup => exact cleanup_change _ _ _
  | _ => exact .none

theorem LockMove.rows (hm : LockMove cfg s a s') (hrow : row ∈ s'.table.rows) :
    row ∈ s.table.rows ∨
      (∃ j c lock moment, s.calls[j]? = some c ∧ a = .step j s'.clock .statement ∧
        c.pc = .beginning lock (.inserting moment) ∧
        row = s.table.newRow cfg.ttls c.userId c.key c.fingerprint moment) ∨
      ∃ x statusCode body transferId, x ∈ s.table.rows ∧
        row = x.answered statusCode body transferId := by
  cases hm with
  | @step j c now act redis table pc hc hnow hcall =>
      rcases hcall.rows hrow with hrow | ⟨lock, moment, rfl, hpc, hrow⟩ |
        ⟨-, x, _, _, _, hx, -, hrow⟩
      · exact .inl hrow
      · exact .inr (.inl ⟨j, c, lock, moment, hc, rfl, hpc, hrow⟩)
      · exact .inr (.inr ⟨x, _, _, _, hx, hrow⟩)
  | cleanup => exact .inl (List.mem_filter.mp hrow).1
  | _ => exact .inl hrow

/-- Who takes a row away: the one that decided to, its owner, or the cleanup. -/
theorem LockMove.kept (hm : LockMove cfg s a s') (hs : s.table.Sound)
    (hrow : row ∈ s.table.rows) :
    row ∈ s'.table.rows ∨ row.expiresAt ≤ s'.clock ∨
      ∃ j c moment act, a = .step j moment act ∧ s.calls[j]? = some c ∧
        ((∃ lock moment, c.pc = .beginning lock (.deleting row.id moment)) ∨
          ∃ lock, c.pc = .handling lock row.id) := by
  cases hm with
  | @step j c now act redis table pc hc hnow hcall =>
      rcases hcall.kept hrow with hrow | hpc
      · exact .inl hrow
      · exact .inr (.inr ⟨j, c, now, act, rfl, hc, hpc⟩)
  | @cleanup now batchSize locked hnow =>
      rcases lt_or_ge now row.expiresAt with hlive | hgone
      · exact .inl (mem_cleanup hs hrow hlive batchSize locked)
      · exact .inr (.inl hgone)
  | _ => exact .inl hrow

end

/-! ## Locks and rows -/

section

variable {β : Type} {cfg : LockConfig} {s s' : LockState β} {a : LockAction β}

/-- A row that a `begin` with a lock until `d` inserts is at most `px` older. -/
def BeginPc.TimedBy (d px clock : Time) : BeginPc β → Prop
  | .acquiring | .claiming => d ≤ clock + px
  | .deleting _ moment | .inserting moment => d ≤ moment + px ∧ moment ≤ clock
  | _ => True

/-- What holds in every reachable state, whatever Redis does. -/
structure LockSound (cfg : LockConfig) (s : LockState β) : Prop where
  sound : s.table.Sound
  tokens : (s.calls.map LockCall.token).Nodup
  expiry : ∀ row ∈ s.table.rows, row.expiresAt = row.createdAt + cfg.ttls.keyTtl
  pending : ∀ (i : Nat) c lock r, s.calls[i]? = some c → c.pc ≠ .beginning lock (.finished r)
  decided : ∀ (i : Nat) c lock id moment, s.calls[i]? = some c →
    c.pc = .beginning lock (.deleting id moment) →
      moment ≤ s.clock ∧ id < s.table.nextId ∧ ∀ row ∈ s.table.rows, row.id = id →
        row.createdAt + min cfg.ttls.lockTtl cfg.ttls.keyTtl ≤ moment
  timed : ∀ (i : Nat) c d pc, s.calls[i]? = some c → c.pc = .beginning (some d) pc →
    pc.TimedBy d cfg.px s.clock
  used : ∀ (i : Nat) c lock record, s.calls[i]? = some c → c.pc = .handling lock record →
    record < s.table.nextId
  records : ∀ (i j : Nat) c c' lock lock' record, s.calls[i]? = some c → s.calls[j]? = some c' →
    c.pc = .handling lock record → c'.pc = .handling lock' record → i = j

theorem BeginPc.TimedBy.mono {d px clock later : Time} {pc : BeginPc β}
    (h : pc.TimedBy d px clock) (hlater : clock ≤ later) : pc.TimedBy d px later := by
  cases pc with
  | acquiring => exact le_trans h (by linarith)
  | claiming => exact le_trans h (by linarith)
  | deleting id moment => exact ⟨h.1, le_trans h.2 hlater⟩
  | inserting moment => exact ⟨h.1, le_trans h.2 hlater⟩
  | _ => trivial

theorem beginStep_timed {userId key fingerprint : String} {now d px : Time} {lock : LockAnswer}
    {ttls : KeyTtls} {table table' : KeyTable β} {pc pc' : BeginPc β}
    (h : beginStep ttls userId key fingerprint ⟨lock, now⟩ table pc = (table', pc'))
    (htimed : pc.TimedBy d px now) : pc'.TimedBy d px now := by
  cases pc with
  | acquiring =>
      simp only [beginStep] at h
      split at h <;> cases h
      · trivial
      · exact htimed
      · exact htimed
  | claiming =>
      simp only [beginStep] at h
      split at h
      · split at h <;> cases h
        · exact ⟨htimed, le_refl _⟩
        · trivial
      · cases h
        exact ⟨htimed, le_refl _⟩
  | deleting id moment =>
      cases h
      exact htimed
  | _ =>
      simp only [beginStep] at h
      repeat' split at h
      all_goals
        cases h
        trivial

theorem LockCallMove.pending {c : LockCall β} {now : Time} {act : CallAction β}
    {redis redis' : Lease.Store String String Time} {table table' : KeyTable β} {pc : LockPc β}
    (hm : LockCallMove cfg c now redis table act redis' table' pc) {lock : Option Time}
    {r : BeginResult β} : pc ≠ .beginning lock (.finished r) := by
  intro hpc
  cases hm with
  | statement => exact (afterStatement_beginning hpc).2.2 r rfl
  | _ => cases hpc

theorem LockSound.timed_own (h : LockSound cfg s) {i : Nat} {c : LockCall β}
    (hc : s.calls[i]? = some c) {now : Time} {act : CallAction β}
    {redis : Lease.Store String String Time} {table : KeyTable β} {pc : LockPc β}
    (hm : LockCallMove cfg c now s.redis s.table act redis table pc) (hnow : s.clock ≤ now)
    {d : Time} {bpc : BeginPc β} (hpc : pc = .beginning (some d) bpc) :
    bpc.TimedBy d cfg.px now := by
  cases hm with
  | granted =>
      cases hpc
      exact le_refl _
  | statement hbeg hb =>
      obtain ⟨rfl, rfl, -⟩ := afterStatement_beginning hpc
      exact beginStep_timed hb ((h.timed i c d _ hc hbeg).mono hnow)
  | _ => cases hpc

theorem LockSound.expiry_step (h : LockSound cfg s) (hm : LockMove cfg s a s') :
    ∀ row ∈ s'.table.rows, row.expiresAt = row.createdAt + cfg.ttls.keyTtl := by
  intro row hrow
  rcases hm.rows hrow with hrow | ⟨-, -, -, -, -, -, -, rfl⟩ | ⟨x, _, _, _, hx, rfl⟩
  · exact h.expiry row hrow
  · rfl
  · exact h.expiry x hx

theorem LockSound.tokens_step (h : LockSound cfg s) (hm : LockMove cfg s a s') :
    (s'.calls.map LockCall.token).Nodup := by
  cases hm with
  | call htoken =>
      rw [List.map_append]
      refine List.Nodup.append h.tokens (List.nodup_singleton _) ?_
      simpa using htoken
  | @step i c now act redis table pc hc hnow hcall =>
      have hsame : (s.calls.set i { c with pc }).map LockCall.token =
          s.calls.map LockCall.token := by
        obtain ⟨hlt, rfl⟩ := List.getElem?_eq_some_iff.mp hc
        rw [List.map_set]
        refine (congrArg _ ?_).trans (List.set_getElem_self (i := i) (by simpa using hlt))
        simp
      rw [hsame]
      exact h.tokens
  | _ => exact h.tokens

/-- A token is one call's. -/
theorem LockSound.eq_of_token (h : LockSound cfg s) {i j : Nat} {c c' : LockCall β}
    (hi : s.calls[i]? = some c) (hj : s.calls[j]? = some c') (htoken : c.token = c'.token) :
    i = j := by
  have hlt := (List.getElem?_eq_some_iff.mp hi).1
  refine (List.getElem?_inj (by simpa using hlt) h.tokens).mp ?_
  rw [List.getElem?_map, List.getElem?_map, hi, hj]
  exact congrArg some htoken

/-- A call that comes to its DELETE has just seen the row abandoned or expired. -/
theorem LockSound.decided_own (h : LockSound cfg s) {c : LockCall β} {now : Time}
    {act : CallAction β} {redis : Lease.Store String String Time} {table : KeyTable β}
    {pc : LockPc β} (hm : LockCallMove cfg c now s.redis s.table act redis table pc)
    {lock : Option Time} {id : Nat} {moment : Time}
    (hpc : pc = .beginning lock (.deleting id moment)) :
    moment = now ∧ table = s.table ∧ id < s.table.nextId ∧
      ∀ row ∈ s.table.rows, row.id = id →
        row.createdAt + min cfg.ttls.lockTtl cfg.ttls.keyTtl ≤ moment := by
  cases hm with
  | statement hbeg hb =>
      obtain ⟨rfl, rfl, -⟩ := afterStatement_beginning hpc
      obtain ⟨rfl, rfl, row, hload, rfl, hreuse⟩ := beginStep_decides hb
      have hrow := (load_some hload).1
      refine ⟨rfl, rfl, h.sound.below row hrow, ?_⟩
      intro x hx hid
      obtain rfl := h.sound.eq_of_id hx hrow hid
      exact reusable_after (h.expiry x hx) hreuse
  | _ => cases hpc

theorem LockSound.decided_step (h : LockSound cfg s) (hm : LockMove cfg s a s') (i : Nat)
    (c : LockCall β) (lock : Option Time) (id : Nat) (moment : Time) (hc : s'.calls[i]? = some c)
    (hpc : c.pc = .beginning lock (.deleting id moment)) :
    moment ≤ s'.clock ∧ id < s'.table.nextId ∧ ∀ row ∈ s'.table.rows, row.id = id →
      row.createdAt + min cfg.ttls.lockTtl cfg.ttls.keyTtl ≤ moment := by
  have hnext := hm.change.nextId_le
  obtain ⟨hmoment, hid, hrows⟩ : moment ≤ s'.clock ∧ id < s.table.nextId ∧
      ∀ row ∈ s.table.rows, row.id = id →
        row.createdAt + min cfg.ttls.lockTtl cfg.ttls.keyTtl ≤ moment := by
    rcases hm.call_at hc with ⟨hold, -⟩ | hnew | ⟨c₀, act, -, -, hcall, -⟩
    · obtain ⟨hmoment, hid, hrows⟩ := h.decided i c lock id moment hold hpc
      exact ⟨le_trans hmoment hm.clock_le, hid, hrows⟩
    · rw [hnew] at hpc
      cases hpc
    · obtain ⟨rfl, -, hid, hrows⟩ := h.decided_own hcall hpc
      exact ⟨le_refl _, hid, hrows⟩
  refine ⟨hmoment, lt_of_lt_of_le hid hnext, ?_⟩
  intro row hrow hrid
  rcases hm.rows hrow with hrow | ⟨_, _, _, _, _, _, _, hnew⟩ | ⟨x, _, _, _, hx, rfl⟩
  · exact hrows row hrow hrid
  · -- a new id is not one that is about to be deleted
    rw [← hrid, hnew] at hid
    exact absurd hid (lt_irrefl _)
  · exact hrows x hx hrid

/-- A call that comes to its handler has just inserted its row. -/
theorem LockSound.handling_own (h : LockSound cfg s) {i : Nat} {c : LockCall β}
    (hc : s.calls[i]? = some c) {now : Time} {act : CallAction β}
    {redis : Lease.Store String String Time} {table : KeyTable β} {pc : LockPc β}
    (hm : LockCallMove cfg c now s.redis s.table act redis table pc) {lock : Option Time}
    {record : Nat} (hpc : pc = .handling lock record) :
    record = s.table.nextId ∧ ∃ moment, c.pc = .beginning lock (.inserting moment) ∧
      table = ⟨s.table.rows ++ [s.table.newRow cfg.ttls c.userId c.key c.fingerprint moment],
        s.table.nextId + 1⟩ := by
  cases hm with
  | @statement lock₀ bpc bpc' _ hbeg hb =>
      have hfin : ∀ r, bpc ≠ .finished r := by
        intro r hr
        exact h.pending i c lock₀ r hc (by rw [hbeg, hr])
      obtain ⟨rfl, rfl, moment, rfl, htable⟩ := beginStep_record hb hfin hpc
      exact ⟨rfl, moment, hbeg, htable⟩
  | _ => cases hpc

theorem LockSound.step (h : LockSound cfg s) (hm : LockMove cfg s a s') : LockSound cfg s' where
  sound := h.sound.change hm.change
  tokens := h.tokens_step hm
  expiry := h.expiry_step hm
  pending := by
    intro i c lock r hc hpc
    rcases hm.call_at hc with ⟨hold, -⟩ | hnew | ⟨c₀, act, -, -, hcall, -⟩
    · exact h.pending i c lock r hold hpc
    · rw [hnew] at hpc
      cases hpc
    · exact hcall.pending hpc
  decided := h.decided_step hm
  timed := by
    intro i c d pc hc hpc
    rcases hm.call_at hc with ⟨hold, -⟩ | hnew | ⟨c₀, act, -, hc₀, hcall, -⟩
    · exact (h.timed i c d pc hold hpc).mono hm.clock_le
    · rw [hnew] at hpc
      cases hpc
    · exact h.timed_own hc₀ hcall hm.clock_le hpc
  used := by
    intro i c lock record hc hpc
    rcases hm.call_at hc with ⟨hold, -⟩ | hnew | ⟨c₀, act, -, hc₀, hcall, -⟩
    · exact lt_of_lt_of_le (h.used i c lock record hold hpc) hm.change.nextId_le
    · rw [hnew] at hpc
      cases hpc
    · obtain ⟨rfl, moment, -, htable⟩ := h.handling_own hc₀ hcall hpc
      rw [htable]
      exact Nat.lt_succ_self _
  records := by
    intro i j c c' lock lock' record hi hj hpc hpc'
    rcases hm.call_at hi with ⟨hold, -⟩ | hnew | ⟨c₀, act, ha, hc₀, hcall, -⟩
    · rcases hm.call_at hj with ⟨hold', -⟩ | hnew | ⟨c₀', act', -, hc₀', hcall', -⟩
      · exact h.records i j c c' lock lock' record hold hold' hpc hpc'
      · rw [hnew] at hpc'
        cases hpc'
      · obtain ⟨rfl, -⟩ := h.handling_own hc₀' hcall' hpc'
        exact absurd (h.used i c lock _ hold hpc) (lt_irrefl _)
    · rw [hnew] at hpc
      cases hpc
    · obtain ⟨rfl, -⟩ := h.handling_own hc₀ hcall hpc
      rcases hm.call_at hj with ⟨hold', -⟩ | hnew | ⟨c₀', act', ha', hc₀', hcall', -⟩
      · exact absurd (h.used j c' lock' _ hold' hpc') (lt_irrefl _)
      · rw [hnew] at hpc'
        cases hpc'
      · rw [ha] at ha'
        cases ha'
        rfl

theorem lockSound_empty : LockSound cfg (LockState.empty : LockState β) := by
  constructor <;> simp [LockState.empty]
  constructor <;> simp

theorem run_lockSound {as : List (LockAction β)}
    (h : Runs.run (lockingStep cfg) LockState.empty as = some s) : LockSound cfg s := by
  refine Runs.run_invariant (I := fun s => LockSound cfg s) ?_ lockSound_empty h
  intro s a s' hs hstep
  exact hs.step (lockingStep_move hstep)

/-! ## A lock lasts -/

/-- Whatever a call does, an entry of another call stays, and its own stays until it
gives it up. -/
theorem LockCallMove.holds {c : LockCall β} {now : Time} {act : CallAction β}
    {redis redis' : Lease.Store String String Time} {table table' : KeyTable β} {pc : LockPc β}
    (hm : LockCallMove cfg c now redis table act redis' table' pc) {key token : String} {d : Time}
    (h : redis.Holds now key token d)
    (hown : c.token = token → ∀ reached, act ≠ .unlock reached) : redis'.Holds now key token d := by
  cases hm with
  | granted hpc hset =>
      have hkeeps := h.setNx (cfg.lockKey c.userId c.key) c.token (now + cfg.px)
      rw [hset] at hkeeps
      exact hkeeps
  | unanswered hpc hredis =>
      rcases hredis with rfl | rfl
      · exact h
      · exact h.setNx _ _ _
  | unlocked hpc hredis =>
      rcases hredis with rfl | rfl
      · exact h
      · exact h.compareDelete _ fun heq => hown heq _ rfl
  | _ => exact h

theorem LockMove.holds (hm : LockMove cfg s a s') {key token : String} {d : Time}
    (h : s.redis.Holds s.clock key token d) (hlive : s'.clock < d) (hlose : a ≠ .lose key)
    (hown : ∀ j moment reached c, a = .step j moment (.unlock reached) →
      s.calls[j]? = some c → c.token ≠ token) : s'.redis.Holds s'.clock key token d := by
  cases hm with
  | @step j c now act redis table pc hc hnow hcall =>
      refine hcall.holds (h.wait hlive) ?_
      rintro htoken reached rfl
      exact hown j now reached c rfl hc htoken
  | lose lockKey => exact h.lose fun heq => hlose (by rw [heq])
  | _ => exact h.wait hlive

/-- A call has a lock since Redis granted it. -/
theorem LockCallMove.lock {c : LockCall β} {now : Time} {act : CallAction β}
    {redis redis' : Lease.Store String String Time} {table table' : KeyTable β} {pc : LockPc β}
    (hm : LockCallMove cfg c now redis table act redis' table' pc) {d : Time}
    (hd : pc.lock? = some d) :
    (c.pc.lock? = some d ∧ redis' = redis) ∨ d = now + cfg.px ∧
      redis.setNx now (cfg.lockKey c.userId c.key) c.token d = (true, redis') := by
  cases hm with
  | granted hpc hset =>
      cases hd
      exact .inr ⟨rfl, hset⟩
  | statement hpc hb =>
      rw [afterStatement_lock] at hd
      exact .inl ⟨by rw [hpc]; exact hd, rfl⟩
  | completed hpc => exact .inl ⟨by rw [hpc]; exact hd, rfl⟩
  | released hpc => exact .inl ⟨by rw [hpc]; exact hd, rfl⟩
  | raised hlock => exact .inl ⟨by rw [hlock]; exact hd, rfl⟩
  | _ => cases hd

theorem LockMove.token_at (hm : LockMove cfg s a s') {i : Nat} {c : LockCall β}
    (hc : s.calls[i]? = some c) : ∃ c', s'.calls[i]? = some c' ∧ c'.token = c.token := by
  have hlt := (List.getElem?_eq_some_iff.mp hc).1
  cases hm with
  | call htoken =>
      refine ⟨c, ?_, rfl⟩
      rw [List.getElem?_append_left hlt]
      exact hc
  | @step j c₀ now act redis table pc hc₀ hnow hcall =>
      by_cases hij : j = i
      · subst hij
        rw [hc] at hc₀
        cases hc₀
        exact ⟨{ c with pc }, List.getElem?_set_self hlt, rfl⟩
      · refine ⟨c, ?_, rfl⟩
        rw [List.getElem?_set_ne hij]
        exact hc
  | _ => exact ⟨c, hc, rfl⟩

/-- The lock of a request since `s₀`: it is held, and who of the key has a lock had it
then. -/
structure LockLasts (cfg : LockConfig) (i : Nat) (key token : String) (d : Time)
    (s₀ s : LockState β) : Prop where
  sound : LockSound cfg s
  owner : ∃ c, s.calls[i]? = some c ∧ c.token = token
  held : s.clock < d → s.redis.Holds s.clock key token d
  grants : s.clock < d → ∀ (j : Nat) c' d', s.calls[j]? = some c' →
    cfg.lockKey c'.userId c'.key = key → c'.pc.lock? = some d' →
    ∃ c₀, s₀.calls[j]? = some c₀ ∧ c₀.pc.lock? = some d'

theorem LockLasts.step {i : Nat} {key token : String} {d : Time} {s₀ : LockState β}
    (h : LockLasts cfg i key token d s₀ s) (hm : LockMove cfg s a s') (hlose : a ≠ .lose key)
    (hunlock : ∀ now reached, a ≠ .step i now (.unlock reached)) :
    LockLasts cfg i key token d s₀ s' where
  sound := h.sound.step hm
  owner := by
    obtain ⟨c, hc, htoken⟩ := h.owner
    obtain ⟨c', hc', htoken'⟩ := hm.token_at hc
    exact ⟨c', hc', htoken'.trans htoken⟩
  held := by
    intro hlive
    refine hm.holds (h.held (lt_of_le_of_lt hm.clock_le hlive)) hlive hlose ?_
    rintro j now reached c rfl hc htoken
    obtain ⟨c₁, hc₁, htoken₁⟩ := h.owner
    obtain rfl := h.sound.eq_of_token hc hc₁ (htoken.trans htoken₁.symm)
    exact hunlock now reached rfl
  grants := by
    intro hlive j c' d' hc' hkey hlock
    have hbefore := lt_of_le_of_lt hm.clock_le hlive
    rcases hm.call_at hc' with ⟨hold, -⟩ | hnew | ⟨c₀, act, -, hc₀, hcall, hsame⟩
    · exact h.grants hbefore j c' d' hold hkey hlock
    · rw [hnew] at hlock
      cases hlock
    · rw [hsame] at hkey
      rcases hcall.lock hlock with ⟨hlock₀, -⟩ | ⟨-, hset⟩
      · exact h.grants hbefore j c₀ d' hc₀ hkey hlock₀
      · -- the key is not free
        rw [hkey, Lease.setNx_refused ((h.held hbefore).wait hlive)] at hset
        cases hset

/-- Redis holds the token of a request until `d`.  Whatever other requests do meanwhile,
claim, give up, fail or die, and whatever becomes of the rows, it goes on holding it and
no request of the key is granted the lock, until `d`, or until Redis loses the key or
the request itself sends its release script. -/
theorem lock_lasts {as bs : List (LockAction β)} {i : Nat} {c : LockCall β} {d : Time}
    (h : Runs.run (lockingStep cfg) LockState.empty as = some s) (hc : s.calls[i]? = some c)
    (hheld : s.redis.Holds s.clock (cfg.lockKey c.userId c.key) c.token d)
    (hrun : Runs.run (lockingStep cfg) s bs = some s')
    (hno : Runs.AllSteps (lockingStep cfg) (fun _ a => a ≠ .lose (cfg.lockKey c.userId c.key) ∧
      ∀ now reached, a ≠ .step i now (.unlock reached)) s bs) (hlive : s'.clock < d) :
    s'.redis.Holds s'.clock (cfg.lockKey c.userId c.key) c.token d ∧
      ∀ (j : Nat) c' d', s'.calls[j]? = some c' →
        cfg.lockKey c'.userId c'.key = cfg.lockKey c.userId c.key → c'.pc.lock? = some d' →
        ∃ c₀, s.calls[j]? = some c₀ ∧ c₀.pc.lock? = some d' := by
  have hlasts : LockLasts cfg i (cfg.lockKey c.userId c.key) c.token d s s' := by
    refine Runs.run_invariant_of (I := fun x => LockLasts cfg i _ c.token d s x) ?_ ?_ hno hrun
    · intro x a x' hx hstay hstep
      exact hx.step (lockingStep_move hstep) hstay.1 hstay.2
    · refine ⟨run_lockSound h, ⟨c, hc, rfl⟩, fun _ => hheld, ?_⟩
      intro _ j c' d' hc' _ hlock
      exact ⟨c', hc', hlock⟩
  exact ⟨hlasts.held hlive, hlasts.grants hlive⟩

/-! ## The row of a request that has its lock -/

/-- The row a `begin` inserted at `t`, as it was inserted. -/
def LockCall.rowAt (cfg : LockConfig) (c : LockCall β) (record : Nat) (t : Time) :
    IdempotencyKey β :=
  ⟨record, c.userId, c.key, c.fingerprint, .inProgress, none, none, none, t, t + cfg.ttls.keyTtl⟩

/-- The request still has its row, unless the row is expired. -/
def Owns (cfg : LockConfig) (s : LockState β) (c : LockCall β) (d : Time) (record : Nat) : Prop :=
  ∃ t, d ≤ t + cfg.px ∧ t ≤ s.clock ∧
    (s.clock < t + cfg.ttls.keyTtl → c.rowAt cfg record t ∈ s.table.rows)

theorem LockMove.owns (hm : LockMove cfg s a s') (hs : LockSound cfg s) {i : Nat}
    {c : LockCall β} {d : Time} {record : Nat} (hc : s.calls[i]? = some c)
    (hpc : c.pc = .handling (some d) record) (hown : Owns cfg s c d record)
    (hidle : ∀ now act, a ≠ .step i now act) (hlive : s'.clock < d) :
    Owns cfg s' c d record := by
  obtain ⟨t, htimed, hclock, hrow⟩ := hown
  refine ⟨t, htimed, le_trans hclock hm.clock_le, ?_⟩
  intro hfresh
  have hrow := hrow (lt_of_le_of_lt hm.clock_le hfresh)
  rcases hm.kept hs.sound hrow with hkept | hgone | ⟨j, c', now, act, rfl, hc', hpc'⟩
  · exact hkept
  · exact absurd hfresh (not_lt.mpr hgone)
  · rcases hpc' with ⟨lock, moment, hpc'⟩ | ⟨lock, hpc'⟩
    · -- a takeover has seen the row outlive the lock
      obtain ⟨hmoment, -, hdecided⟩ := hs.decided j c' lock _ moment hc' hpc'
      have hago := hdecided _ hrow rfl
      have hpx := cfg.px_le
      have hle := hm.clock_le
      rcases min_choice cfg.ttls.lockTtl cfg.ttls.keyTtl with hmin | hmin
      · rw [hmin] at hago
        have hcreated : (c.rowAt cfg record t).createdAt = t := rfl
        linarith
      · rw [hmin] at hago
        have hcreated : (c.rowAt cfg record t).createdAt = t := rfl
        linarith
    · obtain rfl := hs.records i j c c' _ lock record hc hc' hpc hpc'
      exact absurd rfl (hidle now act)

/-- While the lock of a request has not expired, the row it claimed is as it inserted it:
in progress, and its own.  No takeover, no other request and no cleanup has touched it,
whether Redis still knows the lock or not. -/
theorem owner_keeps_row {as : List (LockAction β)} {i record : Nat} {c : LockCall β} {d : Time}
    (h : Runs.run (lockingStep cfg) LockState.empty as = some s) (hc : s.calls[i]? = some c)
    (hpc : c.pc = .handling (some d) record) (hlive : s.clock < d) : Owns cfg s c d record := by
  have hinv : LockSound cfg s ∧ ∀ (i : Nat) c d record, s.calls[i]? = some c →
      c.pc = .handling (some d) record → s.clock < d → Owns cfg s c d record := by
    refine Runs.run_invariant (I := fun s => LockSound cfg s ∧ ∀ (i : Nat) c d record,
      s.calls[i]? = some c → c.pc = .handling (some d) record → s.clock < d →
      Owns cfg s c d record) ?_ ?_ h
    · rintro s a s' ⟨hs, howns⟩ hstep
      have hm := lockingStep_move hstep
      refine ⟨hs.step hm, ?_⟩
      intro i c d record hc hpc hlive
      rcases hm.call_at hc with ⟨hold, hidle⟩ | hnew | ⟨c₀, act, -, hc₀, hcall, hsame⟩
      · have hbefore := lt_of_le_of_lt hm.clock_le hlive
        exact hm.owns hs hold hpc (howns i c d record hold hpc hbefore) hidle hlive
      · rw [hnew] at hpc
        cases hpc
      · obtain ⟨rfl, moment, hpc₀, htable⟩ := hs.handling_own hc₀ hcall hpc
        obtain ⟨htimed, hmoment⟩ := hs.timed i c₀ d _ hc₀ hpc₀
        refine ⟨moment, htimed, le_trans hmoment hm.clock_le, ?_⟩
        intro _
        rw [htable, hsame]
        exact List.mem_append_right _ (List.mem_singleton.mpr rfl)
    · exact ⟨lockSound_empty, by simp [LockState.empty]⟩
  exact hinv.2 i c d record hc hpc hlive

/-! ## One request of a key at a time -/

/-- Redis answers and loses nothing, and a request acts only before the deadline of its
lock. -/
def healthy (s : LockState β) : LockAction β → Bool
  | .lose _ => false
  | .step _ _ (.acquireFails _) => false
  | .step i now _ => (s.calls[i]?.bind fun c => c.pc.lock?).all fun d => decide (now < d)
  | _ => true

/-- What a `begin` read is still so. -/
def LockCall.Reads (c : LockCall β) (table : KeyTable β) : BeginPc β → Prop
  | .deleting id _ => ∀ row ∈ table.rows, row.userId = c.userId → row.key = c.key → row.id = id
  | .inserting _ => ∀ row ∈ table.rows, row.userId = c.userId → row.key ≠ c.key
  | .reloading => False
  | _ => True

structure Serial (cfg : LockConfig) (s : LockState β) : Prop where
  sound : LockSound cfg s
  granted : ∀ (i : Nat) c d, s.calls[i]? = some c → c.pc.lock? = some d → s.clock < d →
    s.redis.Holds s.clock (cfg.lockKey c.userId c.key) c.token d
  locked : ∀ (i : Nat) c pc, s.calls[i]? = some c → c.pc = .beginning none pc → pc = .contended
  races : ∀ (i : Nat) c lock, s.calls[i]? = some c → c.pc ≠ .beginning lock .reloading
  reads : ∀ (i : Nat) c d pc, s.calls[i]? = some c → c.pc = .beginning (some d) pc →
    s.clock < d → c.Reads s.table pc

/-- Two requests of one key do not both have a lock. -/
theorem Serial.eq_of_key (h : Serial cfg s) {i j : Nat} {c c' : LockCall β} {d d' : Time}
    (hi : s.calls[i]? = some c) (hj : s.calls[j]? = some c')
    (hkey : cfg.lockKey c.userId c.key = cfg.lockKey c'.userId c'.key)
    (hd : c.pc.lock? = some d) (hd' : c'.pc.lock? = some d') (hlive : s.clock < d)
    (hlive' : s.clock < d') : i = j := by
  have hheld := h.granted i c d hi hd hlive
  rw [hkey] at hheld
  exact h.sound.eq_of_token hi hj (hheld.unique (h.granted j c' d' hj hd' hlive'))

theorem healthy_lt {i : Nat} {now : Time} {act : CallAction β} {c : LockCall β} {d : Time}
    (h : healthy s (.step i now act) = true) (hc : s.calls[i]? = some c)
    (hd : c.pc.lock? = some d) : now < d := by
  cases act with
  | acquireFails applied => cases h
  | _ => simpa [healthy, hc, hd] using h

theorem Serial.granted_step (h : Serial cfg s) (hm : LockMove cfg s a s')
    (hh : healthy s a = true) (i : Nat) (c : LockCall β) (d : Time) (hc : s'.calls[i]? = some c)
    (hd : c.pc.lock? = some d) (hlive : s'.clock < d) :
    s'.redis.Holds s'.clock (cfg.lockKey c.userId c.key) c.token d := by
  have hlose : a ≠ .lose (cfg.lockKey c.userId c.key) := by
    rintro rfl
    cases hh
  rcases hm.call_at hc with ⟨hold, hidle⟩ | hnew | ⟨c₀, act, rfl, hc₀, hcall, hsame⟩
  · refine hm.holds (h.granted i c d hold hd (lt_of_le_of_lt hm.clock_le hlive)) hlive hlose ?_
    rintro j now reached c' rfl hc' htoken
    obtain rfl := h.sound.eq_of_token hc' hold htoken
    exact hidle now _ rfl
  · rw [hnew] at hd
    cases hd
  · rw [hsame]
    rcases hcall.lock hd with ⟨hd₀, hredis⟩ | ⟨hdeadline, hset⟩
    · rw [hredis]
      exact (h.granted i c₀ d hc₀ hd₀ (lt_of_le_of_lt hm.clock_le hlive)).wait hlive
    · exact Lease.holds_granted hset hlive

theorem Serial.locked_own (h : Serial cfg s) {i : Nat} {c : LockCall β} {now : Time}
    {act : CallAction β} (hc : s.calls[i]? = some c) (hh : healthy s (.step i now act) = true)
    {redis : Lease.Store String String Time} {table : KeyTable β} {pc : LockPc β}
    (hm : LockCallMove cfg c now s.redis s.table act redis table pc) {bpc : BeginPc β}
    (hpc : pc = .beginning none bpc) : bpc = .contended := by
  cases hm with
  | refused =>
      cases hpc
      rfl
  | unanswered => cases hh
  | statement hbeg hb =>
      obtain ⟨rfl, rfl, hfin⟩ := afterStatement_beginning hpc
      obtain rfl := h.locked i c _ hc hbeg
      cases hb
      exact absurd rfl (hfin _)
  | _ => cases hpc

/-- Nobody else inserts a row of the key while a request claims it. -/
theorem Serial.no_insert (h : Serial cfg s) {i j : Nat} {c c' : LockCall β} {now d : Time}
    (hh : healthy s (.step j now .statement) = true) (hnow : s.clock ≤ now)
    (hi : s.calls[i]? = some c) (hj : s.calls[j]? = some c') (hd : c.pc.lock? = some d)
    (hlive : now < d) {lock : Option Time} {moment : Time}
    (hpc : c'.pc = .beginning lock (.inserting moment)) (huser : c'.userId = c.userId)
    (hkey : c'.key = c.key) : i = j := by
  cases lock with
  | none => cases h.locked j c' _ hj hpc
  | some d' =>
      have hd' : c'.pc.lock? = some d' := by rw [hpc]; rfl
      have hlive' := healthy_lt hh hj hd'
      refine h.eq_of_key hi hj ?_ hd hd' (lt_of_le_of_lt hnow hlive) (lt_of_le_of_lt hnow hlive')
      rw [huser, hkey]

/-- What a `begin` read, the others leave so. -/
theorem Serial.reads_idle (h : Serial cfg s) (hm : LockMove cfg s a s')
    (hh : healthy s a = true) {i : Nat} {c : LockCall β} {d : Time} {pc : BeginPc β}
    (hc : s.calls[i]? = some c) (hpc : c.pc = .beginning (some d) pc) (hlive : s'.clock < d)
    (hidle : ∀ now act, a ≠ .step i now act) : c.Reads s'.table pc := by
  have hreads := h.reads i c d pc hc hpc (lt_of_le_of_lt hm.clock_le hlive)
  have hold : ∀ row ∈ s'.table.rows, row.userId = c.userId → row.key = c.key →
      ∃ x ∈ s.table.rows, x.userId = c.userId ∧ x.key = c.key ∧ x.id = row.id := by
    intro row hrow huser hkey
    rcases hm.rows hrow with hrow | ⟨j, c', lock, moment, hc', rfl, hpc', rfl⟩ |
      ⟨x, _, _, _, hx, rfl⟩
    · exact ⟨row, hrow, huser, hkey, rfl⟩
    · have hd : c.pc.lock? = some d := by rw [hpc]; rfl
      obtain rfl := h.no_insert hh hm.clock_le hc hc' hd hlive hpc' huser hkey
      exact absurd rfl (hidle _ _)
    · exact ⟨x, hx, huser, hkey, rfl⟩
  cases pc with
  | deleting id moment =>
      intro row hrow huser hkey
      obtain ⟨x, hx, hxuser, hxkey, hid⟩ := hold row hrow huser hkey
      rw [← hid]
      exact hreads x hx hxuser hxkey
  | inserting moment =>
      intro row hrow huser hkey
      obtain ⟨x, hx, hxuser, hxkey, -⟩ := hold row hrow huser hkey
      exact hreads x hx hxuser hxkey
  | reloading => exact hreads
  | _ => trivial

theorem beginStep_reloading {userId key fingerprint : String} {input : BeginInput}
    {ttls : KeyTtls} {table table' : KeyTable β} {pc : BeginPc β}
    (h : beginStep ttls userId key fingerprint input table pc = (table', .reloading)) :
    ∃ moment row, pc = .inserting moment ∧ table.load userId key = some row := by
  cases pc with
  | inserting moment =>
      simp only [beginStep] at h
      split at h
      · cases h
      · rename_i hins
        cases hload : table.load userId key with
        | none =>
            rw [KeyTable.insert, hload] at hins
            cases hins
        | some row => exact ⟨moment, row, rfl, rfl⟩
  | _ =>
      simp only [beginStep] at h
      repeat' split at h
      all_goals cases h

/-- A request claims its key in one piece. -/
theorem Serial.reads_own (h : Serial cfg s) {i : Nat} {c : LockCall β} {now : Time}
    {act : CallAction β} (hc : s.calls[i]? = some c)
    {redis : Lease.Store String String Time} {table : KeyTable β} {pc : LockPc β}
    (hm : LockCallMove cfg c now s.redis s.table act redis table pc) {bpc : BeginPc β} {d : Time}
    (hpc : pc = .beginning (some d) bpc) (hlive : s.clock < d) : c.Reads table bpc := by
  cases hm with
  | granted =>
      cases hpc
      trivial
  | statement hbeg hb =>
      obtain ⟨rfl, rfl, -⟩ := afterStatement_beginning hpc
      have hreads := h.reads i c d _ hc hbeg hlive
      cases bpc with
      | deleting id moment =>
          obtain ⟨-, rfl, x, hload, rfl, -⟩ := beginStep_decides hb
          intro row hrow huser hkey
          have hrow := h.sound.sound.load_eq hrow
          rw [huser, hkey, hload] at hrow
          cases hrow
          rfl
      | inserting moment =>
          intro row hrow huser hkey
          rcases beginStep_inserting hb with ⟨rfl, -, rfl, hload⟩ | ⟨id, rfl, rfl⟩
          · exact load_none hload hrow ⟨huser, hkey⟩
          · obtain ⟨hrow, hid⟩ := List.mem_filter.mp hrow
            exact absurd (hreads row hrow huser hkey) (of_decide_eq_true hid)
      | reloading =>
          obtain ⟨moment, x, rfl, hload⟩ := beginStep_reloading hb
          obtain ⟨hx, huser, hkey⟩ := load_some hload
          exact hreads x hx huser hkey
      | _ => trivial
  | _ => cases hpc

theorem Serial.step (h : Serial cfg s) (hm : LockMove cfg s a s') (hh : healthy s a = true) :
    Serial cfg s' where
  sound := h.sound.step hm
  granted := h.granted_step hm hh
  locked := by
    intro i c pc hc hpc
    rcases hm.call_at hc with ⟨hold, -⟩ | hnew | ⟨c₀, act, rfl, hc₀, hcall, -⟩
    · exact h.locked i c pc hold hpc
    · rw [hnew] at hpc
      cases hpc
    · exact h.locked_own hc₀ hh hcall hpc
  races := by
    intro i c lock hc hpc
    rcases hm.call_at hc with ⟨hold, -⟩ | hnew | ⟨c₀, act, rfl, hc₀, hcall, -⟩
    · exact h.races i c lock hold hpc
    · rw [hnew] at hpc
      cases hpc
    · cases lock with
      | none => cases h.locked_own hc₀ hh hcall hpc
      | some d =>
          -- it acts before its deadline
          have hd : c.pc.lock? = some d := by rw [hpc]; rfl
          have hlive : s'.clock < d := by
            rcases hcall.lock hd with ⟨hd₀, -⟩ | ⟨rfl, -⟩
            · exact healthy_lt hh hc₀ hd₀
            · exact lt_add_of_pos_right _ cfg.px_pos
          exact h.reads_own hc₀ hcall hpc (lt_of_le_of_lt hm.clock_le hlive)
  reads := by
    intro i c d pc hc hpc hlive
    rcases hm.call_at hc with ⟨hold, hidle⟩ | hnew | ⟨c₀, act, rfl, hc₀, hcall, hsame⟩
    · exact h.reads_idle hm hh hold hpc hlive hidle
    · rw [hnew] at hpc
      cases hpc
    · rw [hsame]
      exact h.reads_own hc₀ hcall hpc (lt_of_le_of_lt hm.clock_le hlive)

/-- While Redis answers and loses nothing and no request outstays its lock: of the
requests of a key one at a time has a lock that has not expired, what it read of its key
stays so until it acts on it, and no INSERT ever loses a race. -/
theorem lock_serialises {as : List (LockAction β)}
    (h : Runs.run (lockingStep cfg) LockState.empty as = some s)
    (hh : Runs.AllSteps (lockingStep cfg) (fun s a => healthy s a = true) LockState.empty as) :
    (∀ (i j : Nat) c c' d d', s.calls[i]? = some c → s.calls[j]? = some c' →
      c.userId = c'.userId → c.key = c'.key → c.pc.lock? = some d → c'.pc.lock? = some d' →
      s.clock < d → s.clock < d' → i = j) ∧
    (∀ (i : Nat) c d pc, s.calls[i]? = some c → c.pc = .beginning (some d) pc → s.clock < d →
      c.Reads s.table pc) ∧
    ∀ (i : Nat) c lock, s.calls[i]? = some c → c.pc ≠ .beginning lock .reloading := by
  have hserial : Serial cfg s := by
    refine Runs.run_invariant_of (I := fun s => Serial cfg s) ?_ ?_ hh h
    · intro s a s' hs hhealthy hstep
      exact hs.step (lockingStep_move hstep) hhealthy
    · exact ⟨lockSound_empty, by simp [LockState.empty], by simp [LockState.empty],
        by simp [LockState.empty], by simp [LockState.empty]⟩
  refine ⟨?_, hserial.reads, hserial.races⟩
  intro i j c c' d d' hi hj huser hkey hd hd' hlive hlive'
  exact hserial.eq_of_key hi hj (by rw [huser, hkey]) hd hd' hlive hlive'

end

/-! ## Two requests with one key -/

/-- A lock of 30 s under keys of a day. -/
def sampleLocks : LockConfig := ⟨⟨86400, 30⟩, 30, by norm_num, by norm_num, id⟩

/-- A request comes as far as its handler. -/
def lockedRun : List (LockAction String) :=
  [.call "user_alice" "key-1" "fp" "token-a", .step 0 1 .acquire, .step 0 2 .statement,
    .step 0 3 .statement]

/-- Its retry finds the key locked. -/
def refusedRun : List (LockAction String) :=
  [.call "user_alice" "key-1" "fp" "token-b", .step 1 4 .acquire, .step 1 5 .statement,
    .step 1 6 (.unlock true), .cleanup 7 5000 []]

theorem lockedRun_runs : (Runs.run (lockingStep sampleLocks) LockState.empty lockedRun).any
    (fun s => decide (s.calls = [⟨"user_alice", "key-1", "fp", "token-a",
        .handling (some 31) 1⟩] ∧ s.clock = 3 ∧
        s.redis.live 3 "idempotency:lock:user_alice:key-1" = some ⟨"token-a", 31⟩) &&
      (Runs.run (lockingStep sampleLocks) s refusedRun).any fun s' => decide (s'.clock = 7)) =
    true := by
  decide +kernel

theorem lock_lasts_refusedRun :
    ∃ s s' : LockState String,
      Runs.run (lockingStep sampleLocks) LockState.empty lockedRun = some s ∧
      Runs.run (lockingStep sampleLocks) s refusedRun = some s' ∧ s'.clock = 7 ∧
      s'.redis.Holds 7 "idempotency:lock:user_alice:key-1" "token-a" 31 := by
  obtain ⟨s, hs, hany⟩ := (Option.any_eq_true _ _).mp lockedRun_runs
  obtain ⟨hthere, hany⟩ := (Bool.and_eq_true _ _).mp hany
  obtain ⟨s', hs', hclock'⟩ := (Option.any_eq_true _ _).mp hany
  obtain ⟨hcalls, hclock, hheld⟩ := of_decide_eq_true hthere
  have hclock' : s'.clock = 7 := of_decide_eq_true hclock'
  have hc : s.calls[0]? = some ⟨"user_alice", "key-1", "fp", "token-a",
      .handling (some 31) 1⟩ := by
    rw [hcalls]
    rfl
  have hkeeps := lock_lasts hs hc (by rw [hclock]; exact hheld) hs'
    (Runs.allSteps_of_forall fun a ha _ => by
      simp only [refusedRun, List.mem_cons, List.not_mem_nil, or_false] at ha
      rcases ha with rfl | rfl | rfl | rfl | rfl <;> simp) (by rw [hclock']; norm_num)
  rw [hclock'] at hkeeps
  exact ⟨s, s', hs, hs', hclock', hkeeps.1⟩

theorem owner_keeps_row_lockedRun :
    ∃ s : LockState String, Runs.run (lockingStep sampleLocks) LockState.empty lockedRun = some s ∧
      ∃ c, s.calls[0]? = some c ∧ c.key = "key-1" ∧ Owns sampleLocks s c 31 1 := by
  obtain ⟨s, hs, hany⟩ := (Option.any_eq_true _ _).mp lockedRun_runs
  obtain ⟨hthere, -⟩ := (Bool.and_eq_true _ _).mp hany
  obtain ⟨hcalls, hclock, -⟩ := of_decide_eq_true hthere
  have hc : s.calls[0]? = some ⟨"user_alice", "key-1", "fp", "token-a",
      .handling (some 31) 1⟩ := by
    rw [hcalls]
    rfl
  exact ⟨s, hs, _, hc, rfl, owner_keeps_row hs hc rfl (by rw [hclock]; norm_num)⟩

/-- The lock of the first has been released when the third comes. -/
def queuedRun : List (LockAction String) :=
  lockedRun ++ [.call "user_alice" "key-1" "fp" "token-b", .step 1 4 .acquire,
    .step 0 5 .release, .step 0 6 (.unlock true), .step 1 7 .statement,
    .call "user_alice" "key-1" "fp" "token-c", .step 2 8 .acquire, .step 2 9 .statement]

theorem queuedRun_runs :
    (Runs.run (lockingStep sampleLocks) LockState.empty queuedRun).any (fun s =>
      decide (s.clock = 9 ∧ (s.calls[2]?).map LockCall.pc =
        some (.beginning (some 38) (.inserting 9)))) = true ∧
      Runs.AllSteps (lockingStep sampleLocks) (fun s a => healthy s a = true) LockState.empty
        queuedRun := by
  decide +kernel

theorem locks_refine_queuedRun :
    ∃ s : LockState String, Runs.run (lockingStep sampleLocks) LockState.empty queuedRun = some s ∧
      ∃ as ks, Runs.run (keyStep sampleLocks.ttls) KeyState.empty as = some ks ∧
        Refines s ks := by
  obtain ⟨s, hs, -⟩ := (Option.any_eq_true _ _).mp queuedRun_runs.1
  exact ⟨s, hs, locks_refine hs⟩

theorem lock_serialises_queuedRun :
    ∃ s : LockState String, Runs.run (lockingStep sampleLocks) LockState.empty queuedRun = some s ∧
      ∃ c, s.calls[2]? = some c ∧ c.pc = .beginning (some 38) (.inserting 9) ∧
        c.Reads s.table (.inserting 9) := by
  obtain ⟨hany, hhealthy⟩ := queuedRun_runs
  obtain ⟨s, hs, hthere⟩ := (Option.any_eq_true _ _).mp hany
  obtain ⟨hclock, hmap⟩ := of_decide_eq_true hthere
  obtain ⟨c, hc, hpc⟩ := Option.map_eq_some_iff.mp hmap
  exact ⟨s, hs, c, hc, hpc, (lock_serialises hs hhealthy).2.1 2 c 38 _ hc hpc
    (by rw [hclock]; norm_num)⟩

end LoyaltyTransfer
