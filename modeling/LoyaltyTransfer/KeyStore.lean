/-
# `LoyaltyTransfer.KeyStore` — a stored response is kept, or is it

The idempotency service on its own: any number of `begin` calls, statement by
statement, with `complete`, `release` and the cleanup script between any two of
them, under any clocks and any answers of Redis.

A takeover reads the row, decides, and then deletes by id.  If the slow owner
completes the row in between, the takeover deletes a stored response:

    begin B    _load row 1: IN_PROGRESS, abandoned
    owner A    complete(row 1)
    begin B    DELETE row 1, INSERT row 2            the response is gone, B runs again

**Proved here.**  This is the only way: a completed row and its answers last
until `expires_at` exactly when no `begin` stands between its decision and its
delete at the moment of completion (`completed_kept_iff`).  And it should count
for nothing after that: the claim path looks at `expires_at`, the path of a
request that finds the lock held does not (`expired_ignored_iff`).
-/
import LoyaltyTransfer.Idempotency
import LoyaltyTransfer.Lib.Runs

namespace LoyaltyTransfer

/-! ## The system -/

/-- A call of `begin`. -/
structure BeginCall (β : Type) where
  userId : String
  key : String
  fingerprint : String
  pc : BeginPc β
  deriving DecidableEq

structure KeyState (β : Type) where
  table : KeyTable β
  calls : List (BeginCall β)
  deriving DecidableEq

/-- No row and no call yet. -/
def KeyState.empty {β : Type} : KeyState β := ⟨⟨[], 1⟩, []⟩

/-- `complete` and `release` may come from anyone who holds a record. -/
inductive KeyAction (β : Type) where
  | call (userId key fingerprint : String)
  | statement (i : Nat) (input : BeginInput)
  | complete (record statusCode : Nat) (body : β) (transferId : Option String)
  | release (record : Nat)
  | cleanup (now : Time) (batchSize : Nat) (locked : List Nat)

/-- Every clock the action reads shows a time before `moment`. -/
def KeyAction.before {β : Type} (moment : Time) : KeyAction β → Prop
  | .statement _ input => input.now < moment
  | .cleanup now _ _ => now < moment
  | _ => True

section

variable {β : Type} (ttls : KeyTtls)

def keyStep (s : KeyState β) : KeyAction β → Option (KeyState β)
  | .call userId key fingerprint =>
      some { s with calls := s.calls ++ [⟨userId, key, fingerprint, .acquiring⟩] }
  | .statement i input =>
      match s.calls[i]? with
      | some c =>
          let (table, pc) := beginStep ttls c.userId c.key c.fingerprint input s.table c.pc
          some { table, calls := s.calls.set i { c with pc } }
      | none => none
  | .complete record statusCode body transferId =>
      some { s with table := s.table.complete record statusCode body transferId }
  | .release record => some { s with table := s.table.release record }
  | .cleanup now batchSize locked => some { s with table := s.table.cleanup now batchSize locked }

end

section

variable {β : Type} {ttls : KeyTtls} {s s' : KeyState β} {a : KeyAction β}

/-- A step of the key store, inverted. -/
inductive KeyMove (ttls : KeyTtls) (s : KeyState β) : KeyAction β → KeyState β → Prop
  | call {userId key fingerprint : String} :
      KeyMove ttls s (.call userId key fingerprint)
        { s with calls := s.calls ++ [⟨userId, key, fingerprint, .acquiring⟩] }
  | statement {i : Nat} {input : BeginInput} {c : BeginCall β} {table : KeyTable β}
      {pc : BeginPc β} (hc : s.calls[i]? = some c)
      (h : beginStep ttls c.userId c.key c.fingerprint input s.table c.pc = (table, pc)) :
      KeyMove ttls s (.statement i input) { table, calls := s.calls.set i { c with pc } }
  | complete {record statusCode : Nat} {body : β} {transferId : Option String} :
      KeyMove ttls s (.complete record statusCode body transferId)
        { s with table := s.table.complete record statusCode body transferId }
  | release {record : Nat} :
      KeyMove ttls s (.release record) { s with table := s.table.release record }
  | cleanup {now : Time} {batchSize : Nat} {locked : List Nat} :
      KeyMove ttls s (.cleanup now batchSize locked)
        { s with table := s.table.cleanup now batchSize locked }

theorem keyStep_move (h : keyStep ttls s a = some s') : KeyMove ttls s a s' := by
  cases a with
  | call userId key fingerprint => cases h; exact .call
  | statement i input =>
      simp only [keyStep] at h
      cases hc : s.calls[i]? with
      | none => rw [hc] at h; cases h
      | some c =>
          rw [hc] at h
          cases h
          exact .statement hc rfl
  | complete record statusCode body transferId => cases h; exact .complete
  | release record => cases h; exact .release
  | cleanup now batchSize locked => cases h; exact .cleanup

theorem KeyMove.change (h : KeyMove ttls s a s') : KeyChange s.table s'.table := by
  cases h with
  | call => exact .none
  | statement hc hb => exact beginStep_change hb
  | complete => exact .completed _ _ _ _
  | release => exact release_change _
  | cleanup => exact cleanup_change _ _ _

theorem run_keySound {as : List (KeyAction β)}
    (h : Runs.run (keyStep ttls) KeyState.empty as = some s) : s.table.Sound := by
  refine Runs.run_invariant (I := fun s : KeyState β => s.table.Sound) ?_ ?_ h
  · intro s a s' hs hstep
    exact hs.change (keyStep_move hstep).change
  · exact ⟨by simp [KeyState.empty], by simp [KeyState.empty], by simp [KeyState.empty]⟩

/-! ## A completed row -/

/-- What `begin` answers to a key whose response is stored. -/
def storedAnswer (row : IdempotencyKey β) (fingerprint : String) : BeginResult β :=
  if row.requestFingerprint = fingerprint then
    { outcome := .replay, statusCode := row.responseStatusCode, body := row.responseBody }
  else { outcome := .conflictMismatch }

/-- The row holds a response, no call is about to delete it, and the calls of
its key from number `start` on wait for it or were answered from it. -/
structure Holds (row : IdempotencyKey β) (start : Nat) (s : KeyState β) : Prop where
  sound : s.table.Sound
  stored : row ∈ s.table.rows
  notDeleting : ∀ c ∈ s.calls, ∀ now, c.pc ≠ .deleting row.id now
  later : ∀ (i : Nat) c, start ≤ i → s.calls[i]? = some c → c.userId = row.userId →
    c.key = row.key →
    c.pc = .acquiring ∨ c.pc = .contended ∨ c.pc = .claiming ∨
      c.pc = .finished (storedAnswer row c.fingerprint)

theorem classify_completed {row : IdempotencyKey β} (hdone : row.status = .completed)
    (fingerprint : String) : classify row fingerprint = storedAnswer row fingerprint := by
  by_cases hfp : row.requestFingerprint = fingerprint <;>
    simp [classify, storedAnswer, replay, hfp, hdone]

theorem contended_completed {row : IdempotencyKey β} (hdone : row.status = .completed)
    (fingerprint : String) :
    contendedResult (some row) fingerprint = storedAnswer row fingerprint := by
  by_cases hfp : row.requestFingerprint = fingerprint <;>
    simp [contendedResult, storedAnswer, replay, hfp, hdone]

theorem not_reusable {row : IdempotencyKey β} (hdone : row.status = .completed) {now : Time}
    (hnow : now < row.expiresAt) : ttls.isReusable row now = false := by
  simp [KeyTtls.isReusable, hdone, hnow]

/-- Nothing but a delete by its id, or a clock past its end, removes or changes
a completed row. -/
theorem KeyMove.keeps_row {row : IdempotencyKey β} (hs : s.table.Sound)
    (hdone : row.status = .completed) (h : KeyMove ttls s a s') (hbefore : a.before row.expiresAt)
    (hrow : row ∈ s.table.rows) (hdel : ∀ c ∈ s.calls, ∀ now, c.pc ≠ .deleting row.id now) :
    row ∈ s'.table.rows := by
  cases h with
  | call => exact hrow
  | @statement i input c table pc hc hb =>
      cases hpc : c.pc with
      | acquiring =>
          simp only [beginStep, hpc] at hb
          split at hb <;> cases hb <;> exact hrow
      | contended => rw [hpc] at hb; cases hb; exact hrow
      | claiming =>
          simp only [beginStep, hpc] at hb
          split at hb
          · split at hb <;> cases hb <;> exact hrow
          · cases hb; exact hrow
      | deleting id now =>
          rw [hpc] at hb
          cases hb
          refine List.mem_filter.mpr ⟨hrow, ?_⟩
          have hne : row.id ≠ id := by
            intro heq
            exact hdel c (List.mem_of_getElem? hc) now (by rw [hpc, heq])
          simpa using hne
      | inserting now =>
          simp only [beginStep, hpc] at hb
          split at hb
          · rename_i hins
            cases hb
            obtain ⟨-, rfl⟩ := insert_some hins
            exact List.mem_append_left _ hrow
          · cases hb; exact hrow
      | reloading =>
          simp only [beginStep, hpc] at hb
          split at hb <;> cases hb <;> exact hrow
      | finished r => rw [hpc] at hb; cases hb; exact hrow
  | complete =>
      rw [complete_rows]
      refine List.mem_map.mpr ⟨row, hrow, ?_⟩
      rw [if_neg]
      simp [hdone]
  | release =>
      refine List.mem_filter.mpr ⟨hrow, ?_⟩
      simp [hdone]
  | @cleanup now batchSize locked =>
      have hlive : ¬ row.expiresAt ≤ now := not_le.mpr hbefore
      refine List.mem_filter.mpr ⟨hrow, ?_⟩
      rw [Bool.not_eq_true', ← Bool.not_eq_true, List.contains_iff_mem, List.mem_map]
      rintro ⟨x, hx, hid⟩
      have hx := List.mem_filter.mp (List.mem_of_mem_take hx)
      rw [hs.eq_of_id hx.1 hrow hid] at hx
      simp [hlive] at hx

/-- What a statement of one call leaves in its place. -/
theorem Holds.statement {row : IdempotencyKey β} {start : Nat} (h : Holds row start s)
    (hdone : row.status = .completed) {c : BeginCall β} {input : BeginInput}
    (hbefore : input.now < row.expiresAt) {table : KeyTable β} {pc : BeginPc β}
    (hb : beginStep ttls c.userId c.key c.fingerprint input s.table c.pc = (table, pc)) :
    (∀ now, pc ≠ .deleting row.id now) ∧
      (c.userId = row.userId → c.key = row.key →
        (c.pc = .acquiring → pc = .contended ∨ pc = .claiming) ∧
        (c.pc = .contended ∨ c.pc = .claiming →
          pc = .finished (storedAnswer row c.fingerprint))) := by
  have hload : c.userId = row.userId → c.key = row.key →
      s.table.load c.userId c.key = some row := by
    intro huser hkey
    rw [huser, hkey]
    exact h.sound.load_eq h.stored
  cases hpc : c.pc with
  | acquiring =>
      simp only [beginStep, hpc] at hb
      split at hb <;> cases hb <;> exact ⟨by simp, fun _ _ => ⟨by simp, by simp⟩⟩
  | contended =>
      simp only [beginStep, hpc] at hb
      cases hb
      refine ⟨by simp, ?_⟩
      intro huser hkey
      refine ⟨by simp, fun _ => ?_⟩
      rw [hload huser hkey, contended_completed hdone]
  | claiming =>
      simp only [beginStep, hpc] at hb
      constructor
      · intro now heq
        subst heq
        split at hb
        · rename_i existing hex
          split at hb
          · rename_i hreuse
            simp only [Prod.mk.injEq, BeginPc.deleting.injEq] at hb
            obtain ⟨-, hid, -⟩ := hb
            rw [h.sound.eq_of_id (load_some hex).1 h.stored hid,
              not_reusable hdone hbefore] at hreuse
            cases hreuse
          · cases hb
        · cases hb
      · intro huser hkey
        refine ⟨by simp, fun _ => ?_⟩
        simp only [hload huser hkey, not_reusable hdone hbefore, Bool.false_eq_true,
          if_false] at hb
        cases hb
        rw [classify_completed hdone]
  | deleting id now =>
      simp only [beginStep, hpc] at hb
      cases hb
      exact ⟨by simp, fun _ _ => ⟨by simp, by simp⟩⟩
  | inserting now =>
      simp only [beginStep, hpc] at hb
      split at hb <;> cases hb <;> exact ⟨by simp, fun _ _ => ⟨by simp, by simp⟩⟩
  | reloading =>
      simp only [beginStep, hpc] at hb
      split at hb <;> cases hb <;> exact ⟨by simp, fun _ _ => ⟨by simp, by simp⟩⟩
  | finished r =>
      simp only [beginStep, hpc] at hb
      cases hb
      exact ⟨by simp, fun _ _ => ⟨by simp, by simp⟩⟩

theorem Holds.step {row : IdempotencyKey β} {start : Nat} (h : Holds row start s)
    (hdone : row.status = .completed) (hbefore : a.before row.expiresAt)
    (hm : KeyMove ttls s a s') : Holds row start s' where
  sound := h.sound.change hm.change
  stored := hm.keeps_row h.sound hdone hbefore h.stored h.notDeleting
  notDeleting := by
    intro c hc now
    cases hm with
    | call =>
        rcases List.mem_append.mp hc with hc | hc
        · exact h.notDeleting c hc now
        · rw [List.mem_singleton.mp hc]
          intro h
          cases h
    | @statement i input c₀ table pc hc₀ hb =>
        rcases List.mem_or_eq_of_mem_set hc with hc | rfl
        · exact h.notDeleting c hc now
        · exact (h.statement hdone hbefore hb).1 now
    | complete => exact h.notDeleting c hc now
    | release => exact h.notDeleting c hc now
    | cleanup => exact h.notDeleting c hc now
  later := by
    intro j c hj hc huser hkey
    cases hm with
    | call =>
        rcases Nat.lt_or_ge j s.calls.length with hlt | hge
        · rw [List.getElem?_append_left hlt] at hc
          exact h.later j c hj hc huser hkey
        · rw [List.getElem?_append_right hge] at hc
          rw [List.mem_singleton.mp (List.mem_of_getElem? hc)]
          exact .inl rfl
    | @statement i input c₀ table pc hc₀ hb =>
        rw [List.getElem?_set] at hc
        split at hc
        · rename_i hij
          subst hij
          rw [if_pos (List.getElem?_eq_some_iff.mp hc₀).1] at hc
          cases hc
          obtain ⟨hacq, hans⟩ := (h.statement hdone hbefore hb).2 huser hkey
          rcases h.later i c₀ hj hc₀ huser hkey with hpc | hpc | hpc | hpc
          · rcases hacq hpc with hpc | hpc
            · exact .inr (.inl hpc)
            · exact .inr (.inr (.inl hpc))
          · exact .inr (.inr (.inr (hans (.inl hpc))))
          · exact .inr (.inr (.inr (hans (.inr hpc))))
          · rw [hpc] at hb
            cases hb
            exact .inr (.inr (.inr rfl))
        · exact h.later j c hj hc huser hkey
    | complete => exact h.later j c hj hc huser hkey
    | release => exact h.later j c hj hc huser hkey
    | cleanup => exact h.later j c hj hc huser hkey

theorem Holds.run {row : IdempotencyKey β} {start : Nat} (h : Holds row start s)
    (hdone : row.status = .completed) {bs : List (KeyAction β)}
    (hrun : Runs.run (keyStep ttls) s bs = some s') (hbefore : ∀ b ∈ bs, b.before row.expiresAt) :
    Holds row start s' := by
  induction bs generalizing s with
  | nil =>
      cases hrun
      exact h
  | cons b bs ih =>
      obtain ⟨s₁, hstep, hrest⟩ := Runs.run_cons_eq_some.mp hrun
      have h₁ := h.step hdone (hbefore b (by simp)) (keyStep_move hstep)
      exact ih h₁ hrest fun x hx => hbefore x (List.mem_cons_of_mem _ hx)

/-- Two statements answer a call that was begun after the completion. -/
theorem Holds.answers {row : IdempotencyKey β} {start : Nat} (h : Holds row start s)
    (hdone : row.status = .completed) {i : Nat} {c : BeginCall β} (hi : start ≤ i)
    (hc : s.calls[i]? = some c) (huser : c.userId = row.userId) (hkey : c.key = row.key)
    {input input' : BeginInput} (hbefore : input.now < row.expiresAt)
    (hbefore' : input'.now < row.expiresAt) :
    (beginStep ttls c.userId c.key c.fingerprint input' s.table
      (beginStep ttls c.userId c.key c.fingerprint input s.table c.pc).2).2 =
        .finished (storedAnswer row c.fingerprint) := by
  have hone : ∀ (pc : BeginPc β) (input : BeginInput), input.now < row.expiresAt →
      pc = .contended ∨ pc = .claiming →
      (beginStep ttls c.userId c.key c.fingerprint input s.table pc).2 =
        .finished (storedAnswer row c.fingerprint) := by
    intro pc input hin hpc
    exact ((h.statement (c := { c with pc }) hdone hin rfl).2 huser hkey).2 hpc
  rcases h.later i c hi hc huser hkey with hpc | hpc | hpc | hpc
  · exact hone _ input' hbefore'
      (((h.statement (c := c) hdone hbefore rfl).2 huser hkey).1 hpc)
  · rw [hone c.pc input hbefore (.inl hpc)]
    rfl
  · rw [hone c.pc input hbefore (.inr hpc)]
    rfl
  · rw [hpc]
    rfl

/-! ## When a stored response is kept -/

/-- `complete` stored a response in `row`.  The row is kept as it is until its
`expires_at`, and every later `begin` of its key is answered from it, exactly
when no `begin` had already decided to delete the row. -/
theorem completed_kept_iff {as : List (KeyAction β)}
    (h : Runs.run (keyStep ttls) KeyState.empty as = some s) {row : IdempotencyKey β}
    (hrow : row ∈ s.table.rows) (hprogress : row.status = .inProgress) (statusCode : Nat)
    (body : β) (transferId : Option String) :
    (∀ bs s', Runs.run (keyStep ttls) s
        (.complete row.id statusCode body transferId :: bs) = some s' →
      (∀ b ∈ bs, b.before row.expiresAt) →
      row.answered statusCode body transferId ∈ s'.table.rows ∧
      ∀ (i : Nat) c, s.calls.length ≤ i → s'.calls[i]? = some c → c.userId = row.userId →
        c.key = row.key →
        (∀ result, c.pc = .finished result →
          result = if c.fingerprint = row.requestFingerprint then
              { outcome := .replay, statusCode := some statusCode, body := some body }
            else { outcome := .conflictMismatch }) ∧
        ∀ input input' : BeginInput, input.now < row.expiresAt → input'.now < row.expiresAt →
          ∃ result, (beginStep ttls c.userId c.key c.fingerprint input' s'.table
            (beginStep ttls c.userId c.key c.fingerprint input s'.table c.pc).2).2 =
              .finished result) ↔
    ∀ c ∈ s.calls, ∀ now, c.pc ≠ .deleting row.id now := by
  have hsound := run_keySound h
  constructor
  · -- a call that stands at its DELETE takes the row away with its next statement
    intro hkept c hc now hpc
    obtain ⟨j, hj, hcj⟩ := List.mem_iff_getElem.mp hc
    have hcj : s.calls[j]? = some c := by rw [List.getElem?_eq_getElem hj, hcj]
    have hstep : Runs.run (keyStep ttls) s
        [.complete row.id statusCode body transferId,
          .statement j ⟨.unavailable, row.expiresAt - 1⟩] =
        some ⟨(s.table.complete row.id statusCode body transferId).delete row.id,
          s.calls.set j { c with pc := .inserting now }⟩ := by
      simp [Runs.run, keyStep, hcj, hpc, beginStep]
    have hgone := (hkept _ _ hstep (by simp [KeyAction.before])).1
    simp [KeyTable.delete, IdempotencyKey.answered] at hgone
  · intro hdel bs s' hrun hbefore
    obtain ⟨s₁, hstep, hrest⟩ := Runs.run_cons_eq_some.mp hrun
    cases hstep
    have hstored : row.answered statusCode body transferId ∈
        (s.table.complete row.id statusCode body transferId).rows := by
      rw [complete_rows]
      refine List.mem_map.mpr ⟨row, hrow, ?_⟩
      rw [if_pos ⟨rfl, hprogress⟩]
    have h₁ : Holds (row.answered statusCode body transferId) s.calls.length
        ⟨s.table.complete row.id statusCode body transferId, s.calls⟩ := by
      refine ⟨hsound.change (.completed _ _ _ _), hstored, hdel, ?_⟩
      intro i c hi hc
      rw [List.getElem?_eq_none hi] at hc
      cases hc
    have h₂ := h₁.run rfl hrest hbefore
    refine ⟨h₂.stored, ?_⟩
    intro i c hi hc huser hkey
    refine ⟨?_, ?_⟩
    · intro result hres
      rcases h₂.later i c hi hc huser hkey with hpc | hpc | hpc | hpc <;> rw [hres] at hpc
      · cases hpc
      · cases hpc
      · cases hpc
      · cases hpc
        simp only [storedAnswer, IdempotencyKey.answered, eq_comm]
    · intro input input' hin hin'
      exact ⟨_, h₂.answers rfl hi hc huser hkey hin hin'⟩

end

/-- A first `begin` claims its key at instant 0, under the default lifetimes. -/
def ownerRun : List (KeyAction String) :=
  [.call "user_alice" "key-1" "fp", .statement 0 ⟨.acquired, 0⟩, .statement 0 ⟨.acquired, 0⟩,
    .statement 0 ⟨.acquired, 0⟩]

/-- The row it inserted. -/
def ownerRow : IdempotencyKey String :=
  ⟨1, "user_alice", "key-1", "fp", .inProgress, none, none, none, 0, 86400⟩

theorem completed_kept_ownerRun :
    ∃ s, Runs.run (keyStep ⟨86400, 30⟩) KeyState.empty ownerRun = some s ∧
      ∀ bs s', Runs.run (keyStep ⟨86400, 30⟩) s (.complete 1 201 "transfer" none :: bs) = some s' →
        (∀ b ∈ bs, b.before 86400) → ownerRow.answered 201 "transfer" none ∈ s'.table.rows := by
  have hrun : Runs.run (keyStep ⟨86400, 30⟩) KeyState.empty ownerRun =
      some ⟨⟨[ownerRow], 2⟩,
        [⟨"user_alice", "key-1", "fp", .finished ⟨.new, some 1, none, none⟩⟩]⟩ := by
    decide +kernel
  refine ⟨_, hrun, fun bs s' hbs hbefore => ?_⟩
  have hkept := completed_kept_iff hrun (show ownerRow ∈ _ by simp) rfl 201 "transfer" none
  exact (hkept.mpr (by simp) bs s' hbs hbefore).1

/-- Half a minute later a retry finds the key abandoned and decides to take it
over: its lock request succeeds, because the owner's lock has expired. -/
def takeoverRun : List (KeyAction String) :=
  ownerRun ++ [.call "user_alice" "key-1" "fp", .statement 1 ⟨.acquired, 31⟩,
    .statement 1 ⟨.acquired, 31⟩]

/-- The owner completes, and the retry deletes what was stored and runs again. -/
theorem stored_response_deleted :
    ∃ s s', Runs.run (keyStep ⟨86400, 30⟩) KeyState.empty takeoverRun = some s ∧
      ownerRow ∈ s.table.rows ∧
      Runs.run (keyStep ⟨86400, 30⟩) s [.complete 1 201 "transfer" none,
        .statement 1 ⟨.acquired, 31⟩, .statement 1 ⟨.acquired, 31⟩] = some s' ∧
      31 < ownerRow.expiresAt ∧
      ownerRow.answered 201 "transfer" none ∉ s'.table.rows ∧
      (s'.calls[1]?).map BeginCall.pc = some (.finished ⟨.new, some 2, none, none⟩) := by
  refine ⟨⟨⟨[ownerRow], 2⟩, [⟨"user_alice", "key-1", "fp", .finished ⟨.new, some 1, none, none⟩⟩,
      ⟨"user_alice", "key-1", "fp", .deleting 1 31⟩]⟩,
    ⟨⟨[⟨2, "user_alice", "key-1", "fp", .inProgress, none, none, none, 31, 86431⟩], 3⟩,
      [⟨"user_alice", "key-1", "fp", .finished ⟨.new, some 1, none, none⟩⟩,
        ⟨"user_alice", "key-1", "fp", .finished ⟨.new, some 2, none, none⟩⟩]⟩, ?_⟩
  decide +kernel

/-! ## An expired row -/

section

variable {β : Type} {ttls : KeyTtls}

/-- A statement of `begin` that answers REPLAY or CONFLICT_MISMATCH does not do so
on the strength of an expired row. -/
def ExpiredIgnored (ttls : KeyTtls) (s : KeyState β) : KeyAction β → Prop
  | .statement i input => ∀ c row table result, s.calls[i]? = some c →
      (∀ r, c.pc ≠ .finished r) → s.table.load c.userId c.key = some row →
      beginStep ttls c.userId c.key c.fingerprint input s.table c.pc =
        (table, .finished result) →
      result.outcome = .replay ∨ result.outcome = .conflictMismatch → input.now < row.expiresAt
  | _ => True

/-- A `begin` that found the lock held, or lost the race to insert, does not come
upon an expired row that is completed or of another fingerprint. -/
def NoExpiredAnswer (s : KeyState β) : KeyAction β → Prop
  | .statement i input => ∀ c row, s.calls[i]? = some c →
      c.pc = .contended ∨ c.pc = .reloading → s.table.load c.userId c.key = some row →
      row.requestFingerprint ≠ c.fingerprint ∨ row.status = .completed →
      input.now < row.expiresAt
  | _ => True

theorem classify_answers {row : IdempotencyKey β} {fingerprint : String} :
    ((classify row fingerprint).outcome = .replay ∨
      (classify row fingerprint).outcome = .conflictMismatch) ↔
    row.requestFingerprint ≠ fingerprint ∨ row.status = .completed := by
  by_cases hfp : row.requestFingerprint = fingerprint
  · by_cases hdone : row.status = .completed <;> simp [classify, replay, hfp, hdone]
  · simp [classify, hfp]

/-- The claim path has looked at `expires_at`. -/
theorem beginStep_claiming_fresh {table table' : KeyTable β} {userId key fingerprint : String}
    {input : BeginInput} {row : IdempotencyKey β} {result : BeginResult β}
    (hload : table.load userId key = some row)
    (h : beginStep ttls userId key fingerprint input table .claiming =
      (table', .finished result)) : input.now < row.expiresAt := by
  simp only [beginStep, hload] at h
  split at h
  · cases h
  · rename_i hreuse
    by_contra hexpired
    simp [KeyTtls.isReusable, not_lt.mp hexpired] at hreuse

theorem expiredIgnored_iff_step (s : KeyState β) (a : KeyAction β) :
    ExpiredIgnored ttls s a ↔ NoExpiredAnswer s a := by
  cases a with
  | statement i input =>
      constructor
      · rintro h c row hc hpc hload hanswers
        have hclassify := classify_answers.mpr hanswers
        rcases hpc with hpc | hpc
        · refine h c row s.table (classify row c.fingerprint) hc (by simp [hpc]) hload ?_ hclassify
          rw [hpc]
          simp only [beginStep, hload]
          rfl
        · refine h c row s.table (classify row c.fingerprint) hc (by simp [hpc]) hload ?_ hclassify
          rw [hpc]
          simp only [beginStep, hload]
      · rintro h c row table result hc hopen hload hstep hanswers
        cases hpc : c.pc with
        | acquiring =>
            rw [hpc] at hstep
            simp only [beginStep] at hstep
            split at hstep <;> cases hstep
        | contended =>
            rw [hpc] at hstep
            simp only [beginStep, hload] at hstep
            cases hstep
            exact h c row hc (.inl hpc) hload (classify_answers.mp hanswers)
        | claiming => exact beginStep_claiming_fresh hload (hpc ▸ hstep)
        | deleting id now =>
            rw [hpc] at hstep
            cases hstep
        | inserting now =>
            rw [hpc] at hstep
            simp only [beginStep] at hstep
            split at hstep
            · cases hstep
              rcases hanswers with h | h <;> cases h
            · cases hstep
        | reloading =>
            rw [hpc] at hstep
            simp only [beginStep, hload] at hstep
            cases hstep
            exact h c row hc (.inr hpc) hload (classify_answers.mp hanswers)
        | finished r => exact absurd hpc (hopen r)
  | _ => exact Iff.rfl

/-- Along every run of `begin` calls, from any table and with any clocks and any
answers of Redis, no answer rests on an expired row exactly when no call comes
upon one behind a held lock or a lost race. -/
theorem expired_ignored_iff (s : KeyState β) (as : List (KeyAction β)) :
    Runs.AllSteps (keyStep ttls) (ExpiredIgnored ttls) s as ↔
      Runs.AllSteps (keyStep ttls) NoExpiredAnswer s as := by
  have hsame : ExpiredIgnored ttls = NoExpiredAnswer (β := β) :=
    funext₂ fun s a => propext (expiredIgnored_iff_step s a)
  rw [hsame]

end

/-- The owner stores its response; a day later, when the key has expired, two
requests come in with it and the first takes the lock. -/
def expiredRun : List (KeyAction String) :=
  ownerRun ++ [.complete 1 201 "transfer" none, .call "user_alice" "key-1" "fp",
    .call "user_alice" "key-1" "fp", .statement 1 ⟨.acquired, 86400⟩,
    .statement 2 ⟨.held, 86400⟩]

/-- The second is answered with the expired response, while the first is let in
as a new request. -/
theorem expired_response_replayed :
    ∃ s s', Runs.run (keyStep ⟨86400, 30⟩) KeyState.empty expiredRun = some s ∧
      s.table.load "user_alice" "key-1" = some (ownerRow.answered 201 "transfer" none) ∧
      (ownerRow.answered 201 "transfer" none).expiresAt ≤ 86400 ∧
      Runs.run (keyStep ⟨86400, 30⟩) s [.statement 2 ⟨.held, 86400⟩,
        .statement 1 ⟨.acquired, 86400⟩, .statement 1 ⟨.acquired, 86400⟩,
        .statement 1 ⟨.acquired, 86400⟩] = some s' ∧
      (s'.calls[2]?).map BeginCall.pc =
        some (.finished ⟨.replay, none, some 201, some "transfer"⟩) ∧
      (s'.calls[1]?).map BeginCall.pc = some (.finished ⟨.new, some 2, none, none⟩) := by
  refine ⟨⟨⟨[ownerRow.answered 201 "transfer" none], 2⟩,
      [⟨"user_alice", "key-1", "fp", .finished ⟨.new, some 1, none, none⟩⟩,
        ⟨"user_alice", "key-1", "fp", .claiming⟩, ⟨"user_alice", "key-1", "fp", .contended⟩]⟩,
    ⟨⟨[⟨2, "user_alice", "key-1", "fp", .inProgress, none, none, none, 86400, 172800⟩], 3⟩,
      [⟨"user_alice", "key-1", "fp", .finished ⟨.new, some 1, none, none⟩⟩,
        ⟨"user_alice", "key-1", "fp", .finished ⟨.new, some 2, none, none⟩⟩,
        ⟨"user_alice", "key-1", "fp",
          .finished ⟨.replay, none, some 201, some "transfer"⟩⟩]⟩, ?_⟩
  decide +kernel

end LoyaltyTransfer
