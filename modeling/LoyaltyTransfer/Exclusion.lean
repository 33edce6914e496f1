/-
# `LoyaltyTransfer.Exclusion` — one NEW at a time for a key

A `begin` that inserted its row owns the key.  Redis plays no part in this: the
row stands in the way of every other INSERT under UNIQUE (user_id, key), so
another `begin` can return NEW only once the row is gone, and a row goes

    release(record)                                      its owner gave it up
    DELETE by a takeover      clock ≥ t + min(lock_ttl, key_ttl)
    DELETE by the cleanup     clock ≥ t + key_ttl

where `t` is the instant the row was created at.

**Proved here.**  As long as none of these happens, no other `begin` returns NEW,
whatever the interleaving and the answers of Redis; and `complete` and `release`
touch no row but the one their record's `begin` inserted (`new_excludes_new`).
What a clock of the newcomer itself reads does not decide it: a `begin` that
stalled after it read its clock may insert long after a takeover.
-/
import LoyaltyTransfer.KeyStore

namespace LoyaltyTransfer

section

variable {β : Type}

/-! ## A claimed row -/

/-- The row as its `begin` inserted it, or with a response stored in it. -/
def IdempotencyKey.StemsFrom (row row₀ : IdempotencyKey β) : Prop :=
  row = row₀ ∨ ∃ statusCode body transferId, row = row₀.answered statusCode body transferId

theorem IdempotencyKey.StemsFrom.same {row row₀ : IdempotencyKey β} (h : row.StemsFrom row₀) :
    row.id = row₀.id ∧ row.userId = row₀.userId ∧ row.key = row₀.key ∧
      row.createdAt = row₀.createdAt ∧ row.expiresAt = row₀.expiresAt := by
  rcases h with rfl | ⟨statusCode, body, transferId, rfl⟩
  · exact ⟨rfl, rfl, rfl, rfl, rfl⟩
  · exact ⟨rfl, rfl, rfl, rfl, rfl⟩

theorem IdempotencyKey.StemsFrom.answered {row row₀ : IdempotencyKey β} (h : row.StemsFrom row₀)
    (statusCode : Nat) (body : β) (transferId : Option String) :
    (row.answered statusCode body transferId).StemsFrom row₀ := by
  rcases h with rfl | ⟨statusCode', body', transferId', rfl⟩
  · exact .inr ⟨statusCode, body, transferId, rfl⟩
  · exact .inr ⟨statusCode, body, transferId, rfl⟩

/-- The outcome of a `begin` that has returned. -/
def BeginPc.outcome? : BeginPc β → Option BeginOutcome
  | .finished result => some result.outcome
  | _ => none

/-- The step takes the row `record`, created at `createdAt`, away from its owner,
or its owner gives it up. -/
def Removes (ttls : KeyTtls) (record : Nat) (createdAt : Time) (s : KeyState β) :
    KeyAction β → Prop
  | .release id => id = record
  | .statement i _ => ∃ c now, s.calls[i]? = some c ∧ c.pc = .deleting record now ∧
      createdAt + min ttls.lockTtl ttls.keyTtl ≤ now
  | .cleanup now batchSize locked => createdAt + ttls.keyTtl ≤ now ∧
      ∀ row ∈ (s.table.cleanup now batchSize locked).rows, row.id ≠ record
  | _ => False

/-- What is true of a row id from its INSERT on: it is not used again, and whoever
is about to delete the row had waited for long enough. -/
structure Claimed (ttls : KeyTtls) (row₀ : IdempotencyKey β) (s : KeyState β) : Prop where
  sound : s.table.Sound
  used : row₀.id < s.table.nextId
  rows : ∀ row ∈ s.table.rows, row.id = row₀.id → row.StemsFrom row₀
  deleting : ∀ c ∈ s.calls, ∀ now, c.pc = .deleting row₀.id now →
    row₀.createdAt + min ttls.lockTtl ttls.keyTtl ≤ now

variable {ttls : KeyTtls} {s s' : KeyState β} {a : KeyAction β} {row row₀ : IdempotencyKey β}

theorem reusable_after {now : Time} (hexp : row.expiresAt = row.createdAt + ttls.keyTtl)
    (h : ttls.isReusable row now = true) :
    row.createdAt + min ttls.lockTtl ttls.keyTtl ≤ now := by
  simp only [KeyTtls.isReusable, Bool.or_eq_true, Bool.and_eq_true, decide_eq_true_eq] at h
  have hlock := min_le_left ttls.lockTtl ttls.keyTtl
  have hkey := min_le_right ttls.lockTtl ttls.keyTtl
  rcases h with h | ⟨-, h⟩
  · rw [hexp] at h
    linarith
  · linarith

/-- A call that stands at its DELETE has just read the row. -/
theorem beginStep_deleting {userId key fingerprint : String} {input : BeginInput}
    {table table' : KeyTable β} {pc : BeginPc β} {id : Nat} {now : Time}
    (h : beginStep ttls userId key fingerprint input table pc = (table', .deleting id now)) :
    ∃ row, table.load userId key = some row ∧ row.id = id ∧ ttls.isReusable row now = true := by
  cases pc with
  | acquiring =>
      simp only [beginStep] at h
      split at h <;> cases h
  | claiming =>
      simp only [beginStep] at h
      split at h
      · rename_i existing hload
        split at h
        · rename_i hreuse
          cases h
          exact ⟨existing, hload, rfl, hreuse⟩
        · cases h
      · cases h
  | inserting now =>
      simp only [beginStep] at h
      split at h <;> cases h
  | reloading =>
      simp only [beginStep] at h
      split at h <;> cases h
  | _ => cases h

/-- A row after a change was there before, was just inserted, or was just
answered. -/
theorem KeyChange.mem {table table' : KeyTable β} (h : KeyChange table table')
    (hrow : row ∈ table'.rows) :
    row ∈ table.rows ∨ row.id = table.nextId ∨
      ∃ x ∈ table.rows, ∃ statusCode body transferId,
        row = x.answered statusCode body transferId := by
  cases h with
  | removed hsub => exact .inl (hsub.subset hrow)
  | inserted hload =>
      rcases List.mem_append.mp hrow with hrow | hrow
      · exact .inl hrow
      · rw [List.mem_singleton.mp hrow]
        exact .inr (.inl rfl)
  | completed record statusCode body transferId =>
      rcases mem_complete hrow with hrow | ⟨x, hx, -, -, rfl⟩
      · exact .inl hrow
      · exact .inr (.inr ⟨x, hx, statusCode, body, transferId, rfl⟩)

theorem Claimed.rows_step (h : Claimed ttls row₀ s) (hm : KeyMove ttls s a s')
    (hrow : row ∈ s'.table.rows) (hid : row.id = row₀.id) : row.StemsFrom row₀ := by
  rcases hm.change.mem hrow with hrow | hnew | ⟨x, hx, statusCode, body, transferId, rfl⟩
  · exact h.rows row hrow hid
  · have hused := h.used
    omega
  · exact (h.rows x hx hid).answered statusCode body transferId

theorem Claimed.step (h : Claimed ttls row₀ s)
    (hexp : row₀.expiresAt = row₀.createdAt + ttls.keyTtl) (hm : KeyMove ttls s a s') :
    Claimed ttls row₀ s' where
  sound := h.sound.change hm.change
  used := lt_of_lt_of_le h.used hm.change.nextId_le
  rows := fun _ hrow hid => h.rows_step hm hrow hid
  deleting := by
    intro c hc now hpc
    cases hm with
    | call =>
        rcases List.mem_append.mp hc with hc | hc
        · exact h.deleting c hc now hpc
        · rw [List.mem_singleton.mp hc] at hpc
          cases hpc
    | @statement i input c₀ table pc hc₀ hb =>
        rcases List.mem_or_eq_of_mem_set hc with hc | rfl
        · exact h.deleting c hc now hpc
        · have hpc : pc = .deleting row₀.id now := hpc
          rw [hpc] at hb
          obtain ⟨row, hload, hid, hreuse⟩ := beginStep_deleting hb
          obtain ⟨-, -, -, hcreated, hexpires⟩ := (h.rows row (load_some hload).1 hid).same
          rw [← hcreated]
          exact reusable_after (by rw [hexpires, hcreated, hexp]) hreuse
    | _ => exact h.deleting c hc now hpc

/-! ## Who else may return NEW -/

/-- A row goes only by a step that `Removes` it. -/
theorem KeyMove.row_stays (hc : Claimed ttls row₀ s)
    (hexp : row₀.expiresAt = row₀.createdAt + ttls.keyTtl) (hm : KeyMove ttls s a s')
    (hno : ¬ Removes ttls row₀.id row₀.createdAt s a)
    (h : ∃ row ∈ s.table.rows, row.id = row₀.id) : ∃ row ∈ s'.table.rows, row.id = row₀.id := by
  obtain ⟨row, hrow, hid⟩ := h
  cases hm with
  | call => exact ⟨row, hrow, hid⟩
  | @statement i input c table pc hci hb =>
      cases hpc : c.pc with
      | acquiring =>
          simp only [beginStep, hpc] at hb
          split at hb <;> cases hb <;> exact ⟨row, hrow, hid⟩
      | claiming =>
          simp only [beginStep, hpc] at hb
          split at hb
          · split at hb <;> cases hb <;> exact ⟨row, hrow, hid⟩
          · cases hb
            exact ⟨row, hrow, hid⟩
      | deleting id now =>
          rw [hpc] at hb
          cases hb
          refine ⟨row, List.mem_filter.mpr ⟨hrow, ?_⟩, hid⟩
          have hne : row.id ≠ id := by
            intro heq
            rw [← heq, hid] at hpc
            exact hno ⟨c, now, hci, hpc, hc.deleting c (List.mem_of_getElem? hci) now hpc⟩
          simpa using hne
      | inserting now =>
          simp only [beginStep, hpc] at hb
          split at hb
          · rename_i hins
            cases hb
            obtain ⟨-, rfl⟩ := insert_some hins
            exact ⟨row, List.mem_append_left _ hrow, hid⟩
          · cases hb
            exact ⟨row, hrow, hid⟩
      | reloading =>
          simp only [beginStep, hpc] at hb
          split at hb <;> cases hb <;> exact ⟨row, hrow, hid⟩
      | _ =>
          rw [hpc] at hb
          cases hb
          exact ⟨row, hrow, hid⟩
  | @complete record statusCode body transferId =>
      rw [complete_rows]
      refine ⟨_, List.mem_map_of_mem hrow, ?_⟩
      split
      · exact hid
      · exact hid
  | @release record =>
      refine ⟨row, List.mem_filter.mpr ⟨hrow, ?_⟩, hid⟩
      have hne : row.id ≠ record := fun heq => hno (heq.symm.trans hid)
      simp [hne]
  | @cleanup now batchSize locked =>
      by_cases hlive : row.expiresAt ≤ now
      · by_contra hgone
        rw [(hc.rows row hrow hid).same.2.2.2.2, hexp] at hlive
        exact hno ⟨hlive, fun x hx hxid => hgone ⟨x, hx, hxid⟩⟩
      · refine ⟨row, List.mem_filter.mpr ⟨hrow, ?_⟩, hid⟩
        rw [Bool.not_eq_true', ← Bool.not_eq_true, List.contains_iff_mem, List.mem_map]
        rintro ⟨x, hx, hxid⟩
        have hx := List.mem_filter.mp (List.mem_of_mem_take hx)
        rw [hc.sound.eq_of_id hx.1 hrow hxid] at hx
        simp [hlive] at hx

/-- A statement returns NEW only when no row of its key stands in the way. -/
theorem beginStep_new {userId key fingerprint : String} {input : BeginInput}
    {table table' : KeyTable β} {pc pc' : BeginPc β}
    (h : beginStep ttls userId key fingerprint input table pc = (table', pc'))
    (hnew : pc'.outcome? = some .new) : pc' = pc ∨ table.load userId key = none := by
  by_cases hfin : ∃ r, pc = .finished r
  · obtain ⟨r, rfl⟩ := hfin
    cases h
    exact .inl rfl
  · cases pc' with
    | finished result =>
        refine .inr ?_
        rcases beginStep_finished (fun r hr => hfin ⟨r, hr⟩) h with
          ⟨hload, -, -⟩ | ⟨-, -, -, -, hresult⟩ | ⟨-, hresult | hresult⟩
        · exact hload
        · rw [hresult] at hnew
          cases hnew
        · rw [hresult] at hnew
          cases hnew
        · rw [hresult] at hnew
          cases hnew
    | _ => cases hnew

/-- The row is there, and nobody has returned NEW for its key since `s₁`. -/
structure Exclusive (ttls : KeyTtls) (row₀ : IdempotencyKey β) (s₁ s : KeyState β) : Prop where
  claimed : Claimed ttls row₀ s
  present : ∃ row ∈ s.table.rows, row.id = row₀.id
  news : ∀ (j : Nat) c, s.calls[j]? = some c → c.userId = row₀.userId → c.key = row₀.key →
    c.pc.outcome? = some .new → s₁.calls[j]? = some c

theorem Exclusive.step {s₁ : KeyState β} (h : Exclusive ttls row₀ s₁ s)
    (hexp : row₀.expiresAt = row₀.createdAt + ttls.keyTtl) (hm : KeyMove ttls s a s')
    (hno : ¬ Removes ttls row₀.id row₀.createdAt s a) : Exclusive ttls row₀ s₁ s' where
  claimed := h.claimed.step hexp hm
  present := hm.row_stays h.claimed hexp hno h.present
  news := by
    intro j c hc huser hkey hnew
    cases hm with
    | call =>
        rcases Nat.lt_or_ge j s.calls.length with hlt | hge
        · rw [List.getElem?_append_left hlt] at hc
          exact h.news j c hc huser hkey hnew
        · rw [List.getElem?_append_right hge] at hc
          rw [List.mem_singleton.mp (List.mem_of_getElem? hc)] at hnew
          cases hnew
    | @statement i input c₀ table pc hc₀ hb =>
        rw [List.getElem?_set] at hc
        split at hc
        · rename_i hij
          subst hij
          rw [if_pos (List.getElem?_eq_some_iff.mp hc₀).1] at hc
          cases hc
          rcases beginStep_new hb hnew with hpc | hload
          · -- it had returned already
            have hc₀' : (⟨c₀.userId, c₀.key, c₀.fingerprint, pc⟩ : BeginCall β) = c₀ := by
              rw [hpc]
            rw [hc₀']
            rw [hpc] at hnew
            exact h.news i c₀ hc₀ huser hkey hnew
          · -- the row stands in the way
            obtain ⟨row, hrow, hid⟩ := h.present
            obtain ⟨-, hu, hk, -, -⟩ := (h.claimed.rows row hrow hid).same
            exact absurd ⟨hu.trans huser.symm, hk.trans hkey.symm⟩ (load_none hload hrow)
        · exact h.news j c hc huser hkey hnew
    | _ => exact h.news j c hc huser hkey hnew

/-! ## From the INSERT on -/

/-- Nobody deletes an id before it is used. -/
theorem run_deleting {as : List (KeyAction β)}
    (h : Runs.run (keyStep ttls) KeyState.empty as = some s) :
    s.table.Sound ∧ ∀ c ∈ s.calls, ∀ id now, c.pc = .deleting id now → id < s.table.nextId := by
  refine Runs.run_invariant (I := fun s : KeyState β => s.table.Sound ∧
    ∀ c ∈ s.calls, ∀ id now, c.pc = .deleting id now → id < s.table.nextId) ?_ ?_ h
  · rintro s a s' ⟨hsound, hdel⟩ hstep
    have hm := keyStep_move hstep
    refine ⟨hsound.change hm.change, ?_⟩
    intro c hc id now hpc
    refine lt_of_lt_of_le ?_ hm.change.nextId_le
    cases hm with
    | call =>
        rcases List.mem_append.mp hc with hc | hc
        · exact hdel c hc id now hpc
        · rw [List.mem_singleton.mp hc] at hpc
          cases hpc
    | statement hc₀ hb =>
        rcases List.mem_or_eq_of_mem_set hc with hc | rfl
        · exact hdel c hc id now hpc
        · obtain ⟨row, hload, rfl, -⟩ := beginStep_deleting (hb.trans (by rw [← hpc]))
          exact hsound.below row (load_some hload).1
    | _ => exact hdel c hc id now hpc
  · refine ⟨⟨?_, ?_, ?_⟩, ?_⟩ <;> simp [KeyState.empty]

/-- The rows of the table other than `record`. -/
def KeyTable.others (table : KeyTable β) (record : Nat) : List (IdempotencyKey β) :=
  table.rows.filter fun row => decide (row.id ≠ record)

theorem complete_others (table : KeyTable β) (record statusCode : Nat) (body : β)
    (transferId : Option String) :
    (table.complete record statusCode body transferId).others record = table.others record := by
  have hid : ∀ row : IdempotencyKey β,
      (if row.id = record ∧ row.status = .inProgress then row.answered statusCode body transferId
        else row).id = row.id := by
    intro row
    split <;> rfl
  simp only [KeyTable.others, complete_rows, List.filter_map, Function.comp_def, hid]
  conv_rhs => rw [← List.map_id (table.rows.filter _)]
  refine List.map_congr_left ?_
  intro row hrow
  have hne : row.id ≠ record := by simpa using (List.mem_filter.mp hrow).2
  rw [if_neg fun h => hne h.1, id]

theorem release_others (table : KeyTable β) (record : Nat) :
    (table.release record).others record = table.others record := by
  simp only [KeyTable.others, KeyTable.release, List.filter_filter]
  refine List.filter_congr fun row _ => ?_
  by_cases hid : row.id = record <;> simp [hid]

/-- A `begin` returned NEW with a record created at `t`.  As long as no step
releases the record, takes its row over at a clock of at least
`t + min(lock_ttl, key_ttl)` or cleans it up at a clock of at least
`t + key_ttl`, no other `begin` of the key returns NEW.  And whatever happens,
`complete` and `release` with the record touch no row but the one that `begin`
inserted. -/
theorem new_excludes_new {as bs : List (KeyAction β)} {s₁ : KeyState β} {i r : Nat}
    {c c₁ : BeginCall β} {t : Time} {input : BeginInput}
    (h : Runs.run (keyStep ttls) KeyState.empty as = some s) (hc : s.calls[i]? = some c)
    (hpc : c.pc = .inserting t) (hstep : keyStep ttls s (.statement i input) = some s₁)
    (hc₁ : s₁.calls[i]? = some c₁) (hnew : c₁.pc = .finished { outcome := .new, record := some r })
    (hrun : Runs.run (keyStep ttls) s₁ bs = some s') :
    (Runs.AllSteps (keyStep ttls) (fun x b => ¬ Removes ttls r t x b) s₁ bs →
      ∀ (j : Nat) c', s'.calls[j]? = some c' → c'.userId = c.userId → c'.key = c.key →
        c'.pc.outcome? = some .new → s₁.calls[j]? = some c') ∧
    (∀ row ∈ s'.table.rows, row.id = r → row.StemsFrom
      ⟨r, c.userId, c.key, c.fingerprint, .inProgress, none, none, none, t, t + ttls.keyTtl⟩) ∧
    (∀ statusCode body transferId,
      (s'.table.complete r statusCode body transferId).others r = s'.table.others r) ∧
    (s'.table.release r).others r = s'.table.others r := by
  obtain ⟨hsound, hdel⟩ := run_deleting h
  -- the INSERT
  have hm := keyStep_move hstep
  obtain ⟨hr, htable, hcalls⟩ : r = s.table.nextId ∧ s₁.table =
      ⟨s.table.rows ++ [s.table.newRow ttls c.userId c.key c.fingerprint t], s.table.nextId + 1⟩ ∧
      s₁.calls = s.calls.set i c₁ := by
    cases hm with
    | @statement _ _ c₀ table pc hc₀ hb =>
        rw [hc] at hc₀
        cases hc₀
        have hlt := (List.getElem?_eq_some_iff.mp hc).1
        have hset : (s.calls.set i { c with pc })[i]? = some { c with pc } :=
          List.getElem?_set_self hlt
        obtain rfl : { c with pc } = c₁ := Option.some.inj (hset.symm.trans hc₁)
        have hnew : pc = .finished { outcome := .new, record := some r } := hnew
        subst hnew
        simp only [beginStep, hpc] at hb
        split at hb
        · rename_i hins
          cases hb
          obtain ⟨-, rfl⟩ := insert_some hins
          exact ⟨rfl, rfl, rfl⟩
        · cases hb
  subst hr
  have hclaimed : Claimed ttls (s.table.newRow ttls c.userId c.key c.fingerprint t) s₁ := by
    refine ⟨hsound.change hm.change, ?_, ?_, ?_⟩
    · rw [htable]
      exact Nat.lt_succ_self _
    · intro row hrow hid
      rw [htable, List.mem_append, List.mem_singleton] at hrow
      rcases hrow with hrow | rfl
      · exact absurd hid (Nat.ne_of_lt (hsound.below row hrow))
      · exact .inl rfl
    · intro c' hc' now hpc'
      rw [hcalls] at hc'
      rcases List.mem_or_eq_of_mem_set hc' with hc' | rfl
      · exact absurd (hdel c' hc' _ now hpc') (Nat.lt_irrefl _)
      · rw [hnew] at hpc'
        cases hpc'
  have hlater := Runs.run_invariant
    (I := Claimed ttls (s.table.newRow ttls c.userId c.key c.fingerprint t))
    (fun _ _ _ hx hs => hx.step rfl (keyStep_move hs)) hclaimed hrun
  refine ⟨?_, hlater.rows, complete_others _ _, release_others _ _⟩
  intro hall
  have hexcl : Exclusive ttls (s.table.newRow ttls c.userId c.key c.fingerprint t) s₁ s₁ := by
    refine ⟨hclaimed, ⟨s.table.newRow ttls c.userId c.key c.fingerprint t, ?_, rfl⟩,
      fun _ _ hj _ _ _ => hj⟩
    rw [htable]
    exact List.mem_append_right _ (List.mem_singleton_self _)
  exact (Runs.run_invariant_of
    (I := Exclusive ttls (s.table.newRow ttls c.userId c.key c.fingerprint t) s₁)
    (fun _ _ _ hx hno hs => hx.step rfl (keyStep_move hs) hno) hexcl hall hrun).news

end

/-- A first `begin` up to its INSERT, at instant 0 and with Redis down. -/
def claimingRun : List (KeyAction String) :=
  [.call "user_alice" "key-1" "fp", .statement 0 ⟨.unavailable, 0⟩,
    .statement 0 ⟨.unavailable, 0⟩]

/-- A second one, five seconds later. -/
def retryRun : List (KeyAction String) :=
  [.call "user_alice" "key-1" "fp", .statement 1 ⟨.unavailable, 5⟩,
    .statement 1 ⟨.unavailable, 5⟩]

theorem retryRun_removes_nothing (s : KeyState String)
    (hs : s = ⟨⟨[ownerRow], 2⟩,
      [⟨"user_alice", "key-1", "fp", .finished ⟨.new, some 1, none, none⟩⟩]⟩) :
    Runs.AllSteps (keyStep ⟨86400, 30⟩) (fun x b => ¬ Removes ⟨86400, 30⟩ 1 0 x b) s retryRun := by
  subst hs
  refine ⟨by rintro ⟨⟩, fun s₁ h₁ => ?_⟩
  cases h₁
  refine ⟨?_, fun s₂ h₂ => ?_⟩
  · rintro ⟨c, now, hc, hpc, -⟩
    cases hc
    cases hpc
  · cases h₂
    refine ⟨?_, fun _ _ => trivial⟩
    rintro ⟨c, now, hc, hpc, -⟩
    cases hc
    cases hpc

theorem new_excludes_new_retryRun :
    ∃ s s₁ s', Runs.run (keyStep ⟨86400, 30⟩) KeyState.empty claimingRun = some s ∧
      keyStep ⟨86400, 30⟩ s (.statement 0 ⟨.unavailable, 0⟩) = some s₁ ∧
      Runs.run (keyStep ⟨86400, 30⟩) s₁ retryRun = some s' ∧
      ∀ (j : Nat) c', s'.calls[j]? = some c' → c'.userId = "user_alice" → c'.key = "key-1" →
        c'.pc.outcome? = some .new → s₁.calls[j]? = some c' := by
  have hrun : Runs.run (keyStep ⟨86400, 30⟩) KeyState.empty claimingRun =
      some ⟨⟨[], 1⟩, [⟨"user_alice", "key-1", "fp", .inserting 0⟩]⟩ := by
    decide +kernel
  have hins : keyStep ⟨86400, 30⟩ ⟨⟨[], 1⟩, [⟨"user_alice", "key-1", "fp", .inserting 0⟩]⟩
      (.statement 0 ⟨.unavailable, 0⟩) = some ⟨⟨[ownerRow], 2⟩,
        [⟨"user_alice", "key-1", "fp", .finished ⟨.new, some 1, none, none⟩⟩]⟩ := by
    decide +kernel
  have hretry : ∃ s', Runs.run (keyStep ⟨86400, 30⟩) ⟨⟨[ownerRow], 2⟩,
      [⟨"user_alice", "key-1", "fp", .finished ⟨.new, some 1, none, none⟩⟩]⟩ retryRun = some s' :=
    Option.isSome_iff_exists.mp (by decide +kernel)
  obtain ⟨s', hs'⟩ := hretry
  exact ⟨_, _, s', hrun, hins, hs', (new_excludes_new hrun rfl rfl hins rfl rfl hs').1
    (retryRun_removes_nothing _ rfl)⟩

/-- A second `begin` reads its clock and finds no row, then stalls; the first one
inserts its row. -/
def stalledRun : List (KeyAction String) :=
  claimingRun ++ [.call "user_alice" "key-1" "fp", .statement 1 ⟨.unavailable, 1⟩,
    .statement 1 ⟨.unavailable, 1⟩, .statement 0 ⟨.unavailable, 0⟩]

/-- Half a minute later a third takes the row over and is released; then the
second goes on. -/
def resumedRun : List (KeyAction String) :=
  [.call "user_alice" "key-1" "fp", .statement 2 ⟨.unavailable, 31⟩,
    .statement 2 ⟨.unavailable, 31⟩, .statement 2 ⟨.unavailable, 31⟩,
    .statement 2 ⟨.unavailable, 31⟩, .release 2, .statement 1 ⟨.unavailable, 1⟩]

/-- It returns NEW with a clock of 1, less than 0 + min(30, 86400), although the
first record, created at 0, was never released. -/
theorem stalled_begin_new :
    (∀ a ∈ stalledRun ++ resumedRun, a ≠ .release 1) ∧ (1 : Time) < 0 + min 30 86400 ∧
    ∃ s s', Runs.run (keyStep ⟨86400, 30⟩) KeyState.empty stalledRun = some s ∧
      s.table.rows = [ownerRow] ∧ ownerRow.createdAt = 0 ∧
      (s.calls[0]?).map BeginCall.pc = some (.finished ⟨.new, some 1, none, none⟩) ∧
      Runs.run (keyStep ⟨86400, 30⟩) s resumedRun = some s' ∧
      (s'.calls[1]?).map BeginCall.pc = some (.finished ⟨.new, some 3, none, none⟩) ∧
      s'.table.rows =
        [⟨3, "user_alice", "key-1", "fp", .inProgress, none, none, none, 1, 86401⟩] := by
  refine ⟨by simp [stalledRun, resumedRun, claimingRun], by norm_num,
    ⟨⟨[ownerRow], 2⟩, [⟨"user_alice", "key-1", "fp", .finished ⟨.new, some 1, none, none⟩⟩,
      ⟨"user_alice", "key-1", "fp", .inserting 1⟩]⟩,
    ⟨⟨[⟨3, "user_alice", "key-1", "fp", .inProgress, none, none, none, 1, 86401⟩], 4⟩,
      [⟨"user_alice", "key-1", "fp", .finished ⟨.new, some 1, none, none⟩⟩,
        ⟨"user_alice", "key-1", "fp", .finished ⟨.new, some 3, none, none⟩⟩,
        ⟨"user_alice", "key-1", "fp", .finished ⟨.new, some 2, none, none⟩⟩]⟩, ?_⟩
  decide +kernel

end LoyaltyTransfer
