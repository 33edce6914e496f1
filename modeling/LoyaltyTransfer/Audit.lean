/-
# `LoyaltyTransfer.Audit` — the audit trail tells the status

`transfer_events` and `transfers.status` are separate rows, written by several
services, some of them with two events in one transaction.

**Proved here.**  In every reachable state the events of a transfer lead from its
creation to the status it has, `completed_at` is set exactly in the two final
statuses, and a closed transfer keeps its status and its events for good
(`audit_trail_matches`).  The invariant `Audited` also keeps the rows valid and
the checks scheduled, for `Recording` and `Reach`.
-/
import LoyaltyTransfer.Safety

namespace LoyaltyTransfer

open Transaction

/-- Rows, events and schedules agree. -/
structure Audited (db : Database) : Prop where
  valid : ∀ t ∈ db.transfers, t.Valid
  scheduled : ∀ t ∈ db.transfers, t.Scheduled
  trail : ∀ t ∈ db.transfers, Leads none (db.eventsOf t.id) (some t.status)
  owners : ∀ e ∈ db.transferEvents, ∃ t ∈ db.transfers, t.id = e.transferId

section

variable {c : Cause} {db₀ db db' : Database}

theorem eventsOf_saved {db₁ : Database} (hdb : db₁.transferEvents = db.transferEvents)
    (t : Transfer) (events : List TransferEvent) (moment : Option Time) (id : String) :
    (saved db₁ t events moment).eventsOf id =
      db.eventsOf id ++ events.filter fun e => decide (e.transferId = id) := by
  simp only [Database.eventsOf, saved, hdb, List.filter_append]

theorem filter_events_self {id : String} {events : List TransferEvent}
    (h : ∀ e ∈ events, e.transferId = id) :
    events.filter (fun e => decide (e.transferId = id)) = events :=
  List.filter_eq_self.mpr fun e he => decide_eq_true (h e he)

theorem filter_events_other {id id' : String} {events : List TransferEvent}
    (h : ∀ e ∈ events, e.transferId = id) (hne : id' ≠ id) :
    events.filter (fun e => decide (e.transferId = id')) = [] := by
  refine List.filter_eq_nil_iff.mpr ?_
  intro e he heq
  exact hne ((of_decide_eq_true heq).symm.trans (h e he))

/-- A write of one row. -/
theorem Audited.saved (h : Audited db) {db₁ : Database} (htr : db₁.transfers = db.transfers)
    (hev : db₁.transferEvents = db.transferEvents) {t t' : Transfer}
    {events : List TransferEvent} {moment : Option Time} (ht : db.transfer? t.id = some t)
    (hid : t'.id = t.id) (hw : Written (some t.status) t' events) :
    Audited (saved db₁ t' events moment) := by
  have hmem := Table.lookup_mem ht
  have hrows : ∀ x ∈ (LoyaltyTransfer.saved db₁ t' events moment).transfers,
      x = t' ∨ (x ∈ db.transfers ∧ x.id ≠ t'.id) := by
    intro x hx
    simp only [LoyaltyTransfer.saved, htr] at hx
    rcases Table.mem_replace.mp hx with ⟨rfl, -⟩ | hx
    · exact .inl rfl
    · exact .inr hx
  have hkept : ∀ x ∈ db.transfers,
      ∃ y ∈ (LoyaltyTransfer.saved db₁ t' events moment).transfers, y.id = x.id := by
    intro x hx
    have hkeys : ((LoyaltyTransfer.saved db₁ t' events moment).transfers).map Transfer.id =
        db.transfers.map Transfer.id := by
      simp only [LoyaltyTransfer.saved, htr, Table.map_key_replace]
    have hxid : x.id ∈ db.transfers.map Transfer.id := List.mem_map_of_mem hx
    rw [← hkeys] at hxid
    exact List.mem_map.mp hxid
  refine ⟨?_, ?_, ?_, ?_⟩
  · intro x hx
    rcases hrows x hx with rfl | ⟨hx, -⟩
    · exact hw.valid
    · exact h.valid x hx
  · intro x hx
    rcases hrows x hx with rfl | ⟨hx, -⟩
    · exact hw.scheduled
    · exact h.scheduled x hx
  · intro x hx
    rw [eventsOf_saved hev]
    rcases hrows x hx with rfl | ⟨hx, hne⟩
    · rw [filter_events_self hw.ids, hid]
      exact (h.trail t hmem).append hw.trail
    · rw [filter_events_other hw.ids hne, List.append_nil]
      exact h.trail x hx
  · intro e he
    simp only [LoyaltyTransfer.saved, hev] at he
    rcases List.mem_append.mp he with he | he
    · obtain ⟨x, hx, hxid⟩ := h.owners e he
      obtain ⟨y, hy, hyid⟩ := hkept x hx
      exact ⟨y, hy, hyid.trans hxid⟩
    · obtain ⟨y, hy, hyid⟩ := hkept t hmem
      exact ⟨y, hy, by rw [hyid, ← hid, hw.ids e he]⟩

theorem Audited.opened (h : Audited db) {t : Transfer} {source clearing : Account}
    {events : List TransferEvent} {moment : Time} (hnew : ∀ x ∈ db.transfers, x.id ≠ t.id)
    (hw : Written none t events) : Audited (opened db t source clearing events moment) := by
  have hfresh : db.eventsOf t.id = [] := by
    refine List.filter_eq_nil_iff.mpr ?_
    intro e he heq
    obtain ⟨x, hx, hxid⟩ := h.owners e he
    exact hnew x hx (hxid.trans (of_decide_eq_true heq))
  have hevents : ∀ id, (LoyaltyTransfer.opened db t source clearing events moment).eventsOf id =
      db.eventsOf id ++ events.filter fun e => decide (e.transferId = id) := fun id =>
    List.filter_append ..
  refine ⟨?_, ?_, ?_, ?_⟩
  · intro x hx
    rcases List.mem_append.mp hx with hx | hx
    · exact h.valid x hx
    · rw [List.mem_singleton.mp hx]
      exact hw.valid
  · intro x hx
    rcases List.mem_append.mp hx with hx | hx
    · exact h.scheduled x hx
    · rw [List.mem_singleton.mp hx]
      exact hw.scheduled
  · intro x hx
    rw [hevents]
    rcases List.mem_append.mp hx with hx | hx
    · rw [filter_events_other hw.ids (hnew x hx), List.append_nil]
      exact h.trail x hx
    · rw [List.mem_singleton.mp hx, hfresh, filter_events_self hw.ids, List.nil_append]
      exact hw.trail
  · intro e he
    rcases List.mem_append.mp he with he | he
    · obtain ⟨x, hx, hxid⟩ := h.owners e he
      exact ⟨x, List.mem_append_left _ hx, hxid⟩
    · exact ⟨t, List.mem_append_right _ (List.mem_singleton_self _), (hw.ids e he).symm⟩

theorem Audited.leased (h : Audited db) (hn : (db.transfers.map Transfer.id).Nodup)
    {claimed : List String} {expiry : Time}
    (hdue : ∀ id ∈ claimed, ∃ t ∈ db.transfers, t.id = id ∧
      (t.status ∈ stuckStatuses ∨ t.status = .pendingVerification)) :
    Audited (leased claimed expiry db) := by
  refine ⟨?_, ?_, ?_, ?_⟩
  · intro x' hx'
    obtain ⟨x, hx, rfl⟩ := List.mem_map.mp hx'
    have hvalid := h.valid x hx
    split
    · exact { hvalid with }
    · exact hvalid
  · intro x' hx'
    obtain ⟨x, hx, rfl⟩ := List.mem_map.mp hx'
    split
    · rename_i hclaimed
      obtain ⟨t, ht, hid, hstatus⟩ := hdue x.id hclaimed
      obtain rfl := Table.eq_of_key_eq hn ht hx hid
      rcases hstatus with hstuck | hwaiting
      · refine scheduled_open ?_ ?_
        · intro heq
          have heq : t.status = .pendingVerification := heq
          simp [heq, stuckStatuses] at hstuck
        · intro hclosed
          have hclosed : t.status ∈ closedStatuses := hclosed
          simp only [closedStatuses, List.mem_cons, List.not_mem_nil, or_false] at hclosed
          rcases hclosed with heq | heq | heq <;> simp [heq, stuckStatuses] at hstuck
      · exact scheduled_waiting hwaiting rfl
    · exact h.scheduled x hx
  · intro x' hx'
    obtain ⟨x, hx, rfl⟩ := List.mem_map.mp hx'
    split
    · exact h.trail x hx
    · exact h.trail x hx
  · intro e he
    obtain ⟨x, hx, hxid⟩ := h.owners e he
    refine ⟨_, List.mem_map_of_mem hx, ?_⟩
    split
    · exact hxid
    · exact hxid

theorem Audited.change (h : Audited db) (hsound : Sound db₀ db) (hc : Change c db db') :
    Audited db' := by
  cases hc with
  | frame hf =>
      refine ⟨?_, ?_, ?_, ?_⟩
      · rw [hf.transfers]
        exact h.valid
      · rw [hf.transfers]
        exact h.scheduled
      · simp only [hf.transfers, Database.eventsOf, hf.transferEvents]
        exact h.trail
      · rw [hf.transfers, hf.transferEvents]
        exact h.owners
  | opened events _ ho hw => exact h.opened ho.insertable.id hw
  | submitted ht _ _ _ hw => exact h.saved rfl rfl ht rfl hw
  | parked events ht _ hterms _ _ hw => exact h.saved rfl rfl ht hterms.id hw
  | settled events ht _ _ _ _ hw =>
      refine Audited.saved h ?_ ?_ ht (sameTerms_settledAs _ _ _).id hw
      · rfl
      · rfl
  | reversed events ht _ _ _ _ hw =>
      refine Audited.saved h ?_ ?_ ht (sameTerms_reversedAs _ _ _ _).id hw
      · rfl
      · rfl
  | leased claimed expiry hdue => exact h.leased hsound.transferIds hdue

/-! ## Closed transfers -/

theorem ReversedBecause.open_status {late : Transfer → Prop} {t : Transfer}
    {code : TransferFailureCode} (h : ReversedBecause late t code) : t.status ∉ closedStatuses := by
  cases h with
  | rejected hs => simp [hs, closedStatuses]
  | unavailable hs => simp [hs, closedStatuses]
  | notReceived hs =>
      simp only [verifiableStatuses, List.mem_cons, List.not_mem_nil, or_false] at hs
      rcases hs with hs | hs <;> simp [hs, closedStatuses]
  | interrupted hs => simp [hs, closedStatuses]

theorem verifiable_open {s : TransferStatus} (h : s ∈ verifiableStatuses) :
    s ∉ closedStatuses := by
  simp only [verifiableStatuses, List.mem_cons, List.not_mem_nil, or_false] at h
  rcases h with rfl | rfl <;> simp [closedStatuses]

/-- No change moves a closed transfer or adds to its events. -/
theorem Change.closed (hc : Change c db db') {id : String} {x : Transfer}
    (hx : db.transfer? id = some x) (hclosed : x.status ∈ closedStatuses) :
    ∃ x', db'.transfer? id = some x' ∧ x'.status = x.status ∧
      db'.eventsOf id = db.eventsOf id := by
  have hid : x.id = id := Table.lookup_key hx
  have hsaved : ∀ {db₁ : Database} {t t' : Transfer} {events : List TransferEvent}
      {moment : Option Time},
      db₁.transfers = db.transfers → db₁.transferEvents = db.transferEvents →
      db.transfer? t.id = some t → t'.id = t.id → t.status ∉ closedStatuses →
      Written (some t.status) t' events →
      ∃ x', (saved db₁ t' events moment).transfer? id = some x' ∧ x'.status = x.status ∧
        (saved db₁ t' events moment).eventsOf id = db.eventsOf id := by
    intro db₁ t t' events moment htr hev ht hid' hopen hw
    rcases transfer?_saved htr events moment ht hid' hx with ⟨-, rfl, -⟩ | ⟨hne, h⟩
    · exact absurd hclosed hopen
    · refine ⟨x, h, rfl, ?_⟩
      rw [eventsOf_saved hev, filter_events_other hw.ids (by rw [hid']; exact hne),
        List.append_nil]
  cases hc with
  | frame hf =>
      refine ⟨x, ?_, rfl, ?_⟩
      · rw [Database.transfer?, hf.transfers]
        exact hx
      · rw [Database.eventsOf, hf.transferEvents]
        rfl
  | @opened t source destination clearing moment events _ ho hw =>
      refine ⟨x, Table.lookup_append_of_some _ hx, rfl, ?_⟩
      have hne : id ≠ t.id := by
        rw [← hid]
        exact ho.insertable.id x (Table.lookup_mem hx)
      have hevents : (LoyaltyTransfer.opened db t source clearing events moment).eventsOf id =
          db.eventsOf id ++ events.filter fun e => decide (e.transferId = id) :=
        List.filter_append ..
      rw [hevents, filter_events_other hw.ids hne, List.append_nil]
  | submitted ht _ hs _ hw => exact hsaved rfl rfl ht rfl (by simp [hs, closedStatuses]) hw
  | parked events ht hs hterms _ _ hw =>
      exact hsaved rfl rfl ht hterms.id (verifiable_open hs) hw
  | settled events ht hs _ _ _ hw =>
      exact hsaved rfl rfl ht (sameTerms_settledAs _ _ _).id (verifiable_open hs) hw
  | reversed events ht hs _ _ _ hw =>
      exact hsaved rfl rfl ht (sameTerms_reversedAs _ _ _ _).id hs.open_status hw
  | leased claimed expiry =>
      refine ⟨_, lookup_map_id (fun t => ?_) hx, ?_, rfl⟩
      · by_cases hm : t.id ∈ claimed <;> simp [hm]
      · by_cases hm : x.id ∈ claimed <;> simp [hm]

end

/-! ## Along a run -/

section

variable {cfg : Config} {s₀ s s' : State} {as bs : List Action}

theorem Seeded.audited {db : Database} (h : Seeded db) : Audited db where
  valid := by simp [h.noTransfers]
  scheduled := by simp [h.noTransfers]
  trail := by simp [h.noTransfers]
  owners := by simp [h.noEvents]

theorem run_audited (h₀ : Initial s₀) (h : Runs.run (step cfg) s₀ as = some s) :
    Sound s₀.store.db s.store.db ∧ Audited s.store.db := by
  refine Runs.run_invariant (I := fun s => Sound s₀.store.db s.store.db ∧ Audited s.store.db)
    ?_ ⟨h₀.seeded.sound, h₀.seeded.audited⟩ h
  rintro s a s' ⟨hsound, haudited⟩ hstep
  have hchange := (step_inv hstep).change (hsound.accountIds h₀.seeded)
  exact ⟨hsound.change h₀.seeded hchange, haudited.change hsound hchange⟩

theorem run_closed (h₀ : Initial s₀) (h : Runs.run (step cfg) s₀ as = some s)
    (h' : Runs.run (step cfg) s bs = some s') {t : Transfer} {id : String}
    (ht : s.store.db.transfer? id = some t) (hclosed : t.status ∈ closedStatuses) :
    ∃ t', s'.store.db.transfer? id = some t' ∧ t'.status = t.status ∧
      s'.store.db.eventsOf id = s.store.db.eventsOf id := by
  have hI := Runs.run_invariant (I := fun x => Sound s₀.store.db x.store.db ∧
      ∃ t', x.store.db.transfer? id = some t' ∧ t'.status = t.status ∧
        x.store.db.eventsOf id = s.store.db.eventsOf id)
    (fun x a x' hx hstep => ?_) ⟨run_sound h₀ h, t, ht, rfl, rfl⟩ h'
  · exact hI.2
  · obtain ⟨hsound, t₁, ht₁, hst₁, hev₁⟩ := hx
    have hchange := (step_inv hstep).change (hsound.accountIds h₀.seeded)
    obtain ⟨t₂, ht₂, hst₂, hev₂⟩ := hchange.closed ht₁ (by rw [hst₁]; exact hclosed)
    exact ⟨hsound.step h₀.seeded hstep, t₂, ht₂, hst₂.trans hst₁, hev₂.trans hev₁⟩

/-- The events of a transfer, in the order of their ids, lead from its creation
(none → PENDING) over allowed transitions to its status; `completed_at` is set
exactly when it is COMPLETED or REVERSED; and once it is closed, neither its
status nor its events change again. -/
theorem audit_trail_matches (h₀ : Initial s₀) (h : Runs.run (step cfg) s₀ as = some s)
    {t : Transfer} (ht : t ∈ s.store.db.transfers) :
    Leads none (s.store.db.eventsOf t.id) (some t.status) ∧
      (t.completedAt.isSome = true ↔ t.status = .completed ∨ t.status = .reversed) ∧
      (t.status = .completed ∨ t.status = .reversed ∨ t.status = .manualReview →
        ∀ bs s', Runs.run (step cfg) s bs = some s' →
          ∃ t', s'.store.db.transfer? t.id = some t' ∧ t'.status = t.status ∧
            s'.store.db.eventsOf t.id = s.store.db.eventsOf t.id) := by
  obtain ⟨hsound, haudited⟩ := run_audited h₀ h
  refine ⟨haudited.trail t ht, ?_, ?_⟩
  · rw [← (haudited.valid t ht).completedAt, decide_eq_true_eq]
    simp [finalStatuses]
  · intro hclosed bs s' h'
    refine run_closed h₀ h h' (Table.lookup_of_mem hsound.transferIds ht) ?_
    simpa [closedStatuses] using hclosed

end

theorem audit_trail_matches_completedRun :
    ∃ s, Runs.run (step sampleConfig) freshState completedRun = some s ∧
      ∀ t ∈ s.store.db.transfers, Leads none (s.store.db.eventsOf t.id) (some t.status) ∧
        (t.completedAt.isSome = true ↔ t.status = .completed ∨ t.status = .reversed) := by
  obtain ⟨s, hs⟩ := completedRun_runs
  refine ⟨s, hs, fun t ht => ?_⟩
  obtain ⟨htrail, hdone, -⟩ := audit_trail_matches freshState_initial hs ht
  exact ⟨htrail, hdone⟩

end LoyaltyTransfer
