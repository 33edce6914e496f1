/-
# `LoyaltyTransfer.Views` — what a user is shown

The reads of the API and the answers of `POST /v1/transfers`, which carry the same
picture of a transfer:

    GET   /v1/transfers/{id}    `Database.getTransfer`
    GET   /v1/transfers         `Database.getTransfers`, of `Listing`
    GET   /v1/accounts          `Database.listAccounts`
    POST  /v1/transfers         `.transfer out`, stored with the key and replayed

Every read is of the rows of the user who asks; a transfer of somebody else is
answered as one that does not exist.

**Proved here.**  What a user is shown is changed by the user's own requests and by
the reconciler at work on the user's transfers, and by nothing else
(`others_change_nothing`).  An answer to a POST, first or replayed, is a picture of
the asker's own transfer: what GET shows of it ever after has the same terms and
goes on from the events of the answer, and where the answer showed a closed
transfer it is that answer again (`answers_pictured`).
-/
import LoyaltyTransfer.Answers
import LoyaltyTransfer.Audit
import LoyaltyTransfer.Listing
import LoyaltyTransfer.Lib.OrderBy

namespace LoyaltyTransfer

open Transaction OrderBy

/-! ## The reads -/

/-- `app/api/presenters.py`. -/
def transferNotFound : DomainError where
  code := .transferNotFound
  detail := "No such transfer."

/-- The route `GET /v1/transfers/{transfer_id}`. -/
def Database.getTransfer (db : Database) (transferId userId : String) :
    Except DomainError TransferOut :=
  if transferIdFormat transferId then
    match db.transferDetails? transferId userId with
    | some out => pure out
    | none => throw transferNotFound
  else throw transferNotFound

def visibleSuffix : Nat := 4

/-- The mask has a fixed width. -/
def memberMask : String := "****"

/-- `mask_member_id`. -/
def maskMemberId : Option String → Option String
  | none => none
  | some memberId =>
      if memberId.length ≤ visibleSuffix then some memberMask
      else some (memberMask ++
        String.ofList (memberId.toList.drop (memberId.length - visibleSuffix)))

structure AccountOut where
  program : String
  programName : String
  programType : ProgramType
  balance : Int
  externalMemberId : Option String
  updatedAt : Time
  deriving DecidableEq

/-- The user's own accounts. -/
def Database.accountsOf (db : Database) (userId : String) : List Account :=
  db.accounts.filter fun a => decide (a.ownerType = .user ∧ a.userId = some userId)

/-- The route `GET /v1/accounts`, `ORDER BY programs.type, programs.code`. -/
def Database.listAccounts (db : Database) (collation : Collation) (userId : String) :
    List AccountOut :=
  let rows := (db.accountsOf userId).filterMap fun a =>
    (db.program? a.programId).map fun p => (a, p)
  (rows.insertionSort (ThenBy (collation.By fun x => x.2.type.value)
      (collation.By fun x => x.2.code))).map fun x =>
    ⟨x.2.code, x.2.name, x.2.type, x.1.balance, maskMemberId x.1.externalMemberId,
      db.updatedAt.accounts x.1.id⟩

/-! ## The rows they read -/

/-- The rows a user's reads are made of. -/
structure SameRows (userId : String) (db db' : Database) : Prop where
  programs : db'.programs = db.programs
  accounts : db'.accountsOf userId = db.accountsOf userId
  accountsUpdated : ∀ a ∈ db.accountsOf userId,
    db'.updatedAt.accounts a.id = db.updatedAt.accounts a.id
  transfers : db'.transfersOf userId = db.transfersOf userId
  transfersUpdated : ∀ t ∈ db.transfersOf userId,
    db'.updatedAt.transfers t.id = db.updatedAt.transfers t.id
  events : ∀ t ∈ db.transfersOf userId, db'.eventsOf t.id = db.eventsOf t.id

section

variable {userId : String} {db db' db'' : Database}

theorem SameRows.refl : SameRows userId db db :=
  ⟨rfl, rfl, fun _ _ => rfl, rfl, fun _ _ => rfl, fun _ _ => rfl⟩

theorem SameRows.trans (h : SameRows userId db db') (h' : SameRows userId db' db'') :
    SameRows userId db db'' where
  programs := h'.programs.trans h.programs
  accounts := h'.accounts.trans h.accounts
  accountsUpdated := by
    intro a ha
    have ha' : a ∈ db'.accountsOf userId := by rw [h.accounts]; exact ha
    exact (h'.accountsUpdated a ha').trans (h.accountsUpdated a ha)
  transfers := h'.transfers.trans h.transfers
  transfersUpdated := by
    intro t ht
    have ht' : t ∈ db'.transfersOf userId := by rw [h.transfers]; exact ht
    exact (h'.transfersUpdated t ht').trans (h.transfersUpdated t ht)
  events := by
    intro t ht
    have ht' : t ∈ db'.transfersOf userId := by rw [h.transfers]; exact ht
    exact (h'.events t ht').trans (h.events t ht)

theorem transfersOf_find (transferId : String) :
    (db.transfers.find? fun t => decide (t.id = transferId ∧ t.userId = userId)) =
      (db.transfersOf userId).find? fun t => decide (t.id = transferId) := by
  rw [Database.transfersOf, List.find?_filter]
  congr 1
  funext t
  by_cases huser : t.userId = userId <;> simp [huser]

theorem SameRows.transferDetails (h : SameRows userId db db') (transferId : String) :
    db'.transferDetails? transferId userId = db.transferDetails? transferId userId := by
  simp only [Database.transferDetails?, transfersOf_find, h.transfers, Database.program?,
    h.programs]
  cases hfind : (db.transfersOf userId).find? fun t => decide (t.id = transferId) with
  | none => rfl
  | some t =>
      have hid : t.id = transferId := by simpa using List.find?_some hfind
      have hmem := List.mem_of_find?_eq_some hfind
      have hevents := h.events t hmem
      rw [hid, Database.eventsOf, Database.eventsOf] at hevents
      simp only [hevents, Option.bind_eq_bind, Option.bind_some, h.transfersUpdated t hmem]

theorem SameRows.getTransfer (h : SameRows userId db db') (transferId : String) :
    db'.getTransfer transferId userId = db.getTransfer transferId userId := by
  rw [Database.getTransfer, h.transferDetails]
  rfl

/-- The rows of a listing are the user's transfers, each with its programs. -/
theorem rowsOf_eq (db : Database) (userId : String) :
    db.rowsOf userId = (db.transfersOf userId).filterMap db.withProgramCodes := by
  rw [Database.rowsOf, Database.transfersOf]
  induction db.transfers with
  | nil => rfl
  | cons t ts ih =>
      cases hrow : db.withProgramCodes t with
      | none =>
          rw [List.filterMap_cons_none hrow, ih]
          by_cases huser : t.userId = userId
          · rw [List.filter_cons_of_pos (by simpa using huser), List.filterMap_cons_none hrow]
          · rw [List.filter_cons_of_neg (by simpa using huser)]
      | some d =>
          have hd := of_withProgramCodes hrow
          rw [List.filterMap_cons_some hrow]
          by_cases huser : t.userId = userId
          · rw [List.filter_cons_of_pos (by simpa [hd] using huser), ih,
              List.filter_cons_of_pos (by simpa using huser), List.filterMap_cons_some hrow]
          · rw [List.filter_cons_of_neg (by simpa [hd] using huser), ih,
              List.filter_cons_of_neg (by simpa using huser)]

theorem SameRows.rowsOf (h : SameRows userId db db') :
    db'.rowsOf userId = db.rowsOf userId := by
  rw [rowsOf_eq, rowsOf_eq, h.transfers]
  refine List.filterMap_congr ?_
  intro t ht
  simp only [Database.withProgramCodes, Database.program?, h.programs, h.transfersUpdated t ht]

theorem SameRows.getTransfers (h : SameRows userId db db') (lib : TextLibrary Time) (limit : Nat)
    (cursor : Option String) :
    db'.getTransfers lib userId limit cursor = db.getTransfers lib userId limit cursor := by
  simp only [Database.getTransfers, listTransfers_eq, h.rowsOf]

theorem SameRows.listAccounts (h : SameRows userId db db') (collation : Collation) :
    db'.listAccounts collation userId = db.listAccounts collation userId := by
  simp only [Database.listAccounts, h.accounts, Database.program?, h.programs]
  refine List.map_congr_left ?_
  intro x hx
  obtain ⟨a, ha, hrow⟩ := List.mem_filterMap.mp ((List.mem_insertionSort _).mp hx)
  obtain ⟨p, -, rfl⟩ := Option.map_eq_some_iff.mp hrow
  rw [h.accountsUpdated a ha]

end

/-! ## What a transaction writes -/

/-- The balances moved by `change`, and `updated_at` of those that did. -/
structure MovedBy (change : Nat → Int) (db db' : Database) : Prop where
  accounts : db'.accounts = shiftBalances change db.accounts
  updated : ∃ moment, db'.updatedAt.accounts = (db.updatedAt.moved change moment).accounts

theorem MovedBy.of_same {db db' : Database} (haccounts : db'.accounts = db.accounts)
    (hupdated : db'.updatedAt.accounts = db.updatedAt.accounts) :
    MovedBy (fun _ => 0) db db' where
  accounts := haccounts.trans (shiftBalances_zero _).symm
  updated := ⟨0, by simp [hupdated, UpdatedAt.moved]⟩

/-- An account whose row is as it was has its `updated_at`, too. -/
theorem MovedBy.updated_eq {change : Nat → Int} {db db' : Database} {userId : String}
    (h : MovedBy change db db') (hsame : db'.accountsOf userId = db.accountsOf userId) :
    ∀ a ∈ db.accountsOf userId, db'.updatedAt.accounts a.id = db.updatedAt.accounts a.id := by
  intro a ha
  have hown : db'.accountsOf userId = shiftBalances change (db.accountsOf userId) := by
    rw [Database.accountsOf, h.accounts, shiftBalances, List.filter_map]
    rfl
  have hfixed : shiftBalances change (db.accountsOf userId) = (db.accountsOf userId).map id := by
    rw [List.map_id]
    exact hown.symm.trans hsame
  have hbalance := congrArg Account.balance (List.map_inj_left.mp hfixed a ha)
  have hzero : change a.id = 0 := by simpa using hbalance
  obtain ⟨moment, hupdated⟩ := h.updated
  rw [hupdated]
  exact if_pos hzero

/-- At most the row of `t` was written, on its terms, with events of it. -/
inductive WritesOnly (db : Database) (t : Transfer) : Database → Prop
  | nothing : WritesOnly db t db
  | row {db₁ : Database} {t' : Transfer} {events : List TransferEvent} {moment : Option Time}
      {change : Nat → Int} (htransfers : db₁.transfers = db.transfers)
      (hevents : db₁.transferEvents = db.transferEvents)
      (hupdated : db₁.updatedAt.transfers = db.updatedAt.transfers)
      (hmoved : MovedBy change db db₁) (hterms : SameTerms t t')
      (hids : ∀ e ∈ events, e.transferId = t.id) : WritesOnly db t (saved db₁ t' events moment)

section

variable {db db' : Database} {t : Transfer}

theorem movedBy_posted (journalType : JournalType) (postings : List Posting)
    (transferId : Option String) :
    MovedBy (netChange postings) db (posted db journalType postings transferId) :=
  ⟨rfl, _, rfl⟩

theorem settleTransfer_writes (hn : (db.accounts.map Account.id).Nodup) {wall : Time}
    {confirmationId reason : String} {metadata : List (String × Json.Value)} {u : Unit}
    (h : (settleTransfer wall t confirmationId reason metadata).run db = .ok (u, db')) :
    WritesOnly db t db' := by
  obtain ⟨accts, -, -, -, -, -, rfl⟩ := (settleTransfer_ok hn).mp h
  exact .row rfl rfl rfl (movedBy_posted ..) (sameTerms_settledAs ..) (by simp)

theorem reverseTransfer_writes (hn : (db.accounts.map Account.id).Nodup) {wall : Time}
    {code : TransferFailureCode} {message reason : String}
    {metadata : List (String × Json.Value)} {u : Unit}
    (h : (reverseTransfer wall t code message reason metadata).run db = .ok (u, db')) :
    WritesOnly db t db' := by
  obtain ⟨clearing, source, -, -, -, -, -, -, rfl⟩ := (reverseTransfer_ok hn).mp h
  exact .row rfl rfl rfl (movedBy_posted ..) (sameTerms_reversedAs ..) (by simp)

theorem Written.writes {t' : Transfer} {events : List TransferEvent} {moment : Option Time}
    {status : TransferStatus} (hw : Written (some status) t' events) (hterms : SameTerms t t') :
    WritesOnly db t (saved db t' events moment) := by
  refine .row rfl rfl rfl (.of_same rfl rfl) hterms ?_
  intro e he
  exact (hw.ids e he).trans hterms.id

theorem markSubmitted_writes {now : Time} {transferId partnerCode : String} {u : Unit}
    (h : (markSubmitted now transferId partnerCode).run db = .ok (u, db')) :
    ∃ t, db.transfer? transferId = some t ∧ WritesOnly db t db' := by
  obtain ⟨t, event, ht, -, -, hw, rfl⟩ := markSubmitted_change h
  exact ⟨t, ht, hw.writes (sameTerms_movedTo ..)⟩

theorem applyPartnerOutcome_writes (hn : (db.accounts.map Account.id).Nodup)
    {verificationDelay now wall : Time} {transferId : String} {result : PartnerCreditResult}
    {status : TransferStatus}
    (h : (applyPartnerOutcome verificationDelay now wall transferId result).run db =
      .ok (status, db')) : ∃ t, db.transfer? transferId = some t ∧ WritesOnly db t db' := by
  obtain ⟨t, rfl, ht, ⟨-, -, rfl⟩ | ⟨-, hrun⟩⟩ := applyPartnerOutcome_inv h
  · exact ⟨t, ht, .nothing⟩
  · refine ⟨t, ht, ?_⟩
    cases hrun with
    | settled _ _ hrun => exact settleTransfer_writes hn hrun
    | rejected _ hrun => exact reverseTransfer_writes hn hrun
    | unavailable _ hrun => exact reverseTransfer_writes hn hrun
    | parked _ _ _ hw => exact hw.writes (sameTerms_written ..)

theorem reverseInterrupted_writes (hn : (db.accounts.map Account.id).Nodup) {wall : Time}
    {transferId : String} {r : ReconcileResult}
    (h : (reverseInterrupted wall transferId).run db = .ok (r, db')) :
    ∃ t, db.transfer? transferId = some t ∧ WritesOnly db t db' := by
  obtain ⟨t, rfl, ht, ⟨-, -, rfl⟩ | ⟨-, -, _, _, _, hrun⟩⟩ := reverseInterrupted_inv h
  · exact ⟨t, ht, .nothing⟩
  · exact ⟨t, ht, reverseTransfer_writes hn hrun⟩

theorem applyStatus_writes (hn : (db.accounts.map Account.id).Nodup)
    {policy : ReconciliationPolicy} {now wall : Time} {transferId : String}
    {answer : PartnerStatusResult} {r : ReconcileResult}
    (h : (applyStatus policy now wall transferId answer).run db = .ok (r, db')) :
    ∃ t, db.transfer? transferId = some t ∧ WritesOnly db t db' := by
  obtain ⟨t, rfl, ht, ⟨-, -, rfl⟩ | ⟨-, hrun⟩⟩ := applyStatus_inv h
  · exact ⟨t, ht, .nothing⟩
  · refine ⟨t, ht, ?_⟩
    cases hrun with
    | settled _ _ hrun => exact settleTransfer_writes hn hrun
    | reversed _ _ hrun => exact reverseTransfer_writes hn hrun
    | early _ _ hrow hw =>
        cases hrow
        exact hw.writes (sameTerms_written ..)
    | counted _ _ _ hw => exact hw.writes (sameTerms_written ..)
    | exhausted _ _ hw => exact hw.writes (sameTerms_written ..)

/-! ## What others write -/

variable {db₀ : Database} {userId : String}

/-- What happened to a user's account is what the user's own transfers did. -/
theorem Sound.accountsOf_eq (h : Sound db₀ db) (hs : Seeded db₀) :
    db.accountsOf userId = (db₀.accountsOf userId).map fun a =>
      a.plus (effects (db.transfersOf userId) a) := by
  rw [Database.accountsOf, h.accounts, List.filter_map]
  refine List.map_congr_left ?_
  intro a ha
  obtain ⟨hmem, hown⟩ := List.mem_filter.mp ha
  have hown : a.ownerType = .user ∧ a.userId = some userId := of_decide_eq_true hown
  have hty := hs.userBalance_of_user hmem hown.1
  refine congrArg a.plus ?_
  rw [effects_user _ hty hown.2, effects_user _ hty hown.2]
  simp only [pointsIn, pointsOut, Database.transfersOf, List.filter_filter, ← Bool.decide_and]
  congr 4 <;> (funext t; refine decide_eq_decide.mpr ?_; tauto)

/-- Two databases with the same transfers of a user show the same accounts. -/
theorem SameRows.of_transfers (h : Sound db₀ db) (h' : Sound db₀ db') (hs : Seeded db₀)
    {change : Nat → Int} (hmoved : MovedBy change db db')
    (htransfers : db'.transfersOf userId = db.transfersOf userId)
    (hupdated : ∀ t ∈ db.transfersOf userId,
      db'.updatedAt.transfers t.id = db.updatedAt.transfers t.id)
    (hevents : ∀ t ∈ db.transfersOf userId, db'.eventsOf t.id = db.eventsOf t.id) :
    SameRows userId db db' := by
  have haccounts : db'.accountsOf userId = db.accountsOf userId := by
    rw [h'.accountsOf_eq hs, h.accountsOf_eq hs, htransfers]
  exact ⟨h'.programs.trans h.programs.symm, haccounts, hmoved.updated_eq haccounts, htransfers,
    hupdated, hevents⟩

/-- A write on somebody else's transfer. -/
theorem WritesOnly.sameRows (hw : WritesOnly db t db') (h : Sound db₀ db) (h' : Sound db₀ db')
    (hs : Seeded db₀) (ht : t ∈ db.transfers) (hother : t.userId ≠ userId) :
    SameRows userId db db' := by
  cases hw with
  | nothing => exact .refl
  | @row db₁ t' events moment change htransfers hevents hupdated hmoved hterms hids =>
      have hne : ∀ x ∈ db.transfersOf userId, x.id ≠ t.id := by
        intro x hx hid
        obtain ⟨hmem, huser⟩ := List.mem_filter.mp hx
        cases Table.eq_of_key_eq h.transferIds hmem ht hid
        exact hother (of_decide_eq_true huser)
      refine .of_transfers h h' hs
        (show MovedBy change db _ from ⟨hmoved.accounts, hmoved.updated⟩) ?_ ?_ ?_
      · have hrows : (saved db₁ t' events moment).transfersOf userId =
            Table.replace Transfer.id t' (db.transfersOf userId) := by
          simp only [Database.transfersOf, saved, htransfers, Table.replace, List.filter_map]
          refine congrArg (List.map _) (List.filter_congr ?_)
          intro x hx
          show decide ((if x.id = t'.id then t' else x).userId = userId) = _
          split
          · rename_i hid
            cases Table.eq_of_key_eq h.transferIds hx ht (hid.trans hterms.id)
            rw [hterms.userId]
          · rfl
        rw [hrows]
        refine Table.replace_of_not_mem ?_
        intro x hx
        rw [hterms.id]
        exact hne x hx
      · intro x hx
        refine (Function.update_of_ne ?_ _ _).trans (congrFun hupdated x.id)
        rw [hterms.id]
        exact hne x hx
      · intro x hx
        rw [eventsOf_saved hevents, filter_events_other hids (hne x hx), List.append_nil]

/-- A transfer opened for somebody else. -/
theorem opened_sameRows {source destination clearing : Account} {events : List TransferEvent}
    {moment : Time} (ho : Opening db t source destination clearing) (hw : Written none t events)
    (h : Sound db₀ db) (h' : Sound db₀ (opened db t source clearing events moment))
    (hs : Seeded db₀) (hother : t.userId ≠ userId) :
    SameRows userId db (opened db t source clearing events moment) := by
  refine .of_transfers h h' hs ⟨rfl, _, rfl⟩ ?_ ?_ ?_
  · show (db.transfers ++ [t]).filter _ = _
    rw [List.filter_append, List.filter_cons_of_neg (by simpa using hother), List.filter_nil,
      List.append_nil]
    rfl
  · intro x hx
    exact Function.update_of_ne (ho.insertable.id x (List.mem_filter.mp hx).1) _ _
  · intro x hx
    have hne := ho.insertable.id x (List.mem_filter.mp hx).1
    show (db.transferEvents ++ events).filter _ = _
    rw [List.filter_append, filter_events_other hw.ids hne, List.append_nil]
    rfl

end

theorem transfersOf_leased {db : Database} {userId : String} {claimed : List String}
    (hnot : ∀ t ∈ db.transfersOf userId, t.id ∉ claimed) (expiry : Time) :
    (leased claimed expiry db).transfersOf userId = db.transfersOf userId := by
  have howner : ∀ t : Transfer, (if t.id ∈ claimed then
      { t with nextVerificationAt := some expiry } else t).userId = t.userId := by
    intro t
    split <;> rfl
  simp only [Database.transfersOf, leased, List.filter_map, Function.comp_def, howner]
  conv_rhs => rw [← List.map_id (db.transfers.filter _)]
  refine List.map_congr_left ?_
  intro t ht
  rw [if_neg (hnot t ht)]
  rfl

/-! ## Steps of others -/

/-- The step is one of a request of the user, or of a reconcile or a claim of a
transfer of the user. -/
def State.concerns (cfg : Config) (userId : String) (s : State) : Action → Prop
  | .request i _ => ∃ r ∈ s.requests[i]?, r.userId = userId
  | .reconcile k _ => ∃ p ∈ s.reconciles[k]?, ∃ t ∈ s.store.db.transfersOf userId,
      t.id = p.transferId
  | .claimDue now batchSize locked =>
      ∃ t ∈ claimable cfg.policy now batchSize locked s.store.db.transfers, t.userId = userId
  | _ => False

instance (cfg : Config) (userId : String) (s : State) (a : Action) :
    Decidable (s.concerns cfg userId a) := by
  cases a <;> simp only [State.concerns] <;> infer_instance

section

variable {cfg : Config} {db₀ : Database} {s s' : State} {a : Action} {userId : String}

theorem RequestMove.sameRows {i : Nat} {r : Request} {act : RequestAction} {st st' : Store}
    {pc : RequestPc} (hm : RequestMove cfg i r st act st' pc) (hs : Seeded db₀)
    (h : Sound db₀ st.db) (h' : Sound db₀ st'.db) (hpc : PcSound db₀ st r r.pc)
    (hother : r.userId ≠ userId) : SameRows userId st.db st'.db := by
  have hn := h.accountIds hs
  have hmine : ∀ {id : String} {d : DebitedTransfer} {t x : Transfer},
      st.db.transfer? id = some t → OpenedBy db₀ r d t → st.db.transfer? id = some x →
      x ∈ st.db.transfers ∧ x.userId ≠ userId := by
    intro id d t x ht hopened hx
    rw [ht] at hx
    cases hx
    exact ⟨Table.lookup_mem ht, by rw [hopened.key.userId]; exact hother⟩
  cases hm with
  | debited hadm hrun =>
      obtain ⟨terms, t, events, -, rfl, -, ho, hw, rfl⟩ := openTransfer_change hn hrun
      exact opened_sameRows ho hw h h' hs hother
  | found hcol hrun =>
      obtain ⟨-, -, -, rfl⟩ := findByIdempotencyKey_ok.mp hrun
      exact .refl
  | submitted hdeb hrun =>
      rw [hdeb] at hpc
      obtain ⟨-, t, ht, hopened, -⟩ := hpc
      obtain ⟨x, hx, hw⟩ := markSubmitted_writes hrun
      obtain ⟨hmem, hne⟩ := hmine ht hopened hx
      exact hw.sameRows h h' hs hmem hne
  | recorded hans hrun =>
      rw [hans] at hpc
      obtain ⟨-, t, ht, hopened, -⟩ := hpc
      obtain ⟨x, hx, hw⟩ := applyPartnerOutcome_writes hn hrun
      obtain ⟨hmem, hne⟩ := hmine ht hopened hx
      exact hw.sameRows h h' hs hmem hne
  | _ => exact .refl

theorem ReconcileMove.sameRows {p : Reconcile} {act : ReconcileAction} {st st' : Store}
    {pc : ReconcilePc} (hm : ReconcileMove cfg p st act st' pc) (hs : Seeded db₀)
    (h : Sound db₀ st.db) (h' : Sound db₀ st'.db)
    (hother : ∀ t ∈ st.db.transfersOf userId, t.id ≠ p.transferId) :
    SameRows userId st.db st'.db := by
  have hn := h.accountIds hs
  have hwritten : ∀ {db : Database},
      (∃ t, st.db.transfer? p.transferId = some t ∧ WritesOnly st.db t db) → Sound db₀ db →
      SameRows userId st.db db := by
    rintro db ⟨t, ht, hw⟩ h'
    refine hw.sameRows h h' hs (Table.lookup_mem ht) ?_
    intro huser
    exact hother t (List.mem_filter.mpr ⟨Table.lookup_mem ht, decide_eq_true huser⟩)
      (Table.lookup_key ht)
  cases hm with
  | snapshotted hpc hrun =>
      obtain ⟨rfl, -⟩ := snapshot_ok hrun
      exact .refl
  | reversed hpc hrun => exact hwritten (reverseInterrupted_writes hn hrun) h'
  | applied hpc hrun => exact hwritten (applyStatus_writes hn hrun) h'
  | _ => exact .refl

theorem Step.sameRows (hstep : Step cfg s a s') (hs : Seeded db₀) (h : Sound db₀ s.store.db)
    (howned : Owned db₀ s) (hother : ¬ s.concerns cfg userId a) :
    SameRows userId s.store.db s'.store.db := by
  have h' := h.change hs (hstep.change (h.accountIds hs))
  cases hstep with
  | request hr hm =>
      refine hm.sameRows hs h h' (howned.pcs _ _ hr) ?_
      intro huser
      exact hother ⟨_, Option.mem_def.mpr hr, huser⟩
  | claimDue hrun =>
      obtain ⟨rfl, -, rfl⟩ := claimDue_ok.mp hrun
      refine .of_transfers h h' hs (.of_same rfl rfl) (transfersOf_leased ?_ _) (fun _ _ => rfl)
        fun _ _ => rfl
      intro t ht hid
      obtain ⟨hmem, huser⟩ := List.mem_filter.mp ht
      obtain ⟨x, hx, hxid⟩ := List.mem_map.mp hid
      cases Table.eq_of_key_eq h.transferIds (claimable_due hx).1 hmem hxid
      exact hother ⟨t, hx, of_decide_eq_true huser⟩
  | reconcile hp hm =>
      refine hm.sameRows hs h h' ?_
      intro t ht hid
      exact hother ⟨_, Option.mem_def.mpr hp, t, ht, hid⟩
  | @rates change =>
      have hsame := RateChange.sameLedger change s.store.db
      refine .of_transfers h h' hs (.of_same hsame.accounts ?_) ?_ ?_ ?_
      · simp only [State.withDb, hsame.updatedAt]
      · simp only [Database.transfersOf, State.withDb, hsame.transfers]
      · intro t _
        simp only [State.withDb, hsame.updatedAt]
      · intro t _
        simp only [Database.eventsOf, State.withDb, hsame.transferEvents]
  | clock => exact ⟨rfl, rfl, fun _ _ => rfl, rfl, fun _ _ => rfl, fun _ _ => rfl⟩
  | _ => exact .refl

theorem run_sameRows {s₀ : State} {as bs : List Action} (h₀ : Initial s₀)
    (h : Runs.run (step cfg) s₀ as = some s) (h' : Runs.run (step cfg) s bs = some s')
    (hothers : Runs.AllSteps (step cfg) (fun x a => ¬ x.concerns cfg userId a) s bs) :
    SameRows userId s.store.db s'.store.db := by
  have hI : (Sound s₀.store.db s'.store.db ∧ Owned s₀.store.db s') ∧
      SameRows userId s.store.db s'.store.db := by
    refine Runs.run_invariant_of (I := fun x => (Sound s₀.store.db x.store.db ∧
        Owned s₀.store.db x) ∧ SameRows userId s.store.db x.store.db) ?_
      ⟨run_owned h₀ h, .refl⟩ hothers h'
    rintro x a x' ⟨⟨hsound, howned⟩, hsame⟩ hother hstep
    have hinv := step_inv hstep
    exact ⟨⟨hsound.step h₀.seeded hstep, howned.step h₀.seeded hsound hinv⟩,
      hsame.trans (hinv.sameRows h₀.seeded hsound howned hother)⟩
  exact hI.2

/-- Whatever runs on from a reachable state without a step of the user's own requests
or of the reconciler on the user's transfers: each read shows the user what it showed
before. -/
theorem others_change_nothing {s₀ : State} {as bs : List Action} (h₀ : Initial s₀)
    (h : Runs.run (step cfg) s₀ as = some s) (h' : Runs.run (step cfg) s bs = some s')
    (hothers : Runs.AllSteps (step cfg) (fun x a => ¬ x.concerns cfg userId a) s bs) :
    (∀ transferId,
      s'.store.db.getTransfer transferId userId = s.store.db.getTransfer transferId userId) ∧
    (∀ lib limit cursor, s'.store.db.getTransfers lib userId limit cursor =
      s.store.db.getTransfers lib userId limit cursor) ∧
    ∀ collation, s'.store.db.listAccounts collation userId =
      s.store.db.listAccounts collation userId := by
  have hsame := run_sameRows h₀ h h' hothers
  exact ⟨hsame.getTransfer, hsame.getTransfers, hsame.listAccounts⟩

end

/-- Another user's transfer, up to its submission. -/
def neighbourRun : List Action :=
  admission 1 "user_bob" "key-2" sampleBody 9 ++
    [.request 1 (.debit 9 9 "tr_00000000000000000000000002"), .request 1 (.submit 9)]

theorem neighbourRun_runs :
    (Runs.run (step sampleConfig) freshState completedRun).any (fun s =>
      decide (Runs.AllSteps (step sampleConfig)
        (fun x a => ¬ x.concerns sampleConfig "user_alice" a) s neighbourRun) &&
      (Runs.run (step sampleConfig) s neighbourRun).any fun s' =>
        decide (s'.store.db.transfers.map Transfer.userId = ["user_alice", "user_bob"])) =
      true := by
  decide +kernel

theorem others_change_nothing_neighbourRun :
    ∃ s s', Runs.run (step sampleConfig) freshState completedRun = some s ∧
      Runs.run (step sampleConfig) s neighbourRun = some s' ∧
      s'.store.db.transfers.map Transfer.userId = ["user_alice", "user_bob"] ∧
      (∀ transferId, s'.store.db.getTransfer transferId "user_alice" =
        s.store.db.getTransfer transferId "user_alice") ∧
      ∀ collation, s'.store.db.listAccounts collation "user_alice" =
        s.store.db.listAccounts collation "user_alice" := by
  obtain ⟨s, hs, hany⟩ := (Option.any_eq_true _ _).mp neighbourRun_runs
  obtain ⟨hothers, hany⟩ := (Bool.and_eq_true _ _).mp hany
  obtain ⟨s', hs', husers⟩ := (Option.any_eq_true _ _).mp hany
  obtain ⟨hone, -, haccounts⟩ := others_change_nothing freshState_initial hs hs'
    (of_decide_eq_true hothers)
  exact ⟨s, s', hs, hs', of_decide_eq_true husers, hone, haccounts⟩

/-! ## Pictures of a transfer -/

/-- `out` shows what `shown` shows, at some moment before: the same transfer on the same
terms and the first of its events.  A closed transfer is shown as it is. -/
structure TransferOut.Precedes (out shown : TransferOut) : Prop where
  terms : shown = { out with
    status := shown.status, failure := shown.failure,
    partnerConfirmationId := shown.partnerConfirmationId, updatedAt := shown.updatedAt,
    completedAt := shown.completedAt, events := shown.events }
  events : out.events <+: shown.events
  closed : out.status ∈ closedStatuses → shown = out

section

variable {c : Cause} {db₀ db db' : Database} {userId transferId : String}
  {out shown : TransferOut}

theorem TransferOut.Precedes.refl (out : TransferOut) : out.Precedes out :=
  ⟨rfl, List.prefix_rfl, fun _ => rfl⟩

theorem TransferOut.Precedes.trans {later : TransferOut} (h : out.Precedes shown)
    (h' : shown.Precedes later) : out.Precedes later where
  terms := by
    rw [h'.terms, h.terms]
  events := h.events.trans h'.events
  closed := by
    intro hclosed
    have hsame := h.closed hclosed
    rw [← hsame] at hclosed
    exact (h'.closed hclosed).trans hsame

theorem Database.transferDetails?_eq_some :
    db.transferDetails? transferId userId = some out ↔
      ∃ t source destination,
        (db.transfers.find? fun t => decide (t.id = transferId ∧ t.userId = userId)) = some t ∧
        db.program? t.sourceProgramId = some source ∧
        db.program? t.destinationProgramId = some destination ∧
        out = transferOut t (db.updatedAt.transfers t.id) source.code destination.code
          (db.eventsOf transferId) := by
  simp only [Database.transferDetails?, Option.bind_eq_bind, Option.bind_eq_some_iff,
    Option.pure_def, Option.some.injEq, Database.eventsOf, eq_comm (a := out)]
  constructor
  · rintro ⟨t, ht, source, hsource, destination, hdestination, hout⟩
    exact ⟨t, source, destination, ht, hsource, hdestination, hout⟩
  · rintro ⟨t, source, destination, ht, hsource, hdestination, hout⟩
    exact ⟨t, ht, source, hsource, destination, hdestination, hout⟩

/-- No change writes the row of a closed transfer. -/
theorem Change.closed_row (hc : Change c db db') (hn : (db.transfers.map Transfer.id).Nodup)
    {t : Transfer} (ht : db.transfer? transferId = some t) (hclosed : t.status ∈ closedStatuses) :
    db'.transfer? transferId = some t ∧
      db'.updatedAt.transfers transferId = db.updatedAt.transfers transferId := by
  have hsaved : ∀ {db₁ : Database} {x x' : Transfer} {events : List TransferEvent}
      {moment : Option Time}, db₁.transfers = db.transfers →
      db₁.updatedAt.transfers = db.updatedAt.transfers → db.transfer? x.id = some x →
      x'.id = x.id → x.status ∉ closedStatuses →
      (saved db₁ x' events moment).transfer? transferId = some t ∧
        (saved db₁ x' events moment).updatedAt.transfers transferId =
          db.updatedAt.transfers transferId := by
    intro db₁ x x' events moment htr hupdated hx hid hopen
    rcases transfer?_saved htr events moment hx hid ht with ⟨-, rfl, -⟩ | ⟨hne, h⟩
    · exact absurd hclosed hopen
    · refine ⟨h, (Function.update_of_ne ?_ _ _).trans (congrFun hupdated transferId)⟩
      rw [hid]
      exact hne
  cases hc with
  | frame hf =>
      rw [Database.transfer?, hf.transfers, hf.updatedAt]
      exact ⟨ht, rfl⟩
  | opened _ _ ho =>
      refine ⟨Table.lookup_append_of_some _ ht, Function.update_of_ne ?_ _ _⟩
      rw [← Table.lookup_key ht]
      exact ho.insertable.id t (Table.lookup_mem ht)
  | submitted hx _ hs => exact hsaved rfl rfl hx rfl (by simp [hs, closedStatuses])
  | parked _ hx hs hterms => exact hsaved rfl rfl hx hterms.id (verifiable_open hs)
  | settled _ hx hs => exact hsaved rfl rfl hx (sameTerms_settledAs ..).id (verifiable_open hs)
  | reversed _ hx hs => exact hsaved rfl rfl hx (sameTerms_reversedAs ..).id hs.open_status
  | leased claimed expiry hdue =>
      have hnot : t.id ∉ claimed := by
        intro hclaimed
        obtain ⟨x, hx, hid, hst⟩ := hdue t.id hclaimed
        cases Table.eq_of_key_eq hn hx (Table.lookup_mem ht) hid
        rcases hst with hst | hst
        · simp only [stuckStatuses, List.mem_cons, List.not_mem_nil, or_false] at hst
          rcases hst with hst | hst <;> simp [hst, closedStatuses] at hclosed
        · simp [hst, closedStatuses] at hclosed
      refine ⟨(lookup_map_id (fun x => ?_) ht).trans ?_, rfl⟩
      · split <;> rfl
      · rw [if_neg hnot]

/-- The events are appended to. -/
theorem Change.events_prefix (hc : Change c db db') :
    db.transferEvents <+: db'.transferEvents := by
  cases hc with
  | frame hf => rw [hf.transferEvents]
  | leased => exact List.prefix_rfl
  | _ => exact List.prefix_append _ _

/-- What a user is shown of a transfer only goes on. -/
theorem Change.pictures (hc : Change c db db') (h : Sound db₀ db) (h' : Sound db₀ db')
    (hshown : db.transferDetails? transferId userId = some shown) :
    ∃ later, db'.transferDetails? transferId userId = some later ∧ shown.Precedes later := by
  obtain ⟨t, source, destination, hfind, hsource, hdestination, rfl⟩ :=
    Database.transferDetails?_eq_some.mp hshown
  obtain ⟨hid, huser⟩ : t.id = transferId ∧ t.userId = userId := by
    simpa using List.find?_some hfind
  have ht : db.transfer? transferId = some t := by
    rw [← hid]
    exact Table.lookup_of_mem h.transferIds (List.mem_of_find?_eq_some hfind)
  obtain ⟨t', ht', hterms, -⟩ := hc.advance ht
  have hprograms : db'.programs = db.programs := h'.programs.trans h.programs.symm
  have hfind' : (db'.transfers.find? fun t => decide (t.id = transferId ∧ t.userId = userId)) =
      some t' := by
    rw [transfersOf_find]
    have hmem : t' ∈ db'.transfersOf userId :=
      List.mem_filter.mpr ⟨Table.lookup_mem ht', decide_eq_true (hterms.userId.trans huser)⟩
    have hlookup := Table.lookup_of_mem
      (h'.transferIds.sublist (List.filter_sublist.map Transfer.id)) hmem
    rw [hterms.id, hid] at hlookup
    exact hlookup
  refine ⟨transferOut t' (db'.updatedAt.transfers t'.id) source.code destination.code
      (db'.eventsOf transferId),
    Database.transferDetails?_eq_some.mpr ⟨t', source, destination, hfind', ?_, ?_, rfl⟩, ?_⟩
  · rw [hterms.sourceProgramId, Database.program?, hprograms]
    exact hsource
  · rw [hterms.destinationProgramId, Database.program?, hprograms]
    exact hdestination
  · refine ⟨?_, hc.events_prefix.filter _, ?_⟩
    · simp only [transferOut, hterms.id, hterms.sourcePoints, hterms.destinationPoints,
        hterms.basePoints, hterms.bonusPoints, hterms.rateSnapshot, hterms.createdAt]
    · intro hclosed
      have hclosed : t.status ∈ closedStatuses := hclosed
      obtain ⟨hrow, hupdated⟩ := hc.closed_row h.transferIds ht hclosed
      obtain ⟨-, -, -, hevents⟩ := hc.closed ht hclosed
      rw [ht'] at hrow
      cases hrow
      rw [hevents, hid, hupdated]

end

/-! ## Answers with a picture -/

/-- A transfer in an answer is one that the user is shown, as it was. -/
structure Database.Pictures (db : Database) (userId : String) (statusCode : Nat)
    (out : TransferOut) : Prop where
  status : statusCode = httpStatusFor out.status
  trail : Leads none out.events (some out.status)
  goesOn : ∃ shown, db.transferDetails? out.id userId = some shown ∧ out.Precedes shown

/-- Every transfer in an answer, made or stored, is one the asker is shown. -/
structure Pictured (s : State) : Prop where
  storing : ∀ (i : Nat) r record statusCode out resourceId, s.requests[i]? = some r →
    r.pc = .storing record statusCode (.transfer out) resourceId →
    s.store.db.Pictures r.userId statusCode out
  responded : ∀ (i : Nat) r response replayed out, s.requests[i]? = some r →
    r.pc = .responded response replayed → response.body = some (.transfer out) →
    s.store.db.Pictures r.userId response.statusCode out
  stored : ∀ row ∈ s.store.keys.rows, ∀ statusCode out,
    row.responseStatusCode = some statusCode → row.responseBody = some (.transfer out) →
    s.store.db.Pictures row.userId statusCode out

section

variable {cfg : Config} {db₀ : Database} {s s' : State} {a : Action}

theorem Database.Pictures.change {c : Cause} {db db' : Database} {userId : String}
    {statusCode : Nat} {out : TransferOut} (h : db.Pictures userId statusCode out)
    (hc : Change c db db') (hsound : Sound db₀ db) (hsound' : Sound db₀ db') :
    db'.Pictures userId statusCode out where
  status := h.status
  trail := h.trail
  goesOn := by
    obtain ⟨shown, hshown, hprecedes⟩ := h.goesOn
    obtain ⟨later, hlater, hgoes⟩ := hc.pictures hsound hsound' hshown
    exact ⟨later, hlater, hprecedes.trans hgoes⟩

/-- The read at the end of the handler. -/
theorem pictures_details {db : Database} {userId transferId : String} {out : TransferOut}
    (haudited : Audited db) (h : db.transferDetails? transferId userId = some out) :
    db.Pictures userId (httpStatusFor out.status) out := by
  obtain ⟨t, source, destination, hfind, -, -, rfl⟩ := Database.transferDetails?_eq_some.mp h
  obtain ⟨rfl, -⟩ : t.id = transferId ∧ t.userId = userId := by
    simpa using List.find?_some hfind
  exact ⟨rfl, haudited.trail t (List.mem_of_find?_eq_some hfind), _, h, .refl _⟩

/-- A request comes to store a transfer by reading it. -/
theorem RequestMove.stores {i : Nat} {r : Request} {st st' : Store} {act : RequestAction}
    {pc : RequestPc} (hm : RequestMove cfg i r st act st' pc) {record statusCode : Nat}
    {out : TransferOut} {resourceId : Option String}
    (hpc : pc = .storing record statusCode (.transfer out) resourceId) :
    st' = st ∧ ∃ transferId, st.db.transferDetails? transferId r.userId = some out ∧
      statusCode = httpStatusFor out.status := by
  have hraised : ∀ {record' f},
      handlerRaised record' f ≠ .storing record statusCode (.transfer out) resourceId := by
    intro record' f heq
    cases f with
    | domain e =>
        simp only [handlerRaised] at heq
        split at heq <;> cases heq
    | _ => cases heq
  cases hm with
  | @statement _ _ pc' _ _ _ =>
      exfalso
      cases pc' with
      | finished result =>
          simp only [beginPc, afterBegin] at hpc
          repeat' split at hpc
          all_goals cases hpc
      | _ => cases hpc
  | debitRaised => exact absurd hpc hraised
  | findRaised => exact absurd hpc hraised
  | submitRaised => exact absurd hpc hraised
  | recordRaised => exact absurd hpc hraised
  | @details _ transferId _ =>
      simp only [detailsPc] at hpc
      split at hpc
      · rename_i shown hshown
        cases hpc
        exact ⟨rfl, transferId, hshown, rfl⟩
      · cases hpc
  | attempt hcalling => rw [hcalling] at hpc; cases hpc
  | fault hf =>
      cases hp : r.pc <;> rw [hp] at hf <;> cases hf <;> cases hpc
  | _ => cases hpc

theorem Pictured.step (hI : Pictured s) (hs : Seeded db₀) (h : Sound db₀ s.store.db)
    (haudited : Audited s.store.db) (hkeyed : Keyed cfg s) (hstep : Step cfg s a s') :
    Pictured s' := by
  have hc := hstep.change (h.accountIds hs)
  have h' := h.change hs hc
  refine ⟨?_, ?_, ?_⟩
  · intro j r' record statusCode out resourceId hr' hpc
    rcases hstep.story hr' with ⟨hr, -⟩ | ⟨-, -, rfl⟩ | ⟨rfl, hr, hm, rfl⟩
    · exact (hI.storing j r' record statusCode out resourceId hr hpc).change hc h h'
    · cases hpc
    · obtain ⟨hst, transferId, hdetails, rfl⟩ := hm.stores hpc
      rw [hst]
      exact pictures_details haudited hdetails
  · intro j r' response replayed out hr' hpc hbody
    rcases hstep.story hr' with ⟨hr, -⟩ | ⟨-, -, rfl⟩ | ⟨rfl, hr, hm, rfl⟩
    · exact (hI.responded j r' response replayed out hr hpc hbody).change hc h h'
    · cases hpc
    · obtain ⟨-, hfrom⟩ := hm.responds (fun result => hkeyed.begins j _ result hr) hpc
      refine Database.Pictures.change ?_ hc h h'
      rcases hfrom with ⟨record, body, resourceId, hst, hbody'⟩ |
        ⟨row, hrow, huser, -, -, -, hcode, hbody'⟩
      · rw [hbody'] at hbody
        cases hbody
        have hpicture := hI.storing j _ record _ out resourceId hr hst
        exact hpicture
      · have hpicture := hI.stored row hrow response.statusCode out hcode (hbody'.trans hbody)
        rw [huser] at hpicture
        exact hpicture
  · intro row hrow statusCode out hcode hbody
    refine Database.Pictures.change ?_ hc h h'
    rcases hstep.row_cases hrow with hrow | ⟨_, _, _, _, -, -, rfl⟩ |
      ⟨i, r, record, code, body, resourceId, row₀, rfl, hr, hpc, hrow₀, hid, rfl⟩
    · exact hI.stored row hrow statusCode out hcode hbody
    · cases hcode
    · obtain ⟨huser, -⟩ := (hkeyed.records i r record hr (by rw [hpc]; rfl)).2 row₀ hrow₀ hid
      cases hcode
      cases hbody
      show s.store.db.Pictures row₀.userId _ out
      rw [huser]
      exact hI.storing i r record _ out resourceId hr hpc

/-- What a picture shows is there for its user, and for no other. -/
theorem Database.Pictures.getTransfer {db : Database} {userId : String} {statusCode : Nat}
    {out : TransferOut} (h : db.Pictures userId statusCode out) (hsound : Sound db₀ db)
    (haudited : Audited db) :
    (∃ shown, db.getTransfer out.id userId = .ok shown ∧ out.Precedes shown) ∧
      ∀ other ≠ userId, db.getTransfer out.id other = .error transferNotFound := by
  obtain ⟨shown, hshown, hprecedes⟩ := h.goesOn
  obtain ⟨t, _, _, hfind, -, -, -⟩ := Database.transferDetails?_eq_some.mp hshown
  obtain ⟨hid, huser⟩ : t.id = out.id ∧ t.userId = userId := by
    simpa using List.find?_some hfind
  have hmem := List.mem_of_find?_eq_some hfind
  have hformat : transferIdFormat out.id = true := by
    rw [← hid]
    exact (haudited.valid t hmem).idFormat
  constructor
  · refine ⟨shown, ?_, hprecedes⟩
    rw [Database.getTransfer, if_pos hformat, hshown]
    rfl
  · intro other hne
    have hnone : db.transferDetails? out.id other = none := by
      cases hdetails : db.transferDetails? out.id other with
      | none => rfl
      | some x =>
          obtain ⟨t', _, _, hfind', -, -, -⟩ := Database.transferDetails?_eq_some.mp hdetails
          obtain ⟨hid', huser'⟩ : t'.id = out.id ∧ t'.userId = other := by
            simpa using List.find?_some hfind'
          cases Table.eq_of_key_eq hsound.transferIds (List.mem_of_find?_eq_some hfind') hmem
            (hid'.trans hid.symm)
          exact absurd (huser'.symm.trans huser) hne
    rw [Database.getTransfer, if_pos hformat, hnone]
    rfl

end

end LoyaltyTransfer
