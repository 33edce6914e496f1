/-
# `LoyaltyTransfer.Listing` — a user's transfers, page by page

`list_transfers` of `app/services/transfer_queries.py` and the route over it.  A
client asks for the first page, then for each next page with the token the last
answer gave, each with a limit of its own, until an answer has no token:

    start ──▶ following token ──▶ … ──▶ finished

Between two requests the table may change in any way that keeps the terms of the
transfers it has: transfers are inserted, with any `created_at`, and those there
go on with their saga.

**Proved here.**  Over every such run the pages descend in `(created_at, id)` as
one list, hold no transfer twice and no other user's, and when the walk is
finished every transfer that was there at its first request is listed once.  Every
request is answered, and without further changes the walk is finished as soon as
its limits add up to the number of the user's transfers (`pages_list_once`).  What
the saga, the reconciler and the administration do between two requests is such a
change (`Change.keepsTransfers`), and the tokens are short enough for the route
(`nextCursor_short`).
-/
import LoyaltyTransfer.Changes
import LoyaltyTransfer.Cursors
import LoyaltyTransfer.Engine
import LoyaltyTransfer.Lib.Keyset
import LoyaltyTransfer.Lib.Runs

namespace LoyaltyTransfer

open Keyset (Reading Read)

/-! ## `list_transfers` -/

structure TransferDetails where
  transfer : Transfer
  updatedAt : Time
  sourceProgram : String
  destinationProgram : String
  events : List TransferEvent

/-- The order of rows `(created_at, id)`.  Ids are compared character by
character, which is what every collation makes of digits and capitals. -/
def Transfer.key (t : Transfer) : Time ×ₗ String := toLex (t.createdAt, t.id)

def TransferDetails.key (d : TransferDetails) : Time ×ₗ String := d.transfer.key

def TransferOut.key (out : TransferOut) : Time ×ₗ String := toLex (out.createdAt, out.id)

def TransferCursor.key (c : TransferCursor Time) : Time ×ₗ String :=
  toLex (c.createdAt, c.transferId)

/-- The row of a transfer joined with its programs. -/
def Database.withProgramCodes (db : Database) (t : Transfer) : Option TransferDetails := do
  let source ← db.program? t.sourceProgramId
  let destination ← db.program? t.destinationProgramId
  pure ⟨t, db.updatedAt.transfers t.id, source.code, destination.code, []⟩

section

variable (lib : TextLibrary Time)

/-- Newest first: the page, and the token of the next one. -/
def Database.listTransfers (db : Database) (userId : String) (limit : Nat)
    (cursor : Option (TransferCursor Time)) : List TransferDetails × Option String :=
  let found := (db.transfers.filterMap db.withProgramCodes).filter fun d =>
    decide (d.transfer.userId = userId) && decide (∀ c ∈ cursor, d.key < c.key)
  -- one extra row tells whether another page exists
  let rows := (found.insertionSort fun a b => b.key ≤ a.key).take (limit + 1)
  let page := rows.take limit
  (page, if limit < rows.length then page.getLast?.map fun d =>
    TransferCursor.encode lib ⟨d.transfer.createdAt, d.transfer.id⟩ else none)

structure TransferList where
  data : List TransferOut
  nextCursor : Option String

/-- `get_transfers`, after the bounds of its query.  A summary is a transfer
without events. -/
def Database.getTransfers (db : Database) (userId : String) (limit : Nat)
    (cursor : Option String) : Except DomainError TransferList := do
  let decoded ← match cursor.filter fun token => token != "" with
    | some token => (TransferCursor.decode lib token).map some
    | none => pure none
  let (page, nextCursor) := db.listTransfers lib userId limit decoded
  pure {
    data := page.map fun d =>
      transferOut d.transfer d.updatedAt d.sourceProgram d.destinationProgram d.events
    nextCursor }

end

/-! ## A client that follows the cursors -/

inductive ListingPosition where
  | start
  | following (token : String)
  | finished
  | refused (error : DomainError)

/-- A walk under way.  `existing` are the user's transfers at its first request;
the client does not see them, they are kept for the statements. -/
structure Listing where
  db : Database
  position : ListingPosition
  pages : List (List TransferOut)
  existing : List Transfer

/-- All that the pages list, in order. -/
def Listing.listed (s : Listing) : List TransferOut := s.pages.flatten

inductive ListingAction where
  | request (limit : Nat)
  | change (db : Database)

def Database.transfersOf (db : Database) (userId : String) : List Transfer :=
  db.transfers.filter fun t => decide (t.userId = userId)

/-- What the client makes of an answer. -/
def Listing.receive (s : Listing) : Except DomainError TransferList → Listing
  | .ok list =>
      { s with
        pages := s.pages ++ [list.data]
        position := list.nextCursor.elim .finished .following }
  | .error e => { s with position := .refused e }

section

variable (lib : TextLibrary Time) (userId : String)

def listingStep (s : Listing) : ListingAction → Option Listing
  | .change db => some { s with db }
  | .request limit =>
      match s.position with
      | .start => some (Listing.receive { s with existing := s.db.transfersOf userId }
          (s.db.getTransfers lib userId limit none))
      | .following token => some (s.receive (s.db.getTransfers lib userId limit (some token)))
      | .finished => none
      | .refused _ => none

/-- A table that can be listed: ids are a primary key, programs a foreign key, and
the library reads the cursor of every transfer. -/
structure Database.Listable (db : Database) : Prop where
  ids : (db.transfers.map Transfer.id).Nodup
  source : ∀ t ∈ db.transfers, (db.program? t.sourceProgramId).isSome
  destination : ∀ t ∈ db.transfers, (db.program? t.destinationProgramId).isSome
  readsJson : ∀ t ∈ db.transfers,
    lib.ReadsJson (TransferCursor.payload lib ⟨t.createdAt, t.id⟩)
  readsInstant : ∀ t ∈ db.transfers, lib.ReadsInstant t.createdAt

/-- Every transfer is still there, on its terms. -/
def Database.KeepsTransfers (db db' : Database) : Prop :=
  ∀ t ∈ db.transfers, ∃ t' ∈ db'.transfers, SameTerms t t'

/-- The steps the results are about: a limit is at least one, and a change inserts
transfers or writes on those there. -/
def ListingStep (s : Listing) : ListingAction → Prop
  | .request limit => 1 ≤ limit
  | .change db => db.Listable lib ∧ s.db.KeepsTransfers db

structure Listing.Initial (s : Listing) : Prop where
  listable : s.db.Listable lib
  position : s.position = .start
  pages : s.pages = []
  existing : s.existing = []

end

/-! ## Pages of the user's rows -/

/-- The user's rows, in no order. -/
def Database.rowsOf (db : Database) (userId : String) : List TransferDetails :=
  (db.transfers.filterMap db.withProgramCodes).filter fun d =>
    decide (d.transfer.userId = userId)

def TransferDetails.out (d : TransferDetails) : TransferOut :=
  transferOut d.transfer d.updatedAt d.sourceProgram d.destinationProgram d.events

def cursorAt (k : Time ×ₗ String) : TransferCursor Time := ⟨(ofLex k).1, (ofLex k).2⟩

@[simp] theorem cursorAt_key (k : Time ×ₗ String) : (cursorAt k).key = k := rfl

section

variable {lib : TextLibrary Time} {db db' : Database} {userId : String} {limit : Nat}

/-- The page at a key, as the route gives it. -/
def Database.pageAt (lib : TextLibrary Time) (db : Database) (userId : String) (limit : Nat)
    (cursor : Option (Time ×ₗ String)) : TransferList :=
  let page := Keyset.page TransferDetails.key cursor limit (db.rowsOf userId)
  ⟨page.1.map TransferDetails.out, page.2.map fun k => (cursorAt k).encode lib⟩

/-- The query is the user's rows, read from a key on. -/
theorem listTransfers_eq (cursor : Option (TransferCursor Time)) :
    db.listTransfers lib userId limit cursor =
      let page := Keyset.page TransferDetails.key (cursor.map TransferCursor.key) limit
        (db.rowsOf userId)
      (page.1, page.2.map fun k => (cursorAt k).encode lib) := by
  have hfound : (db.transfers.filterMap db.withProgramCodes).filter (fun d =>
        decide (d.transfer.userId = userId) && decide (∀ c ∈ cursor, d.key < c.key)) =
      (db.rowsOf userId).filter fun d =>
        decide (Keyset.Admits (cursor.map TransferCursor.key) d.key) := by
    rw [Database.rowsOf, List.filter_filter]
    refine List.filter_congr fun d _ => ?_
    rw [Bool.and_comm]
    congr 1
    refine decide_eq_decide.mpr ?_
    cases cursor with
    | none => simp
    | some c => simp
  rw [Database.listTransfers, hfound, Keyset.page, Keyset.fetched, Keyset.remaining]
  refine Prod.ext rfl ?_
  simp only
  split
  · rw [Option.map_map]
    rfl
  · rfl

theorem getTransfers_none :
    db.getTransfers lib userId limit none = .ok (db.pageAt lib userId limit none) := by
  rw [Database.getTransfers, Option.filter_none]
  simp only [pure_bind, listTransfers_eq]
  rfl

theorem getTransfers_token {c : TransferCursor Time} (hjson : lib.ReadsJson (c.payload lib))
    (hinstant : lib.ReadsInstant c.createdAt) :
    db.getTransfers lib userId limit (some (c.encode lib)) =
      .ok (db.pageAt lib userId limit (some c.key)) := by
  have htoken : (some (c.encode lib)).filter (fun token => token != "") =
      some (c.encode lib) := by
    rw [Option.filter_some, if_pos (by simpa using encode_ne_empty lib c)]
  rw [Database.getTransfers, htoken]
  simp only [decode_encode hjson hinstant, Except.map, listTransfers_eq]
  rfl

/-! ## The user's rows -/

theorem withProgramCodes_transfer (h : db.Listable lib) {t : Transfer} (ht : t ∈ db.transfers) :
    ∃ d, db.withProgramCodes t = some d ∧ d.transfer = t := by
  obtain ⟨source, hsource⟩ := Option.isSome_iff_exists.mp (h.source t ht)
  obtain ⟨destination, hdestination⟩ := Option.isSome_iff_exists.mp (h.destination t ht)
  exact ⟨_, by rw [Database.withProgramCodes, hsource, hdestination]; rfl, rfl⟩

theorem of_withProgramCodes {t : Transfer} {d : TransferDetails}
    (h : db.withProgramCodes t = some d) : d.transfer = t := by
  simp only [Database.withProgramCodes, Option.bind_eq_bind, Option.bind_eq_some_iff] at h
  obtain ⟨source, -, destination, -, hd⟩ := h
  cases hd
  rfl

/-- No row is lost in the join, and none is doubled. -/
theorem map_transfer_rowsOf (h : db.Listable lib) :
    (db.rowsOf userId).map TransferDetails.transfer = db.transfersOf userId := by
  have hjoin : ∀ ts : List Transfer, ts ⊆ db.transfers →
      (ts.filterMap db.withProgramCodes).map TransferDetails.transfer = ts := by
    intro ts
    induction ts with
    | nil => exact fun _ => rfl
    | cons t ts ih =>
        intro hts
        obtain ⟨d, hd, rfl⟩ := withProgramCodes_transfer h (hts (List.mem_cons_self ..))
        rw [List.filterMap_cons_some hd, List.map_cons,
          ih fun x hx => hts (List.mem_cons_of_mem _ hx)]
  rw [Database.rowsOf, Database.transfersOf]
  conv_rhs => rw [← hjoin db.transfers (List.Subset.refl _), List.filter_map]
  rfl

theorem map_key_rowsOf (h : db.Listable lib) :
    (db.rowsOf userId).map TransferDetails.key = (db.transfersOf userId).map Transfer.key := by
  rw [← map_transfer_rowsOf h, List.map_map]
  rfl

theorem rowsOf_nodup (h : db.Listable lib) :
    ((db.rowsOf userId).map TransferDetails.key).Nodup := by
  rw [map_key_rowsOf h]
  refine List.Nodup.of_map (fun k => (ofLex k).2) ?_
  rw [List.map_map]
  exact h.ids.sublist (List.filter_sublist.map Transfer.id)

theorem mem_rowsOf {d : TransferDetails} (h : d ∈ db.rowsOf userId) :
    d.transfer ∈ db.transfersOf userId := by
  obtain ⟨hd, huser⟩ := List.mem_filter.mp h
  obtain ⟨t, ht, hrow⟩ := List.mem_filterMap.mp hd
  refine List.mem_filter.mpr ⟨?_, huser⟩
  rw [of_withProgramCodes hrow]
  exact ht

/-- What the route's query takes, `cursor: max_length=512`. -/
def maxCursorLength : Nat := 512

/-- Every token handed out is one that the route takes. -/
theorem nextCursor_short {cursor : Option (TransferCursor Time)} {token : String}
    (hids : ∀ t ∈ db.transfers, transferIdFormat t.id = true)
    (hinstants : ∀ t ∈ db.transfers, lib.ShortInstant t.createdAt)
    (h : (db.listTransfers lib userId limit cursor).2 = some token) :
    token.toList.length ≤ maxCursorLength := by
  rw [listTransfers_eq] at h
  obtain ⟨k, hk, rfl⟩ := Option.map_eq_some_iff.mp h
  obtain ⟨d, hd, rfl⟩ := Keyset.mem_page_of_next hk
  have ht := List.mem_of_mem_filter (mem_rowsOf (Keyset.mem_page hd).1)
  have hlength : ((cursorAt d.key).encode lib).toList.length ≤ 120 :=
    length_encode_le (hinstants _ ht) (hids _ ht)
  exact hlength.trans (by decide)

/-! ## What every step keeps -/

/-- Where a client asks from. -/
inductive ListingPosition.At (lib : TextLibrary Time) :
    ListingPosition → Option (Time ×ₗ String) → Prop
  | start : At lib .start none
  | following {c : TransferCursor Time} (hjson : lib.ReadsJson (c.payload lib))
      (hinstant : lib.ReadsInstant c.createdAt) : At lib (.following (c.encode lib)) (some c.key)

def Listing.listedKeys (s : Listing) : List (Time ×ₗ String) := s.listed.map TransferOut.key

def Listing.existingKeys (s : Listing) : List (Time ×ₗ String) := s.existing.map Transfer.key

/-- The invariant of a walk. -/
structure ListingSound (lib : TextLibrary Time) (userId : String) (s : Listing) : Prop where
  listable : s.db.Listable lib
  own : ∀ out ∈ s.listed, ∃ t ∈ s.db.transfersOf userId, t.key = out.key
  kept : ∀ t ∈ s.existing, ∃ t' ∈ s.db.transfersOf userId, t'.key = t.key
  place : (∃ cursor, s.position.At lib cursor ∧
      Reading cursor s.listedKeys s.existingKeys) ∨
    (s.position = .finished ∧ Read s.listedKeys s.existingKeys)

theorem SameTerms.key {t t' : Transfer} (h : SameTerms t t') : t'.key = t.key := by
  rw [Transfer.key, Transfer.key, h.createdAt, h.id]

theorem Database.KeepsTransfers.transfersOf (h : db.KeepsTransfers db')
    {k : Time ×ₗ String} (hk : ∃ t ∈ db.transfersOf userId, t.key = k) :
    ∃ t ∈ db'.transfersOf userId, t.key = k := by
  obtain ⟨t, ht, rfl⟩ := hk
  obtain ⟨hmem, huser⟩ := List.mem_filter.mp ht
  obtain ⟨t', ht', hterms⟩ := h t hmem
  refine ⟨t', List.mem_filter.mpr ⟨ht', ?_⟩, hterms.key⟩
  rw [hterms.userId]
  exact huser

end

section

variable {lib : TextLibrary Time} {userId : String} {s s' : Listing} {limit : Nat}
  {cursor : Option (Time ×ₗ String)}

theorem ListingSound.change (h : ListingSound lib userId s) {db : Database}
    (hdb : db.Listable lib) (hkeeps : s.db.KeepsTransfers db) :
    ListingSound lib userId { s with db } where
  listable := hdb
  own out hout := hkeeps.transfersOf (h.own out hout)
  kept t ht := hkeeps.transfersOf (h.kept t ht)
  place := h.place

/-- The walk after a page from `cursor`. -/
def Listing.turn (lib : TextLibrary Time) (userId : String) (limit : Nat)
    (cursor : Option (Time ×ₗ String)) (s : Listing) : Listing :=
  s.receive (.ok (s.db.pageAt lib userId limit cursor))

theorem listed_turn : (s.turn lib userId limit cursor).listed =
    s.listed ++ (Keyset.page TransferDetails.key cursor limit (s.db.rowsOf userId)).1.map
      TransferDetails.out := by
  simp [Listing.turn, Listing.receive, Listing.listed, Database.pageAt]

theorem listedKeys_turn : (s.turn lib userId limit cursor).listedKeys =
    s.listedKeys ++ (Keyset.page TransferDetails.key cursor limit (s.db.rowsOf userId)).1.map
      TransferDetails.key := by
  rw [Listing.listedKeys, listed_turn, List.map_append, List.map_map]
  rfl

/-- Where the client stands after a page. -/
theorem position_turn (hdb : s.db.Listable lib) :
    (∃ c, (Keyset.page TransferDetails.key cursor limit (s.db.rowsOf userId)).2 = some c ∧
      (s.turn lib userId limit cursor).position.At lib (some c)) ∨
    ((Keyset.page TransferDetails.key cursor limit (s.db.rowsOf userId)).2 = none ∧
      (s.turn lib userId limit cursor).position = .finished) := by
  cases hpage : (Keyset.page TransferDetails.key cursor limit (s.db.rowsOf userId)).2 with
  | none =>
      refine .inr ⟨rfl, ?_⟩
      simp only [Listing.turn, Listing.receive, Database.pageAt, hpage]
      rfl
  | some c =>
      refine .inl ⟨c, rfl, ?_⟩
      obtain ⟨d, hd, rfl⟩ := Keyset.mem_page_of_next hpage
      have ht := List.mem_of_mem_filter (mem_rowsOf (Keyset.mem_page hd).1)
      simp only [Listing.turn, Listing.receive, Database.pageAt, hpage]
      exact .following (hdb.readsJson _ ht) (hdb.readsInstant _ ht)

theorem ListingSound.existing_subset (h : ListingSound lib userId s) :
    s.existingKeys ⊆ (s.db.rowsOf userId).map TransferDetails.key := by
  intro k hk
  obtain ⟨t, ht, rfl⟩ := List.mem_map.mp hk
  obtain ⟨t', ht', hkey⟩ := h.kept t ht
  rw [map_key_rowsOf h.listable, ← hkey]
  exact List.mem_map_of_mem ht'

/-- A page keeps the invariant. -/
theorem ListingSound.turn (h : ListingSound lib userId s)
    (hreading : Reading cursor s.listedKeys s.existingKeys) (hlimit : 1 ≤ limit) :
    ListingSound lib userId (s.turn lib userId limit cursor) where
  listable := h.listable
  own := by
    intro out hout
    rw [listed_turn] at hout
    rcases List.mem_append.mp hout with hout | hout
    · exact h.own out hout
    · obtain ⟨d, hd, rfl⟩ := List.mem_map.mp hout
      exact ⟨_, mem_rowsOf (Keyset.mem_page hd).1, rfl⟩
  kept := h.kept
  place := by
    have hnodup : ((s.db.rowsOf userId).map TransferDetails.key).Nodup := rowsOf_nodup h.listable
    rcases position_turn h.listable with ⟨c, hpage, hat⟩ | ⟨hpage, hfinished⟩
    · refine .inl ⟨some c, hat, ?_⟩
      rw [listedKeys_turn]
      exact hreading.next hnodup h.existing_subset hpage
    · refine .inr ⟨hfinished, ?_⟩
      rw [listedKeys_turn]
      exact hreading.last hnodup h.existing_subset hlimit hpage

/-- The first request notes what is there. -/
theorem ListingSound.noted (h : ListingSound lib userId s) (hstart : s.position = .start) :
    ListingSound lib userId { s with existing := s.db.transfersOf userId } ∧
      Reading none s.listedKeys ((s.db.transfersOf userId).map Transfer.key) := by
  have hlisted : s.listedKeys = [] := by
    rcases h.place with ⟨cursor, hat, hreading⟩ | ⟨hfinished, -⟩
    · rw [hstart] at hat
      cases hat
      refine List.eq_nil_iff_forall_not_mem.mpr ?_
      intro k hk
      exact lt_irrefl k (hreading.below k hk k (Keyset.admits_none k))
    · rw [hstart] at hfinished
      cases hfinished
  have hreading : Reading none s.listedKeys ((s.db.transfersOf userId).map Transfer.key) := by
    rw [hlisted]
    exact Reading.start _
  refine ⟨⟨h.listable, h.own, fun t ht => ⟨t, ht, rfl⟩, .inl ⟨none, ?_, hreading⟩⟩, hreading⟩
  rw [hstart]
  exact .start

/-- A request, inverted: it turns one page from where the client stands. -/
theorem ListingSound.request_cases (h : ListingSound lib userId s)
    (hstep : listingStep lib userId s (.request limit) = some s') :
    ∃ cursor existing, s.position.At lib cursor ∧
      s' = Listing.turn lib userId limit cursor { s with existing } ∧
      ListingSound lib userId { s with existing } ∧
      Reading cursor s.listedKeys (existing.map Transfer.key) := by
  rcases h.place with ⟨cursor, hat, hreading⟩ | ⟨hfinished, -⟩
  · obtain ⟨position, hposition⟩ : ∃ position, s.position = position := ⟨_, rfl⟩
    rw [hposition] at hat
    cases hat with
    | start =>
        obtain ⟨hsound, hnoted⟩ := h.noted hposition
        rw [listingStep, hposition] at hstep
        simp only [getTransfers_none, Option.some.injEq] at hstep
        refine ⟨none, s.db.transfersOf userId, ?_, hstep.symm, hsound, hnoted⟩
        rw [hposition]
        exact .start
    | following hjson hinstant =>
        rw [listingStep, hposition] at hstep
        simp only [getTransfers_token hjson hinstant, Option.some.injEq] at hstep
        refine ⟨_, s.existing, ?_, hstep.symm, h, hreading⟩
        rw [hposition]
        exact .following hjson hinstant
  · rw [listingStep, hfinished] at hstep
    cases hstep

theorem ListingSound.step (h : ListingSound lib userId s) {a : ListingAction}
    (ha : ListingStep lib s a) (hstep : listingStep lib userId s a = some s') :
    ListingSound lib userId s' := by
  cases a with
  | request limit =>
      obtain ⟨cursor, existing, -, rfl, hsound, hreading⟩ := h.request_cases hstep
      exact hsound.turn hreading ha
  | change db =>
      rw [listingStep, Option.some.injEq] at hstep
      subst hstep
      exact h.change ha.1 ha.2

theorem Listing.Initial.sound (h : s.Initial lib) : ListingSound lib userId s where
  listable := h.listable
  own out hout := by
    rw [Listing.listed, h.pages] at hout
    cases hout
  kept t ht := by
    rw [h.existing] at ht
    cases ht
  place := by
    refine .inl ⟨none, ?_, ?_⟩
    · rw [h.position]
      exact .start
    · rw [Listing.listedKeys, Listing.listed, h.pages]
      exact Reading.start _

/-! ## Whole walks -/

theorem ListingSound.descending (h : ListingSound lib userId s) :
    s.listed.Pairwise fun a b => b.key < a.key := by
  have hkeys : s.listedKeys.Pairwise (· > ·) := by
    rcases h.place with ⟨_, -, hreading⟩ | ⟨-, hread⟩
    · exact hreading.descending
    · exact hread.descending
  exact List.pairwise_map.mp hkeys

/-- Ids of listed transfers differ, since the transfers' keys do. -/
theorem ListingSound.nodup (h : ListingSound lib userId s) :
    (s.listed.map TransferOut.id).Nodup := by
  refine List.pairwise_map.mpr (h.descending.imp_of_mem ?_)
  intro a b ha hb hlt hid
  obtain ⟨t, ht, hkey⟩ := h.own a ha
  obtain ⟨t', ht', hkey'⟩ := h.own b hb
  have hids : t.id = t'.id := by
    have hleft : t.id = a.id := congrArg (fun k => (ofLex k).2) hkey
    have hright : t'.id = b.id := congrArg (fun k => (ofLex k).2) hkey'
    rw [hleft, hright, hid]
  have hsame : t = t' := Table.eq_of_key_eq h.listable.ids (List.mem_of_mem_filter ht)
    (List.mem_of_mem_filter ht') hids
  rw [← hkey, ← hkey', hsame] at hlt
  exact lt_irrefl _ hlt

/-- Wherever the client asks from, it is answered. -/
theorem ListingPosition.At.answered (hat : s.position.At lib cursor) (limit : Nat) :
    ∃ s', listingStep lib userId s (.request limit) = some s' := by
  cases hpos : s.position with
  | start => exact ⟨_, by rw [listingStep, hpos]⟩
  | following token => exact ⟨_, by rw [listingStep, hpos]⟩
  | finished =>
      rw [hpos] at hat
      cases hat
  | refused e =>
      rw [hpos] at hat
      cases hat

/-- Unless it is finished, the walk can go on. -/
theorem ListingSound.answered (h : ListingSound lib userId s) :
    s.position = .finished ∨
      ∀ limit, ∃ s', listingStep lib userId s (.request limit) = some s' := by
  rcases h.place with ⟨cursor, hat, -⟩ | ⟨hfinished, -⟩
  · exact .inr (hat.answered)
  · exact .inl hfinished

/-- How much is left below the client's cursor. -/
def Listing.left (userId : String) (cursor : Option (Time ×ₗ String)) (s : Listing) : Nat :=
  (Keyset.remaining TransferDetails.key cursor (s.db.rowsOf userId)).length

/-- A page that is not the last takes its limit from what is left, and leaves
something. -/
theorem ListingSound.request_left (h : ListingSound lib userId s)
    (hstep : listingStep lib userId s (.request limit) = some s') :
    ∃ cursor, s.position.At lib cursor ∧ (s'.position = .finished ∨
      ∃ cursor', s'.position.At lib cursor' ∧
        s'.left userId cursor' + limit = s.left userId cursor ∧ 0 < s'.left userId cursor') := by
  obtain ⟨cursor, existing, hat, rfl, hsound, -⟩ := h.request_cases hstep
  refine ⟨cursor, hat, ?_⟩
  rcases position_turn hsound.listable with ⟨c, hpage, hat'⟩ | ⟨-, hfinished⟩
  · have hnodup : ((s.db.rowsOf userId).map TransferDetails.key).Nodup := rowsOf_nodup h.listable
    have hleft := Keyset.length_remaining_next hnodup hpage
    have hbeyond := (Keyset.page_next hnodup hpage).1
    refine .inr ⟨some c, hat', hleft, ?_⟩
    show 0 < (Keyset.remaining TransferDetails.key (some c) (s.db.rowsOf userId)).length
    omega
  · exact .inl hfinished

theorem ListingPosition.At.of_following {token : String} {cursor : Option (Time ×ₗ String)}
    (h : At lib (.following token) cursor) :
    ∃ c, TransferCursor.decode lib token = .ok c ∧ cursor = some c.key := by
  generalize hposition : ListingPosition.following token = position at h
  cases h with
  | start => cases hposition
  | following hjson hinstant =>
      rw [ListingPosition.following.inj hposition]
      exact ⟨_, decode_encode hjson hinstant, rfl⟩

/-- A token tells its key. -/
theorem ListingPosition.At.unique {position : ListingPosition}
    {cursor cursor' : Option (Time ×ₗ String)} (h : position.At lib cursor)
    (h' : position.At lib cursor') : cursor = cursor' := by
  cases position with
  | start =>
      cases h
      cases h'
      rfl
  | following token =>
      obtain ⟨c, hdecode, rfl⟩ := h.of_following
      obtain ⟨c', hdecode', rfl⟩ := h'.of_following
      rw [Except.ok.inj (hdecode.symm.trans hdecode')]
  | finished => cases h
  | refused e => cases h

theorem left_le (h : s.db.Listable lib) :
    s.left userId cursor ≤ (s.db.transfersOf userId).length := by
  have hrows : (s.db.rowsOf userId).length = (s.db.transfersOf userId).length := by
    rw [← map_transfer_rowsOf h, List.length_map]
  rw [Listing.left, Keyset.remaining_perm.length_eq, ← hrows]
  exact List.length_filter_le _ _

/-- Requests alone use up what is left, and then the walk is finished. -/
theorem ListingSound.finishes {limits : List Nat} (h : ListingSound lib userId s)
    (hat : s.position.At lib cursor) (hlimits : ∀ limit ∈ limits, 1 ≤ limit) (hne : limits ≠ [])
    (hleft : s.left userId cursor ≤ limits.sum) :
    ∃ k ≤ limits.length, ∃ s',
      Runs.run (listingStep lib userId) s ((limits.take k).map .request) = some s' ∧
        s'.position = .finished := by
  induction limits generalizing s cursor with
  | nil => exact absurd rfl hne
  | cons limit limits ih =>
      have hlimit := hlimits limit (List.mem_cons_self ..)
      obtain ⟨s₁, hstep⟩ := hat.answered limit
      obtain ⟨c, hat', hnext⟩ := h.request_left hstep
      cases hat.unique hat'
      rcases hnext with hfinished | ⟨cursor₁, hat₁, htaken, hpos⟩
      · refine ⟨1, Nat.succ_le_succ (Nat.zero_le _), s₁, ?_, hfinished⟩
        exact Runs.run_cons_eq_some.mpr ⟨s₁, hstep, rfl⟩
      · rw [List.sum_cons] at hleft
        have hne₁ : limits ≠ [] := by
          rintro rfl
          rw [List.sum_nil] at hleft
          omega
        obtain ⟨k, hk, s', hrun, hfinished⟩ := ih (h.step (a := .request limit) hlimit hstep) hat₁
          (fun l hl => hlimits l (List.mem_cons_of_mem _ hl)) hne₁ (by omega)
        refine ⟨k + 1, Nat.succ_le_succ hk, s', ?_, hfinished⟩
        exact Runs.run_cons_eq_some.mpr ⟨s₁, hstep, hrun⟩

/-- Following the cursors, over every run: the pages are one descending list
without repetition, of the user's transfers only; finished, they list all that was
there at the first request; every request is answered; and once nothing changes,
requests whose limits add up to the number of the user's transfers finish. -/
theorem pages_list_once {s₀ : Listing} {as : List ListingAction} (h₀ : s₀.Initial lib)
    (hsteps : Runs.AllSteps (listingStep lib userId) (ListingStep lib) s₀ as)
    (hrun : Runs.run (listingStep lib userId) s₀ as = some s) :
    (s.listed.Pairwise fun a b => b.key < a.key) ∧
      (s.listed.map TransferOut.id).Nodup ∧
      (∀ out ∈ s.listed, ∃ t ∈ s.db.transfersOf userId,
        t.id = out.id ∧ t.createdAt = out.createdAt) ∧
      (s.position = .finished →
        ∀ t ∈ s.existing, (s.listed.map TransferOut.id).count t.id = 1) ∧
      (s.position = .finished ∨
        ∀ limit, ∃ s', listingStep lib userId s (.request limit) = some s') ∧
      ∀ limits, (∀ limit ∈ limits, 1 ≤ limit) → limits ≠ [] →
        (s.db.transfersOf userId).length ≤ limits.sum →
        ∃ k ≤ limits.length, ∃ s',
          Runs.run (listingStep lib userId) s ((limits.take k).map .request) = some s' ∧
            s'.position = .finished := by
  have hs : ListingSound lib userId s :=
    Runs.run_invariant_of (fun s a s' h ha hstep => h.step ha hstep) h₀.sound hsteps hrun
  refine ⟨hs.descending, hs.nodup, ?_, ?_, hs.answered, ?_⟩
  · intro out hout
    obtain ⟨t, ht, hkey⟩ := hs.own out hout
    exact ⟨t, ht, congrArg (fun k => (ofLex k).2) hkey, congrArg (fun k => (ofLex k).1) hkey⟩
  · intro hfinished t ht
    rcases hs.place with ⟨cursor, hat, -⟩ | ⟨-, hread⟩
    · rw [hfinished] at hat
      cases hat
    · obtain ⟨out, hout, hkey⟩ := List.mem_map.mp
        (hread.complete t.key (List.mem_map_of_mem ht))
      have hid : out.id = t.id := congrArg (fun k => (ofLex k).2) hkey
      refine List.count_eq_one_of_mem hs.nodup ?_
      rw [← hid]
      exact List.mem_map_of_mem hout
  · intro limits hlimits hne hsum
    rcases hs.place with ⟨cursor, hat, -⟩ | ⟨hfinished, -⟩
    · exact hs.finishes hat hlimits hne ((left_le hs.listable).trans hsum)
    · exact ⟨0, Nat.zero_le _, s, rfl, hfinished⟩

end

/-! ## What happens between two requests -/

section

variable {db db' : Database} {t t' : Transfer}

theorem keepsTransfers_saved (hn : (db.transfers.map Transfer.id).Nodup)
    (htransfers : db'.transfers = db.transfers) (ht : db.transfer? t.id = some t)
    (hterms : SameTerms t t') (events : List TransferEvent) (moment : Option Time) :
    db.KeepsTransfers (saved db' t' events moment) := by
  intro x hx
  show ∃ x' ∈ Table.replace Transfer.id t' db'.transfers, SameTerms x x'
  have hmem : t ∈ db.transfers := Table.lookup_mem ht
  rw [htransfers]
  rcases eq_or_ne x.id t.id with hid | hid
  · obtain rfl := Table.eq_of_key_eq hn hx hmem hid
    exact ⟨t', Table.mem_replace.mpr (.inl ⟨rfl, x, hx, hterms.id.symm⟩), hterms⟩
  · refine ⟨x, Table.mem_replace.mpr (.inr ⟨hx, ?_⟩), SameTerms.refl x⟩
    rw [hterms.id]
    exact hid

/-- Every transaction of the saga, the reconciler and the administration leaves
the transfers on their terms. -/
theorem Change.keepsTransfers {c : Cause} (h : Change c db db')
    (hn : (db.transfers.map Transfer.id).Nodup) : db.KeepsTransfers db' := by
  cases h with
  | frame hsame _ =>
      intro t ht
      refine ⟨t, ?_, SameTerms.refl t⟩
      rw [hsame.transfers]
      exact ht
  | opened events hopens hopening hw =>
      intro t ht
      exact ⟨t, List.mem_append_left _ ht, SameTerms.refl t⟩
  | submitted ht _ _ _ _ => exact keepsTransfers_saved hn rfl ht (sameTerms_movedTo ..) _ _
  | parked events ht _ hterms _ _ _ => exact keepsTransfers_saved hn rfl ht hterms events _
  | settled events ht _ _ _ _ _ =>
      refine keepsTransfers_saved hn ?_ ht (sameTerms_settledAs ..) events _
      rfl
  | reversed events ht _ _ _ _ _ =>
      refine keepsTransfers_saved hn ?_ ht (sameTerms_reversedAs ..) events _
      rfl
  | leased claimed expiry _ =>
      intro t ht
      refine ⟨_, List.mem_map_of_mem ht, ?_⟩
      split
      · exact sameTerms_written ..
      · exact SameTerms.refl t

end

/-! ## Two transfers of one instant -/

/-- A transfer of 2026-09-23, by its id, its user and its moment. -/
def listedTransfer (id userId : String) (createdAt : Time) : Transfer where
  id := id
  userId := userId
  idempotencyKey := id
  sourceProgramId := 1
  destinationProgramId := 2
  sourceAccountId := 1
  destinationAccountId := 2
  sourcePoints := 1000
  basePoints := 1000
  bonusPoints := 0
  destinationPoints := 1000
  rateId := 1
  rateSnapshot := ⟨1, 1, 1, 1, none, none⟩
  status := .completed
  failureCode := none
  failureMessage := none
  partnerReference := some id
  partnerConfirmationId := some "conf-1"
  verificationAttempts := 0
  nextVerificationAt := none
  createdAt := createdAt
  completedAt := some createdAt

/-- Two of one user and one of another. -/
def earlyTransfers : List Transfer := [
  listedTransfer "tr_01K5VEXAMP1E0000000000000A" "user_alice" 1790170380,
  listedTransfer "tr_01K5VEXAMP1E0000000000000B" "user_alice" 1790170380,
  listedTransfer "tr_01K5VEXAMP1E0000000000000C" "user_bob" 1790170380]

/-- One that comes between the pages. -/
def lateTransfers : List Transfer :=
  earlyTransfers ++ [listedTransfer "tr_01K5VEXAMP1E0000000000000D" "user_alice" (3580340763 / 2)]

def listingDb (transfers : List Transfer) : Database where
  users := ["user_alice", "user_bob"]
  programs :=
    [⟨1, "NOVA_REWARDS", "Nova Rewards", .card, "NOVA", true⟩,
      ⟨2, "SKYWARD_MILES", "Skyward Miles", .loyalty, "SKYWARD", true⟩]
  conversionRates := []
  transferBonuses := []
  accounts := []
  transfers := transfers
  transferEvents := []
  ledgerJournals := []
  ledgerEntries := []
  updatedAt := .blank
  clock := 0

def listingInstants : List (Time × String) := [
  (1790170380, "2026-09-23T13:33:00+00:00"),
  (3580340763 / 2, "2026-09-23T13:33:01.500000+00:00")]

/-- The library, as far as those transfers need it. -/
def listingLibrary : TextLibrary Time :=
  tableLibrary listingInstants (lateTransfers.map fun t =>
    TransferCursor.payload (tableLibrary listingInstants []) ⟨t.createdAt, t.id⟩)

theorem listingDb_listable {transfers : List Transfer} (h : transfers.Sublist lateTransfers) :
    (listingDb transfers).Listable listingLibrary where
  ids := (show (lateTransfers.map Transfer.id).Nodup by decide +kernel).sublist
    (h.map Transfer.id)
  source t ht := by
    have hall : ∀ t ∈ lateTransfers,
        ((listingDb []).program? t.sourceProgramId).isSome := by decide +kernel
    exact hall t (h.subset ht)
  destination t ht := by
    have hall : ∀ t ∈ lateTransfers,
        ((listingDb []).program? t.destinationProgramId).isSome := by decide +kernel
    exact hall t (h.subset ht)
  readsJson t ht :=
    tableLibrary_readsJson (by decide +kernel) (List.mem_map_of_mem (h.subset ht))
  readsInstant t ht := by
    have hall : ∀ t ∈ lateTransfers, t.createdAt ∈ listingInstants.map Prod.fst := by
      decide +kernel
    exact tableLibrary_readsInstant (by decide +kernel) (by decide +kernel) (hall t (h.subset ht))

theorem request_db {lib : TextLibrary Time} {userId : String} {s s' : Listing} {limit : Nat}
    (h : listingStep lib userId s (.request limit) = some s') : s'.db = s.db := by
  have hreceive : ∀ (s : Listing) answer, (s.receive answer).db = s.db := by
    intro s answer
    cases answer <;> rfl
  rw [listingStep] at h
  split at h
  · cases h
    rw [hreceive]
  · cases h
    rw [hreceive]
  · cases h
  · cases h

def ListingPosition.isFinished : ListingPosition → Bool
  | .finished => true
  | _ => false

theorem ListingPosition.eq_finished {position : ListingPosition}
    (h : position.isFinished = true) : position = .finished := by
  cases position with
  | finished => rfl
  | _ => cases h

/-- A page of one, an insertion, and the other: of two transfers of one instant the
greater id comes first, and the newcomer is not listed. -/
def interruptedWalk : List ListingAction :=
  [.request 1, .change (listingDb lateTransfers), .request 1]

def walkStart : Listing := ⟨listingDb earlyTransfers, .start, [], []⟩

theorem pages_list_once_interrupted :
    ∃ s, Runs.run (listingStep listingLibrary "user_alice") walkStart interruptedWalk = some s ∧
      s.listed.map TransferOut.id =
        ["tr_01K5VEXAMP1E0000000000000B", "tr_01K5VEXAMP1E0000000000000A"] ∧
      ∀ t ∈ s.existing, (s.listed.map TransferOut.id).count t.id = 1 := by
  have hany : (Runs.run (listingStep listingLibrary "user_alice") walkStart
      interruptedWalk).any (fun s =>
        decide (s.listed.map TransferOut.id =
          ["tr_01K5VEXAMP1E0000000000000B", "tr_01K5VEXAMP1E0000000000000A"]) &&
        s.position.isFinished) = true := by
    decide +kernel
  have hearly : earlyTransfers.Sublist lateTransfers := List.sublist_append_left _ _
  have hinitial : walkStart.Initial listingLibrary :=
    ⟨listingDb_listable hearly, rfl, rfl, rfl⟩
  have hsteps : Runs.AllSteps (listingStep listingLibrary "user_alice")
      (ListingStep listingLibrary) walkStart interruptedWalk := by
    refine ⟨Nat.le_refl 1, ?_⟩
    intro s₁ h₁
    refine ⟨⟨listingDb_listable (List.Sublist.refl _), ?_⟩, ?_⟩
    · intro t ht
      rw [request_db h₁] at ht
      exact ⟨t, hearly.subset ht, SameTerms.refl t⟩
    · intro s₂ _
      exact ⟨Nat.le_refl 1, fun _ _ => trivial⟩
  obtain ⟨s, hs, hboth⟩ := (Option.any_eq_true _ _).mp hany
  obtain ⟨hids, hfinished⟩ := Bool.and_eq_true_iff.mp hboth
  obtain ⟨-, -, -, hlisted, -, -⟩ := pages_list_once hinitial hsteps hs
  exact ⟨s, hs, of_decide_eq_true hids, hlisted (ListingPosition.eq_finished hfinished)⟩

end LoyaltyTransfer
