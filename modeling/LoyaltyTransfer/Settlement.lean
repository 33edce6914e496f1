/-
# `LoyaltyTransfer.Settlement` — the books against the partners' own

A program's PARTNER_SETTLEMENT account is the platform's position with the partner that
runs the program: settled transfers out of the program add to it, settled transfers into
it take from it.  The partner has a list of its own, of the credits it gave.

**Proved here.**  In every state reached without a reset of the simulator the account
has its opening balance plus what was settled out less what was settled in; and what a
partner credited in all is what the settlement accounts of its programs gave, plus the
points of the transfers it credited that are not COMPLETED, each of them held in clearing
or reversed on the partner's own word  (`settlement_meets_partner`).
-/
import LoyaltyTransfer.Credits

namespace LoyaltyTransfer

/-! ## Sums over keyed lists -/

section

variable {α β κ : Type} {xs : List α} {ys : List β} {f : α → Int} {g : β → Int}

/-- Two keyed lists with the same entries have the same sum. -/
theorem sum_eq_of_entries (key : α → κ) (key' : β → κ) (hxs : (xs.map key).Nodup)
    (hys : (ys.map key').Nodup) (hto : ∀ x ∈ xs, ∃ y ∈ ys, key' y = key x ∧ g y = f x)
    (hof : ∀ y ∈ ys, ∃ x ∈ xs, key x = key' y ∧ f x = g y) :
    (xs.map f).sum = (ys.map g).sum := by
  have hfst : (xs.map fun x => (key x, f x)).Nodup := by
    refine List.Nodup.of_map Prod.fst ?_
    rw [List.map_map]
    exact hxs
  have hsnd : (ys.map fun y => (key' y, g y)).Nodup := by
    refine List.Nodup.of_map Prod.fst ?_
    rw [List.map_map]
    exact hys
  have hperm : (xs.map fun x => (key x, f x)).Perm (ys.map fun y => (key' y, g y)) := by
    rw [List.perm_ext_iff_of_nodup hfst hsnd]
    intro e
    simp only [List.mem_map]
    constructor
    · rintro ⟨x, hx, rfl⟩
      obtain ⟨y, hy, hkey, hval⟩ := hto x hx
      exact ⟨y, hy, by rw [hkey, hval]⟩
    · rintro ⟨y, hy, rfl⟩
      obtain ⟨x, hx, hkey, hval⟩ := hof y hy
      exact ⟨x, hx, by rw [hkey, hval]⟩
  have hsum := (hperm.map Prod.snd).sum_eq
  rw [List.map_map, List.map_map] at hsum
  exact hsum

/-- A sum splits along a test. -/
theorem sum_filter_add_filter_not (p : α → Bool) (f : α → Int) (xs : List α) :
    ((xs.filter p).map f).sum + ((xs.filter fun x => !p x).map f).sum = (xs.map f).sum := by
  induction xs with
  | nil => rfl
  | cons x xs ih =>
      simp only [List.map_cons, List.sum_cons, ← ih]
      cases hp : p x <;> simp [hp] <;> ring

end

/-! ## The settlement accounts -/

/-- The source points of the completed transfers out of the program. -/
def settledOut (transfers : List Transfer) (programId : Nat) : Int :=
  ((transfers.filter fun t =>
    decide (t.sourceProgramId = programId ∧ t.status = .completed)).map
      Transfer.sourcePoints).sum

/-- The destination points of the completed transfers into the program. -/
def settledIn (transfers : List Transfer) (programId : Nat) : Int :=
  ((transfers.filter fun t =>
    decide (t.destinationProgramId = programId ∧ t.status = .completed)).map
      Transfer.destinationPoints).sum

theorem effects_settlement (transfers : List Transfer) {a : Account}
    (ha : a.accountType = .partnerSettlement) :
    effects transfers a =
      settledOut transfers a.programId - settledIn transfers a.programId := by
  rw [effects, settledOut, settledIn, ← sum_map_ite, ← sum_map_ite]
  induction transfers with
  | nil => rfl
  | cons t ts ih =>
      simp only [List.map_cons, List.sum_cons, ih, Transfer.effect, ha, eq_comm]
      split_ifs <;> ring

/-! ## The partner's list -/

/-- What the partner has credited in all. -/
def creditedPoints (sim : Simulator) (partnerCode : String) : Int :=
  ((sim.credits.filter fun c => decide (c.partnerCode = partnerCode)).map Credit.points).sum

/-- What the settlement accounts of the partner's programs gave. -/
def bookedPoints (db : Database) (partnerCode : String) : Int :=
  ((db.programs.filter fun p => decide (p.partnerCode = partnerCode)).map fun p =>
    settledIn db.transfers p.id).sum

/-- The transfers the partner credited that the books have not settled. -/
def uncollected (db : Database) (sim : Simulator) (partnerCode : String) : List Transfer :=
  db.transfers.filter fun t =>
    decide (t.status ≠ .completed) && (sim.find partnerCode t.id).isSome

/-- The program of the id has the partner. -/
def Database.runBy (db : Database) (partnerCode : String) (programId : Nat) : Bool :=
  (db.program? programId).any fun p => decide (p.partnerCode = partnerCode)

section

variable {db : Database} {partnerCode : String}

/-- One completed transfer counts for the one program it goes into. -/
theorem sum_settledIn_one (hn : (db.programs.map Program.id).Nodup) (t : Transfer) :
    ((db.programs.filter fun p => decide (p.partnerCode = partnerCode)).map fun p =>
      settledIn [t] p.id).sum =
    if t.status = .completed ∧ db.runBy partnerCode t.destinationProgramId = true then
      t.destinationPoints else 0 := by
  have hone : ∀ p : Program, settledIn [t] p.id =
      if t.destinationProgramId = p.id ∧ t.status = .completed then t.destinationPoints else 0 := by
    intro p
    by_cases hp : t.destinationProgramId = p.id ∧ t.status = .completed <;> simp [settledIn, hp]
  simp only [hone]
  rw [sum_map_ite, List.filter_filter]
  by_cases hruns : t.status = .completed ∧ db.runBy partnerCode t.destinationProgramId = true
  · obtain ⟨hst, hprogram⟩ := hruns
    obtain ⟨p, hp, hcode⟩ := (Option.any_eq_true _ _).mp hprogram
    have hid : p.id = t.destinationProgramId := Table.lookup_key hp
    have hfilter : (db.programs.filter fun q =>
        decide (t.destinationProgramId = q.id ∧ t.status = .completed) &&
          decide (q.partnerCode = partnerCode)) = [p] := by
      rw [← Table.filter_key hn (Table.lookup_mem hp)]
      refine List.filter_congr ?_
      intro q hq
      rw [Bool.eq_iff_iff]
      simp only [Bool.and_eq_true, decide_eq_true_eq, ← hid, hst, and_true]
      constructor
      · rintro ⟨heq, -⟩
        exact heq.symm
      · intro heq
        rw [Table.eq_of_key_eq hn hq (Table.lookup_mem hp) heq]
        exact ⟨rfl, of_decide_eq_true hcode⟩
    rw [hfilter, if_pos ⟨hst, hprogram⟩]
    simp
  · have hfilter : (db.programs.filter fun q =>
        decide (t.destinationProgramId = q.id ∧ t.status = .completed) &&
          decide (q.partnerCode = partnerCode)) = [] := by
      refine List.filter_eq_nil_iff.mpr ?_
      intro q hq hboth
      simp only [Bool.and_eq_true, decide_eq_true_eq] at hboth
      obtain ⟨⟨heq, hst⟩, hcode⟩ := hboth
      refine hruns ⟨hst, (Option.any_eq_true _ _).mpr ⟨q, ?_, decide_eq_true hcode⟩⟩
      rw [heq]
      exact Table.lookup_of_mem hn hq
    rw [hfilter, if_neg hruns]
    rfl

/-- What the settlement accounts gave, transfer by transfer. -/
theorem bookedPoints_eq (hn : (db.programs.map Program.id).Nodup) :
    bookedPoints db partnerCode = ((db.transfers.filter fun t =>
      decide (t.status = .completed ∧ db.runBy partnerCode t.destinationProgramId = true)).map
        Transfer.destinationPoints).sum := by
  have hsplit : ∀ (t : Transfer) (ts : List Transfer) (id : Nat),
      settledIn (t :: ts) id = settledIn [t] id + settledIn ts id := by
    intro t ts id
    simp only [settledIn, ← sum_map_ite, List.map_cons, List.sum_cons, List.map_nil, List.sum_nil,
      add_zero]
  refine Eq.trans ?_ (sum_map_ite _ _ _)
  rw [bookedPoints]
  induction db.transfers with
  | nil => simp [settledIn]
  | cons t ts ih =>
      have hcons := hsplit t ts
      simp only [hcons, List.sum_map_add, List.map_cons, List.sum_cons, ih]
      rw [sum_settledIn_one hn]

end

/-! ## The two lists -/

section

variable {cfg : Config} {retry : RetryPolicy} {w₀ w : World} {as : List WorldAction}

/-- What the partner credited, transfer by transfer. -/
theorem creditedPoints_eq {db₀ : Database} (hsound : Sound db₀ w.engine.store.db)
    (hhonest : Honest db₀ w) (partnerCode : String) :
    creditedPoints w.sim partnerCode = ((w.engine.store.db.transfers.filter fun t =>
      (w.sim.find partnerCode t.id).isSome).map Transfer.destinationPoints).sum := by
  have hunique := hhonest.sim.unique
  refine sum_eq_of_entries Credit.reference Transfer.id ?_ ?_ ?_ ?_
  · -- one partner's references differ
    refine List.Nodup.map_on ?_ ((List.Nodup.of_map _ hunique).filter _)
    intro c hc c' hc' href
    obtain ⟨hc, hcode⟩ := List.mem_filter.mp hc
    obtain ⟨hc', hcode'⟩ := List.mem_filter.mp hc'
    refine Table.eq_of_key_eq hunique hc hc' ?_
    rw [Credit.key, Credit.key, href, of_decide_eq_true hcode, of_decide_eq_true hcode']
  · exact hsound.transferIds.sublist (List.filter_sublist.map _)
  · intro c hc
    obtain ⟨hc, hcode⟩ := List.mem_filter.mp hc
    obtain ⟨post, hpost, hreq⟩ := hhonest.sim.made c hc
    obtain ⟨t, ht, hordered⟩ := hhonest.posts post hpost
    rw [hreq] at ht hordered
    have hid : t.id = c.reference := Table.lookup_key ht
    refine ⟨t, List.mem_filter.mpr ⟨Table.lookup_mem ht, ?_⟩, hid, hordered.points⟩
    have hfind : w.sim.find partnerCode t.id = some c := by
      have hlookup := Table.lookup_of_mem hunique hc
      rw [Credit.key, of_decide_eq_true hcode, ← hid] at hlookup
      exact hlookup
    rw [hfind]
    rfl
  · intro t ht
    obtain ⟨ht, hsome⟩ := List.mem_filter.mp ht
    obtain ⟨c, hfind⟩ := Option.isSome_iff_exists.mp hsome
    have hc := Table.lookup_mem hfind
    have hkey : c.key = (partnerCode, t.id) := Table.lookup_key hfind
    have hcode : c.partnerCode = partnerCode := congrArg Prod.fst hkey
    have href : c.reference = t.id := congrArg Prod.snd hkey
    obtain ⟨post, hpost, hreq⟩ := hhonest.sim.made c hc
    obtain ⟨x, hx, hordered⟩ := hhonest.posts post hpost
    rw [hreq] at hx hordered
    have hrow := Table.lookup_of_mem hsound.transferIds ht
    rw [← href] at hrow
    cases hx.symm.trans hrow
    exact ⟨c, List.mem_filter.mpr ⟨hc, decide_eq_true hcode⟩, href, hordered.points.symm⟩

/-- A completed transfer has its credit at the partner of its destination, and there only. -/
theorem Honest.completed_find {db₀ : Database} (hsound : Sound db₀ w.engine.store.db)
    (hhonest : Honest db₀ w) {t : Transfer} (ht : t ∈ w.engine.store.db.transfers)
    (hst : t.status = .completed) (partnerCode : String) :
    (w.sim.find partnerCode t.id).isSome = true ↔
      w.engine.store.db.runBy partnerCode t.destinationProgramId = true := by
  obtain ⟨p, -, hp, -, c, hc, hkey, -⟩ := hhonest.completed t ht hst
  have hprogram : w.engine.store.db.program? t.destinationProgramId = some p := by
    rw [Database.program?, hsound.programs]
    exact hp
  simp only [Database.runBy, hprogram, Option.any_some, decide_eq_true_eq]
  constructor
  · intro hsome
    obtain ⟨c', hfind⟩ := Option.isSome_iff_exists.mp hsome
    have hkey' : c'.key = (partnerCode, t.id) := Table.lookup_key hfind
    obtain ⟨post, hpost, hreq⟩ := hhonest.sim.made c' (Table.lookup_mem hfind)
    obtain ⟨x, hx, hordered⟩ := hhonest.posts post hpost
    rw [hreq] at hx hordered
    have href : c'.reference = t.id := congrArg Prod.snd hkey'
    have hrow := Table.lookup_of_mem hsound.transferIds ht
    rw [← href] at hrow
    cases hx.symm.trans hrow
    obtain ⟨q, hq, hcode⟩ := hordered.partner
    cases hq.symm.trans hp
    rw [hcode]
    exact congrArg Prod.fst hkey'
  · intro hcode
    have hlookup := Table.lookup_of_mem hhonest.sim.unique hc
    rw [hkey, hcode] at hlookup
    exact Option.isSome_iff_exists.mpr ⟨c, hlookup⟩

/-- In every state that the service and its partners reach without a reset of the
simulator, the settlement account of a program has moved by what was settled out of the
program less what was settled into it; and what a partner credited in all is what the
settlement accounts of its programs gave, plus the points of the transfers it credited
and the books have not settled.  Those are held in clearing, or were reversed because the
partner rejected them or did not know them. -/
theorem settlement_meets_partner (h₀ : w₀.Initial)
    (h : Runs.run (worldStep cfg retry) w₀ as = some w) :
    (∀ p ∈ w.engine.store.db.programs, ∃ a₀ a,
      w₀.engine.store.db.systemAccount? p.id .partnerSettlement = some a₀ ∧
      w.engine.store.db.systemAccount? p.id .partnerSettlement = some a ∧
      a.balance = a₀.balance + (settledOut w.engine.store.db.transfers p.id -
        settledIn w.engine.store.db.transfers p.id)) ∧
    ∀ partnerCode,
      creditedPoints w.sim partnerCode = bookedPoints w.engine.store.db partnerCode +
        ((uncollected w.engine.store.db w.sim partnerCode).map Transfer.destinationPoints).sum ∧
      ∀ t ∈ uncollected w.engine.store.db w.sim partnerCode, t.status ∈ heldStatuses ∨
        t.status = .reversed ∧ (t.failureCode = some .partnerRejected ∨
          t.failureCode = some .partnerNotReceived) := by
  have hs := h₀.engine.seeded
  obtain ⟨⟨hsound, howned, hhonest⟩, haccounted⟩ := run_accounted h₀ h
  refine ⟨?_, ?_⟩
  · intro p hp
    rw [hsound.programs] at hp
    obtain ⟨a₀, ha₀⟩ := Option.isSome_iff_exists.mp (hs.systemAccounts p hp).2
    obtain ⟨-, -, hprogram, hty⟩ := systemAccount?_spec ha₀
    refine ⟨a₀, _, ha₀, by rw [hsound.systemAccount?_eq, ha₀]; rfl, ?_⟩
    simp only [Account.plus, effects_settlement _ hty, hprogram]
  · intro partnerCode
    have hprograms : (w.engine.store.db.programs.map Program.id).Nodup := by
      rw [hsound.programs]
      exact hs.programIds
    refine ⟨?_, ?_⟩
    · rw [creditedPoints_eq hsound hhonest, bookedPoints_eq hprograms, uncollected,
        ← sum_filter_add_filter_not fun t => decide (t.status = .completed)]
      simp only [List.filter_filter]
      congr 3
      · refine List.filter_congr ?_
        intro t ht
        rw [Bool.eq_iff_iff]
        simp only [Bool.and_eq_true, decide_eq_true_eq]
        refine and_congr_right fun hst => ?_
        exact hhonest.completed_find hsound ht hst partnerCode
      · refine List.filter_congr ?_
        intro t _
        simp
    · intro t ht
      obtain ⟨ht, hboth⟩ := List.mem_filter.mp ht
      simp only [Bool.and_eq_true, decide_eq_true_eq] at hboth
      obtain ⟨hst, hsome⟩ := hboth
      obtain ⟨c, hfind⟩ := Option.isSome_iff_exists.mp hsome
      have hkey : c.key = (partnerCode, t.id) := Table.lookup_key hfind
      have href : c.reference = t.id := congrArg Prod.snd hkey
      obtain ⟨post, hpost, hreq⟩ := hhonest.sim.made c (Table.lookup_mem hfind)
      obtain ⟨x, hx, hordered⟩ := hhonest.posts post hpost
      rw [hreq] at hx hordered
      have hrow := Table.lookup_of_mem hsound.transferIds ht
      rw [← href] at hrow
      cases hx.symm.trans hrow
      cases haccounted.backs hsound howned hhonest ht (Table.lookup_mem hfind) href
        hordered.partner with
      | held hheld =>
          simp only [verifiableStatuses, List.mem_cons, List.not_mem_nil, or_false] at hheld
          simp only [heldStatuses, List.mem_cons, List.not_mem_nil, or_false]
          exact .inl (by tauto)
      | completed hdone => exact absurd hdone hst
      | reversed hreversed hcode => exact .inr ⟨hreversed, hcode⟩

end

/-- The credit is applied, its answer lost: the books do not have it yet. -/
def lostAnswerRun : List WorldAction :=
  submittedRun.map .engine ++
    [.enterCredit 0 5 ({} : Settings).breaker, .sendCredit 0 5 5,
      .partner (.deliver 0 1 ⟨"00000001", "t1"⟩)]

theorem settlement_meets_partner_lostAnswerRun :
    ∃ w, Runs.run (worldStep sampleConfig ({} : Settings).adapter.retry) freshWorld lostAnswerRun =
        some w ∧ creditedPoints w.sim "SKYWARD" ≠ 0 ∧
      creditedPoints w.sim "SKYWARD" = bookedPoints w.engine.store.db "SKYWARD" +
        ((uncollected w.engine.store.db w.sim "SKYWARD").map Transfer.destinationPoints).sum := by
  have hany : (Runs.run (worldStep sampleConfig ({} : Settings).adapter.retry) freshWorld
      lostAnswerRun).any (fun w => decide (creditedPoints w.sim "SKYWARD" ≠ 0)) = true := by
    decide +kernel
  obtain ⟨w, hw, hcredited⟩ := (Option.any_eq_true _ _).mp hany
  obtain ⟨-, hpartners⟩ := settlement_meets_partner freshWorld_initial hw
  exact ⟨w, hw, of_decide_eq_true hcredited, (hpartners "SKYWARD").1⟩

end LoyaltyTransfer
