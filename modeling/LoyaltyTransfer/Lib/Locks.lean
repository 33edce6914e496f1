/-
# `LoyaltyTransfer.Lib.Locks` — row locks in order

Sessions that lock rows and keep them until they finish.  A session asks for one
row after another and waits while another session holds the row, except for a
claim, which takes what nobody holds and passes over the rest (`SKIP LOCKED`).
Rows it already holds it may ask for again.

    Ordered       a row it does not hold ranks above every row it holds, and
                  after a claim it asks for nothing new
    WaitsFor      the wait-for graph

**Proved here.**  When every session's requests are `Ordered`, the wait-for graph
has no cycle in any state of any run (`run_no_wait_cycle`).
-/
import LoyaltyTransfer.Lib.Runs
import Mathlib.Logic.Relation
import Mathlib.Order.Basic
import Mathlib.Data.List.Basic

namespace Locks

variable {ρ κ π : Type}

inductive Request (ρ : Type) where
  | lock (row : ρ)
  | claim (rows : List ρ) (limit : Nat)
  deriving DecidableEq

structure Session (ρ : Type) where
  held : List ρ
  next : List (Request ρ)
  deriving DecidableEq

inductive Action (π : Type) where
  | start (p : π)
  | advance (i : Nat)
  | finish (i : Nat)

section

variable [DecidableEq ρ]

def heldByOther (sessions : List (Session ρ)) (i : Nat) (row : ρ) : Bool :=
  (List.range sessions.length).any fun j =>
    decide (j ≠ i) && (sessions[j]?).any fun t => decide (row ∈ t.held)

/-- The next request, when it is granted; a row that was claimed is updated later. -/
def Session.advance (sessions : List (Session ρ)) (i : Nat) (t : Session ρ) :
    Option (Session ρ) :=
  match t.next with
  | [] => none
  | .lock row :: rest =>
      if heldByOther sessions i row then none else some ⟨t.held.insert row, rest⟩
  | .claim (row :: rows) (limit + 1) :: rest =>
      if heldByOther sessions i row then some ⟨t.held, .claim rows (limit + 1) :: rest⟩
      else some ⟨t.held.insert row, .claim rows limit :: (rest ++ [.lock row])⟩
  | .claim _ _ :: rest => some ⟨t.held, rest⟩

/-- A session starts, gets its next row, or commits or rolls back, at any moment. -/
def step (plan : π → List (Request ρ)) (sessions : List (Session ρ)) :
    Action π → Option (List (Session ρ))
  | .start p => some (sessions ++ [⟨[], plan p⟩])
  | .advance i =>
      match sessions[i]? with
      | some t => (t.advance sessions i).map fun t' => sessions.set i t'
      | none => none
  | .finish i => if i < sessions.length then some (sessions.set i ⟨[], []⟩) else none

/-- Session `i` asks for a row that session `j` holds. -/
def WaitsFor (sessions : List (Session ρ)) (i j : Nat) : Prop :=
  ∃ t row rest u, sessions[i]? = some t ∧ t.next = .lock row :: rest ∧ i ≠ j ∧
    sessions[j]? = some u ∧ row ∈ u.held

variable [Preorder κ] (rank : ρ → κ)

/-- The requests of a session that holds `held`. -/
def Ordered : List ρ → List (Request ρ) → Prop
  | _, [] => True
  | held, .lock row :: rest =>
      (row ∈ held ∨ ∀ x ∈ held, rank x < rank row) ∧ Ordered (held.insert row) rest
  | held, .claim _ _ :: rest => ∀ q ∈ rest, ∃ row ∈ held, q = .lock row

/-- No row is held twice, and every session goes on in order. -/
structure Safe (sessions : List (Session ρ)) : Prop where
  exclusive : ∀ (i j : Nat) (t u : Session ρ) (row : ρ), sessions[i]? = some t →
    sessions[j]? = some u → row ∈ t.held → row ∈ u.held → i = j
  ordered : ∀ (i : Nat) (t : Session ρ), sessions[i]? = some t → Ordered rank t.held t.next

variable {rank} {sessions sessions' : List (Session ρ)} {i j : Nat} {t t' : Session ρ}

/-! ## One step -/

omit [Preorder κ] in
theorem heldByOther_eq_false {row : ρ} (h : heldByOther sessions i row = false) {u : Session ρ}
    (hj : sessions[j]? = some u) (hrow : row ∈ u.held) : j = i := by
  by_contra hne
  have hlt : j < sessions.length := (List.getElem?_eq_some_iff.mp hj).1
  have hany := List.any_eq_false.mp h j (List.mem_range.mpr hlt)
  simp [hne, hj, hrow] at hany

/-- A row a session asks for again is in order. -/
theorem ordered_of_held {held : List ρ} {requests : List (Request ρ)}
    (h : ∀ q ∈ requests, ∃ row ∈ held, q = .lock row) : Ordered rank held requests := by
  induction requests with
  | nil => trivial
  | cons q requests ih =>
      obtain ⟨row, hrow, rfl⟩ := h q (List.mem_cons_self ..)
      refine ⟨.inl hrow, ?_⟩
      rw [List.insert_of_mem hrow]
      exact ih fun q hq => h q (List.mem_cons_of_mem _ hq)

/-- Rows of rising rank, and then only rows held by then. -/
theorem ordered_chain {held rows : List ρ} {tail : List (Request ρ)}
    (hchain : rows.Pairwise fun x y => rank x < rank y)
    (habove : ∀ x ∈ held, ∀ row ∈ rows, rank x < rank row)
    (htail : ∀ q ∈ tail, ∃ row, (row ∈ held ∨ row ∈ rows) ∧ q = .lock row) :
    Ordered rank held (rows.map .lock ++ tail) := by
  induction rows generalizing held with
  | nil =>
      refine ordered_of_held fun q hq => ?_
      obtain ⟨row, hrow, rfl⟩ := htail q hq
      exact ⟨row, hrow.resolve_right List.not_mem_nil, rfl⟩
  | cons row rows ih =>
      obtain ⟨hfirst, hrest⟩ := List.pairwise_cons.mp hchain
      refine ⟨.inr fun x hx => habove x hx row (List.mem_cons_self ..), ih hrest ?_ ?_⟩
      · intro x hx y hy
        rcases List.mem_insert_iff.mp hx with rfl | hx
        · exact hfirst y hy
        · exact habove x hx y (List.mem_cons_of_mem _ hy)
      · intro q hq
        obtain ⟨y, hy, rfl⟩ := htail q hq
        refine ⟨y, ?_, rfl⟩
        rcases hy with hy | hy
        · exact .inl (List.mem_insert_of_mem hy)
        · rcases List.mem_cons.mp hy with rfl | hy
          · exact .inl List.mem_insert_self
          · exact .inr hy

theorem advance_ordered (h : Ordered rank t.held t.next) (ht : t.advance sessions i = some t') :
    Ordered rank t'.held t'.next := by
  obtain ⟨held, next⟩ := t
  simp only [Session.advance] at ht
  split at ht
  · cases ht
  · split at ht
    · cases ht
    · cases ht
      exact h.2
  · rename_i row _ _ rest
    split at ht
    · cases ht
      exact h
    · cases ht
      intro q hq
      rcases List.mem_append.mp hq with hq | hq
      · obtain ⟨row', hrow', rfl⟩ := h q hq
        exact ⟨row', List.mem_insert_of_mem hrow', rfl⟩
      · exact ⟨row, List.mem_insert_self, List.mem_singleton.mp hq⟩
  · cases ht
    exact ordered_of_held h

omit [Preorder κ] in
/-- What a session gets, nobody else holds. -/
theorem advance_held (ht : t.advance sessions i = some t') {row : ρ} (hrow : row ∈ t'.held) :
    row ∈ t.held ∨ heldByOther sessions i row = false := by
  obtain ⟨held, next⟩ := t
  simp only [Session.advance] at ht
  split at ht
  · cases ht
  · split at ht
    · cases ht
    · rename_i hfree
      cases ht
      rcases List.mem_insert_iff.mp hrow with rfl | hrow
      · exact .inr (by simpa using hfree)
      · exact .inl hrow
  · split at ht
    · cases ht
      exact .inl hrow
    · rename_i hfree
      cases ht
      rcases List.mem_insert_iff.mp hrow with rfl | hrow
      · exact .inr (by simpa using hfree)
      · exact .inl hrow
  · cases ht
    exact .inl hrow

theorem Safe.start (h : Safe rank sessions) {requests : List (Request ρ)}
    (hplan : Ordered rank [] requests) : Safe rank (sessions ++ [⟨[], requests⟩]) := by
  have hnew : ∀ (i : Nat) (t : Session ρ), (sessions ++ [⟨[], requests⟩])[i]? = some t →
      sessions[i]? = some t ∨ t = ⟨[], requests⟩ := by
    intro i t hi
    rw [List.getElem?_append] at hi
    split at hi
    · exact .inl hi
    · exact .inr (List.mem_singleton.mp (List.mem_of_getElem? hi))
  constructor
  · intro i j t u row hi hj ht hu
    rcases hnew i t hi with hi | rfl
    · rcases hnew j u hj with hj | rfl
      · exact h.exclusive i j t u row hi hj ht hu
      · cases hu
    · cases ht
  · intro i t hi
    rcases hnew i t hi with hi | rfl
    · exact h.ordered i t hi
    · exact hplan

/-- One session moves on, with rows of its own or that nobody else holds. -/
theorem Safe.set (h : Safe rank sessions) (hi : sessions[i]? = some t)
    (hheld : ∀ row ∈ t'.held, row ∈ t.held ∨ heldByOther sessions i row = false)
    (hordered : Ordered rank t'.held t'.next) : Safe rank (sessions.set i t') := by
  have hother : ∀ j u row, sessions[j]? = some u → row ∈ t'.held → row ∈ u.held → j = i := by
    intro j u row hj hrow hu
    rcases hheld row hrow with hrow | hfree
    · exact h.exclusive j i u t row hj hi hu hrow
    · exact heldByOther_eq_false hfree hj hu
  constructor
  · intro j k u v row hj hk hu hv
    rcases Runs.getElem?_set_cases hj with ⟨hji, hut⟩ | ⟨hji, hj'⟩
    · rcases Runs.getElem?_set_cases hk with ⟨hki, -⟩ | ⟨hki, hk'⟩
      · rw [hji, hki]
      · rw [hut] at hu
        exact absurd (hother k v row hk' hu hv) hki
    · rcases Runs.getElem?_set_cases hk with ⟨hki, hvt⟩ | ⟨hki, hk'⟩
      · rw [hvt] at hv
        exact absurd (hother j u row hj' hv hu) hji
      · exact h.exclusive j k u v row hj' hk' hu hv
  · intro j u hj
    rcases Runs.getElem?_set_cases hj with ⟨-, rfl⟩ | ⟨-, hj⟩
    · exact hordered
    · exact h.ordered j u hj

theorem Safe.step {plan : π → List (Request ρ)} (hplan : ∀ p, Ordered rank [] (plan p))
    (h : Safe rank sessions) {a : Action π} (hstep : Locks.step plan sessions a = some sessions') :
    Safe rank sessions' := by
  cases a with
  | start p =>
      simp only [Locks.step, Option.some.injEq] at hstep
      subst hstep
      exact h.start (hplan p)
  | advance i =>
      simp only [Locks.step] at hstep
      cases hi : sessions[i]? with
      | none => rw [hi] at hstep; cases hstep
      | some t =>
          rw [hi, Option.map_eq_some_iff] at hstep
          obtain ⟨t', ht, rfl⟩ := hstep
          exact h.set hi (fun row hrow => advance_held ht hrow)
            (advance_ordered (h.ordered i t hi) ht)
  | finish i =>
      simp only [Locks.step] at hstep
      split at hstep
      · rename_i hlt
        cases hstep
        exact h.set (List.getElem?_eq_getElem hlt) (fun _ hrow => by cases hrow) trivial
      · cases hstep

/-! ## No cycle -/

/-- The session is waiting. -/
def Blocked (sessions : List (Session ρ)) (i : Nat) (row : ρ) : Prop :=
  (∃ t rest, sessions[i]? = some t ∧ t.next = .lock row :: rest) ∧ ∃ j, WaitsFor sessions i j

/-- Whoever waits for a session that waits itself, waits for a row of lower rank. -/
theorem Safe.rank_lt (h : Safe rank sessions) {x y : ρ} (hx : Blocked sessions i x)
    (hij : WaitsFor sessions i j) (hy : Blocked sessions j y) : rank x < rank y := by
  obtain ⟨⟨t, rest, hi, hnext⟩, -⟩ := hx
  obtain ⟨t', row, rest', u, hi', hnext', hne, hj, hrow⟩ := hij
  rw [hi] at hi'
  cases hi'
  rw [hnext] at hnext'
  cases hnext'
  obtain ⟨⟨u', urest, hj', hunext⟩, k, u'', yrow, yrest, v, hj'', hunext', hjk, hk, hyrow⟩ := hy
  rw [hj] at hj' hj''
  cases hj'; cases hj''
  rw [hunext] at hunext'
  cases hunext'
  have hordered := h.ordered j u hj
  rw [hunext] at hordered
  rcases hordered.1 with hown | habove
  · exact absurd (h.exclusive j k u v _ hj hk hown hyrow) hjk
  · exact habove x hrow

omit [DecidableEq ρ] [Preorder κ] in
theorem WaitsFor.blocked (h : WaitsFor sessions i j) : ∃ row, Blocked sessions i row := by
  obtain ⟨t, row, rest, u, hi, hnext, hne, hj, hrow⟩ := h
  exact ⟨row, ⟨t, rest, hi, hnext⟩, j, t, row, rest, u, hi, hnext, hne, hj, hrow⟩

theorem Safe.path_rank_lt (h : Safe rank sessions) {x y : ρ} (hx : Blocked sessions i x)
    (hpath : Relation.TransGen (WaitsFor sessions) i j) (hy : Blocked sessions j y) :
    rank x < rank y := by
  induction hpath generalizing y with
  | single hedge => exact h.rank_lt hx hedge hy
  | tail _ hedge ih =>
      obtain ⟨z, hz⟩ := hedge.blocked
      exact (ih hz).trans (h.rank_lt hz hedge hy)

theorem Safe.no_wait_cycle (h : Safe rank sessions) (i : Nat) :
    ¬ Relation.TransGen (WaitsFor sessions) i i := by
  intro hcycle
  obtain ⟨j, hedge, -⟩ := Relation.TransGen.head'_iff.mp hcycle
  obtain ⟨row, hrow⟩ := hedge.blocked
  exact lt_irrefl _ (h.path_rank_lt hrow hcycle hrow)

theorem run_no_wait_cycle {plan : π → List (Request ρ)} (hplan : ∀ p, Ordered rank [] (plan p))
    {as : List (Action π)} (h : Runs.run (Locks.step plan) [] as = some sessions) (i : Nat) :
    ¬ Relation.TransGen (WaitsFor sessions) i i := by
  have hempty : Safe rank ([] : List (Session ρ)) := ⟨by simp, by simp⟩
  have hsafe : Safe rank sessions :=
    Runs.run_invariant (fun _ _ _ hI hstep => hI.step hplan hstep) hempty h
  exact hsafe.no_wait_cycle i

end

end Locks
