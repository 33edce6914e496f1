/-
# `Lib.Moves` — loops of a transaction that report what they did

A script inserts what is missing and adds up what it inserted.  `Moves R tx`: wherever
`tx` commits, the store moved along `R n`, where `n` is what `tx` reports.  Over a
relation graded by the reports a loop moves as its rounds do, and the report of the
loop is the sum of theirs.

    a loop                                        `moves_sumEach`
    what each round leaves outlives the rounds
    after it, when `R` keeps it                   `leaves_sumEach`
    a loop whose rounds find nothing to do        `sumEach_idle`
-/
import LoyaltyTransfer.Lib.Transaction

namespace Transaction.Tx

variable {σ ε ε' α μ : Type}

/-- The same transaction, its faults told in the words of the caller. -/
def mapFault (g : ε → ε') (tx : Tx σ ε α) : Tx σ ε' α := fun s => (tx.run s).mapError g

/-- Run `f` on each item and add up what it reports. -/
def sumEach [AddMonoid μ] (f : α → Tx σ ε μ) : List α → Tx σ ε μ
  | [] => pure 0
  | x :: xs => do
      let n ← f x
      let m ← sumEach f xs
      pure (n + m)

theorem mapFault_ok {g : ε → ε'} {tx : Tx σ ε α} {s : σ} {r : α × σ} :
    (mapFault g tx).run s = .ok r ↔ tx.run s = .ok r := by
  show (tx.run s).mapError g = .ok r ↔ _
  cases tx.run s with
  | ok r' => simp [Except.mapError]
  | error e => simp [Except.mapError]

/-- Reporting nothing is staying, and reports of steps in a row add up. -/
class Graded [AddMonoid μ] (R : μ → σ → σ → Prop) : Prop where
  stay : ∀ s, R 0 s s
  step : ∀ {n m s s' s''}, R n s s' → R m s' s'' → R (n + m) s s''

def Moves (R : μ → σ → σ → Prop) (tx : Tx σ ε μ) : Prop :=
  ∀ s n s', tx.run s = .ok (n, s') → R n s s'

/-- From a store with `P`, a commit leaves one with `Q`. -/
def Leaves (P : σ → Prop) (tx : Tx σ ε α) (Q : σ → Prop) : Prop :=
  ∀ s a s', P s → tx.run s = .ok (a, s') → Q s'

section

variable [AddMonoid μ] {R : μ → σ → σ → Prop} [Graded R] {f : α → Tx σ ε μ} {xs : List α}

theorem moves_zero : Moves R (pure 0 : Tx σ ε μ) := by
  intro s n s' hrun
  cases pure_ok.mp hrun
  exact Graded.stay s

theorem moves_add {x y : Tx σ ε μ} (hx : Moves R x) (hy : Moves R y) :
    Moves R (do let n ← x; let m ← y; pure (n + m)) := by
  intro s n s' hrun
  obtain ⟨n₁, s₁, hfirst, hrest⟩ := bind_ok.mp hrun
  obtain ⟨n₂, s₂, hsecond, hlast⟩ := bind_ok.mp hrest
  cases pure_ok.mp hlast
  exact Graded.step (hx s n₁ s₁ hfirst) (hy s₁ n₂ s' hsecond)

theorem moves_sumEach (h : ∀ x ∈ xs, Moves R (f x)) : Moves R (sumEach f xs) := by
  induction xs with
  | nil => exact moves_zero
  | cons x xs ih =>
      refine moves_add (h x (List.mem_cons_self ..)) (ih ?_)
      intro y hy
      exact h y (List.mem_cons_of_mem _ hy)

/-- Every round leaves its own mark, and the rounds after it keep it. -/
theorem leaves_sumEach {P : σ → Prop} {M : α → σ → Prop} (h : ∀ x ∈ xs, Moves R (f x))
    (hmark : ∀ x ∈ xs, Leaves P (f x) (M x)) (hpre : ∀ n s s', R n s s' → P s → P s')
    (hkeep : ∀ x n s s', R n s s' → M x s → M x s') :
    Leaves P (sumEach f xs) fun s => ∀ x ∈ xs, M x s := by
  induction xs with
  | nil =>
      intro s n s' _ _ x hx
      cases hx
  | cons x xs ih =>
      intro s n s' hP hrun
      obtain ⟨n₁, s₁, hfirst, hrest⟩ := bind_ok.mp hrun
      obtain ⟨n₂, s₂, hothers, hlast⟩ := bind_ok.mp hrest
      cases pure_ok.mp hlast
      have hrounds : ∀ y ∈ xs, Moves R (f y) := fun y hy => h y (List.mem_cons_of_mem _ hy)
      have hP₁ := hpre n₁ s s₁ (h x (List.mem_cons_self ..) s n₁ s₁ hfirst) hP
      have hdone := ih hrounds (fun y hy => hmark y (List.mem_cons_of_mem _ hy)) s₁ n₂ s' hP₁
        hothers
      intro y hy
      rcases List.mem_cons.mp hy with rfl | hy
      · have hmoved := moves_sumEach hrounds s₁ n₂ s' hothers
        exact hkeep y n₂ s₁ s' hmoved (hmark y (List.mem_cons_self ..) s n₁ s₁ hP hfirst)
      · exact hdone y hy

theorem sumEach_idle {s : σ} (h : ∀ x ∈ xs, (f x).run s = .ok (0, s)) :
    (sumEach f xs).run s = .ok (0, s) := by
  induction xs with
  | nil => rfl
  | cons x xs ih =>
      refine bind_ok.mpr ⟨0, s, h x (List.mem_cons_self ..), ?_⟩
      refine bind_ok.mpr ⟨0, s, ih fun y hy => h y (List.mem_cons_of_mem _ hy), ?_⟩
      rw [add_zero]
      rfl

end

end Transaction.Tx
