/-
# `Lib.Transaction` — computations that commit whole or leave no trace

A transaction reads and writes a store and may raise.  `Tx σ ε` is the
standard state-and-exception monad; a transaction that raises yields no store
at all, which is exactly rollback.  What this module adds are the inversion
rules a proof about a transaction needs:

    x then f commits  ⟺  x commits and f commits from where x stopped       (`Tx.bind_ok`)
    x then f raises   ⟺  x raises, or x commits and f raises from there     (`Tx.bind_error`)

a rule or a pair of rules for each primitive, a rule for faults that a transaction
cannot raise from a given store (`Avoids.bind`), and `commit`, which keeps the
store of a transaction that commits and the store it began with of one that
raises.
-/
import Mathlib

namespace Transaction

/-- A transaction over a store `σ` that may raise a fault `ε`. -/
abbrev Tx (σ ε : Type) := StateT σ (Except ε)

namespace Tx

variable {σ ε α β : Type}

/-- Raise when `p` holds, go on otherwise. -/
def failIf (p : Prop) [Decidable p] (e : ε) : Tx σ ε Unit :=
  fun s => if p then .error e else .ok ((), s)

/-- A computation that does not touch the store. -/
def ofExcept (x : Except ε α) : Tx σ ε α := fun s =>
  match x with
  | .ok a => .ok (a, s)
  | .error e => .error e

/-- The value of a lookup, or a fault when there is none. -/
def ofOption (o : Option α) (e : ε) : Tx σ ε α := fun s =>
  match o with
  | some a => .ok (a, s)
  | none => .error e

/-- What the store looks like after the transaction: its result, and the store
it leaves if it commits or the store it began with if it raises. -/
def commit (tx : Tx σ ε α) (s : σ) : Except ε α × σ :=
  match tx.run s with
  | .ok (a, s') => (.ok a, s')
  | .error e => (.error e, s)

variable {s : σ} {e : ε}

/-! ## Inversion -/

theorem bind_ok {x : Tx σ ε α} {f : α → Tx σ ε β} {r : β × σ} :
    (x >>= f).run s = .ok r ↔ ∃ a s₁, x.run s = .ok (a, s₁) ∧ (f a).run s₁ = .ok r := by
  rw [StateT.run_bind]
  cases h : x.run s with
  | error e => simp [Bind.bind, Except.bind]
  | ok p =>
      obtain ⟨a, s₁⟩ := p
      simp [Bind.bind, Except.bind]

theorem bind_error {x : Tx σ ε α} {f : α → Tx σ ε β} :
    (x >>= f).run s = .error e ↔
      x.run s = .error e ∨ ∃ a s₁, x.run s = .ok (a, s₁) ∧ (f a).run s₁ = .error e := by
  rw [StateT.run_bind]
  cases h : x.run s with
  | error e => simp [Bind.bind, Except.bind]
  | ok p =>
      obtain ⟨a, s₁⟩ := p
      simp [Bind.bind, Except.bind]

theorem pure_ok {a : α} {r : α × σ} : (pure a : Tx σ ε α).run s = .ok r ↔ (a, s) = r := by
  rw [StateT.run_pure]; simp [pure, Except.pure]

theorem get_ok {r : σ × σ} : (get : Tx σ ε σ).run s = .ok r ↔ (s, s) = r := by
  simp [StateT.run_get, pure, Except.pure]

theorem set_ok {s' : σ} {r : PUnit × σ} :
    (set s' : Tx σ ε PUnit).run s = .ok r ↔ (⟨⟩, s') = r := by
  simp [StateT.run_set, pure, Except.pure]

theorem failIf_ok {p : Prop} [Decidable p] {e' : ε} {r : Unit × σ} :
    (failIf p e').run s = .ok r ↔ ¬ p ∧ ((), s) = r := by
  by_cases h : p <;> simp [failIf, StateT.run, h]

theorem failIf_error {p : Prop} [Decidable p] {e' : ε} :
    (failIf p e').run s = .error e ↔ p ∧ e' = e := by
  by_cases h : p <;> simp [failIf, StateT.run, h]

theorem ofExcept_ok {x : Except ε α} {r : α × σ} :
    (ofExcept x).run s = .ok r ↔ ∃ a, x = .ok a ∧ (a, s) = r := by
  cases x <;> simp [ofExcept, StateT.run]

theorem ofExcept_error {x : Except ε α} :
    (ofExcept x : Tx σ ε α).run s = .error e ↔ x = .error e := by
  cases x <;> simp [ofExcept, StateT.run]

theorem ofOption_ok {o : Option α} {e' : ε} {r : α × σ} :
    (ofOption o e').run s = .ok r ↔ ∃ a, o = some a ∧ (a, s) = r := by
  cases o <;> simp [ofOption, StateT.run]

theorem ofOption_error {o : Option α} {e' : ε} :
    (ofOption o e' : Tx σ ε α).run s = .error e ↔ o = none ∧ e' = e := by
  cases o <;> simp [ofOption, StateT.run]

/-! ## Faults that cannot be raised -/

/-- From `s`, the transaction raises no fault that is `bad`. -/
def Avoids (bad : ε → Prop) (s : σ) (tx : Tx σ ε α) : Prop := ∀ e, tx.run s = .error e → ¬ bad e

variable {bad : ε → Prop}

/-- What follows a step is only run from where the step stopped. -/
theorem Avoids.bind {x : Tx σ ε α} {f : α → Tx σ ε β} (hx : Avoids bad s x)
    (hf : ∀ a s₁, x.run s = .ok (a, s₁) → Avoids bad s₁ (f a)) : Avoids bad s (x >>= f) := by
  intro e he
  rcases bind_error.mp he with he | ⟨a, s₁, ha, he⟩
  · exact hx e he
  · exact hf a s₁ ha e he

theorem Avoids.of_ok {x : Tx σ ε α} {r : α × σ} (h : x.run s = .ok r) : Avoids bad s x := by
  intro e he
  rw [h] at he
  cases he

theorem avoids_pure (a : α) : Avoids bad s (pure a : Tx σ ε α) :=
  .of_ok (pure_ok.mpr rfl)

theorem avoids_get : Avoids bad s (get : Tx σ ε σ) := .of_ok (get_ok.mpr rfl)

theorem avoids_set (s' : σ) : Avoids bad s (set s' : Tx σ ε PUnit) := .of_ok (set_ok.mpr rfl)

theorem avoids_failIf {p : Prop} [Decidable p] {e : ε} (h : p → ¬ bad e) :
    Avoids bad s (failIf p e) := by
  intro e' he
  obtain ⟨hp, rfl⟩ := failIf_error.mp he
  exact h hp

theorem avoids_ofExcept {x : Except ε α} (h : ∀ e, x = .error e → ¬ bad e) :
    Avoids bad s (ofExcept x : Tx σ ε α) := fun e he => h e (ofExcept_error.mp he)

theorem avoids_ofOption {o : Option α} {e : ε} (h : ¬ bad e) :
    Avoids bad s (ofOption o e : Tx σ ε α) := by
  intro e' he
  obtain ⟨-, rfl⟩ := ofOption_error.mp he
  exact h

/-! ## What a commit leaves -/

theorem commit_ok {tx : Tx σ ε α} {a : α} {s' : σ} (h : tx.run s = .ok (a, s')) :
    tx.commit s = (.ok a, s') := by
  simp only [commit, h]

theorem commit_error {tx : Tx σ ε α} (h : tx.run s = .error e) :
    tx.commit s = (.error e, s) := by
  simp only [commit, h]

/-- A transaction either commits, and then it ran to its end, or leaves the
store as it was. -/
theorem commit_cases (tx : Tx σ ε α) (s : σ) :
    (∃ a s', tx.run s = .ok (a, s') ∧ tx.commit s = (.ok a, s')) ∨
      ∃ e, tx.run s = .error e ∧ tx.commit s = (.error e, s) := by
  cases h : tx.run s with
  | ok p => exact Or.inl ⟨p.1, p.2, rfl, commit_ok h⟩
  | error e => exact Or.inr ⟨e, rfl, commit_error h⟩

end Tx

end Transaction
