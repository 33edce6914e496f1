/-
# `Lib.Runs` — runs of a system whose steps may be refused

A system is a partial step function: `step s a = none` when action `a` is not
enabled in `s`.  A run is a list of actions taken one after another.  Every
source of nondeterminism (which process moves, what a clock reads, what a peer
answers) is part of the action, so a statement about every run is a statement
about every interleaving and every answer.

    invariant rule            `run_invariant`
    the same under a condition each step of the run meets     `run_invariant_of`
    two conditions that agree on the states of an invariant   `allSteps_congr`
    an invariant that counts steps                            `run_count`
    splitting a run in two    `run_append`
    one process of many moves                                 `getElem?_set_cases`
-/
import Mathlib

namespace Runs

variable {σ α : Type} (step : σ → α → Option σ)

/-- Take the actions one after another. -/
def run : σ → List α → Option σ
  | s, [] => some s
  | s, a :: as => (step s a).bind fun s' => run s' as

/-- Every step of the run from `s` meets `C`, a condition on the state before
the step and the action taken. -/
def AllSteps (C : σ → α → Prop) : σ → List α → Prop
  | _, [] => True
  | s, a :: as => C s a ∧ ∀ s', step s a = some s' → AllSteps C s' as

/-- How many steps of the run from `s` meet `p`. -/
def count (p : σ → α → Bool) : σ → List α → Nat
  | _, [] => 0
  | s, a :: as => (p s a).toNat + (step s a).elim 0 fun s' => count p s' as

variable {step} {s s' s'' : σ} {a : α} {as bs : List α}

@[simp] theorem run_nil : run step s [] = some s := rfl

theorem run_cons_eq_some :
    run step s (a :: as) = some s'' ↔ ∃ s', step s a = some s' ∧ run step s' as = some s'' := by
  simp [run, Option.bind_eq_some_iff]

theorem run_append :
    run step s (as ++ bs) = some s'' ↔
      ∃ s', run step s as = some s' ∧ run step s' bs = some s'' := by
  induction as generalizing s with
  | nil => simp
  | cons a as ih =>
      simp only [List.cons_append, run_cons_eq_some, ih]
      constructor
      · rintro ⟨s₁, h₁, s₂, h₂, h₃⟩; exact ⟨s₂, ⟨s₁, h₁, h₂⟩, h₃⟩
      · rintro ⟨s₂, ⟨s₁, h₁, h₂⟩, h₃⟩; exact ⟨s₁, h₁, s₂, h₂, h₃⟩

/-! ## Invariants -/

/-- What every step that meets `C` keeps, a run whose steps all meet `C` keeps. -/
theorem run_invariant_of {C : σ → α → Prop} {I : σ → Prop}
    (hstep : ∀ s a s', I s → C s a → step s a = some s' → I s') (hI : I s)
    (hC : AllSteps step C s as) (h : run step s as = some s') : I s' := by
  induction as generalizing s with
  | nil => simp only [run_nil, Option.some.injEq] at h; exact h ▸ hI
  | cons a as ih =>
      obtain ⟨s₁, h₁, h₂⟩ := run_cons_eq_some.mp h
      exact ih (hstep s a s₁ hI hC.1 h₁) (hC.2 s₁ h₁) h₂

theorem allSteps_true : AllSteps step (fun _ _ => True) s as := by
  induction as generalizing s with
  | nil => trivial
  | cons a as ih => exact ⟨trivial, fun _ _ => ih⟩

/-- What every step keeps, every run keeps. -/
theorem run_invariant {I : σ → Prop} (hstep : ∀ s a s', I s → step s a = some s' → I s')
    (hI : I s) (h : run step s as = some s') : I s' :=
  run_invariant_of (fun s a s' hs _ ha => hstep s a s' hs ha) hI allSteps_true h

/-- What every step keeps with the number of steps so far that meet `p`, every run
keeps with their number. -/
theorem run_count {p : σ → α → Bool} {I : Nat → σ → Prop}
    (hstep : ∀ n s a s', I n s → step s a = some s' → I (n + (p s a).toNat) s') {n : Nat}
    (hI : I n s) (h : run step s as = some s') : I (n + count step p s as) s' := by
  induction as generalizing s n with
  | nil => simp only [run_nil, Option.some.injEq] at h; exact h ▸ hI
  | cons a as ih =>
      obtain ⟨s₁, h₁, h₂⟩ := run_cons_eq_some.mp h
      have hrest := ih (hstep n s a s₁ hI h₁) h₂
      rw [count, h₁, ← Nat.add_assoc]
      exact hrest

/-- A run meets `C` when its two parts do. -/
theorem allSteps_append {C : σ → α → Prop} :
    AllSteps step C s (as ++ bs) ↔
      AllSteps step C s as ∧ ∀ s', run step s as = some s' → AllSteps step C s' bs := by
  induction as generalizing s with
  | nil => simp [AllSteps]
  | cons b as ih =>
      simp only [List.cons_append, AllSteps, ih, run_cons_eq_some]
      constructor
      · rintro ⟨hb, hrest⟩
        refine ⟨⟨hb, fun s₁ h₁ => (hrest s₁ h₁).1⟩, ?_⟩
        rintro s' ⟨s₁, h₁, h₂⟩
        exact (hrest s₁ h₁).2 s' h₂
      · rintro ⟨⟨hb, hrest⟩, hlast⟩
        exact ⟨hb, fun s₁ h₁ => ⟨hrest s₁ h₁, fun s' h₂ => hlast s' ⟨s₁, h₁, h₂⟩⟩⟩

/-- Two conditions that agree on the steps from the states of an invariant agree
on runs. -/
theorem allSteps_congr {C D : σ → α → Prop} {I : σ → Prop}
    (hstep : ∀ s a s', I s → C s a → step s a = some s' → I s')
    (hCD : ∀ s a s', I s → step s a = some s' → (C s a ↔ D s a)) (hI : I s)
    (h : run step s as = some s') : AllSteps step C s as ↔ AllSteps step D s as := by
  induction as generalizing s with
  | nil => exact Iff.rfl
  | cons a as ih =>
      obtain ⟨s₁, h₁, h₂⟩ := run_cons_eq_some.mp h
      have hiff := hCD s a s₁ hI h₁
      constructor
      · rintro ⟨hC, hrest⟩
        refine ⟨hiff.mp hC, fun s₂ h₃ => ?_⟩
        cases h₁.symm.trans h₃
        exact (ih (hstep s a s₁ hI hC h₁) h₂).mp (hrest s₁ h₁)
      · rintro ⟨hD, hrest⟩
        have hC := hiff.mpr hD
        refine ⟨hC, fun s₂ h₃ => ?_⟩
        cases h₁.symm.trans h₃
        exact (ih (hstep s a s₁ hI hC h₁) h₂).mpr (hrest s₁ h₁)

theorem allSteps_mono {C D : σ → α → Prop} (hCD : ∀ s a, C s a → D s a)
    (h : AllSteps step C s as) : AllSteps step D s as := by
  induction as generalizing s with
  | nil => trivial
  | cons a as ih => exact ⟨hCD s a h.1, fun s' hs' => ih (h.2 s' hs')⟩

/-- A condition that holds of an action in every state holds along a run of
such actions. -/
theorem allSteps_of_forall {C : σ → α → Prop} (h : ∀ a ∈ as, ∀ s, C s a) :
    AllSteps step C s as := by
  induction as generalizing s with
  | nil => trivial
  | cons a as ih =>
      exact ⟨h a (by simp) s, fun s' _ => ih fun b hb => h b (List.mem_cons_of_mem _ hb)⟩

/-- Whether every step of a run meets a condition can be computed. -/
instance decidableAllSteps {C : σ → α → Prop} [∀ s a, Decidable (C s a)] :
    ∀ s as, Decidable (AllSteps step C s as)
  | _, [] => isTrue trivial
  | s, a :: as =>
      match h : step s a with
      | none => decidable_of_iff (C s a) ⟨fun hC => ⟨hC, fun _ h' => by cases h.symm.trans h'⟩,
          And.left⟩
      | some s₁ =>
          have := decidableAllSteps (C := C) s₁ as
          decidable_of_iff (C s a ∧ AllSteps step C s₁ as)
            ⟨fun hC => ⟨hC.1, fun _ h' => by cases h.symm.trans h'; exact hC.2⟩,
              fun hC => ⟨hC.1, hC.2 s₁ h⟩⟩

/-! ## One process of many -/

theorem getElem?_set_cases {processes : List σ} {i j : Nat} {x p : σ}
    (h : (processes.set i x)[j]? = some p) :
    (j = i ∧ p = x) ∨ (j ≠ i ∧ processes[j]? = some p) := by
  by_cases hji : j = i
  · subst hji
    rw [List.getElem?_set] at h
    split at h
    · split at h
      · exact .inl ⟨rfl, (Option.some.inj h).symm⟩
      · cases h
    · contradiction
  · rw [List.getElem?_set_ne (Ne.symm hji)] at h
    exact .inr ⟨hji, h⟩

end Runs
