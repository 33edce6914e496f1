/-
# `Lib.OrderBy` — rows sorted by several columns

`ORDER BY a, b, c` compares by the first column and, among rows that tie there, by the
next one.  An order here is any total and transitive relation on the rows, so that rows
may tie; the columns are combined by `ThenBy`.  Text is ordered by the collation of the
database, whatever it is.

Where rows that stay are known in some sorted order, sorting all of them and keeping
those is that order again (`filter_insertionSort`).
-/
import Mathlib.Data.List.Sort
import Mathlib.Data.String.Basic

namespace OrderBy

variable {ρ : Type}

/-- By `r`, and among the rows that tie by `s`. -/
def ThenBy (r s : ρ → ρ → Prop) (x y : ρ) : Prop := r x y ∧ (r y x → s x y)

variable {r s : ρ → ρ → Prop}

instance [DecidableRel r] [DecidableRel s] : DecidableRel (ThenBy r s) :=
  fun x y => inferInstanceAs (Decidable (r x y ∧ (r y x → s x y)))

instance [Std.Total r] [Std.Total s] : Std.Total (ThenBy r s) where
  total := by
    intro x y
    by_cases hxy : r x y
    · by_cases hyx : r y x
      · rcases Std.Total.total (r := s) x y with h | h
        · exact .inl ⟨hxy, fun _ => h⟩
        · exact .inr ⟨hyx, fun _ => h⟩
      · exact .inl ⟨hxy, fun h => absurd h hyx⟩
    · have hyx := (Std.Total.total (r := r) x y).resolve_left hxy
      exact .inr ⟨hyx, fun h => absurd h hxy⟩

instance [IsTrans ρ r] [IsTrans ρ s] : IsTrans ρ (ThenBy r s) where
  trans := by
    rintro x y z ⟨hxy, hsxy⟩ ⟨hyz, hsyz⟩
    refine ⟨IsTrans.trans x y z hxy hyz, ?_⟩
    -- a tie of the outer two is a tie of all three
    intro hzx
    have hyx := IsTrans.trans y z x hyz hzx
    have hzy := IsTrans.trans z x y hzx hxy
    exact IsTrans.trans x y z (hsxy hyx) (hsyz hzy)

/-- Rows that tie by `r` are in the order of `s`. -/
theorem ThenBy.of_tie {x y : ρ} (hxy : r x y) (hs : s x y) : ThenBy r s x y := ⟨hxy, fun _ => hs⟩

/-- How a database orders text. -/
structure Collation where
  le : String → String → Bool
  total : ∀ a b, le a b = true ∨ le b a = true
  trans : ∀ a b c, le a b = true → le b c = true → le a c = true

/-- The collation `"C"`. -/
def Collation.bytewise : Collation where
  le := fun a b => decide (a ≤ b)
  total := by
    intro a b
    simpa only [decide_eq_true_eq] using le_total a b
  trans := by
    intro a b c hab hbc
    simp only [decide_eq_true_eq] at hab hbc ⊢
    exact le_trans hab hbc

/-- By a column of text. -/
def Collation.By (collation : Collation) (text : ρ → String) (x y : ρ) : Prop :=
  collation.le (text x) (text y) = true

section

variable (collation : Collation) (text : ρ → String)

instance : DecidableRel (collation.By text) :=
  fun x y => inferInstanceAs (Decidable (collation.le (text x) (text y) = true))

instance : Std.Total (collation.By text) := ⟨fun x y => collation.total (text x) (text y)⟩

instance : IsTrans ρ (collation.By text) :=
  ⟨fun x y z hxy hyz => collation.trans (text x) (text y) (text z) hxy hyz⟩

end

variable [DecidableRel r] [Std.Total r] [IsTrans ρ r]

theorem filter_insertionSort {rows kept : List ρ} {p : ρ → Bool}
    (hperm : kept.Perm (rows.filter p)) (hsorted : kept.Pairwise r)
    (hapart : ∀ x ∈ kept, ∀ y ∈ kept, r x y → r y x → x = y) :
    (rows.insertionSort r).filter p = kept := by
  have hsame : ((rows.insertionSort r).filter p).Perm kept :=
    ((List.perm_insertionSort r rows).filter p).trans hperm.symm
  refine hsame.eq_of_pairwise ?_ ((List.pairwise_insertionSort r rows).sublist List.filter_sublist)
    hsorted
  intro x y hx hy hxy hyx
  exact hapart x (hsame.subset hx) y hy hxy hyx

end OrderBy
