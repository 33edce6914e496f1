/-
# `Lib.Table` — keyed rows in a list

A table is a list of rows and a key that no two rows share.  `lookup` finds
the row of a key, `replace` overwrites it.  The rules are the ones an
accounting proof needs: a replacement changes a sum by the new row minus the
old one, keeps the keys, and leaves every other row alone.  Where the keys are
numbers, `nextId` is one that no row has yet.
-/
import Mathlib

namespace Table

variable {ρ κ : Type} [DecidableEq κ] (key : ρ → κ)

/-- The row under `k`. -/
def lookup (k : κ) (rows : List ρ) : Option ρ := rows.find? fun r => decide (key r = k)

/-- The table with `r` in the place of the row that has its key. -/
def replace (r : ρ) (rows : List ρ) : List ρ := rows.map fun x => if key x = key r then r else x

variable {key} {k : κ} {r r' x : ρ} {rows : List ρ}

/-! ## Looking up -/

theorem lookup_mem (h : lookup key k rows = some r) : r ∈ rows := List.mem_of_find?_eq_some h

theorem lookup_key (h : lookup key k rows = some r) : key r = k := by
  simpa using List.find?_some h

theorem lookup_none (h : lookup key k rows = none) (hx : x ∈ rows) : key x ≠ k := by
  simpa using List.find?_eq_none.mp h x hx

omit [DecidableEq κ] in
theorem eq_of_key_eq (hn : (rows.map key).Nodup) (hr : r ∈ rows) (hx : x ∈ rows)
    (h : key r = key x) : r = x := List.inj_on_of_nodup_map hn hr hx h

theorem lookup_of_mem (hn : (rows.map key).Nodup) (hr : r ∈ rows) :
    lookup key (key r) rows = some r := by
  cases h : lookup key (key r) rows with
  | none => exact absurd rfl (lookup_none h hr)
  | some x => rw [eq_of_key_eq hn (lookup_mem h) hr (lookup_key h)]

theorem lookup_append_of_some (rows' : List ρ) (h : lookup key k rows = some r) :
    lookup key k (rows ++ rows') = some r := by
  simp only [lookup] at h
  simp [lookup, List.find?_append, h]

/-- The rows under the key of a row are that row. -/
theorem filter_key (hn : (rows.map key).Nodup) (hr : r ∈ rows) :
    rows.filter (fun x => decide (key x = key r)) = [r] := by
  induction rows with
  | nil => cases hr
  | cons y ys ih =>
      simp only [List.map_cons, List.nodup_cons] at hn
      rcases List.mem_cons.mp hr with rfl | hr
      · have hrest : ys.filter (fun x => decide (key x = key r)) = [] := by
          refine List.filter_eq_nil_iff.mpr ?_
          intro x hx hxr
          refine hn.1 ?_
          rw [← of_decide_eq_true hxr]
          exact List.mem_map_of_mem hx
        rw [List.filter_cons_of_pos (by simp), hrest]
      · have hy : key y ≠ key r := fun h => hn.1 (by
          rw [h]
          exact List.mem_map_of_mem hr)
        rw [List.filter_cons_of_neg (by simpa using hy)]
        exact ih hn.2 hr

/-! ## Replacing -/

@[simp] theorem map_key_replace : (replace key r rows).map key = rows.map key := by
  simp only [replace, List.map_map]
  refine List.map_congr_left fun x _ => ?_
  by_cases h : key x = key r <;> simp [h]

theorem mem_replace :
    x ∈ replace key r rows ↔ (x = r ∧ ∃ y ∈ rows, key y = key r) ∨ (x ∈ rows ∧ key x ≠ key r) := by
  simp only [replace, List.mem_map]
  constructor
  · rintro ⟨y, hy, rfl⟩
    by_cases h : key y = key r
    · exact Or.inl ⟨by simp [h], y, hy, h⟩
    · exact Or.inr ⟨by simpa [h] using hy, by simp [h]⟩
  · rintro (⟨rfl, y, hy, h⟩ | ⟨hx, h⟩)
    · exact ⟨y, hy, by simp [h]⟩
    · exact ⟨x, hx, by simp [h]⟩

theorem lookup_replace_self (h : lookup key (key r) rows = some r') :
    lookup key (key r) (replace key r rows) = some r := by
  induction rows with
  | nil => cases h
  | cons y ys ih =>
      by_cases hy : key y = key r
      · simp [lookup, replace, hy]
      · have h' : lookup key (key r) ys = some r' := by simpa [lookup, hy] using h
        have := ih h'
        simpa [lookup, replace, hy] using this

theorem lookup_replace_other (hk : k ≠ key r) :
    lookup key k (replace key r rows) = lookup key k rows := by
  induction rows with
  | nil => rfl
  | cons y ys ih =>
      simp only [lookup, replace] at ih ⊢
      by_cases hy : key y = key r
      · have hyk : key y ≠ k := fun h => hk (h.symm.trans hy)
        simp only [List.map_cons, if_pos hy, List.find?_cons, decide_eq_false hyk,
          decide_eq_false (Ne.symm hk)]
        exact ih
      · simp only [List.map_cons, if_neg hy, List.find?_cons, ih]

theorem replace_of_not_mem (h : ∀ y ∈ rows, key y ≠ key r) : replace key r rows = rows := by
  simp only [replace]
  conv_rhs => rw [← List.map_id rows]
  exact List.map_congr_left fun y hy => by simp [h y hy]

/-- A replacement changes a sum over the table by the new row minus the old. -/
theorem sum_replace (f : ρ → Int) (hn : (rows.map key).Nodup) (hr : r ∈ rows)
    (hk : key r' = key r) :
    ((replace key r' rows).map f).sum = (rows.map f).sum - f r + f r' := by
  induction rows with
  | nil => cases hr
  | cons y ys ih =>
      simp only [List.map_cons, List.nodup_cons] at hn
      rcases List.mem_cons.mp hr with rfl | hr
      · have hrest : replace key r' ys = ys := by
          refine replace_of_not_mem fun z hz hzk => hn.1 ?_
          rw [← hk, ← hzk]
          exact List.mem_map_of_mem hz
        simp only [replace, List.map_cons, if_pos hk.symm] at hrest ⊢
        rw [hrest]
        simp only [List.sum_cons]
        ring
      · have hy : key y ≠ key r' := fun h => hn.1 (by
          rw [h, hk]
          exact List.mem_map_of_mem hr)
        have := ih hn.2 hr
        simp only [replace, List.map_cons, if_neg hy, List.sum_cons] at this ⊢
        rw [this]
        ring

end Table

namespace Table

variable {ρ : Type} (key : ρ → Nat)

/-! ## Numbering -/

/-- One more than the largest key of the table. -/
def nextId (rows : List ρ) : Nat := (rows.map key).foldr max 0 + 1

variable {key} {r x : ρ} {rows rows' : List ρ}

theorem key_lt_nextId (h : x ∈ rows) : key x < nextId key rows := by
  induction rows with
  | nil => cases h
  | cons y ys ih =>
      simp only [nextId, List.map_cons, List.foldr_cons]
      rcases List.mem_cons.mp h with rfl | h
      · exact Nat.lt_succ_of_le (le_max_left _ _)
      · exact (ih h).trans_le (Nat.succ_le_succ (le_max_right _ _))

/-- The next number is free. -/
theorem key_ne_nextId (h : x ∈ rows) : key x ≠ nextId key rows := (key_lt_nextId h).ne

/-- So a row that takes it keeps the keys unique. -/
theorem nodup_append_nextId (hn : (rows.map key).Nodup) (hr : key r = nextId key rows) :
    ((rows ++ [r]).map key).Nodup := by
  rw [List.map_append, List.nodup_append]
  refine ⟨hn, List.nodup_singleton _, ?_⟩
  intro k hk k' hk'
  obtain ⟨y, hy, rfl⟩ := List.mem_map.mp hk
  rw [List.map_singleton, List.mem_singleton, hr] at hk'
  rw [hk']
  exact key_ne_nextId hy

/-- The numbering depends on the keys only. -/
theorem nextId_congr (h : rows'.map key = rows.map key) : nextId key rows' = nextId key rows := by
  rw [nextId, nextId, h]

end Table
