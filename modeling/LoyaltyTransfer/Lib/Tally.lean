/-
# `Lib.Tally` — adding up weights by key

`tally` runs through a list and adds each item's weight to the entry of its
key, making the entry on first sight: a Python `defaultdict(int)`.  The
specification is `total`, the sum of the weights of the items under a key;
`mem_tally` says that the entries are exactly the keys that occur, each with
its total, and `valueAt_tally` reads an entry off, zero for a key with none.
-/
import Mathlib

namespace Tally

variable {κ ι : Type} [DecidableEq κ]

/-- Add `d` to the entry of `k`. -/
def bump (k : κ) (d : Int) : List (κ × Int) → List (κ × Int)
  | [] => [(k, d)]
  | (k', n) :: rest => if k' = k then (k', n + d) :: rest else (k', n) :: bump k d rest

/-- The entries of all items, in the order their keys first occur. -/
def tally (key : ι → κ) (weight : ι → Int) (xs : List ι) : List (κ × Int) :=
  xs.foldl (fun acc x => bump (key x) (weight x) acc) []

/-- The sum of the weights under `k`. -/
def total (key : ι → κ) (weight : ι → Int) (xs : List ι) (k : κ) : Int :=
  ((xs.filter fun x => key x = k).map weight).sum

/-- What the entries hold for `k`. -/
def valueAt (entries : List (κ × Int)) (k : κ) : Int :=
  ((entries.filter fun e => e.1 = k).map Prod.snd).sum

variable {key : ι → κ} {weight : ι → Int} {k k' : κ} {d : Int} {entries : List (κ × Int)}

@[simp] theorem total_nil : total key weight [] k = 0 := rfl

theorem total_cons (x : ι) (xs : List ι) :
    total key weight (x :: xs) k = (if key x = k then weight x else 0) + total key weight xs k := by
  by_cases h : key x = k <;> simp [total, h]

theorem total_append (xs ys : List ι) :
    total key weight (xs ++ ys) k = total key weight xs k + total key weight ys k := by
  simp [total]

/-- The total of mapped items. -/
theorem total_map {ι' : Type} (f : ι' → ι) (xs : List ι') :
    total key weight (xs.map f) k =
      total (fun x => key (f x)) (fun x => weight (f x)) xs k := by
  simp only [total, List.filter_map, List.map_map]
  rfl

theorem total_flatMap {ι' : Type} (f : ι' → List ι) (xs : List ι') :
    total key weight (xs.flatMap f) k = (xs.map fun x => total key weight (f x) k).sum := by
  induction xs with
  | nil => rfl
  | cons x xs ih => rw [List.flatMap_cons, total_append, ih, List.map_cons, List.sum_cons]

theorem total_of_not_mem {xs : List ι} (h : ∀ x ∈ xs, key x ≠ k) : total key weight xs k = 0 := by
  have hnil : xs.filter (fun x => decide (key x = k)) = [] := by
    rw [List.filter_eq_nil_iff]
    intro x hx
    simpa using h x hx
  rw [total, hnil]
  rfl

@[simp] theorem valueAt_nil : valueAt ([] : List (κ × Int)) k = 0 := rfl

theorem valueAt_cons (e : κ × Int) :
    valueAt (e :: entries) k = (if e.1 = k then e.2 else 0) + valueAt entries k := by
  by_cases h : e.1 = k <;> simp [valueAt, h]

theorem valueAt_perm {entries' : List (κ × Int)} (h : entries.Perm entries') :
    valueAt entries k = valueAt entries' k :=
  ((h.filter _).map _).sum_eq

theorem valueAt_of_not_mem (h : ∀ e ∈ entries, e.1 ≠ k) : valueAt entries k = 0 := by
  have : entries.filter (fun e => decide (e.1 = k)) = [] := by
    rw [List.filter_eq_nil_iff]
    intro e he
    simpa using h e he
  rw [valueAt, this]
  rfl

theorem valueAt_of_mem (hn : (entries.map Prod.fst).Nodup) (h : (k, d) ∈ entries) :
    valueAt entries k = d := by
  induction entries with
  | nil => cases h
  | cons e rest ih =>
      simp only [List.map_cons, List.nodup_cons] at hn
      rw [valueAt_cons]
      rcases List.mem_cons.mp h with rfl | h
      · have : valueAt rest k = 0 := by
          refine valueAt_of_not_mem fun e he hk => hn.1 ?_
          exact List.mem_map.mpr ⟨e, he, hk⟩
        simp [this]
      · have hne : e.1 ≠ k := by
          rintro rfl
          exact hn.1 (List.mem_map.mpr ⟨_, h, rfl⟩)
        rw [if_neg hne, ih hn.2 h]
        ring

/-! ## One item -/

theorem valueAt_bump :
    valueAt (bump k' d entries) k = valueAt entries k + if k' = k then d else 0 := by
  induction entries with
  | nil => simp [bump, valueAt_cons]
  | cons e rest ih =>
      obtain ⟨k₁, n⟩ := e
      by_cases h : k₁ = k'
      · subst h
        by_cases hk : k₁ = k
        · simp only [bump, if_true, valueAt_cons, if_pos hk]
          ring
        · simp [bump, valueAt_cons, hk]
      · simp only [bump, if_neg h, valueAt_cons, ih]
        ring

theorem mem_keys_bump :
    k ∈ (bump k' d entries).map Prod.fst ↔ k = k' ∨ k ∈ entries.map Prod.fst := by
  induction entries with
  | nil => simp [bump]
  | cons e rest ih =>
      obtain ⟨k₁, n⟩ := e
      by_cases h : k₁ = k'
      · subst h
        simp [bump]
      · simp only [bump, if_neg h, List.map_cons, List.mem_cons, ih]
        tauto

theorem nodup_keys_bump (hn : (entries.map Prod.fst).Nodup) :
    ((bump k' d entries).map Prod.fst).Nodup := by
  induction entries with
  | nil => simp [bump]
  | cons e rest ih =>
      obtain ⟨k₁, n⟩ := e
      simp only [List.map_cons, List.nodup_cons] at hn
      by_cases h : k₁ = k'
      · subst h
        simpa [bump] using hn
      · simp only [bump, if_neg h, List.map_cons, List.nodup_cons, mem_keys_bump]
        exact ⟨fun hk => hk.elim h hn.1, ih hn.2⟩

/-! ## The whole list -/

theorem foldl_bump (key : ι → κ) (weight : ι → Int) (xs : List ι) (acc : List (κ × Int))
    (hn : (acc.map Prod.fst).Nodup) :
    let out := xs.foldl (fun acc x => bump (key x) (weight x) acc) acc
    (out.map Prod.fst).Nodup ∧
      (∀ k, k ∈ out.map Prod.fst ↔ k ∈ acc.map Prod.fst ∨ ∃ x ∈ xs, key x = k) ∧
      ∀ k, valueAt out k = valueAt acc k + total key weight xs k := by
  induction xs generalizing acc with
  | nil => simp [hn, total]
  | cons x xs ih =>
      obtain ⟨h₁, h₂, h₃⟩ := ih (bump (key x) (weight x) acc) (nodup_keys_bump hn)
      refine ⟨h₁, fun k => ?_, fun k => ?_⟩
      · simp only [List.foldl_cons] at h₂ ⊢
        rw [h₂ k, mem_keys_bump]
        simp only [List.mem_cons, exists_eq_or_imp]
        constructor
        · rintro ((rfl | h) | h)
          · exact Or.inr (Or.inl rfl)
          · exact Or.inl h
          · exact Or.inr (Or.inr h)
        · rintro (h | rfl | h)
          · exact Or.inl (Or.inr h)
          · exact Or.inl (Or.inl rfl)
          · exact Or.inr h
      · simp only [List.foldl_cons] at h₃ ⊢
        rw [h₃ k, valueAt_bump]
        by_cases hk : key x = k
        · simp only [total, List.filter_cons, hk, decide_true, if_true, List.map_cons,
            List.sum_cons]
          ring
        · simp [total, hk]

variable {xs : List ι}

theorem nodup_keys_tally : ((tally key weight xs).map Prod.fst).Nodup :=
  (foldl_bump key weight xs [] (by simp)).1

theorem valueAt_tally : valueAt (tally key weight xs) k = total key weight xs k := by
  have := (foldl_bump key weight xs [] (by simp)).2.2 k
  simpa [tally] using this

theorem mem_keys_tally : k ∈ (tally key weight xs).map Prod.fst ↔ ∃ x ∈ xs, key x = k := by
  have := (foldl_bump key weight xs [] (by simp)).2.1 k
  simpa [tally] using this

/-- The entries are the keys that occur, each with its total. -/
theorem mem_tally :
    (k, d) ∈ tally key weight xs ↔ (∃ x ∈ xs, key x = k) ∧ d = total key weight xs k := by
  constructor
  · intro h
    refine ⟨mem_keys_tally.mp (List.mem_map.mpr ⟨_, h, rfl⟩), ?_⟩
    rw [← valueAt_tally, valueAt_of_mem nodup_keys_tally h]
  · rintro ⟨hx, rfl⟩
    have hk : k ∈ (tally key weight xs).map Prod.fst := mem_keys_tally.mpr hx
    obtain ⟨e, he, rfl⟩ := List.mem_map.mp hk
    rw [← valueAt_tally, valueAt_of_mem nodup_keys_tally he]
    exact he

end Tally
