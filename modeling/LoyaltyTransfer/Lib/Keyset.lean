/-
# `Lib.Keyset` — reading a table page by page, from a key on

Rows carry a key of a linear order.  A page is the greatest keys below a cursor,
greatest first; one row more than asked for is fetched, to tell whether the page
is the last, and the cursor of the next page is the last key of this one.

    remaining   the rows below the cursor, greatest key first
    page        the first `limit` of them, and the next cursor

**Proved here.**  Between two pages rows may be added anywhere.  `Reading cursor
listed existing` says what the pages so far guarantee: they descend, what the
cursor still admits is below them, and what was there at the start is listed or
admitted.  One page keeps it (`Reading.next`) and the last one completes it
(`Reading.last`).  What a page leaves is what was left less its `limit` rows
(`length_remaining_next`).
-/
import Mathlib

namespace Keyset

variable {ρ κ : Type} [LinearOrder κ]

/-! ## Pages -/

/-- The keys a cursor admits: those below it, or all. -/
def Admits (cursor : Option κ) (k : κ) : Prop := ∀ c ∈ cursor, k < c

instance (cursor : Option κ) (k : κ) : Decidable (Admits cursor k) :=
  inferInstanceAs (Decidable (∀ c ∈ cursor, k < c))

@[simp] theorem admits_none (k : κ) : Admits none k := fun _ h => by cases h

@[simp] theorem admits_some {c k : κ} : Admits (some c) k ↔ k < c := by simp [Admits]

section

variable (key : ρ → κ)

/-- `WHERE key < cursor ORDER BY key DESC`. -/
def remaining (cursor : Option κ) (rows : List ρ) : List ρ :=
  (rows.filter fun r => decide (Admits cursor (key r))).insertionSort fun a b => key b ≤ key a

/-- `LIMIT limit + 1`. -/
def fetched (cursor : Option κ) (limit : Nat) (rows : List ρ) : List ρ :=
  (remaining key cursor rows).take (limit + 1)

/-- The page, and the cursor of the next one if a row was fetched beyond it. -/
def page (cursor : Option κ) (limit : Nat) (rows : List ρ) : List ρ × Option κ :=
  let rows := fetched key cursor limit rows
  (rows.take limit, if limit < rows.length then (rows.take limit).getLast?.map key else none)

end

section

variable {key : ρ → κ} {cursor : Option κ} {limit : Nat} {rows : List ρ} {c : κ}

theorem mem_remaining {r : ρ} :
    r ∈ remaining key cursor rows ↔ r ∈ rows ∧ Admits cursor (key r) := by
  rw [remaining, List.mem_insertionSort, List.mem_filter, decide_eq_true_eq]

theorem remaining_perm : (remaining key cursor rows).Perm
    (rows.filter fun r => decide (Admits cursor (key r))) :=
  List.perm_insertionSort _ _

/-- With one row to a key the keys descend strictly. -/
theorem remaining_descending (hnodup : (rows.map key).Nodup) :
    ((remaining key cursor rows).map key).Pairwise (· > ·) := by
  have hkeys : ((remaining key cursor rows).map key).Nodup := by
    rw [(remaining_perm.map key).nodup_iff]
    exact hnodup.sublist (List.filter_sublist.map key)
  have hsorted : ((remaining key cursor rows).map key).Pairwise (· ≥ ·) := by
    rw [remaining, List.map_insertionSort (r := fun a b => key b ≤ key a) (s := (· ≥ ·)) key _
      fun _ _ _ _ => Iff.rfl]
    exact List.pairwise_insertionSort _ _
  refine (hsorted.and hkeys).imp ?_
  rintro a b ⟨hle, hne⟩
  exact lt_of_le_of_ne hle hne.symm

@[simp] theorem page_fst : (page key cursor limit rows).1 =
    (remaining key cursor rows).take limit := by
  rw [page, fetched, List.take_take, Nat.min_eq_left (Nat.le_succ limit)]

theorem length_fetched :
    limit < (fetched key cursor limit rows).length ↔
      limit < (remaining key cursor rows).length := by
  rw [fetched, List.length_take]
  omega

/-- No further page: everything that was left is on this one. -/
theorem page_last (hlimit : 1 ≤ limit) (h : (page key cursor limit rows).2 = none) :
    (page key cursor limit rows).1 = remaining key cursor rows := by
  rw [page_fst]
  refine List.take_of_length_le (not_lt.mp ?_)
  intro hlt
  simp only [page, length_fetched, if_pos hlt, Option.map_eq_none_iff,
    List.getLast?_eq_none_iff] at h
  have hlength := congrArg List.length h
  simp only [fetched, List.length_take, List.length_nil] at hlength
  omega

theorem mem_page {r : ρ} (h : r ∈ (page key cursor limit rows).1) :
    r ∈ rows ∧ Admits cursor (key r) := by
  rw [page_fst] at h
  exact mem_remaining.mp (List.mem_of_mem_take h)

/-- The next cursor is the key of a row on the page. -/
theorem mem_page_of_next (h : (page key cursor limit rows).2 = some c) :
    ∃ r ∈ (page key cursor limit rows).1, key r = c := by
  have hlast : (page key cursor limit rows).1.getLast?.map key = some c := by
    rw [page] at h ⊢
    simp only at h ⊢
    split at h
    · exact h
    · cases h
  obtain ⟨r, hr, rfl⟩ := Option.map_eq_some_iff.mp hlast
  exact ⟨r, List.mem_of_getLast? hr, rfl⟩

/-- A further page: it goes on from the least key of this one, which lies above
all that this one leaves. -/
theorem page_next (hnodup : (rows.map key).Nodup)
    (h : (page key cursor limit rows).2 = some c) :
    limit < (remaining key cursor rows).length ∧
      c ∈ (page key cursor limit rows).1.map key ∧
      (∀ k ∈ (page key cursor limit rows).1.map key, c ≤ k) ∧
      ∀ k ∈ ((remaining key cursor rows).drop limit).map key, k < c := by
  have hdesc : ((remaining key cursor rows).map key).Pairwise (· > ·) :=
    remaining_descending hnodup
  have htake : (fetched key cursor limit rows).take limit =
      (remaining key cursor rows).take limit := page_fst
  simp only [page, length_fetched, htake] at h
  rw [page_fst]
  split at h
  · rename_i hlt
    obtain ⟨r, hlast, rfl⟩ := Option.map_eq_some_iff.mp h
    obtain ⟨init, hinit⟩ := List.getLast?_eq_some_iff.mp hlast
    rw [← List.take_append_drop limit (remaining key cursor rows), List.map_append,
      List.pairwise_append, hinit, List.map_append, List.pairwise_append] at hdesc
    obtain ⟨⟨-, -, habove⟩, -, hbelow⟩ := hdesc
    rw [hinit, List.map_append]
    refine ⟨hlt, List.mem_append_right _ (List.mem_singleton.mpr rfl), ?_, ?_⟩
    · intro k hk
      rcases List.mem_append.mp hk with hk | hk
      · exact le_of_lt (habove k hk _ (List.mem_singleton.mpr rfl))
      · exact le_of_eq (List.mem_singleton.mp hk).symm
    · intro k hk
      exact hbelow _ (List.mem_append_right _ (List.mem_singleton.mpr rfl)) k hk
  · cases h

/-! ## A reading under way -/

/-- What the pages so far guarantee, where `existing` are the keys that were there
when the reading began. -/
structure Reading (cursor : Option κ) (listed existing : List κ) : Prop where
  descending : listed.Pairwise (· > ·)
  below : ∀ k ∈ listed, ∀ k', Admits cursor k' → k' < k
  complete : ∀ k ∈ existing, k ∈ listed ∨ Admits cursor k

/-- What they guarantee after the last page. -/
structure Read (listed existing : List κ) : Prop where
  descending : listed.Pairwise (· > ·)
  complete : ∀ k ∈ existing, k ∈ listed

variable {listed existing : List κ}

theorem Reading.start (existing : List κ) : Reading none [] existing where
  descending := .nil
  below _ hk := by cases hk
  complete k _ := .inr (admits_none k)

/-- The listed keys and those of a page descend as one. -/
theorem Reading.page_descending (h : Reading cursor listed existing)
    (hnodup : (rows.map key).Nodup) :
    (listed ++ (page key cursor limit rows).1.map key).Pairwise (· > ·) := by
  refine List.pairwise_append.mpr ⟨h.descending, ?_, ?_⟩
  · rw [page_fst]
    exact (remaining_descending hnodup).sublist ((List.take_sublist _ _).map key)
  · intro a ha b hb
    obtain ⟨r, hr, rfl⟩ := List.mem_map.mp hb
    exact h.below a ha _ (mem_page hr).2

/-- What was there and is not listed yet is left to read. -/
theorem Reading.mem_remaining (h : Reading cursor listed existing)
    (hexisting : existing ⊆ rows.map key) {k : κ} (hk : k ∈ existing) :
    k ∈ listed ∨ k ∈ (remaining key cursor rows).map key := by
  rcases h.complete k hk with hlisted | hadmits
  · exact .inl hlisted
  · obtain ⟨r, hr, rfl⟩ := List.mem_map.mp (hexisting hk)
    exact .inr (List.mem_map_of_mem (Keyset.mem_remaining.mpr ⟨hr, hadmits⟩))

/-- One page that is not the last. -/
theorem Reading.next (h : Reading cursor listed existing) (hnodup : (rows.map key).Nodup)
    (hexisting : existing ⊆ rows.map key) (hpage : (page key cursor limit rows).2 = some c) :
    Reading (some c) (listed ++ (page key cursor limit rows).1.map key) existing := by
  obtain ⟨-, hmem, hleast, hbelow⟩ := page_next hnodup hpage
  have hadmits : Admits cursor c := by
    obtain ⟨r, hr, rfl⟩ := List.mem_map.mp hmem
    exact (mem_page hr).2
  refine ⟨h.page_descending hnodup, ?_, ?_⟩
  · intro k hk k' hk'
    rw [admits_some] at hk'
    rcases List.mem_append.mp hk with hk | hk
    · exact hk'.trans (h.below k hk c hadmits)
    · exact hk'.trans_le (hleast k hk)
  · intro k hk
    rw [List.mem_append, page_fst, admits_some]
    rcases h.mem_remaining hexisting hk with hlisted | hleft
    · exact .inl (.inl hlisted)
    · rw [← List.take_append_drop limit (remaining key cursor rows), List.map_append,
        List.mem_append] at hleft
      rcases hleft with htaken | hdropped
      · exact .inl (.inr htaken)
      · exact .inr (hbelow k hdropped)

/-- The last page. -/
theorem Reading.last (h : Reading cursor listed existing) (hnodup : (rows.map key).Nodup)
    (hexisting : existing ⊆ rows.map key) (hlimit : 1 ≤ limit)
    (hpage : (page key cursor limit rows).2 = none) :
    Read (listed ++ (page key cursor limit rows).1.map key) existing := by
  refine ⟨h.page_descending hnodup, ?_⟩
  intro k hk
  rw [List.mem_append, page_last hlimit hpage]
  exact h.mem_remaining hexisting hk

/-! ## How much is left -/

/-- A page takes its rows from what is left. -/
theorem length_remaining_next (hnodup : (rows.map key).Nodup)
    (hpage : (page key cursor limit rows).2 = some c) :
    (remaining key (some c) rows).length + limit = (remaining key cursor rows).length := by
  obtain ⟨hlt, hmem, hleast, hbelow⟩ := page_next hnodup hpage
  obtain ⟨r₀, hr₀, rfl⟩ := List.mem_map.mp hmem
  have hadmits := (mem_page hr₀).2
  rw [page_fst] at hleast
  -- below the least key of the page are the rows that it leaves, and no others
  have hrest : (remaining key cursor rows).filter (fun r => decide (key r < key r₀)) =
      (remaining key cursor rows).drop limit := by
    conv_lhs => rw [← List.take_append_drop limit (remaining key cursor rows)]
    rw [List.filter_append, List.filter_eq_nil_iff.mpr, List.nil_append, List.filter_eq_self]
    · intro r hr
      exact decide_eq_true (hbelow _ (List.mem_map_of_mem hr))
    · intro r hr
      rw [decide_eq_true_eq, not_lt]
      exact hleast _ (List.mem_map_of_mem hr)
  have hfilter : (remaining key (some (key r₀)) rows).Perm
      ((remaining key cursor rows).drop limit) := by
    rw [← hrest]
    refine remaining_perm.trans (.trans ?_ (remaining_perm.filter _).symm)
    rw [List.filter_filter]
    refine .of_eq (List.filter_congr fun r _ => ?_)
    rw [← Bool.decide_and]
    refine decide_eq_decide.mpr ?_
    rw [admits_some]
    exact ⟨fun hlt => ⟨hlt, fun c hc => hlt.trans (hadmits c hc)⟩, fun h => h.1⟩
  rw [hfilter.length_eq, List.length_drop]
  omega

end

end Keyset
