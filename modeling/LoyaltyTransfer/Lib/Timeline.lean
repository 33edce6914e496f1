/-
# `Lib.Timeline` — versions in force one after another

A history is a list of versions, each in force from its start until its end, or
for good when it has none.  It tiles the time from its first start on when each
version ends where the next one starts and only the last one is open:

    [v₁)[v₂)[v₃) … [vₙ →

Replacing the open version at an instant, by closing it there and starting the
next one there, keeps this and changes nothing before that instant.
-/
import Mathlib

namespace Timeline

variable {ρ τ : Type} [LinearOrder τ] (start : ρ → τ) (stop : ρ → Option τ)

/-- The version is in force at the instant. -/
def Covers (r : ρ) (x : τ) : Prop := start r ≤ x ∧ ∀ e, stop r = some e → x < e

/-- Each version ends where the next one starts, and the last one is open. -/
def Tiles : List ρ → Prop
  | [] => True
  | [r] => stop r = none
  | r :: r' :: rs => stop r = some (start r') ∧ start r < start r' ∧ Tiles (r' :: rs)

variable {start stop} {r r' : ρ} {rs : List ρ} {x : τ}

theorem Tiles.tail (h : Tiles start stop (r :: rs)) : Tiles start stop rs := by
  cases rs with
  | nil => trivial
  | cons r' rs => exact h.2.2

/-- Neighbours meet, and start one after the other. -/
theorem Tiles.isChain (h : Tiles start stop rs) :
    rs.IsChain fun older newer => stop older = some (start newer) ∧ start older < start newer := by
  induction rs with
  | nil => exact .nil
  | cons r rs ih =>
      cases rs with
      | nil => exact .singleton r
      | cons r' rs => exact .cons_cons ⟨h.1, h.2.1⟩ (ih h.tail)

/-- Later versions start later. -/
theorem Tiles.start_lt (h : Tiles start stop (r :: rs)) : ∀ y ∈ rs, start r < start y := by
  induction rs generalizing r with
  | nil =>
      intro y hy
      cases hy
  | cons r' rs ih =>
      intro y hy
      obtain ⟨-, hlt, hrest⟩ := h
      rcases List.mem_cons.mp hy with rfl | hy
      · exact hlt
      · exact hlt.trans (ih hrest y hy)

/-- What a version covers ends before any later one starts. -/
theorem Tiles.covers_lt (h : Tiles start stop (r :: rs)) (hx : Covers start stop r x) :
    ∀ y ∈ rs, x < start y := by
  cases rs with
  | nil =>
      intro y hy
      cases hy
  | cons r' rs =>
      obtain ⟨hstop, -, hrest⟩ := h
      have hlt : x < start r' := hx.2 _ hstop
      intro y hy
      rcases List.mem_cons.mp hy with rfl | hy
      · exact hlt
      · exact hlt.trans (hrest.start_lt y hy)

/-- From the first start on, some version is in force. -/
theorem Tiles.exists_covers (h : Tiles start stop (r :: rs)) (hx : start r ≤ x) :
    ∃ y ∈ r :: rs, Covers start stop y x := by
  induction rs generalizing r with
  | nil =>
      have hopen : stop r = none := h
      refine ⟨r, List.mem_singleton_self r, hx, ?_⟩
      intro e he
      rw [hopen] at he
      cases he
  | cons r' rs ih =>
      obtain ⟨hstop, -, hrest⟩ := h
      rcases lt_or_ge x (start r') with hlt | hge
      · refine ⟨r, List.mem_cons_self .., hx, ?_⟩
        intro e he
        rw [hstop] at he
        cases he
        exact hlt
      · obtain ⟨y, hy, hcov⟩ := ih hrest hge
        exact ⟨y, List.mem_cons_of_mem _ hy, hcov⟩

/-- At most one version is in force. -/
theorem Tiles.covers_unique (h : Tiles start stop rs) {y z : ρ} (hy : y ∈ rs) (hz : z ∈ rs)
    (hyx : Covers start stop y x) (hzx : Covers start stop z x) : y = z := by
  induction rs with
  | nil => cases hy
  | cons r rs ih =>
      rcases List.mem_cons.mp hy with hyr | hy'
      · rcases List.mem_cons.mp hz with hzr | hz'
        · rw [hyr, hzr]
        · rw [hyr] at hyx
          exact absurd hzx.1 (not_le.mpr (h.covers_lt hyx z hz'))
      · rcases List.mem_cons.mp hz with hzr | hz'
        · rw [hzr] at hzx
          exact absurd hyx.1 (not_le.mpr (h.covers_lt hzx y hy'))
        · exact ih h.tail hy' hz'

/-- Exactly the last version is open. -/
theorem Tiles.open_iff (h : Tiles start stop rs) {y : ρ} (hy : y ∈ rs) :
    stop y = none ↔ rs.getLast? = some y := by
  induction rs with
  | nil => cases hy
  | cons r rs ih =>
      cases rs with
      | nil =>
          obtain rfl := List.mem_singleton.mp hy
          have hopen : stop y = none := h
          simp [hopen]
      | cons r' rs =>
          rw [List.getLast?_cons_cons]
          rcases List.mem_cons.mp hy with rfl | hy
          · refine iff_of_false ?_ ?_
            · rw [h.1]
              intro hopen
              cases hopen
            · intro hlast
              exact absurd rfl (h.start_lt y (List.mem_of_getLast? hlast)).ne
          · exact ih h.tail hy

/-- The open version stands at the end. -/
theorem Tiles.last_open (h : Tiles start stop (rs ++ [r])) : stop r = none :=
  (h.open_iff (List.mem_append_right _ (List.mem_singleton_self r))).mpr (by simp)

/-- Every version before the last one is closed. -/
theorem Tiles.closed_before (h : Tiles start stop (rs ++ [r])) : ∀ y ∈ rs, stop y ≠ none := by
  induction rs with
  | nil =>
      intro y hy
      cases hy
  | cons y ys ih =>
      intro z hz
      rcases List.mem_cons.mp hz with rfl | hz
      · cases ys with
        | nil =>
            rw [h.1]
            intro hopen
            cases hopen
        | cons y' ys =>
            rw [h.1]
            intro hopen
            cases hopen
      · exact ih h.tail z hz

/-- The open version may be closed at a later instant and followed by a version
that starts there. -/
theorem Tiles.extend {closed : ρ} (h : Tiles start stop (rs ++ [r])) (hlt : start r < start r')
    (hstart : start closed = start r) (hstop : stop closed = some (start r'))
    (hopen : stop r' = none) : Tiles start stop (rs ++ [closed, r']) := by
  induction rs with
  | nil => exact ⟨hstop, by rw [hstart]; exact hlt, hopen⟩
  | cons y ys ih =>
      cases ys with
      | nil =>
          obtain ⟨hy, hylt, hlast⟩ := h
          refine ⟨by rw [hstart]; exact hy, by rw [hstart]; exact hylt, ih hlast⟩
      | cons z zs =>
          obtain ⟨hy, hylt, hrest⟩ := h
          exact ⟨hy, hylt, ih hrest⟩

/-- Before the instant of the replacement nothing changes: the closed version
covers what the open one covered. -/
theorem covers_closed {closed : ρ} (hopen : stop r = none) (hstart : start closed = start r)
    {e : τ} (hstop : stop closed = some e) (hx : x < e) :
    Covers start stop closed x ↔ Covers start stop r x := by
  simp [Covers, hstart, hstop, hopen, hx]

end Timeline
