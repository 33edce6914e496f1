/-
# `Lib.History` — what a store held, and until when

A store whose contents are replaced as a whole, together with the contents it had
before and the instant each of them was replaced.  A copy taken from such a store is
judged by how long ago its contents were replaced:

    `HeldSince t d`    `d` was still what the store held at `t` or later
    `HeldFrom n d`     `d` is what the store held after its first `n` replacements

Both are kept when the store is replaced, the first when that is not before `t`.
-/
import Mathlib

structure History (δ τ : Type) where
  current : δ
  replaced : List (δ × τ)

namespace History

variable {δ τ : Type}

def replace (h : History δ τ) (d : δ) (now : τ) : History δ τ where
  current := d
  replaced := h.replaced ++ [(h.current, now)]

def HeldSince [LE τ] (h : History δ τ) (t : τ) (d : δ) : Prop :=
  d = h.current ∨ ∃ u : τ, (d, u) ∈ h.replaced ∧ t ≤ u

def HeldFrom (h : History δ τ) (n : Nat) (d : δ) : Prop :=
  d = h.current ∨ d ∈ (h.replaced.drop n).map Prod.fst

variable {h : History δ τ} {d d' : δ} {n : Nat}

section

variable [Preorder τ] {t t' now : τ}

theorem heldSince_current : h.HeldSince t h.current := .inl rfl

theorem HeldSince.earlier (hd : h.HeldSince t d) (hle : t' ≤ t) : h.HeldSince t' d := by
  rcases hd with hd | ⟨u, hu, ht⟩
  · exact .inl hd
  · exact .inr ⟨u, hu, hle.trans ht⟩

theorem HeldSince.replace (hd : h.HeldSince t d) (hle : t ≤ now) :
    (h.replace d' now).HeldSince t d := by
  rcases hd with rfl | ⟨u, hu, ht⟩
  · exact .inr ⟨now, List.mem_append_right _ (List.mem_singleton_self _), hle⟩
  · exact .inr ⟨u, List.mem_append_left _ hu, ht⟩

end

theorem heldFrom_current : h.HeldFrom n h.current := .inl rfl

theorem HeldFrom.replace {now : τ} (hd : h.HeldFrom n d) (hn : n ≤ h.replaced.length) :
    (h.replace d' now).HeldFrom n d := by
  have hdrop : (h.replace d' now).replaced.drop n = h.replaced.drop n ++ [(h.current, now)] :=
    List.drop_append_of_le_length hn
  refine .inr ?_
  rw [hdrop, List.map_append]
  rcases hd with rfl | hd
  · exact List.mem_append_right _ (List.mem_singleton_self _)
  · exact List.mem_append_left _ hd

end History
