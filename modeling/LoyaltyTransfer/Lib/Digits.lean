/-
# `Lib.Digits` — numbers written with a fixed number of digits

A value below `b ^ n` written with exactly `n` digits of base `b`, the most
significant first.  Such texts sort like their numbers: the first digit in which
two of them differ decides both.

    digits by repeated division, last digit first     `low`
    the same, read from the front                     `fixed`, `reverse_low`
    the order of texts is the order of numbers        `fixed_lt_iff`

The digits may be written with any symbols that have the digits' order.
-/
import Mathlib

namespace Digits

variable (b : Nat)

/-- The last `n` digits, the last one first. -/
def low : Nat → Nat → List Nat
  | 0, _ => []
  | n + 1, v => v % b :: low n (v / b)

/-- The last `n` digits, in the order they are read. -/
def fixed : Nat → Nat → List Nat
  | 0, _ => []
  | n + 1, v => v / b ^ n % b :: fixed n v

variable {b} {n v w : Nat}

@[simp] theorem length_fixed (n v : Nat) : (fixed b n v).length = n := by
  induction n with
  | zero => rfl
  | succ n ih => rw [fixed, List.length_cons, ih]

theorem fixed_concat (n v : Nat) : fixed b (n + 1) v = fixed b n (v / b) ++ [v % b] := by
  induction n with
  | zero => simp [fixed]
  | succ n ih =>
      have hhead : v / b ^ (n + 1) = v / b / b ^ n := by
        rw [Nat.pow_succ', Nat.div_div_eq_div_mul]
      calc fixed b (n + 1 + 1) v = v / b ^ (n + 1) % b :: fixed b (n + 1) v := rfl
        _ = v / b / b ^ n % b :: (fixed b n (v / b) ++ [v % b]) := by rw [hhead, ih]
        _ = fixed b (n + 1) (v / b) ++ [v % b] := rfl

theorem reverse_low (n v : Nat) : (low b n v).reverse = fixed b n v := by
  induction n generalizing v with
  | zero => rfl
  | succ n ih => rw [low, List.reverse_cons, ih, fixed_concat]

theorem lt_of_mem_fixed (hb : 0 < b) {d : Nat} (h : d ∈ fixed b n v) : d < b := by
  induction n with
  | zero => cases h
  | succ n ih =>
      rcases List.mem_cons.mp h with rfl | h
      · exact Nat.mod_lt _ hb
      · exact ih h

/-- Digits beyond the first `n` are not read. -/
theorem fixed_mod {m : Nat} (h : n ≤ m) : fixed b n (v % b ^ m) = fixed b n v := by
  induction n with
  | zero => rfl
  | succ n ih =>
      have hhead : v % b ^ m / b ^ n % b = v / b ^ n % b := by
        obtain ⟨k, rfl⟩ := Nat.exists_eq_add_of_le h
        rw [show n + 1 + k = n + (1 + k) by omega, Nat.pow_add, Nat.mod_mul_right_div_self,
          Nat.pow_add, Nat.pow_one, Nat.mod_mul_right_mod]
      rw [fixed, fixed, hhead, ih (by omega)]

/-- The first part decides, and on a tie the rest. -/
theorem lt_iff_div_mod {m : Nat} (hm : 0 < m) (v w : Nat) :
    v < w ↔ v / m < w / m ∨ v / m = w / m ∧ v % m < w % m := by
  have hv := Nat.div_add_mod v m
  have hw := Nat.div_add_mod w m
  have hvm := Nat.mod_lt v hm
  have hwm := Nat.mod_lt w hm
  constructor
  · intro h
    rcases Nat.lt_or_ge (v / m) (w / m) with hlt | hge
    · exact .inl hlt
    · have heq : v / m = w / m := Nat.le_antisymm (Nat.div_le_div_right h.le) hge
      refine .inr ⟨heq, ?_⟩
      rw [heq] at hv
      omega
  · rintro (h | ⟨heq, h⟩)
    · have hstep : m * (v / m + 1) ≤ m * (w / m) := Nat.mul_le_mul_left m h
      rw [Nat.mul_succ] at hstep
      omega
    · rw [heq] at hv
      omega

section

variable {α : Type} [LinearOrder α] {symbol : Nat → α}

/-- Texts sort like their numbers. -/
theorem fixed_lt_iff (hb : 0 < b)
    (hsymbol : ∀ i j, i < b → j < b → (symbol i < symbol j ↔ i < j)) (hv : v < b ^ n)
    (hw : w < b ^ n) :
    (fixed b n v).map symbol < (fixed b n w).map symbol ↔ v < w := by
  induction n generalizing v w with
  | zero =>
      have hv₀ : v = 0 := by simpa using hv
      have hw₀ : w = 0 := by simpa using hw
      simp [fixed, hv₀, hw₀]
  | succ n ih =>
      have hpos : 0 < b ^ n := Nat.pow_pos hb
      have hfirst : ∀ x, x < b ^ (n + 1) → x / b ^ n < b := by
        intro x hx
        rw [Nat.div_lt_iff_lt_mul hpos, ← Nat.pow_succ']
        exact hx
      have hsame : symbol (v / b ^ n) = symbol (w / b ^ n) ↔ v / b ^ n = w / b ^ n := by
        refine ⟨fun heq => ?_, fun heq => by rw [heq]⟩
        have hno := (hsymbol _ _ (hfirst v hv) (hfirst w hw)).not.mp (by
          rw [heq]
          exact lt_irrefl _)
        have hno' := (hsymbol _ _ (hfirst w hw) (hfirst v hv)).not.mp (by
          rw [heq]
          exact lt_irrefl _)
        omega
      have hrest := ih (Nat.mod_lt v hpos) (Nat.mod_lt w hpos)
      rw [fixed_mod (le_refl n), fixed_mod (le_refl n)] at hrest
      rw [fixed, fixed, List.map_cons, List.map_cons, Nat.mod_eq_of_lt (hfirst v hv),
        Nat.mod_eq_of_lt (hfirst w hw), List.cons_lt_cons_iff,
        hsymbol _ _ (hfirst v hv) (hfirst w hw), hsame, hrest, lt_iff_div_mod hpos v w]

end

end Digits
