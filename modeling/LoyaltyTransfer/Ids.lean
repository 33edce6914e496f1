/-
# `LoyaltyTransfer.Ids` — transfer ids sort by the time they were made

`app/domain/ids.py`: `tr_` and a ULID, 26 characters of Crockford's base 32 for a
48-bit timestamp in milliseconds followed by 80 random bits.  The loop takes five
bits at a time off the end, so the characters come out last one first and are
reversed.

**Proved here.**  Every timestamp that fits gives an id of the format the table
and the routes ask for, different pairs give different ids, and ids sort as the
pairs do: by timestamp, then by the random bits (`new_ulid_sorts`).
-/
import LoyaltyTransfer.Schema
import LoyaltyTransfer.Lib.Digits

namespace LoyaltyTransfer

/-! ## `ids.py` -/

def transferIdPrefix : String := "tr_"

/-- The loop of `new_ulid`: `steps` characters more. -/
def ulidChars : Nat → Nat → List Char → List Char
  | 0, _, chars => chars
  | steps + 1, value, chars =>
      ulidChars steps (value >>> 5) (chars ++ [crockfordBase32.getD (value &&& 0x1F) '0'])

/-- `new_ulid`; `random` is what `secrets.randbits(80)` returns. -/
def newUlid (timestampMs : Int) (random : Fin (2 ^ 80)) : Except String String :=
  if 0 ≤ timestampMs ∧ timestampMs < 2 ^ 48 then
    let value := (timestampMs.toNat <<< 80) ||| random.val
    pure (String.ofList (ulidChars 26 value []).reverse)
  else throw "timestamp_ms must fit in 48 bits"

/-- `new_transfer_id`, at a reading of `time.time_ns()`. -/
def newTransferId (timeNs : Int) (random : Fin (2 ^ 80)) : Except String String :=
  (newUlid (timeNs.fdiv 1000000) random).map (transferIdPrefix ++ ·)

/-! ## The digits -/

/-- The character of a digit. -/
def crockford (digit : Nat) : Char := crockfordBase32.getD digit '0'

/-- The alphabet is in the order of its characters. -/
theorem crockford_lt_iff (i j : Nat) (hi : i < 32) (hj : j < 32) :
    crockford i < crockford j ↔ i < j := by
  have hall : ∀ i < 32, ∀ j < 32, crockford i < crockford j ↔ i < j := by decide +kernel
  exact hall i hi j hj

theorem crockford_mem {i : Nat} (h : i < 32) : crockford i ∈ crockfordBase32 := by
  have hlength : crockfordBase32.length = 32 := by decide
  rw [crockford, List.getD_eq_getElem _ _ (by omega)]
  exact List.getElem_mem _

/-- The loop emits the digits of base 32. -/
theorem ulidChars_eq (steps value : Nat) (chars : List Char) :
    ulidChars steps value chars = chars ++ (Digits.low 32 steps value).map crockford := by
  induction steps generalizing value chars with
  | zero => simp [ulidChars, Digits.low]
  | succ steps ih =>
      have hdigit : value &&& 0x1F = value % 32 := Nat.and_two_pow_sub_one_eq_mod value 5
      have hshift : value >>> 5 = value / 32 := Nat.shiftRight_eq_div_pow value 5
      rw [ulidChars, ih, hdigit, hshift, Digits.low, List.map_cons, List.append_assoc]
      rfl

/-- The 128 bits of a ULID. -/
def ulidValue (timestampMs random : Nat) : Nat := timestampMs * 2 ^ 80 + random

theorem ulidValue_lt {timestampMs random : Nat} (ht : timestampMs < 2 ^ 48)
    (hr : random < 2 ^ 80) : ulidValue timestampMs random < 32 ^ 26 := by
  have hle : timestampMs * 2 ^ 80 ≤ (2 ^ 48 - 1) * 2 ^ 80 :=
    Nat.mul_le_mul_right _ (Nat.le_sub_one_of_lt ht)
  rw [ulidValue]
  omega

/-- The timestamp decides, and on a tie the random bits. -/
theorem ulidValue_lt_iff {t t' r r' : Nat} (hr : r < 2 ^ 80) (hr' : r' < 2 ^ 80) :
    ulidValue t r < ulidValue t' r' ↔ t < t' ∨ t = t' ∧ r < r' := by
  simp only [ulidValue]
  omega

theorem newUlid_ok {timestampMs : Int} {random : Fin (2 ^ 80)} {ulid : String} :
    newUlid timestampMs random = .ok ulid ↔
      (0 ≤ timestampMs ∧ timestampMs < 2 ^ 48) ∧
        ulid = String.ofList
          ((Digits.fixed 32 26 (ulidValue timestampMs.toNat random)).map crockford) := by
  have htext : (ulidChars 26 ((timestampMs.toNat <<< 80) ||| random.val) []).reverse =
      (Digits.fixed 32 26 (ulidValue timestampMs.toNat random)).map crockford := by
    rw [ulidChars_eq, List.nil_append, ← List.map_reverse, Digits.reverse_low,
      ← Nat.shiftLeft_add_eq_or_of_lt random.isLt, Nat.shiftLeft_eq, ulidValue]
  simp only [newUlid, htext]
  split
  · rename_i hfits
    constructor
    · intro h
      cases h
      exact ⟨hfits, rfl⟩
    · rintro ⟨-, rfl⟩
      rfl
  · rename_i hnot
    constructor
    · intro h
      cases h
    · rintro ⟨hfits, -⟩
      exact absurd hfits hnot

/-! ## The ids -/

/-- 26 characters of the alphabet. -/
theorem newUlid_format {timestampMs : Int} {random : Fin (2 ^ 80)} {ulid : String}
    (h : newUlid timestampMs random = .ok ulid) :
    ulid.toList.length = 26 ∧ ∀ c ∈ ulid.toList, c ∈ crockfordBase32 := by
  obtain ⟨-, rfl⟩ := newUlid_ok.mp h
  rw [String.toList_ofList]
  constructor
  · rw [List.length_map, Digits.length_fixed]
  · intro c hc
    obtain ⟨d, hd, rfl⟩ := List.mem_map.mp hc
    exact crockford_mem (Digits.lt_of_mem_fixed (by decide) hd)

theorem transferIdFormat_prefix {ulid : String} (hlength : ulid.toList.length = 26)
    (hchars : ∀ c ∈ ulid.toList, c ∈ crockfordBase32) :
    transferIdFormat (transferIdPrefix ++ ulid) = true := by
  have hlist : (transferIdPrefix ++ ulid).toList = 't' :: 'r' :: '_' :: ulid.toList := by
    rw [String.toList_append]
    rfl
  rw [transferIdFormat, hlist]
  simp only [hlength, Bool.and_eq_true, List.all_eq_true, List.contains_iff_mem]
  exact ⟨rfl, hchars⟩

theorem newTransferId_format {timeNs : Int} {random : Fin (2 ^ 80)} {id : String}
    (h : newTransferId timeNs random = .ok id) : transferIdFormat id = true := by
  cases hulid : newUlid (timeNs.fdiv 1000000) random with
  | error e =>
      rw [newTransferId, hulid] at h
      cases h
  | ok ulid =>
      rw [newTransferId, hulid] at h
      cases h
      obtain ⟨hlength, hchars⟩ := newUlid_format hulid
      exact transferIdFormat_prefix hlength hchars

theorem newUlid_lt_iff {t t' : Int} {r r' : Fin (2 ^ 80)} {ulid ulid' : String}
    (h : newUlid t r = .ok ulid) (h' : newUlid t' r' = .ok ulid') :
    ulid < ulid' ↔ t < t' ∨ t = t' ∧ r < r' := by
  obtain ⟨⟨hnonneg, hlt⟩, rfl⟩ := newUlid_ok.mp h
  obtain ⟨⟨hnonneg', hlt'⟩, rfl⟩ := newUlid_ok.mp h'
  have hv : ulidValue t.toNat r < 32 ^ 26 := ulidValue_lt (by omega) r.isLt
  have hv' : ulidValue t'.toNat r' < 32 ^ 26 := ulidValue_lt (by omega) r'.isLt
  rw [String.lt_iff_toList_lt, String.toList_ofList, String.toList_ofList,
    Digits.fixed_lt_iff (by decide) crockford_lt_iff hv hv', ulidValue_lt_iff r.isLt r'.isLt,
    Fin.lt_def]
  omega

theorem newUlid_inj {t t' : Int} {r r' : Fin (2 ^ 80)} {ulid : String}
    (h : newUlid t r = .ok ulid) (h' : newUlid t' r' = .ok ulid) : t = t' ∧ r = r' := by
  have hno := (newUlid_lt_iff h h').not.mp (lt_irrefl _)
  have hno' := (newUlid_lt_iff h' h).not.mp (lt_irrefl _)
  have hvals := Fin.val_inj (a := r) (b := r')
  simp only [Fin.lt_def] at hno hno'
  refine ⟨by omega, ?_⟩
  exact hvals.mp (by omega)

/-- A timestamp of 48 bits and 80 random bits make an id of the format asked for;
the pair can be told from it, and ids sort as their pairs. -/
theorem new_ulid_sorts :
    (∀ (t : Int) (r : Fin (2 ^ 80)), 0 ≤ t → t < 2 ^ 48 → ∃ ulid, newUlid t r = .ok ulid ∧
      ulid.toList.length = 26 ∧ (∀ c ∈ ulid.toList, c ∈ crockfordBase32) ∧
      transferIdFormat (transferIdPrefix ++ ulid) = true) ∧
    ∀ (t t' : Int) (r r' : Fin (2 ^ 80)) (ulid ulid' : String),
      newUlid t r = .ok ulid → newUlid t' r' = .ok ulid' →
        (ulid = ulid' ↔ t = t' ∧ r = r') ∧
        (ulid < ulid' ↔ t < t' ∨ t = t' ∧ r < r') ∧
        (t < t' → transferIdPrefix ++ ulid < transferIdPrefix ++ ulid') := by
  constructor
  · intro t r hnonneg hlt
    have h : newUlid t r = .ok (String.ofList
        ((Digits.fixed 32 26 (ulidValue t.toNat r)).map crockford)) :=
      newUlid_ok.mpr ⟨⟨hnonneg, hlt⟩, rfl⟩
    obtain ⟨hlength, hchars⟩ := newUlid_format h
    exact ⟨_, h, hlength, hchars, transferIdFormat_prefix hlength hchars⟩
  · intro t t' r r' ulid ulid' h h'
    refine ⟨⟨?_, ?_⟩, newUlid_lt_iff h h', ?_⟩
    · rintro rfl
      exact newUlid_inj h h'
    · rintro ⟨rfl, rfl⟩
      cases h.symm.trans h'
      rfl
    · intro hlt
      have hulid : ulid < ulid' := (newUlid_lt_iff h h').mpr (.inl hlt)
      rw [String.lt_iff_toList_lt, String.toList_append, String.toList_append] at *
      simpa [transferIdPrefix] using hulid

/-- Ids of two adjacent milliseconds, the first with all random bits set. -/
theorem new_ulid_sorts_adjacent :
    ∃ first second, newUlid 1 (Fin.last _) = .ok first ∧ newUlid 2 0 = .ok second ∧
      first < second := by
  obtain ⟨first, hfirst, -⟩ := new_ulid_sorts.1 1 (Fin.last _) (by decide) (by decide)
  obtain ⟨second, hsecond, -⟩ := new_ulid_sorts.1 2 0 (by decide) (by decide)
  have hsorts := new_ulid_sorts.2 1 2 (Fin.last _) 0 first second hfirst hsecond
  exact ⟨first, second, hfirst, hsecond, hsorts.2.1.mpr (.inl (by decide))⟩

end LoyaltyTransfer
