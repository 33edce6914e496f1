/-
# `Lib.Base64` — base 64 with the URL alphabet, and its padding

Three bytes are four characters; a last group of one or two bytes is filled up
with `=`.  Reading is the lenient loop of Python's `binascii`:

    | an alphabet character          | six more bits; a byte whenever eight have arrived |
    | `=` that completes a group     | the end, whatever follows                          |
    | any other character, other `=` | skipped                                            |
    | the text ends inside a group   | an error                                           |

**Proved here.**  Reading what was written gives the bytes back
(`decode_encode`), and a text whose padding was stripped gets exactly it back from
its length alone (`padded_stripped`).
-/
import Mathlib

namespace Base64

/-! ## The two directions -/

def alphabet : List Char :=
  "ABCDEFGHIJKLMNOPQRSTUVWXYZabcdefghijklmnopqrstuvwxyz0123456789-_".toList

/-- The character of six bits. -/
def symbol (bits : Nat) : Char := alphabet.getD bits 'A'

/-- The six bits of a character; those of the plain alphabet are read too. -/
def value? (c : Char) : Option Nat :=
  if c = '+' then some 62
  else if c = '/' then some 63
  else alphabet.findIdx? fun x => x == c

/-- Four characters for each three bytes. -/
def encode : List UInt8 → List Char
  | [] => []
  | [a] => [symbol (a.toNat / 4), symbol (a.toNat % 4 * 16), '=', '=']
  | [a, b] => [symbol (a.toNat / 4), symbol (a.toNat % 4 * 16 + b.toNat / 16),
      symbol (b.toNat % 16 * 4), '=']
  | a :: b :: c :: rest => symbol (a.toNat / 4) :: symbol (a.toNat % 4 * 16 + b.toNat / 16) ::
      symbol (b.toNat % 16 * 4 + c.toNat / 64) :: symbol (c.toNat % 64) :: encode rest

/-- The loop, `group` characters into a group with the bits `left` still to go
out, `pads` padding characters seen since. -/
def decodeFrom (group left pads : Nat) : List Char → Option (List UInt8)
  | [] => if group = 0 then some [] else none
  | c :: cs =>
      if c = '=' then
        if 2 ≤ group then
          if 4 ≤ group + (pads + 1) then some [] else decodeFrom group left (pads + 1) cs
        else decodeFrom group left pads cs
      else
        match value? c with
        | none => decodeFrom group left pads cs
        | some bits =>
            match group with
            | 0 => decodeFrom 1 bits 0 cs
            | 1 => (decodeFrom 2 (bits % 16) 0 cs).map (UInt8.ofNat (left * 4 + bits / 16) :: ·)
            | 2 => (decodeFrom 3 (bits % 4) 0 cs).map (UInt8.ofNat (left * 16 + bits / 4) :: ·)
            | _ => (decodeFrom 0 0 0 cs).map (UInt8.ofNat (left * 64 + bits) :: ·)

def decode (cs : List Char) : Option (List UInt8) := decodeFrom 0 0 0 cs

/-! ## Reading back -/

theorem value?_symbol {bits : Nat} (h : bits < 64) : value? (symbol bits) = some bits := by
  have hall : ∀ i < 64, value? (symbol i) = some i := by decide +kernel
  exact hall bits h

theorem symbol_ne_pad (bits : Nat) : symbol bits ≠ '=' := by
  rcases Nat.lt_or_ge bits 64 with hlt | hge
  · have hall : ∀ i < 64, symbol i ≠ '=' := by decide +kernel
    exact hall bits hlt
  · have hlength : alphabet.length = 64 := by decide
    rw [symbol, List.getD_eq_default _ _ (by omega)]
    decide

section

variable {bits left pads : Nat} {cs : List Char}

theorem decodeFrom_zero (h : bits < 64) :
    decodeFrom 0 left pads (symbol bits :: cs) = decodeFrom 1 bits 0 cs := by
  rw [decodeFrom, if_neg (symbol_ne_pad bits), value?_symbol h]
  rfl

theorem decodeFrom_one (h : bits < 64) :
    decodeFrom 1 left pads (symbol bits :: cs) =
      (decodeFrom 2 (bits % 16) 0 cs).map (UInt8.ofNat (left * 4 + bits / 16) :: ·) := by
  rw [decodeFrom, if_neg (symbol_ne_pad bits), value?_symbol h]
  rfl

theorem decodeFrom_two (h : bits < 64) :
    decodeFrom 2 left pads (symbol bits :: cs) =
      (decodeFrom 3 (bits % 4) 0 cs).map (UInt8.ofNat (left * 16 + bits / 4) :: ·) := by
  rw [decodeFrom, if_neg (symbol_ne_pad bits), value?_symbol h]
  rfl

theorem decodeFrom_three (h : bits < 64) :
    decodeFrom 3 left pads (symbol bits :: cs) =
      (decodeFrom 0 0 0 cs).map (UInt8.ofNat (left * 64 + bits) :: ·) := by
  rw [decodeFrom, if_neg (symbol_ne_pad bits), value?_symbol h]
  rfl

theorem decodeFrom_two_pads : decodeFrom 2 left 0 ['=', '='] = some [] := rfl

theorem decodeFrom_three_pad : decodeFrom 3 left 0 ['='] = some [] := rfl

end

/-- The bits of a byte, put together again. -/
theorem ofNat_of_eq {n : Nat} {a : UInt8} (h : n = a.toNat) : UInt8.ofNat n = a := by
  rw [h, UInt8.ofNat_toNat]

theorem decode_encode (bs : List UInt8) : decode (encode bs) = some bs := by
  rw [decode]
  induction bs using encode.induct with
  | case1 => rfl
  | case2 a =>
      have ha := a.toNat_lt
      rw [encode, decodeFrom_zero (by omega), decodeFrom_one (by omega)]
      have hbyte : UInt8.ofNat (a.toNat / 4 * 4 + a.toNat % 4 * 16 / 16) = a :=
        ofNat_of_eq (by omega)
      rw [decodeFrom_two_pads, Option.map_some, hbyte]
  | case3 a b =>
      have ha := a.toNat_lt
      have hb := b.toNat_lt
      rw [encode, decodeFrom_zero (by omega), decodeFrom_one (by omega),
        decodeFrom_two (by omega)]
      have hbyte : UInt8.ofNat (a.toNat / 4 * 4 +
          (a.toNat % 4 * 16 + b.toNat / 16) / 16) = a := ofNat_of_eq (by omega)
      have hbyte' : UInt8.ofNat ((a.toNat % 4 * 16 + b.toNat / 16) % 16 * 16 +
          b.toNat % 16 * 4 / 4) = b := ofNat_of_eq (by omega)
      rw [decodeFrom_three_pad, Option.map_some, Option.map_some, hbyte, hbyte']
  | case4 a b c rest ih =>
      have ha := a.toNat_lt
      have hb := b.toNat_lt
      have hc := c.toNat_lt
      rw [encode, decodeFrom_zero (by omega), decodeFrom_one (by omega),
        decodeFrom_two (by omega), decodeFrom_three (by omega), ih]
      have hbyte : UInt8.ofNat (a.toNat / 4 * 4 +
          (a.toNat % 4 * 16 + b.toNat / 16) / 16) = a := ofNat_of_eq (by omega)
      have hbyte' : UInt8.ofNat ((a.toNat % 4 * 16 + b.toNat / 16) % 16 * 16 +
          (b.toNat % 16 * 4 + c.toNat / 64) / 4) = b := ofNat_of_eq (by omega)
      have hbyte'' : UInt8.ofNat ((b.toNat % 16 * 4 + c.toNat / 64) % 4 * 64 + c.toNat % 64) =
          c := ofNat_of_eq (by omega)
      rw [Option.map_some, Option.map_some, Option.map_some, hbyte, hbyte', hbyte'']

/-! ## The padding -/

/-- `text.rstrip("=")`. -/
def stripped (cs : List Char) : List Char := cs.rdropWhile fun c => c == '='

/-- `text + "=" * (-len(text) % 4)`. -/
def padded (cs : List Char) : List Char :=
  cs ++ List.replicate ((-(cs.length : Int)) % 4).toNat '='

theorem length_encode (bs : List UInt8) :
    (encode bs).length = 4 * ((bs.length + 2) / 3) := by
  induction bs using encode.induct with
  | case1 => rfl
  | case2 a => simp [encode]
  | case3 a b => simp [encode]
  | case4 a b c rest ih =>
      simp only [encode, List.length_cons, ih]
      omega

/-- A text of whole groups: characters of the alphabet and at most two paddings. -/
theorem encode_eq_append (bs : List UInt8) :
    ∃ body k, encode bs = body ++ List.replicate k '=' ∧ (∀ c ∈ body, c ≠ '=') ∧ k ≤ 2 ∧
      (body.length + k) % 4 = 0 := by
  induction bs using encode.induct with
  | case1 => exact ⟨[], 0, rfl, by simp, by omega, rfl⟩
  | case2 a =>
      refine ⟨[symbol (a.toNat / 4), symbol (a.toNat % 4 * 16)], 2, rfl, ?_, le_refl 2, by simp⟩
      simp [symbol_ne_pad]
  | case3 a b =>
      refine ⟨[symbol (a.toNat / 4), symbol (a.toNat % 4 * 16 + b.toNat / 16),
        symbol (b.toNat % 16 * 4)], 1, rfl, ?_, by omega, by simp⟩
      simp [symbol_ne_pad]
  | case4 a b c rest ih =>
      obtain ⟨body, k, heq, hbody, hk, hlength⟩ := ih
      refine ⟨symbol (a.toNat / 4) :: symbol (a.toNat % 4 * 16 + b.toNat / 16) ::
        symbol (b.toNat % 16 * 4 + c.toNat / 64) :: symbol (c.toNat % 64) :: body, k, ?_, ?_, hk,
        ?_⟩
      · rw [encode, heq]
        rfl
      · simpa [symbol_ne_pad] using hbody
      · simp only [List.length_cons]
        omega

theorem stripped_append {body : List Char} (h : ∀ c ∈ body, c ≠ '=') (k : Nat) :
    stripped (body ++ List.replicate k '=') = body := by
  have hpads : ∀ c ∈ (List.replicate k '=').reverse, (c == '=') = true := by
    intro c hc
    rw [List.eq_of_mem_replicate (List.mem_reverse.mp hc)]
    rfl
  have hbody : body.reverse.dropWhile (fun c => c == '=') = body.reverse := by
    cases hrev : body.reverse with
    | nil => rfl
    | cons c cs =>
        have hc : c ∈ body := List.mem_reverse.mp (by rw [hrev]; exact List.mem_cons_self ..)
        exact List.dropWhile_cons_of_neg (by simpa using h c hc)
  rw [stripped, List.rdropWhile, List.reverse_append, List.dropWhile_append_of_pos hpads, hbody,
    List.reverse_reverse]

/-- The padding is known from the length of the rest. -/
theorem padded_stripped (bs : List UInt8) : padded (stripped (encode bs)) = encode bs := by
  obtain ⟨body, k, heq, hbody, hk, hlength⟩ := encode_eq_append bs
  have hcount : ((-(body.length : Int)) % 4).toNat = k := by omega
  rw [heq, stripped_append hbody, padded, hcount]

end Base64
