/-
# `Lib.Json` — JSON values and their canonical text

`Json` is the value a JSON document parses to.  `canon` sorts the members of
every object by key, at every level; `dumps` writes a value without
whitespace, strings with the short escapes and everything outside ASCII left
as it is.  `canonical = dumps ∘ canon` is the text two documents share exactly
when they differ only in layout and member order (`canonical_inj`): no
character of the text can be read in two ways.
-/
import Mathlib

namespace Json

/-- The characters of an integer. -/
def isIntChar (c : Char) : Bool := c.isDigit || c == '-'

/-- The characters of any number, the three that are no JSON included. -/
def isNumChar (c : Char) : Bool := isIntChar c || ".e+NaInfity".toList.contains c

/-- The text of a number that is no integer: with a fraction, an exponent, or
one of `NaN`, `Infinity` and `-Infinity`. -/
def isFloatText (text : String) : Bool :=
  text.toList.all isNumChar && text.toList.any (fun c => !isIntChar c) &&
    text.toList.head?.any fun c => isIntChar c || c == 'N' || c == 'I'

/-- A number that is no integer, by its shortest text. -/
structure Float where
  text : String
  valid : isFloatText text = true
  deriving DecidableEq, Repr

instance : Inhabited Float := ⟨⟨"0.0", by decide⟩⟩

/-- A JSON value. -/
inductive Value where
  | null
  | bool (b : Bool)
  | int (n : Int)
  | float (x : Float)
  | str (s : String)
  | arr (xs : List Value)
  | obj (fields : List (String × Value))
  deriving Repr, Inhabited

namespace Value

/-- The member `k` of an object. -/
def get (k : String) : Value → Option Value
  | .obj fields => (fields.find? fun p => p.1 == k).map Prod.snd
  | _ => none

end Value

/-! ## Member order -/

mutual
/-- The value with the members of every object sorted by key. -/
def canon : Value → Value
  | .arr xs => .arr (canonList xs)
  | .obj fields => .obj ((canonFields fields).insertionSort fun a b => a.1 ≤ b.1)
  | v => v
def canonList : List Value → List Value
  | [] => []
  | v :: vs => canon v :: canonList vs
def canonFields : List (String × Value) → List (String × Value)
  | [] => []
  | (k, v) :: fs => (k, canon v) :: canonFields fs
end

/-! ## Text -/

/-- A hexadecimal digit, lower case. -/
def hexDigit (n : Nat) : Char := if n < 10 then Char.ofNat (48 + n) else Char.ofNat (87 + n)

/-- A character inside a string literal. -/
def escape (c : Char) : List Char :=
  if c = '"' then ['\\', '"']
  else if c = '\\' then ['\\', '\\']
  else if c = '\n' then ['\\', 'n']
  else if c = '\r' then ['\\', 'r']
  else if c = '\t' then ['\\', 't']
  else if c.toNat = 8 then ['\\', 'b']
  else if c.toNat = 12 then ['\\', 'f']
  else if c.toNat < 32 then
    ['\\', 'u', '0', '0', hexDigit (c.toNat / 16), hexDigit (c.toNat % 16)]
  else [c]

/-- A string literal. -/
def dumpsString (s : String) : List Char := '"' :: (s.toList.flatMap escape ++ ['"'])

mutual
/-- The text of a value, members in the order they stand. -/
def dumps : Value → List Char
  | .null => "null".toList
  | .bool true => "true".toList
  | .bool false => "false".toList
  | .int n => (toString n).toList
  | .float x => x.text.toList
  | .str s => dumpsString s
  | .arr xs => '[' :: (dumpsList xs ++ [']'])
  | .obj fields => '\x7b' :: (dumpsFields fields ++ ['\x7d'])
def dumpsList : List Value → List Char
  | [] => []
  | [v] => dumps v
  | v :: vs => dumps v ++ ',' :: dumpsList vs
def dumpsFields : List (String × Value) → List Char
  | [] => []
  | [(k, v)] => dumpsString k ++ ':' :: dumps v
  | (k, v) :: fs => dumpsString k ++ ':' :: (dumps v ++ ',' :: dumpsFields fs)
end

/-- The canonical text: members sorted by key, no whitespace. -/
def canonical (v : Value) : String := String.ofList (dumps (canon v))

/-! ## Reading a string back -/

/-- The value of a hexadecimal digit. -/
def hexValue (c : Char) : Nat := if c.toNat < 58 then c.toNat - 48 else c.toNat - 87

/-- The first character a text escapes, and what follows it. -/
def unescape : List Char → Option (Char × List Char)
  | '\\' :: '"' :: x => some ('"', x)
  | '\\' :: '\\' :: x => some ('\\', x)
  | '\\' :: 'n' :: x => some ('\n', x)
  | '\\' :: 'r' :: x => some ('\r', x)
  | '\\' :: 't' :: x => some ('\t', x)
  | '\\' :: 'b' :: x => some (Char.ofNat 8, x)
  | '\\' :: 'f' :: x => some (Char.ofNat 12, x)
  | '\\' :: 'u' :: '0' :: '0' :: a :: b :: x => some (Char.ofNat (16 * hexValue a + hexValue b), x)
  | c :: x => some (c, x)
  | [] => none

theorem unescape_escape (c : Char) (x : List Char) : unescape (escape c ++ x) = some (c, x) := by
  by_cases hctl : c.toNat < 32
  · obtain ⟨n, hn, rfl⟩ : ∃ n, n < 32 ∧ c = Char.ofNat n := ⟨c.toNat, hctl, by simp⟩
    interval_cases n <;> rfl
  · by_cases hq : c = '"'
    · subst hq; rfl
    · by_cases hb : c = '\\'
      · subst hb; rfl
      · have hplain : escape c = [c] := by
          have h8 : c.toNat ≠ 8 := by omega
          have h12 : c.toNat ≠ 12 := by omega
          have hn : c ≠ '\n' := by rintro rfl; exact hctl (by decide)
          have hr : c ≠ '\r' := by rintro rfl; exact hctl (by decide)
          have ht : c ≠ '\t' := by rintro rfl; exact hctl (by decide)
          simp [escape, hq, hb, hn, hr, ht, h8, h12, hctl]
        rw [hplain]
        simp [unescape, hb]

theorem escape_inj {c c' : Char} {x x' : List Char} (h : escape c ++ x = escape c' ++ x') :
    c = c' ∧ x = x' := by
  have hread := congrArg unescape h
  rw [unescape_escape, unescape_escape] at hread
  cases hread
  exact ⟨rfl, rfl⟩

/-- An escape never begins with the quote that would end the literal. -/
theorem escape_head (c : Char) : ∃ a x, escape c = a :: x ∧ a ≠ '"' := by
  simp only [escape]
  split_ifs with hq
  all_goals first
    | exact ⟨_, _, rfl, by decide⟩
    | exact ⟨_, _, rfl, hq⟩

theorem escaped_inj {cs cs' rest rest' : List Char}
    (h : cs.flatMap escape ++ '"' :: rest = cs'.flatMap escape ++ '"' :: rest') :
    cs = cs' ∧ rest = rest' := by
  induction cs generalizing cs' with
  | nil =>
      cases cs' with
      | nil => exact ⟨rfl, by simpa using h⟩
      | cons c' cs' =>
          obtain ⟨a, x, ha, hne⟩ := escape_head c'
          simp only [List.flatMap_nil, List.nil_append, List.flatMap_cons, ha, List.cons_append,
            List.cons.injEq] at h
          exact absurd h.1.symm hne
  | cons c cs ih =>
      cases cs' with
      | nil =>
          obtain ⟨a, x, ha, hne⟩ := escape_head c
          simp only [List.flatMap_nil, List.nil_append, List.flatMap_cons, ha, List.cons_append,
            List.cons.injEq] at h
          exact absurd h.1 hne
      | cons c' cs' =>
          simp only [List.flatMap_cons, List.append_assoc] at h
          obtain ⟨rfl, hrest⟩ := escape_inj h
          obtain ⟨rfl, rfl⟩ := ih hrest
          exact ⟨rfl, rfl⟩

theorem dumpsString_inj {s s' : String} {rest rest' : List Char}
    (h : dumpsString s ++ rest = dumpsString s' ++ rest') : s = s' ∧ rest = rest' := by
  simp only [dumpsString, List.cons_append, List.append_assoc, List.nil_append, List.cons.injEq,
    true_and] at h
  obtain ⟨hs, hrest⟩ := escaped_inj h
  exact ⟨String.toList_inj.mp hs, hrest⟩

/-! ## Reading a number back -/

/-- What follows a number does not go on with it. -/
def Stops (rest : List Char) : Prop := ∀ c ∈ rest.head?, isNumChar c = false

theorem isIntChar_toString (n : Int) : ∀ c ∈ (toString n).toList, isIntChar c = true := by
  have hdigits : ∀ m : Nat, ∀ c ∈ (Nat.repr m).toList, isIntChar c = true := by
    intro m c hc
    rw [Nat.toList_repr] at hc
    simp [isIntChar, Nat.isDigit_of_mem_toDigits (by decide) (by decide) hc]
  intro c hc
  cases n with
  | ofNat m => exact hdigits m c hc
  | negSucc m =>
      have hc : c ∈ ("-" ++ Nat.repr (m + 1)).toList := hc
      rw [String.toList_append, List.mem_append] at hc
      rcases hc with hc | hc
      · have : c = '-' := by simpa using hc
        subst this
        rfl
      · exact hdigits (m + 1) c hc

theorem isNumChar_of_isIntChar {c : Char} (h : isIntChar c = true) : isNumChar c = true := by
  rw [isNumChar, h, Bool.true_or]

theorem isNumChar_toString (n : Int) : ∀ c ∈ (toString n).toList, isNumChar c = true :=
  fun c hc => isNumChar_of_isIntChar (isIntChar_toString n c hc)

theorem Float.isNumChar_text (x : Float) : ∀ c ∈ x.text.toList, isNumChar c = true := by
  have h := x.valid
  simp only [isFloatText, Bool.and_eq_true] at h
  exact List.all_eq_true.mp h.1.1

/-- The text of a number that is no integer is not the text of an integer. -/
theorem Float.text_ne_toString (x : Float) (n : Int) : x.text.toList ≠ (toString n).toList := by
  intro heq
  have h := x.valid
  simp only [isFloatText, Bool.and_eq_true, List.any_eq_true] at h
  obtain ⟨c, hc, hno⟩ := h.1.2
  rw [heq] at hc
  rw [isIntChar_toString n c hc] at hno
  cases hno

theorem takeWhile_of_stops {rest : List Char} (h : Stops rest) : rest.takeWhile isNumChar = [] := by
  cases rest with
  | nil => rfl
  | cons c cs => simp [h c rfl]

/-- Where the text of a number ends can be told. -/
theorem number_inj {x x' rest rest' : List Char} (hx : ∀ c ∈ x, isNumChar c = true)
    (hx' : ∀ c ∈ x', isNumChar c = true) (hr : Stops rest) (hr' : Stops rest')
    (h : x ++ rest = x' ++ rest') : x = x' ∧ rest = rest' := by
  have htext := congrArg (List.takeWhile isNumChar) h
  rw [List.takeWhile_append_of_pos hx, takeWhile_of_stops hr, List.takeWhile_append_of_pos hx',
    takeWhile_of_stops hr', List.append_nil, List.append_nil] at htext
  rw [htext] at h
  exact ⟨htext, List.append_cancel_left h⟩

/-! ## Reading a value back -/

/-- What a value's text begins with, by its first character. -/
def lead (c : Char) : Nat :=
  if c = 'n' then 0 else if c = 't' then 1 else if c = 'f' then 2 else if c = '"' then 3
  else if c = '[' then 4 else if c = '\x7b' then 5
  else if isIntChar c || c == 'N' || c == 'I' then 6 else 7

def Value.lead : Value → Nat
  | .null => 0
  | .bool true => 1
  | .bool false => 2
  | .str _ => 3
  | .arr _ => 4
  | .obj _ => 5
  | .int _ | .float _ => 6

theorem lead_of_number {c : Char} (h : (isIntChar c || c == 'N' || c == 'I') = true) :
    Json.lead c = 6 := by
  have hne : ∀ d : Char, (isIntChar d || d == 'N' || d == 'I') = false → c ≠ d := by
    rintro d hd rfl
    rw [h] at hd
    cases hd
  simp [Json.lead, hne 'n' (by decide), hne 't' (by decide), hne 'f' (by decide),
    hne '"' (by decide), hne '[' (by decide), hne '\x7b' (by decide), h]

theorem dumps_lead (v : Value) : ∃ c x, dumps v = c :: x ∧ Json.lead c = v.lead := by
  cases v with
  | null => exact ⟨'n', _, rfl, rfl⟩
  | bool b => cases b <;> exact ⟨_, _, rfl, rfl⟩
  | str s => exact ⟨'"', _, by rw [dumps, dumpsString], rfl⟩
  | arr xs => exact ⟨'[', _, by rw [dumps], rfl⟩
  | obj fields => exact ⟨'\x7b', _, by rw [dumps], rfl⟩
  | int n =>
      have hall := isIntChar_toString n
      rw [dumps]
      cases htext : (toString n).toList with
      | nil =>
          -- no integer has the empty text
          have hzero : toString n = "" := String.toList_inj.mp htext
          have : n.repr = "" := hzero
          exact absurd this (by cases n <;> simp [Int.repr])
      | cons c x =>
          rw [htext] at hall
          refine ⟨c, x, rfl, lead_of_number ?_⟩
          rw [hall c (List.mem_cons_self ..), Bool.true_or, Bool.true_or]
  | float f =>
      have hvalid := f.valid
      simp only [isFloatText, Bool.and_eq_true] at hvalid
      rw [dumps]
      cases htext : f.text.toList with
      | nil =>
          rw [htext] at hvalid
          cases hvalid.2
      | cons c x =>
          rw [htext] at hvalid
          exact ⟨c, x, rfl, lead_of_number hvalid.2⟩

theorem lead_eq {v v' : Value} {rest rest' : List Char}
    (h : dumps v ++ rest = dumps v' ++ rest') : v.lead = v'.lead := by
  obtain ⟨c, x, hc, hlead⟩ := dumps_lead v
  obtain ⟨c', x', hc', hlead'⟩ := dumps_lead v'
  rw [hc, hc', List.cons_append, List.cons_append, List.cons.injEq] at h
  rw [← hlead, ← hlead', h.1]

theorem not_lead {v : Value} {c : Char} {x rest : List Char} (hc : Json.lead c = 7) :
    c :: x ≠ dumps v ++ rest := by
  intro h
  obtain ⟨c', x', hc', hlead⟩ := dumps_lead v
  rw [hc', List.cons_append, List.cons.injEq] at h
  rw [← h.1, hc] at hlead
  cases v with
  | bool b => cases b <;> cases hlead
  | _ => cases hlead

/-- What follows the first item of an array. -/
def dumpsTail : List Value → List Char
  | [] => []
  | v :: vs => ',' :: dumpsList (v :: vs)

/-- What follows the first member of an object. -/
def dumpsFieldsTail : List (String × Value) → List Char
  | [] => []
  | f :: fs => ',' :: dumpsFields (f :: fs)

theorem dumpsList_cons (v : Value) (vs : List Value) :
    dumpsList (v :: vs) = dumps v ++ dumpsTail vs := by
  cases vs <;> simp [dumpsList, dumpsTail]

theorem dumpsFields_cons (k : String) (v : Value) (fs : List (String × Value)) :
    dumpsFields ((k, v) :: fs) = dumpsString k ++ ':' :: (dumps v ++ dumpsFieldsTail fs) := by
  cases fs <;> simp [dumpsFields, dumpsFieldsTail]

theorem stops_cons {c : Char} {x : List Char} (h : isNumChar c = false) : Stops (c :: x) := by
  intro d hd
  cases hd
  exact h

theorem stops_tail (vs : List Value) (rest : List Char) : Stops (dumpsTail vs ++ ']' :: rest) := by
  cases vs <;> exact stops_cons (by decide)

theorem stops_fieldsTail (fs : List (String × Value)) (rest : List Char) :
    Stops (dumpsFieldsTail fs ++ '\x7d' :: rest) := by
  cases fs <;> exact stops_cons (by decide)

mutual
/-- A value and what follows it can be told apart. -/
theorem dumps_inj : ∀ (v v' : Value) {rest rest' : List Char}, Stops rest → Stops rest' →
    dumps v ++ rest = dumps v' ++ rest' → v = v' ∧ rest = rest'
  | v, v', rest, rest', hr, hr', h => by
      have hlead := lead_eq h
      cases v with
      | null =>
          cases v' with
          | null => exact ⟨rfl, List.append_cancel_left h⟩
          | bool b => cases b <;> cases hlead
          | _ => cases hlead
      | bool b =>
          cases v' with
          | bool b' =>
              cases b <;> cases b' <;>
                first | exact ⟨rfl, List.append_cancel_left h⟩ | cases hlead
          | _ => cases b <;> cases hlead
      | int n =>
          cases v' with
          | int n' =>
              simp only [dumps] at h
              obtain ⟨htext, rfl⟩ :=
                number_inj (isNumChar_toString n) (isNumChar_toString n') hr hr' h
              rw [Int.repr_injective (String.toList_inj.mp htext)]
              exact ⟨rfl, rfl⟩
          | float x =>
              simp only [dumps] at h
              have htext := (number_inj (isNumChar_toString n) x.isNumChar_text hr hr' h).1
              exact absurd htext.symm (x.text_ne_toString n)
          | bool b => cases b <;> cases hlead
          | _ => cases hlead
      | float x =>
          cases v' with
          | int n =>
              simp only [dumps] at h
              have htext := (number_inj x.isNumChar_text (isNumChar_toString n) hr hr' h).1
              exact absurd htext (x.text_ne_toString n)
          | float x' =>
              simp only [dumps] at h
              obtain ⟨htext, rfl⟩ := number_inj x.isNumChar_text x'.isNumChar_text hr hr' h
              obtain ⟨text, valid⟩ := x
              obtain ⟨text', valid'⟩ := x'
              obtain rfl : text = text' := String.toList_inj.mp htext
              exact ⟨rfl, rfl⟩
          | bool b => cases b <;> cases hlead
          | _ => cases hlead
      | str s =>
          cases v' with
          | str s' =>
              simp only [dumps] at h
              obtain ⟨rfl, rfl⟩ := dumpsString_inj h
              exact ⟨rfl, rfl⟩
          | bool b => cases b <;> cases hlead
          | _ => cases hlead
      | arr xs =>
          cases v' with
          | arr xs' =>
              simp only [dumps, List.cons_append, List.append_assoc, List.nil_append,
                List.cons.injEq, true_and] at h
              obtain ⟨rfl, rfl⟩ := dumpsList_inj xs xs' h
              exact ⟨rfl, rfl⟩
          | bool b => cases b <;> cases hlead
          | _ => cases hlead
      | obj fields =>
          cases v' with
          | obj fields' =>
              simp only [dumps, List.cons_append, List.append_assoc, List.nil_append,
                List.cons.injEq, true_and] at h
              obtain ⟨rfl, rfl⟩ := dumpsFields_inj fields fields' h
              exact ⟨rfl, rfl⟩
          | bool b => cases b <;> cases hlead
          | _ => cases hlead
theorem dumpsList_inj : ∀ (xs xs' : List Value) {rest rest' : List Char},
    dumpsList xs ++ ']' :: rest = dumpsList xs' ++ ']' :: rest' → xs = xs' ∧ rest = rest'
  | [], [], _, _, h => ⟨rfl, by simpa [dumpsList] using h⟩
  | [], v' :: vs', _, _, h => by
      rw [dumpsList, List.nil_append, dumpsList_cons, List.append_assoc] at h
      exact absurd h (not_lead (by decide))
  | v :: vs, [], _, _, h => by
      rw [dumpsList, List.nil_append, dumpsList_cons, List.append_assoc] at h
      exact absurd h.symm (not_lead (by decide))
  | v :: vs, v' :: vs', _, _, h => by
      rw [dumpsList_cons, dumpsList_cons, List.append_assoc, List.append_assoc] at h
      obtain ⟨rfl, htail⟩ := dumps_inj v v' (stops_tail vs _) (stops_tail vs' _) h
      cases vs with
      | nil =>
          cases vs' with
          | nil => exact ⟨rfl, by simpa [dumpsTail] using htail⟩
          | cons w' ws' => simp [dumpsTail] at htail
      | cons w ws =>
          cases vs' with
          | nil => simp [dumpsTail] at htail
          | cons w' ws' =>
              simp only [dumpsTail, List.cons_append, List.cons.injEq, true_and] at htail
              obtain ⟨hvs, hrest⟩ := dumpsList_inj (w :: ws) (w' :: ws') htail
              exact ⟨by rw [hvs], hrest⟩
theorem dumpsFields_inj : ∀ (fs fs' : List (String × Value)) {rest rest' : List Char},
    dumpsFields fs ++ '\x7d' :: rest = dumpsFields fs' ++ '\x7d' :: rest' → fs = fs' ∧ rest = rest'
  | [], [], _, _, h => ⟨rfl, by simpa [dumpsFields] using h⟩
  | [], (k', v') :: fs', _, _, h => by
      rw [dumpsFields, List.nil_append, dumpsFields_cons] at h
      simp [dumpsString] at h
  | (k, v) :: fs, [], _, _, h => by
      rw [dumpsFields, List.nil_append, dumpsFields_cons] at h
      simp [dumpsString] at h
  | (k, v) :: fs, (k', v') :: fs', _, _, h => by
      rw [dumpsFields_cons, dumpsFields_cons, List.append_assoc, List.append_assoc] at h
      obtain ⟨rfl, hval⟩ := dumpsString_inj h
      rw [List.cons_append, List.cons_append, List.cons.injEq, List.append_assoc,
        List.append_assoc] at hval
      obtain ⟨rfl, htail⟩ := dumps_inj v v' (stops_fieldsTail fs _) (stops_fieldsTail fs' _) hval.2
      cases fs with
      | nil =>
          cases fs' with
          | nil => exact ⟨rfl, by simpa [dumpsFieldsTail] using htail⟩
          | cons f' fs' => simp [dumpsFieldsTail] at htail
      | cons f fs =>
          cases fs' with
          | nil => simp [dumpsFieldsTail] at htail
          | cons f' fs' =>
              simp only [dumpsFieldsTail, List.cons_append, List.cons.injEq, true_and] at htail
              obtain ⟨hfs, hrest⟩ := dumpsFields_inj (f :: fs) (f' :: fs') htail
              exact ⟨by rw [hfs], hrest⟩
end

/-- Two values have the same canonical text exactly when they are equal up to
the order of members. -/
theorem canonical_inj {v v' : Value} : canonical v = canonical v' ↔ canon v = canon v' := by
  constructor
  · intro h
    have htext : dumps (canon v) ++ [] = dumps (canon v') ++ [] := by
      simpa using String.ofList_inj.mp h
    have hstop : Stops [] := fun c hc => by cases hc
    exact (dumps_inj _ _ hstop hstop htext).1
  · intro h
    rw [canonical, canonical, h]

end Json
