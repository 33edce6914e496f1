/-
# `Lib.JsonText` — the default text of a JSON value

What Python's `json.dumps` writes when nothing is asked of it: a blank after every
comma and colon, members in the order they stand, and only ASCII, everything else
as `\\uXXXX`, beyond the basic plane as two of them.

**Proved here.**  A string of printable ASCII without quotes and backslashes
stands in the text as it is (`asciiString_plain`).
-/
import LoyaltyTransfer.Lib.Json

namespace Json

/-- Four hexadecimal digits. -/
def hex4 (n : Nat) : List Char :=
  [hexDigit (n / 4096 % 16), hexDigit (n / 256 % 16), hexDigit (n / 16 % 16), hexDigit (n % 16)]

/-- A character inside a string literal. -/
def escapeAscii (c : Char) : List Char :=
  if c = '"' then ['\\', '"']
  else if c = '\\' then ['\\', '\\']
  else if c = '\n' then ['\\', 'n']
  else if c = '\r' then ['\\', 'r']
  else if c = '\t' then ['\\', 't']
  else if c.toNat = 8 then ['\\', 'b']
  else if c.toNat = 12 then ['\\', 'f']
  else if 32 ≤ c.toNat ∧ c.toNat < 127 then [c]
  else if c.toNat < 0x10000 then '\\' :: 'u' :: hex4 c.toNat
  else '\\' :: 'u' :: hex4 (0xD800 + (c.toNat - 0x10000) / 1024) ++
    '\\' :: 'u' :: hex4 (0xDC00 + (c.toNat - 0x10000) % 1024)

def asciiString (s : String) : List Char := '"' :: (s.toList.flatMap escapeAscii ++ ['"'])

mutual
/-- The text of a value. -/
def asciiText : Value → List Char
  | .null => "null".toList
  | .bool true => "true".toList
  | .bool false => "false".toList
  | .int n => (toString n).toList
  | .float x => x.text.toList
  | .str s => asciiString s
  | .arr xs => '[' :: (asciiList xs ++ [']'])
  | .obj fields => '\x7b' :: (asciiFields fields ++ ['\x7d'])
def asciiList : List Value → List Char
  | [] => []
  | [v] => asciiText v
  | v :: vs => asciiText v ++ ',' :: ' ' :: asciiList vs
def asciiFields : List (String × Value) → List Char
  | [] => []
  | [(k, v)] => asciiString k ++ ':' :: ' ' :: asciiText v
  | (k, v) :: fs => asciiString k ++ ':' :: ' ' :: (asciiText v ++ ',' :: ' ' :: asciiFields fs)
end

/-- `json.dumps`. -/
def dumpsAscii (v : Value) : String := String.ofList (asciiText v)

/-- A character that is written as it is. -/
def isPlain (c : Char) : Bool :=
  decide (32 ≤ c.toNat) && decide (c.toNat < 127) && c != '"' && c != '\\'

theorem escapeAscii_plain {c : Char} (h : isPlain c = true) : escapeAscii c = [c] := by
  simp only [isPlain, Bool.and_eq_true, decide_eq_true_eq, bne_iff_ne, ne_eq] at h
  obtain ⟨⟨⟨hlow, hhigh⟩, hquote⟩, hslash⟩ := h
  have hne : ∀ d : Char, d.toNat < 32 → c ≠ d := by
    rintro d hd rfl
    omega
  rw [escapeAscii, if_neg hquote, if_neg hslash, if_neg (hne '\n' (by decide)),
    if_neg (hne '\r' (by decide)), if_neg (hne '\t' (by decide)), if_neg (by omega),
    if_neg (by omega), if_pos ⟨hlow, hhigh⟩]

/-- Nothing is escaped. -/
theorem asciiString_plain {s : String} (h : ∀ c ∈ s.toList, isPlain c = true) :
    asciiString s = '"' :: (s.toList ++ ['"']) := by
  have hsame : s.toList.flatMap escapeAscii = s.toList := by
    generalize s.toList = cs at h
    induction cs with
    | nil => rfl
    | cons c cs ih =>
        rw [List.flatMap_cons, escapeAscii_plain (h c (List.mem_cons_self ..)),
          ih fun d hd => h d (List.mem_cons_of_mem _ hd)]
        rfl
  rw [asciiString, hsame]

end Json
