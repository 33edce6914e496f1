/-
# `LoyaltyTransfer.Cursors` — the token of a listing's position

`TransferCursor` of `app/services/transfer_queries.py`: the creation time and the
id of the last transfer listed, as JSON, in base 64 without its padding.

    encode   json.dumps → UTF-8 → base 64 → strip "="
    decode   pad to four → base 64 → json.loads → two members

A token that cannot be read is `INVALID_CURSOR`, whatever went wrong.

**Proved here.**  `decode` gives back what was encoded, for every length of the
text (`cursor_round_trip`), where `json.loads` reads back this one value and
`fromisoformat` this one instant; and the token of a transfer has at most 120
characters (`length_encode_le`).
-/
import LoyaltyTransfer.Schema
import LoyaltyTransfer.Lib.JsonText
import LoyaltyTransfer.Lib.Base64

namespace LoyaltyTransfer

/-! ## The library -/

/-- What is used of `json` and `datetime`: reading JSON from bytes, the ISO 8601
text of an instant, reading it, and `str` of a value that is no string. -/
structure TextLibrary (δ : Type) where
  loads : List UInt8 → Option Json.Value
  isoformat : δ → String
  fromisoformat : String → Option δ
  str : Json.Value → String

/-- `text.encode()`. -/
def utf8 (text : String) : List UInt8 := text.toList.flatMap String.utf8EncodeChar

section

variable {δ : Type} (lib : TextLibrary δ)

/-- `json.loads` gives the value back from its text. -/
def TextLibrary.ReadsJson (v : Json.Value) : Prop := lib.loads (utf8 (Json.dumpsAscii v)) = some v

/-- `fromisoformat` gives the instant back from its text. -/
def TextLibrary.ReadsInstant (d : δ) : Prop := lib.fromisoformat (lib.isoformat d) = some d

/-- `str(value)`. -/
def TextLibrary.toStr : Json.Value → String
  | .str s => s
  | v => lib.str v

/-! ## The token -/

structure TransferCursor (δ : Type) where
  createdAt : δ
  transferId : String
  deriving DecidableEq

def TransferCursor.payload (c : TransferCursor δ) : Json.Value :=
  .obj [("t", .str (lib.isoformat c.createdAt)), ("id", .str c.transferId)]

def TransferCursor.encode (c : TransferCursor δ) : String :=
  let raw := Json.dumpsAscii (c.payload lib)
  String.ofList (Base64.stripped (Base64.encode (utf8 raw)))

def invalidCursor : DomainError where
  code := .invalidCursor
  detail := "The cursor is invalid."

/-- `data["t"]` and `data["id"]`, and what is made of them. -/
def TransferCursor.ofData (data : Json.Value) : Option (TransferCursor δ) := do
  let t ← data.get "t"
  let id ← data.get "id"
  match t with
  | .str t => (lib.fromisoformat t).map fun createdAt => ⟨createdAt, lib.toStr id⟩
  | _ => none

def TransferCursor.decode (token : String) : Except DomainError (TransferCursor δ) :=
  match ((Base64.decode (Base64.padded token.toList)).bind lib.loads).bind
      (TransferCursor.ofData lib) with
  | some c => pure c
  | none => throw invalidCursor

end

section

variable {δ : Type} {lib : TextLibrary δ} {c : TransferCursor δ}

theorem ofData_payload (h : lib.ReadsInstant c.createdAt) :
    TransferCursor.ofData lib (c.payload lib) = some c := by
  have hinstant : lib.fromisoformat (lib.isoformat c.createdAt) = some c.createdAt := h
  simp [TransferCursor.ofData, TransferCursor.payload, Json.Value.get, hinstant,
    TextLibrary.toStr]

/-- The padding that was stripped is restored from the token's length. -/
theorem padded_encode (lib : TextLibrary δ) (c : TransferCursor δ) :
    Base64.padded (c.encode lib).toList =
      Base64.encode (utf8 (Json.dumpsAscii (c.payload lib))) := by
  rw [TransferCursor.encode, String.toList_ofList, Base64.padded_stripped]

theorem decode_encode (hjson : lib.ReadsJson (c.payload lib))
    (hinstant : lib.ReadsInstant c.createdAt) :
    TransferCursor.decode lib (c.encode lib) = .ok c := by
  have hread : lib.loads (utf8 (Json.dumpsAscii (c.payload lib))) = some (c.payload lib) := hjson
  rw [TransferCursor.decode, padded_encode, Base64.decode_encode, Option.bind_some, hread,
    Option.bind_some, ofData_payload hinstant]
  rfl

/-- A cursor survives its token. -/
theorem cursor_round_trip (hjson : lib.ReadsJson (c.payload lib))
    (hinstant : lib.ReadsInstant c.createdAt) :
    Base64.padded (c.encode lib).toList =
        Base64.encode (utf8 (Json.dumpsAscii (c.payload lib))) ∧
      TransferCursor.decode lib (c.encode lib) = .ok c :=
  ⟨padded_encode lib c, decode_encode hjson hinstant⟩

/-- No token is the empty text, which the route takes for none. -/
theorem encode_ne_empty (lib : TextLibrary δ) (c : TransferCursor δ) : c.encode lib ≠ "" := by
  intro hempty
  have hlength := congrArg List.length (padded_encode lib c)
  rw [hempty, Base64.length_encode] at hlength
  have hopen : (Json.dumpsAscii (c.payload lib)).toList =
      '\x7b' :: (Json.asciiFields [("t", .str (lib.isoformat c.createdAt)),
        ("id", .str c.transferId)] ++ ['\x7d']) := by
    rw [Json.dumpsAscii, TransferCursor.payload, Json.asciiText, String.toList_ofList]
  have hbytes : 0 < (utf8 (Json.dumpsAscii (c.payload lib))).length := by
    rw [utf8, hopen, List.flatMap_cons, List.length_append, String.length_utf8EncodeChar]
    have hsize := Char.utf8Size_pos '\x7b'
    omega
  have hnone : (Base64.padded "".toList).length = 0 := by decide
  omega

end

/-! ## How long a token is -/

/-- ASCII is one byte a character. -/
theorem length_utf8 {text : String} (h : ∀ c ∈ text.toList, c.toNat < 128) :
    (utf8 text).length = text.toList.length := by
  rw [utf8]
  generalize text.toList = cs at h
  induction cs with
  | nil => rfl
  | cons c cs ih =>
      have hc : c.utf8Size = 1 := by
        have hlt := h c (List.mem_cons_self ..)
        rw [Char.utf8Size_eq_one_iff, UInt32.le_iff_toNat_le]
        exact Nat.le_of_lt_succ hlt
      rw [List.flatMap_cons, List.length_append, String.length_utf8EncodeChar, hc,
        ih fun d hd => h d (List.mem_cons_of_mem _ hd), List.length_cons, Nat.add_comm]

/-- The text of an instant is short and needs no escapes: digits, `-`, `:`, `T`,
`.` and `+`, at most `YYYY-MM-DDTHH:MM:SS.ffffff+HH:MM:SS.ffffff`. -/
structure TextLibrary.ShortInstant {δ : Type} (lib : TextLibrary δ) (d : δ) : Prop where
  length : (lib.isoformat d).toList.length ≤ 42
  plain : ∀ c ∈ (lib.isoformat d).toList, Json.isPlain c = true

theorem transferIdFormat_plain {id : String} (h : transferIdFormat id = true) :
    id.toList.length = 29 ∧ ∀ c ∈ id.toList, Json.isPlain c = true := by
  have hall : crockfordBase32.all Json.isPlain = true := by decide +kernel
  rw [transferIdFormat] at h
  split at h
  · rename_i ulid heq
    simp only [Bool.and_eq_true, beq_iff_eq, List.all_eq_true, List.contains_iff_mem] at h
    rw [heq]
    constructor
    · simp only [List.length_cons, h.1]
    · intro c hc
      simp only [List.mem_cons] at hc
      rcases hc with rfl | rfl | rfl | hc
      · decide
      · decide
      · decide
      · exact List.all_eq_true.mp hall c (h.2 c hc)
  · cases h

theorem toNat_lt_of_plain {c : Char} (h : Json.isPlain c = true) : c.toNat < 128 := by
  simp only [Json.isPlain, Bool.and_eq_true, decide_eq_true_eq] at h
  omega

section

variable {δ : Type} {lib : TextLibrary δ} {c : TransferCursor δ}

theorem dumpsAscii_payload (hinstant : lib.ShortInstant c.createdAt)
    (hid : ∀ x ∈ c.transferId.toList, Json.isPlain x = true) :
    (Json.dumpsAscii (c.payload lib)).toList =
      "\x7b\"t\": \"".toList ++ ((lib.isoformat c.createdAt).toList ++
        ("\", \"id\": \"".toList ++ (c.transferId.toList ++ "\"\x7d".toList))) := by
  have ht : Json.asciiString "t" = "\"t\"".toList := by decide
  have hkey : Json.asciiString "id" = "\"id\"".toList := by decide
  simp only [Json.dumpsAscii, TransferCursor.payload, Json.asciiText, Json.asciiFields,
    String.toList_ofList, ht, hkey, Json.asciiString_plain hinstant.plain,
    Json.asciiString_plain hid]
  simp

/-- The token of a transfer's cursor. -/
theorem length_encode_le (hinstant : lib.ShortInstant c.createdAt)
    (hid : transferIdFormat c.transferId = true) : (c.encode lib).toList.length ≤ 120 := by
  obtain ⟨hlength, hplain⟩ := transferIdFormat_plain hid
  have htext := dumpsAscii_payload hinstant hplain
  have hascii : ∀ x ∈ (Json.dumpsAscii (c.payload lib)).toList, x.toNat < 128 := by
    have hliterals : ("\x7b\"t\": \"".toList.all fun x => decide (x.toNat < 128)) = true ∧
        ("\", \"id\": \"".toList.all fun x => decide (x.toNat < 128)) = true ∧
        ("\"\x7d".toList.all fun x => decide (x.toNat < 128)) = true := by decide +kernel
    obtain ⟨hopen, hbetween, hclose⟩ := hliterals
    intro x hx
    simp only [htext, List.mem_append] at hx
    rcases hx with hx | hx | hx | hx | hx
    · exact of_decide_eq_true (List.all_eq_true.mp hopen x hx)
    · exact toNat_lt_of_plain (hinstant.plain x hx)
    · exact of_decide_eq_true (List.all_eq_true.mp hbetween x hx)
    · exact toNat_lt_of_plain (hplain x hx)
    · exact of_decide_eq_true (List.all_eq_true.mp hclose x hx)
  have hbytes : (utf8 (Json.dumpsAscii (c.payload lib))).length ≤ 90 := by
    have hshort := hinstant.length
    have hliterals : "\x7b\"t\": \"".toList.length = 7 ∧ "\", \"id\": \"".toList.length = 10 ∧
        "\"\x7d".toList.length = 2 := by decide
    rw [length_utf8 hascii, htext]
    simp only [List.length_append, hlength, hliterals]
    omega
  have hstripped : (c.encode lib).toList.length ≤
      (Base64.encode (utf8 (Json.dumpsAscii (c.payload lib)))).length := by
    rw [TransferCursor.encode, String.toList_ofList]
    exact (List.rdropWhile_prefix _ _).length_le
  rw [Base64.length_encode] at hstripped
  omega

end

/-! ## A library by tables -/

/-- A library that knows these instants and these values. -/
def tableLibrary (instants : List (Time × String)) (values : List Json.Value) :
    TextLibrary Time where
  loads bytes := Table.lookup (fun v => utf8 (Json.dumpsAscii v)) bytes values
  isoformat t := ((Table.lookup Prod.fst t instants).map Prod.snd).getD ""
  fromisoformat text := (Table.lookup Prod.snd text instants).map Prod.fst
  str _ := ""

section

variable {instants : List (Time × String)} {values : List Json.Value}

theorem tableLibrary_readsInstant {t : Time} (htimes : (instants.map Prod.fst).Nodup)
    (htexts : (instants.map Prod.snd).Nodup) (ht : t ∈ instants.map Prod.fst) :
    (tableLibrary instants values).ReadsInstant t := by
  obtain ⟨p, hp, rfl⟩ := List.mem_map.mp ht
  rw [TextLibrary.ReadsInstant, tableLibrary]
  simp only [Table.lookup_of_mem htimes hp, Table.lookup_of_mem htexts hp, Option.map_some,
    Option.getD_some]

theorem tableLibrary_readsJson {v : Json.Value}
    (htexts : (values.map fun v => utf8 (Json.dumpsAscii v)).Nodup) (hv : v ∈ values) :
    (tableLibrary instants values).ReadsJson v :=
  Table.lookup_of_mem htexts hv

end

/-- The cursor of a transfer of 2026-09-23. -/
def sampleCursor : TransferCursor Time :=
  ⟨1790170380123456 / 1000000, "tr_01K5VEXAMP1E0000000000000A"⟩

def sampleInstants : List (Time × String) :=
  [(1790170380123456 / 1000000, "2026-09-23T13:33:00.123456+00:00")]

/-- The library, as far as that cursor needs it. -/
def sampleLibrary : TextLibrary Time :=
  tableLibrary sampleInstants [sampleCursor.payload (tableLibrary sampleInstants [])]

/-- 80 bytes of JSON, so that one character of padding is restored. -/
theorem cursor_round_trip_sample :
    TransferCursor.decode sampleLibrary (sampleCursor.encode sampleLibrary) =
      .ok sampleCursor := by
  have hjson : sampleLibrary.ReadsJson (sampleCursor.payload sampleLibrary) :=
    tableLibrary_readsJson (List.nodup_singleton _) (List.mem_singleton.mpr rfl)
  have hinstant : sampleLibrary.ReadsInstant sampleCursor.createdAt :=
    tableLibrary_readsInstant (List.nodup_singleton _) (List.nodup_singleton _)
      (List.mem_singleton.mpr rfl)
  exact (cursor_round_trip hjson hinstant).2

end LoyaltyTransfer
