/-
# `Lib.Uppercase` — capitals in Unicode

The full upper-case mapping: every character stands for a list of characters, its
capital or capitals, and most for themselves.

    ASCII         `a` to `z`
    `expansions`  a character with several capitals, `ß` to `SS`
    `runs`        the others, in runs of consecutive or alternating code points

`upper` maps a text, character by character and without context.  Two texts agree
up to case when one is got from the other by putting capitals for characters and
characters for their capitals (`SameUpToCase`).

**Proved here.**  Capitals are their own capitals (`upperCode_fixed`), so texts
agree up to case exactly when they have the same capitals
(`sameUpToCase_iff_upper`).
-/
import Mathlib

namespace Unicode

/-! ## The mapping -/

/-- The code points from `first` to `last`, `step` apart, with the capitals from
`capital` on. -/
structure Run where
  first : Nat
  last : Nat
  step : Nat
  capital : Nat

def Run.contains (r : Run) (n : Nat) : Bool :=
  Nat.ble r.first n && Nat.ble n r.last && (n - r.first) % r.step == 0

def runs : List Run := [
    ⟨181, 181, 1, 924⟩, ⟨224, 246, 1, 192⟩, ⟨248, 254, 1, 216⟩, ⟨255, 255, 1, 376⟩,
    ⟨257, 303, 2, 256⟩, ⟨305, 305, 1, 73⟩, ⟨307, 311, 2, 306⟩, ⟨314, 328, 2, 313⟩,
    ⟨331, 375, 2, 330⟩, ⟨378, 382, 2, 377⟩, ⟨383, 383, 1, 83⟩, ⟨384, 384, 1, 579⟩,
    ⟨387, 389, 2, 386⟩, ⟨392, 392, 1, 391⟩, ⟨396, 396, 1, 395⟩, ⟨402, 402, 1, 401⟩,
    ⟨405, 405, 1, 502⟩, ⟨409, 409, 1, 408⟩, ⟨410, 410, 1, 573⟩, ⟨414, 414, 1, 544⟩,
    ⟨417, 421, 2, 416⟩, ⟨424, 424, 1, 423⟩, ⟨429, 429, 1, 428⟩, ⟨432, 432, 1, 431⟩,
    ⟨436, 438, 2, 435⟩, ⟨441, 441, 1, 440⟩, ⟨445, 445, 1, 444⟩, ⟨447, 447, 1, 503⟩,
    ⟨453, 453, 1, 452⟩, ⟨454, 454, 1, 452⟩, ⟨456, 456, 1, 455⟩, ⟨457, 457, 1, 455⟩,
    ⟨459, 459, 1, 458⟩, ⟨460, 460, 1, 458⟩, ⟨462, 476, 2, 461⟩, ⟨477, 477, 1, 398⟩,
    ⟨479, 495, 2, 478⟩, ⟨498, 498, 1, 497⟩, ⟨499, 499, 1, 497⟩, ⟨501, 501, 1, 500⟩,
    ⟨505, 543, 2, 504⟩, ⟨547, 563, 2, 546⟩, ⟨572, 572, 1, 571⟩, ⟨575, 576, 1, 11390⟩,
    ⟨578, 578, 1, 577⟩, ⟨583, 591, 2, 582⟩, ⟨592, 592, 1, 11375⟩, ⟨593, 593, 1, 11373⟩,
    ⟨594, 594, 1, 11376⟩, ⟨595, 595, 1, 385⟩, ⟨596, 596, 1, 390⟩, ⟨598, 599, 1, 393⟩,
    ⟨601, 601, 1, 399⟩, ⟨603, 603, 1, 400⟩, ⟨604, 604, 1, 42923⟩, ⟨608, 608, 1, 403⟩,
    ⟨609, 609, 1, 42924⟩, ⟨611, 611, 1, 404⟩, ⟨613, 613, 1, 42893⟩, ⟨614, 614, 1, 42922⟩,
    ⟨616, 616, 1, 407⟩, ⟨617, 617, 1, 406⟩, ⟨618, 618, 1, 42926⟩, ⟨619, 619, 1, 11362⟩,
    ⟨620, 620, 1, 42925⟩, ⟨623, 623, 1, 412⟩, ⟨625, 625, 1, 11374⟩, ⟨626, 626, 1, 413⟩,
    ⟨629, 629, 1, 415⟩, ⟨637, 637, 1, 11364⟩, ⟨640, 640, 1, 422⟩, ⟨642, 642, 1, 42949⟩,
    ⟨643, 643, 1, 425⟩, ⟨647, 647, 1, 42929⟩, ⟨648, 648, 1, 430⟩, ⟨649, 649, 1, 580⟩,
    ⟨650, 651, 1, 433⟩, ⟨652, 652, 1, 581⟩, ⟨658, 658, 1, 439⟩, ⟨669, 669, 1, 42930⟩,
    ⟨670, 670, 1, 42928⟩, ⟨837, 837, 1, 921⟩, ⟨881, 883, 2, 880⟩, ⟨887, 887, 1, 886⟩,
    ⟨891, 893, 1, 1021⟩, ⟨940, 940, 1, 902⟩, ⟨941, 943, 1, 904⟩, ⟨945, 961, 1, 913⟩,
    ⟨962, 962, 1, 931⟩, ⟨963, 971, 1, 931⟩, ⟨972, 972, 1, 908⟩, ⟨973, 974, 1, 910⟩,
    ⟨976, 976, 1, 914⟩, ⟨977, 977, 1, 920⟩, ⟨981, 981, 1, 934⟩, ⟨982, 982, 1, 928⟩,
    ⟨983, 983, 1, 975⟩, ⟨985, 1007, 2, 984⟩, ⟨1008, 1008, 1, 922⟩, ⟨1009, 1009, 1, 929⟩,
    ⟨1010, 1010, 1, 1017⟩, ⟨1011, 1011, 1, 895⟩, ⟨1013, 1013, 1, 917⟩, ⟨1016, 1016, 1, 1015⟩,
    ⟨1019, 1019, 1, 1018⟩, ⟨1072, 1103, 1, 1040⟩, ⟨1104, 1119, 1, 1024⟩, ⟨1121, 1153, 2, 1120⟩,
    ⟨1163, 1215, 2, 1162⟩, ⟨1218, 1230, 2, 1217⟩, ⟨1231, 1231, 1, 1216⟩, ⟨1233, 1327, 2, 1232⟩,
    ⟨1377, 1414, 1, 1329⟩, ⟨4304, 4346, 1, 7312⟩, ⟨4349, 4351, 1, 7357⟩, ⟨5112, 5117, 1, 5104⟩,
    ⟨7296, 7296, 1, 1042⟩, ⟨7297, 7297, 1, 1044⟩, ⟨7298, 7298, 1, 1054⟩, ⟨7299, 7300, 1, 1057⟩,
    ⟨7301, 7301, 1, 1058⟩, ⟨7302, 7302, 1, 1066⟩, ⟨7303, 7303, 1, 1122⟩, ⟨7304, 7304, 1, 42570⟩,
    ⟨7545, 7545, 1, 42877⟩, ⟨7549, 7549, 1, 11363⟩, ⟨7566, 7566, 1, 42950⟩, ⟨7681, 7829, 2, 7680⟩,
    ⟨7835, 7835, 1, 7776⟩, ⟨7841, 7935, 2, 7840⟩, ⟨7936, 7943, 1, 7944⟩, ⟨7952, 7957, 1, 7960⟩,
    ⟨7968, 7975, 1, 7976⟩, ⟨7984, 7991, 1, 7992⟩, ⟨8000, 8005, 1, 8008⟩, ⟨8017, 8023, 2, 8025⟩,
    ⟨8032, 8039, 1, 8040⟩, ⟨8048, 8049, 1, 8122⟩, ⟨8050, 8053, 1, 8136⟩, ⟨8054, 8055, 1, 8154⟩,
    ⟨8056, 8057, 1, 8184⟩, ⟨8058, 8059, 1, 8170⟩, ⟨8060, 8061, 1, 8186⟩, ⟨8112, 8113, 1, 8120⟩,
    ⟨8126, 8126, 1, 921⟩, ⟨8144, 8145, 1, 8152⟩, ⟨8160, 8161, 1, 8168⟩, ⟨8165, 8165, 1, 8172⟩,
    ⟨8526, 8526, 1, 8498⟩, ⟨8560, 8575, 1, 8544⟩, ⟨8580, 8580, 1, 8579⟩, ⟨9424, 9449, 1, 9398⟩,
    ⟨11312, 11359, 1, 11264⟩, ⟨11361, 11361, 1, 11360⟩, ⟨11365, 11365, 1, 570⟩,
    ⟨11366, 11366, 1, 574⟩, ⟨11368, 11372, 2, 11367⟩, ⟨11379, 11379, 1, 11378⟩,
    ⟨11382, 11382, 1, 11381⟩, ⟨11393, 11491, 2, 11392⟩, ⟨11500, 11502, 2, 11499⟩,
    ⟨11507, 11507, 1, 11506⟩, ⟨11520, 11557, 1, 4256⟩, ⟨11559, 11559, 1, 4295⟩,
    ⟨11565, 11565, 1, 4301⟩, ⟨42561, 42605, 2, 42560⟩, ⟨42625, 42651, 2, 42624⟩,
    ⟨42787, 42799, 2, 42786⟩, ⟨42803, 42863, 2, 42802⟩, ⟨42874, 42876, 2, 42873⟩,
    ⟨42879, 42887, 2, 42878⟩, ⟨42892, 42892, 1, 42891⟩, ⟨42897, 42899, 2, 42896⟩,
    ⟨42900, 42900, 1, 42948⟩, ⟨42903, 42921, 2, 42902⟩, ⟨42933, 42947, 2, 42932⟩,
    ⟨42952, 42954, 2, 42951⟩, ⟨42961, 42961, 1, 42960⟩, ⟨42967, 42969, 2, 42966⟩,
    ⟨42998, 42998, 1, 42997⟩, ⟨43859, 43859, 1, 42931⟩, ⟨43888, 43967, 1, 5024⟩,
    ⟨65345, 65370, 1, 65313⟩, ⟨66600, 66639, 1, 66560⟩, ⟨66776, 66811, 1, 66736⟩,
    ⟨66967, 66977, 1, 66928⟩, ⟨66979, 66993, 1, 66940⟩, ⟨66995, 67001, 1, 66956⟩,
    ⟨67003, 67004, 1, 66964⟩, ⟨68800, 68850, 1, 68736⟩, ⟨71872, 71903, 1, 71840⟩,
    ⟨93792, 93823, 1, 93760⟩, ⟨125218, 125251, 1, 125184⟩]

/-- Characters with more than one capital. -/
def expansions : List (Nat × List Nat) := [
    (223, [83, 83]), (329, [700, 78]), (496, [74, 780]), (912, [921, 776, 769]),
    (944, [933, 776, 769]), (1415, [1333, 1362]), (7830, [72, 817]), (7831, [84, 776]),
    (7832, [87, 778]), (7833, [89, 778]), (7834, [65, 702]), (8016, [933, 787]),
    (8018, [933, 787, 768]), (8020, [933, 787, 769]), (8022, [933, 787, 834]),
    (8064, [7944, 921]), (8065, [7945, 921]), (8066, [7946, 921]), (8067, [7947, 921]),
    (8068, [7948, 921]), (8069, [7949, 921]), (8070, [7950, 921]), (8071, [7951, 921]),
    (8072, [7944, 921]), (8073, [7945, 921]), (8074, [7946, 921]), (8075, [7947, 921]),
    (8076, [7948, 921]), (8077, [7949, 921]), (8078, [7950, 921]), (8079, [7951, 921]),
    (8080, [7976, 921]), (8081, [7977, 921]), (8082, [7978, 921]), (8083, [7979, 921]),
    (8084, [7980, 921]), (8085, [7981, 921]), (8086, [7982, 921]), (8087, [7983, 921]),
    (8088, [7976, 921]), (8089, [7977, 921]), (8090, [7978, 921]), (8091, [7979, 921]),
    (8092, [7980, 921]), (8093, [7981, 921]), (8094, [7982, 921]), (8095, [7983, 921]),
    (8096, [8040, 921]), (8097, [8041, 921]), (8098, [8042, 921]), (8099, [8043, 921]),
    (8100, [8044, 921]), (8101, [8045, 921]), (8102, [8046, 921]), (8103, [8047, 921]),
    (8104, [8040, 921]), (8105, [8041, 921]), (8106, [8042, 921]), (8107, [8043, 921]),
    (8108, [8044, 921]), (8109, [8045, 921]), (8110, [8046, 921]), (8111, [8047, 921]),
    (8114, [8122, 921]), (8115, [913, 921]), (8116, [902, 921]), (8118, [913, 834]),
    (8119, [913, 834, 921]), (8124, [913, 921]), (8130, [8138, 921]), (8131, [919, 921]),
    (8132, [905, 921]), (8134, [919, 834]), (8135, [919, 834, 921]), (8140, [919, 921]),
    (8146, [921, 776, 768]), (8147, [921, 776, 769]), (8150, [921, 834]), (8151, [921, 776, 834]),
    (8162, [933, 776, 768]), (8163, [933, 776, 769]), (8164, [929, 787]), (8166, [933, 834]),
    (8167, [933, 776, 834]), (8178, [8186, 921]), (8179, [937, 921]), (8180, [911, 921]),
    (8182, [937, 834]), (8183, [937, 834, 921]), (8188, [937, 921]), (64256, [70, 70]),
    (64257, [70, 73]), (64258, [70, 76]), (64259, [70, 70, 73]), (64260, [70, 70, 76]),
    (64261, [83, 84]), (64262, [83, 84]), (64275, [1348, 1350]), (64276, [1348, 1333]),
    (64277, [1348, 1339]), (64278, [1358, 1350]), (64279, [1348, 1341])]

/-- The capitals of a code point. -/
def upperCode (n : Nat) : List Nat :=
  if n < 128 then [if 97 ≤ n ∧ n ≤ 122 then n - 32 else n]
  else
    match expansions.find? fun e => e.1 == n with
    | some e => e.2
    | none =>
        match runs.find? fun r => r.contains n with
        | some r => [r.capital + (n - r.first)]
        | none => [n]

def upperChar (c : Char) : List Char := (upperCode c.toNat).map Char.ofNat

def upperChars (cs : List Char) : List Char := cs.flatMap upperChar

def upper (s : String) : String := String.ofList (upperChars s.toList)

/-! ## Capitals are their own capitals -/

/-- No capital of the run `r` has a code point that `r'` contains. -/
def Run.apart (r r' : Run) : Bool :=
  Nat.blt (r.capital + (r.last - r.first)) r'.first || Nat.blt r'.last r.capital ||
    Nat.beq r'.step 2 && Nat.beq ((r.capital + r'.first) % 2) 1 &&
      (Nat.beq r.step 2 || Nat.beq r.first r.last)

/-- The capitals of a run are characters. -/
def Run.valid (r : Run) : Bool :=
  Nat.blt (r.capital + (r.last - r.first)) 0xD800 ||
    Nat.blt 0xDFFF r.capital && Nat.blt (r.capital + (r.last - r.first)) 0x110000

/-- The small letters of ASCII. -/
def asciiRun : Run := ⟨97, 122, 1, 65⟩

/-- An expansion's one code point, as a run. -/
def single (n : Nat) : Run := ⟨n, n, 2, n⟩

theorem Run.contains_iff {r : Run} {n : Nat} :
    r.contains n = true ↔ r.first ≤ n ∧ n ≤ r.last ∧ (n - r.first) % r.step = 0 := by
  simp only [Run.contains, Bool.and_eq_true, Nat.ble_eq, beq_iff_eq, and_assoc]

theorem Run.apart_iff {r r' : Run} :
    r.apart r' = true ↔ r.capital + (r.last - r.first) < r'.first ∨ r'.last < r.capital ∨
      r'.step = 2 ∧ (r.capital + r'.first) % 2 = 1 ∧ (r.step = 2 ∨ r.first = r.last) := by
  simp only [Run.apart, Bool.or_eq_true, Bool.and_eq_true, Nat.blt_eq, Nat.beq_eq, or_assoc,
    and_assoc]

theorem Run.apart.not_contains {r r' : Run} {n : Nat} (h : r.apart r' = true)
    (hn : r.contains n = true) : r'.contains (r.capital + (n - r.first)) = false := by
  rw [Bool.eq_false_iff]
  intro hcontains
  obtain ⟨hfirst, hlast, hstep⟩ := Run.contains_iff.mp hn
  obtain ⟨hfirst', hlast', hstep'⟩ := Run.contains_iff.mp hcontains
  rcases Run.apart_iff.mp h with hbelow | habove | ⟨htwo', hodd, htwo | hone⟩
  · omega
  · omega
  · rw [htwo] at hstep
    rw [htwo'] at hstep'
    omega
  · rw [htwo'] at hstep'
    omega

theorem runs_apart :
    runs.all (fun r => r.valid && r.apart asciiRun && runs.all fun r' => r.apart r') = true := by
  decide +kernel

theorem runs_expansions_apart :
    runs.all (fun r => expansions.all fun e => r.apart (single e.1)) = true := by
  decide +kernel

/-- A code point of a character that is its own capital. -/
def isFixed (m : Nat) : Bool := upperCode m == [m] && decide m.isValidChar

theorem isFixed_iff {m : Nat} : isFixed m = true ↔ upperCode m = [m] ∧ m.isValidChar := by
  simp only [isFixed, Bool.and_eq_true, beq_iff_eq, decide_eq_true_eq]

theorem ascii_fixed :
    (List.range 128).all (fun n => isFixed (if 97 ≤ n ∧ n ≤ 122 then n - 32 else n)) = true := by
  decide +kernel

theorem expansions_fixed : expansions.all (fun e => e.2.all isFixed) = true := by decide +kernel

/-- The capital of a code point in a run. -/
theorem run_fixed {r : Run} {n : Nat} (hr : r ∈ runs) (hn : r.contains n = true) :
    upperCode (r.capital + (n - r.first)) = [r.capital + (n - r.first)] ∧
      (r.capital + (n - r.first)).isValidChar := by
  have hall := List.all_eq_true.mp runs_apart r hr
  simp only [Bool.and_eq_true] at hall
  obtain ⟨⟨hvalid, hascii⟩, hruns⟩ := hall
  have hexpansions := List.all_eq_true.mp runs_expansions_apart r hr
  constructor
  · rw [upperCode]
    split
    · have hno := Run.apart.not_contains hascii hn
      rw [Bool.eq_false_iff, ne_eq, Run.contains_iff] at hno
      rw [if_neg]
      intro hsmall
      exact hno ⟨hsmall.1, hsmall.2, Nat.mod_one _⟩
    · have hnone : expansions.find? (fun e => e.1 == r.capital + (n - r.first)) = none := by
        refine List.find?_eq_none.mpr ?_
        intro e he heq
        have hno := Run.apart.not_contains (List.all_eq_true.mp hexpansions e he) hn
        rw [Bool.eq_false_iff, ne_eq, Run.contains_iff] at hno
        rw [← beq_iff_eq.mp heq] at hno
        exact hno ⟨le_refl e.1, le_refl e.1, by simp [single]⟩
      have hnoRun : runs.find? (fun r' => r'.contains (r.capital + (n - r.first))) = none := by
        refine List.find?_eq_none.mpr ?_
        intro r' hr'
        rw [Run.apart.not_contains (List.all_eq_true.mp hruns r' hr') hn]
        exact Bool.false_ne_true
      simp only [hnone, hnoRun]
  · obtain ⟨hfirst, hlast, -⟩ := Run.contains_iff.mp hn
    simp only [Run.valid, Bool.or_eq_true, Bool.and_eq_true, Nat.blt_eq] at hvalid
    rw [Nat.isValidChar]
    omega

theorem upperCode_fixed {n m : Nat} (hn : n.isValidChar) (hm : m ∈ upperCode n) :
    upperCode m = [m] ∧ m.isValidChar := by
  rw [upperCode] at hm
  split at hm
  · rename_i hascii
    rw [List.mem_singleton.mp hm]
    exact isFixed_iff.mp (List.all_eq_true.mp ascii_fixed n (List.mem_range.mpr hascii))
  · rename_i hascii
    split at hm
    · rename_i e he
      have hall := List.all_eq_true.mp expansions_fixed e (List.mem_of_find?_eq_some he)
      exact isFixed_iff.mp (List.all_eq_true.mp hall m hm)
    · rename_i hnone
      split at hm
      · rename_i r hr
        have hcontains : r.contains n = true :=
          List.find?_some (p := fun r : Run => r.contains n) hr
        rw [List.mem_singleton.mp hm]
        exact run_fixed (List.mem_of_find?_eq_some hr) hcontains
      · rename_i hnoRun
        obtain rfl := List.mem_singleton.mp hm
        refine ⟨?_, hn⟩
        rw [upperCode, if_neg hascii]
        simp only [hnone, hnoRun]

/-! ## Texts -/

theorem upperChars_append (cs ds : List Char) :
    upperChars (cs ++ ds) = upperChars cs ++ upperChars ds := List.flatMap_append

/-- Mapping twice is mapping once. -/
theorem upperChars_upperChar (c : Char) : upperChars (upperChar c) = upperChar c := by
  have hcode : ∀ ms : List Nat, ms ⊆ upperCode c.toNat →
      upperChars (ms.map Char.ofNat) = ms.map Char.ofNat := by
    intro ms
    induction ms with
    | nil => exact fun _ => rfl
    | cons m ms ih =>
        intro hms
        obtain ⟨hfixed, hvalid⟩ := upperCode_fixed c.valid (hms (List.mem_cons_self ..))
        have hm : upperChar (Char.ofNat m) = [Char.ofNat m] := by
          rw [upperChar, Char.toNat_ofNat, if_pos hvalid, hfixed]
          rfl
        rw [List.map_cons, upperChars, List.flatMap_cons, hm, ← upperChars,
          ih fun x hx => hms (List.mem_cons_of_mem _ hx)]
        rfl
  exact hcode _ (List.Subset.refl _)

/-- One character is put in capitals. -/
inductive Capitalized : List Char → List Char → Prop
  | char (before : List Char) (c : Char) (after : List Char) :
      Capitalized (before ++ c :: after) (before ++ (upperChar c ++ after))

/-- Two texts agree up to case. -/
def SameUpToCase (s s' : String) : Prop := Relation.EqvGen Capitalized s.toList s'.toList

theorem Capitalized.upperChars {cs ds : List Char} (h : Capitalized cs ds) :
    upperChars cs = Unicode.upperChars ds := by
  cases h with
  | char before c after =>
      rw [upperChars_append, upperChars_append, upperChars_append, upperChars_upperChar]
      rfl

/-- A text becomes its capitals one character after the other. -/
theorem eqvGen_upperChars (cs : List Char) :
    Relation.EqvGen Capitalized cs (upperChars cs) := by
  have hfrom : ∀ before, Relation.EqvGen Capitalized (before ++ cs) (before ++ upperChars cs) := by
    induction cs with
    | nil => exact fun before => .refl _
    | cons c cs ih =>
        intro before
        have hstep := Relation.EqvGen.rel _ _ (Capitalized.char before c cs)
        have hrest := ih (before ++ upperChar c)
        rw [List.append_assoc, List.append_assoc] at hrest
        exact hstep.trans _ _ _ hrest
  exact hfrom []

theorem upperChars_eq_of_eqvGen {cs ds : List Char} (h : Relation.EqvGen Capitalized cs ds) :
    upperChars cs = upperChars ds := by
  induction h with
  | rel cs ds h => exact h.upperChars
  | refl cs => rfl
  | symm cs ds _ ih => exact ih.symm
  | trans cs ds es _ _ ih ih' => exact ih.trans ih'

theorem sameUpToCase_iff_upper {s s' : String} : SameUpToCase s s' ↔ upper s = upper s' := by
  rw [upper, upper, String.ofList_inj]
  constructor
  · exact upperChars_eq_of_eqvGen
  · intro h
    have hright := (eqvGen_upperChars s'.toList).symm
    rw [← h] at hright
    exact (eqvGen_upperChars s.toList).trans _ _ _ hright

end Unicode
