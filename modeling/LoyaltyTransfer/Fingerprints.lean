/-
# `LoyaltyTransfer.Fingerprints` — which requests share a fingerprint

`compute_fingerprint` digests one text: the method in capitals, the path and the
canonical body, a newline between them.  A stored answer is replayed to any request
with the fingerprint of the one it was stored for, so what the text forgets is what
a client may change in a retry.

    method   its case (`Unicode.SameUpToCase`)
    path     nothing
    body     the order of members, at every level (`Json.SameUpToOrder`)

The body is one line, so the last newline ends the path; a path without a newline
makes the newline before it the end of the method, whatever that is.

**Proved here.**  The text tells apart all else (`fingerprintText_eq_iff`), so where
SHA-256 tells the two texts apart the fingerprint does (`fingerprints_equal_iff`).
Requests for different transfers have different fingerprints (`Config.fingerprint_inj`).
-/
import LoyaltyTransfer.Engine
import LoyaltyTransfer.Lib.JsonOrder

namespace LoyaltyTransfer

/-! ## Where the parts of the text end -/

theorem separator_inj {α : Type*} {c : α} {as ys ys' : List α} (hy : c ∉ ys)
    (h : c :: ys = as ++ c :: ys') : as = [] ∧ ys = ys' := by
  cases as with
  | nil =>
      rw [List.nil_append, List.cons.injEq] at h
      exact ⟨rfl, h.2⟩
  | cons a as =>
      rw [List.cons_append, List.cons.injEq] at h
      exact absurd (h.2 ▸ List.mem_append_right as (List.mem_cons_self ..)) hy

/-- What stands before the last separator, and what follows it. -/
theorem append_separator_inj {α : Type*} {c : α} {xs xs' ys ys' : List α} (hy : c ∉ ys)
    (hy' : c ∉ ys') (h : xs ++ c :: ys = xs' ++ c :: ys') : xs = xs' ∧ ys = ys' := by
  rcases List.append_eq_append_iff.mp h with ⟨as, hxs, hys⟩ | ⟨as, hxs, hys⟩
  · obtain ⟨rfl, rfl⟩ := separator_inj hy hys
    exact ⟨(hxs.trans (List.append_nil _)).symm, rfl⟩
  · obtain ⟨rfl, rfl⟩ := separator_inj hy' hys
    exact ⟨hxs.trans (List.append_nil _), rfl⟩

theorem toList_fingerprintText (method path : String) (body : Json.Value) :
    (fingerprintText method path body).toList =
      ((Unicode.upper method).toList ++ '\n' :: path.toList) ++
        '\n' :: Json.dumps (Json.canon body) := by
  simp [fingerprintText, Json.canonical]

/-- Of paths without a newline, the text keeps each of its three parts. -/
theorem fingerprintText_inj {method method' path path' : String} {body body' : Json.Value}
    (hpath : '\n' ∉ path.toList) (hpath' : '\n' ∉ path'.toList)
    (h : fingerprintText method path body = fingerprintText method' path' body') :
    Unicode.upper method = Unicode.upper method' ∧ path = path' ∧
      Json.canon body = Json.canon body' := by
  have htext := congrArg String.toList h
  rw [toList_fingerprintText, toList_fingerprintText] at htext
  obtain ⟨hhead, hbody⟩ := append_separator_inj (Json.newline_not_mem_dumps _)
    (Json.newline_not_mem_dumps _) htext
  obtain ⟨hmethod, hpaths⟩ := append_separator_inj hpath hpath' hhead
  refine ⟨String.toList_inj.mp hmethod, String.toList_inj.mp hpaths, ?_⟩
  exact Json.canonical_inj.mp (congrArg String.ofList hbody)

theorem fingerprintText_eq_iff {method method' path path' : String} {body body' : Json.Value}
    (hpath : '\n' ∉ path.toList) (hpath' : '\n' ∉ path'.toList)
    (hkeys : Json.distinctKeys body' = true) :
    fingerprintText method path body = fingerprintText method' path' body' ↔
      Unicode.SameUpToCase method method' ∧ path = path' ∧ Json.SameUpToOrder body body' := by
  rw [Unicode.sameUpToCase_iff_upper, ← Json.canon_eq_iff hkeys]
  constructor
  · exact fingerprintText_inj hpath hpath'
  · rintro ⟨hmethod, rfl, hbody⟩
    rw [fingerprintText, fingerprintText, hmethod, Json.canonical_inj.mpr hbody]

/-! ## Digests -/

/-- The two texts have one digest only if they are one. -/
def NoCollision (digest : String → String) (text text' : String) : Prop :=
  digest text = digest text' → text = text'

/-- Where SHA-256 does not take the two texts for one another, two requests have one
fingerprint exactly when their methods agree up to case, their paths are equal, and their
bodies are equal up to the order of members.  A body is built from dictionaries, which
name each member once; that the other one does follows. -/
theorem fingerprints_equal_iff {sha256 : String → String} {method method' path path' : String}
    {body body' : Json.Value} (hpath : '\n' ∉ path.toList) (hpath' : '\n' ∉ path'.toList)
    (hkeys : Json.distinctKeys body' = true)
    (hsha : NoCollision sha256 (fingerprintText method path body)
      (fingerprintText method' path' body')) :
    computeFingerprint sha256 method path body = computeFingerprint sha256 method' path' body' ↔
      Unicode.SameUpToCase method method' ∧ path = path' ∧ Json.SameUpToOrder body body' := by
  rw [← fingerprintText_eq_iff hpath hpath' hkeys]
  exact ⟨hsha, congrArg sha256⟩

/-- `BODY` of the unit tests, with these points. -/
def testBody (points : Json.Value) : Json.Value :=
  .obj [("source_program", .str "NOVA_REWARDS"), ("destination_program", .str "SKYWARD_MILES"),
    ("points", points)]

def reorderedTestBody : Json.Value :=
  .obj [("points", .int 1000), ("destination_program", .str "SKYWARD_MILES"),
    ("source_program", .str "NOVA_REWARDS")]

/-- SHA-256 of two texts, the points a number in one and a string in the other. -/
def testSha256 (text : String) : String :=
  if text = fingerprintText "POST" "/v1/transfers" (testBody (.int 1000)) then
    "8dea271c3e274df18d0e21ddf28a0ce549433a7670fad09b29f2b596b636fe78"
  else if text = fingerprintText "POST" "/v1/transfers" (testBody (.str "1000")) then
    "ff89d1c1e951d64dc274888c3b82749d5c1db5e3b55c92cbefe9dfc75b1b117b"
  else text

theorem test_fingerprints :
    computeFingerprint testSha256 "post" "/v1/transfers" (testBody (.int 1000)) =
        computeFingerprint testSha256 "POST" "/v1/transfers" reorderedTestBody ∧
      computeFingerprint testSha256 "post" "/v1/transfers" (testBody (.int 1000)) ≠
        computeFingerprint testSha256 "POST" "/v1/transfers" (testBody (.str "1000")) := by
  have hpath : '\n' ∉ "/v1/transfers".toList := by decide
  constructor
  · refine (fingerprints_equal_iff hpath hpath (by decide) ?_).mpr ⟨?_, rfl, ?_⟩
    · intro _
      decide +kernel
    · exact Unicode.sameUpToCase_iff_upper.mpr (by decide +kernel)
    · rw [← Json.canon_eq_iff (by decide), ← Json.canonical_inj]
      decide +kernel
  · intro heq
    refine absurd ((fingerprints_equal_iff hpath hpath (by decide) ?_).mp heq).2.2 ?_
    · intro hdigest
      exact absurd hdigest (by decide +kernel)
    · rw [← Json.canon_eq_iff (by decide), ← Json.canonical_inj]
      decide +kernel

/-! ## Transfer requests -/

/-- Transfer requests have different bodies, in whatever order the members stand. -/
theorem TransferRequest.dump_inj {body body' : TransferRequest}
    (h : Json.canon body.dump = Json.canon body'.dump) : body = body' := by
  cases body with
  | mk source destination points =>
      cases body' with
      | mk source' destination' points' =>
          have hfields : destination = destination' ∧ points = points' ∧ source = source' := by
            simpa [TransferRequest.dump, Json.canon, Json.canonFields] using h
          obtain ⟨rfl, rfl, rfl⟩ := hfields
          rfl

/-- Where SHA-256 does not take the texts of two requests for one another, they have one
fingerprint only if they ask for the same transfer. -/
theorem Config.fingerprint_inj {cfg : Config} {body body' : TransferRequest}
    (hsha : NoCollision cfg.sha256 (fingerprintText "POST" "/v1/transfers" body.dump)
      (fingerprintText "POST" "/v1/transfers" body'.dump))
    (h : cfg.fingerprint body = cfg.fingerprint body') : body = body' := by
  have hpath : '\n' ∉ "/v1/transfers".toList := by decide
  exact TransferRequest.dump_inj (fingerprintText_inj hpath hpath (hsha h)).2.2

end LoyaltyTransfer
