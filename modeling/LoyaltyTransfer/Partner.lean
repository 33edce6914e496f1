/-
# `LoyaltyTransfer.Partner` — what a partner answered

`app/partners/base.py` and `app/partners/http_partner.py`.  Every partner
outcome is classified into one of four cases, because each one requires a
different action from the saga:

    SUCCESS    the partner confirmed the credit                → settle
    REJECTED   the partner definitively refused it             → reverse
    NOT_SENT   the request provably never reached the partner  → reverse
    UNKNOWN    the request may or may not have been applied    → verify later
-/
import LoyaltyTransfer.Lib.Printable
import LoyaltyTransfer.Domain

namespace LoyaltyTransfer

/-! ## `base.py` -/

inductive CreditOutcome where
  | success
  | rejected
  | notSent
  | unknown
  deriving DecidableEq, Repr

def CreditOutcome.value : CreditOutcome → String
  | .success => "SUCCESS"
  | .rejected => "REJECTED"
  | .notSent => "NOT_SENT"
  | .unknown => "UNKNOWN"

structure PartnerCreditResult where
  outcome : CreditOutcome
  reason : String
  retryable : Bool
  confirmationId : Option String := none
  httpStatus : Option Nat := none
  attempts : Nat := 1
  deriving DecidableEq, Repr

inductive CreditStatus where
  | completed
  | notFound
  | unknown
  deriving DecidableEq, Repr

def CreditStatus.value : CreditStatus → String
  | .completed => "COMPLETED"
  | .notFound => "NOT_FOUND"
  | .unknown => "UNKNOWN"

structure PartnerStatusResult where
  status : CreditStatus
  reason : String
  retryable : Bool
  confirmationId : Option String := none
  httpStatus : Option Nat := none
  attempts : Nat := 1
  deriving DecidableEq, Repr

/-! ## `http_partner.py` -/

/-- A response as the client reads it: the status code and the body, where a
body that is not JSON is `none`. -/
structure HttpResponse where
  statusCode : Nat
  body : Option Json.Value

/-- What `httpx` raises instead of a response, by the class it belongs to. -/
inductive TransportError where
  | connectError
  | connectTimeout
  | poolTimeout
  | other (name : String)
  deriving DecidableEq, Repr

def TransportError.name : TransportError → String
  | .connectError => "ConnectError"
  | .connectTimeout => "ConnectTimeout"
  | .poolTimeout => "PoolTimeout"
  | .other name => name

/-- `_NOT_SENT_ERRORS`: raised before any byte reached the partner. -/
def TransportError.notSent : TransportError → Bool
  | .connectError | .connectTimeout | .poolTimeout => true
  | .other _ => false

/-- `_json(response).get(name)`: the body's field when it is an object. -/
def HttpResponse.field (r : HttpResponse) (name : String) : Option Json.Value :=
  match r.body with
  | some (.obj fields) => (Json.Value.obj fields).get name
  | _ => none

/-- `body.get("confirmation_id")` when it is a non-empty string. -/
def HttpResponse.confirmationId (r : HttpResponse) : Option String :=
  match r.field "confirmation_id" with
  | some (.str s) => nonempty (some s)
  | _ => none

/-- `str.isprintable` of a character. -/
def pyPrintable (c : Char) : Bool := Unicode.printable c

/-- A code point in hexadecimal, `width` digits. -/
def pyHex (width n : Nat) : List Char :=
  (List.range width).reverse.map fun i => Json.hexDigit (n / 16 ^ i % 16)

/-- A character inside `repr` of a string quoted with `quote`. -/
def pyEscape (quote c : Char) : List Char :=
  if c = '\\' ∨ c = quote then ['\\', c]
  else if c = '\n' then ['\\', 'n']
  else if c = '\r' then ['\\', 'r']
  else if c = '\t' then ['\\', 't']
  else if pyPrintable c then [c]
  else if c.toNat < 0x100 then '\\' :: 'x' :: pyHex 2 c.toNat
  else if c.toNat < 0x10000 then '\\' :: 'u' :: pyHex 4 c.toNat
  else '\\' :: 'U' :: pyHex 8 c.toNat

/-- `repr` of a string: single quotes, unless it holds one and no double one. -/
def pyReprString (s : String) : String :=
  let quote := if s.toList.contains '\'' && !s.toList.contains '"' then '"' else '\''
  String.ofList (quote :: (s.toList.flatMap (pyEscape quote) ++ [quote]))

/-- `repr` of a `float`. -/
def pyReprFloat (x : Json.Float) : String :=
  if x.text = "NaN" then "nan"
  else if x.text = "Infinity" then "inf"
  else if x.text = "-Infinity" then "-inf"
  else x.text

mutual
/-- `repr` of a decoded JSON value. -/
def pyRepr : Json.Value → String
  | .null => "None"
  | .bool true => "True"
  | .bool false => "False"
  | .int n => toString n
  | .float x => pyReprFloat x
  | .str s => pyReprString s
  | .arr xs => "[" ++ ", ".intercalate (pyReprList xs) ++ "]"
  | .obj fields => "\x7b" ++ ", ".intercalate (pyReprFields fields) ++ "\x7d"
def pyReprList : List Json.Value → List String
  | [] => []
  | v :: vs => pyRepr v :: pyReprList vs
def pyReprFields : List (String × Json.Value) → List String
  | [] => []
  | (k, v) :: fs => (pyReprString k ++ ": " ++ pyRepr v) :: pyReprFields fs
end

/-- Python's truth of a decoded JSON value. -/
def pyTruthy : Json.Value → Bool
  | .null | .bool false | .int 0 | .str "" | .arr [] | .obj [] => false
  | .float x => !(x.text == "0.0" || x.text == "-0.0")
  | _ => true

/-- `str(body.get("error") or f"http_{code}")`. -/
def HttpResponse.errorText (r : HttpResponse) : String :=
  match (r.field "error").filter pyTruthy with
  | some (.str s) => s
  | some v => pyRepr v
  | none => s!"http_{r.statusCode}"

def classifyCreditResponse (r : HttpResponse) : PartnerCreditResult :=
  if r.statusCode = 200 ∨ r.statusCode = 201 then
    match r.confirmationId with
    | some c => {
        outcome := .success, reason := "credited", retryable := false
        confirmationId := some c, httpStatus := some r.statusCode }
    | none => {
        outcome := .unknown, reason := "success_without_confirmation", retryable := true
        httpStatus := some r.statusCode }
  else if r.statusCode = 429 then {
    outcome := .notSent, reason := "throttled", retryable := true
    httpStatus := some r.statusCode }
  else if 400 ≤ r.statusCode ∧ r.statusCode < 500 then {
    outcome := .rejected, reason := r.errorText, retryable := false
    httpStatus := some r.statusCode }
  else {
    outcome := .unknown, reason := s!"partner_error_{r.statusCode}", retryable := true
    httpStatus := some r.statusCode }

def classifyStatusResponse (r : HttpResponse) : PartnerStatusResult :=
  let failed : PartnerStatusResult := {
    status := .unknown, reason := s!"status_check_failed_{r.statusCode}", retryable := true
    httpStatus := some r.statusCode }
  if r.statusCode = 200 then
    match r.confirmationId with
    | some c => {
        status := .completed, reason := "credit_found", retryable := false
        confirmationId := some c, httpStatus := some r.statusCode }
    | none => failed
  else if r.statusCode = 404 then {
    status := .notFound, reason := "credit_not_found", retryable := false
    httpStatus := some r.statusCode }
  else failed

/-- `HttpPartnerAdapter.credit_points`, from how its HTTP request ended. -/
def HttpPartnerAdapter.creditPoints : Except TransportError HttpResponse → PartnerCreditResult
  | .ok r => classifyCreditResponse r
  | .error e =>
      if e.notSent then {
        outcome := .notSent, reason := s!"connection_failed: {e.name}", retryable := true }
      else { outcome := .unknown, reason := s!"no_response: {e.name}", retryable := true }

/-- `HttpPartnerAdapter.get_credit_status`, from how its HTTP request ended. -/
def HttpPartnerAdapter.getCreditStatus : Except TransportError HttpResponse → PartnerStatusResult
  | .ok r => classifyStatusResponse r
  | .error e => { status := .unknown, reason := s!"no_response: {e.name}", retryable := true }

/-! ## What a success rests on -/

/-- The adapter reports SUCCESS only of a 200 or 201 that carries the
confirmation id it reports. -/
theorem creditPoints_success {x : Except TransportError HttpResponse}
    (h : (HttpPartnerAdapter.creditPoints x).outcome = .success) :
    ∃ r, x = .ok r ∧ (r.statusCode = 200 ∨ r.statusCode = 201) ∧
      r.confirmationId = (HttpPartnerAdapter.creditPoints x).confirmationId := by
  cases x with
  | error e =>
      simp only [HttpPartnerAdapter.creditPoints] at h
      split at h <;> cases h
  | ok r =>
      refine ⟨r, rfl, ?_⟩
      simp only [HttpPartnerAdapter.creditPoints, classifyCreditResponse] at h ⊢
      split at h
      · rename_i hcode
        refine ⟨hcode, ?_⟩
        rw [if_pos hcode]
        cases hc : r.confirmationId with
        | none => rfl
        | some c => rfl
      · split at h
        · cases h
        · split at h <;> cases h

/-- The adapter reports COMPLETED only of a 200 that carries the confirmation
id it reports. -/
theorem getCreditStatus_completed {x : Except TransportError HttpResponse}
    (h : (HttpPartnerAdapter.getCreditStatus x).status = .completed) :
    ∃ r, x = .ok r ∧ r.statusCode = 200 ∧
      r.confirmationId = (HttpPartnerAdapter.getCreditStatus x).confirmationId := by
  cases x with
  | error e => cases h
  | ok r =>
      refine ⟨r, rfl, ?_⟩
      simp only [HttpPartnerAdapter.getCreditStatus, classifyStatusResponse] at h ⊢
      split at h
      · rename_i hcode
        refine ⟨hcode, ?_⟩
        rw [if_pos hcode]
        cases hc : r.confirmationId with
        | none => rfl
        | some c => rfl
      · split at h <;> cases h

end LoyaltyTransfer
