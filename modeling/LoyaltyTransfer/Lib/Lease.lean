/-
# `Lib.Lease` — locks with a deadline in a store that forgets

A store holds at most one entry under a key: the token of the one who set it and a
deadline, from which on the entry is gone by itself.  A lock is taken by setting the
key if it is free and given up by deleting it if it still holds one's own token.  The
server may also lose a key.

    setNx           SET key token NX PX …
    compareDelete   if GET key = token then DEL key
    lose            the key is gone

**Proved here.**  Who holds a key keeps everybody else out (`setNx_refused`), and goes
on holding it whatever anybody sets (`Store.Holds.setNx`) and whatever is deleted with
another token, at whatever time (`Store.Holds.compareDelete`), until the deadline.
-/
import Mathlib

namespace Lease

variable {κ τ T : Type} [DecidableEq κ] [LinearOrder T]

structure Entry (τ T : Type) where
  token : τ
  deadline : T
  deriving DecidableEq

abbrev Store (κ τ T : Type) := κ → Option (Entry τ T)

/-- The entry under a key, unless its deadline has passed. -/
def Store.live {κ : Type} (store : Store κ τ T) (now : T) (key : κ) : Option (Entry τ T) :=
  (store key).filter fun e => decide (now < e.deadline)

/-- Set the key if it is free, and say whether it was. -/
def Store.setNx (store : Store κ τ T) (now : T) (key : κ) (token : τ) (deadline : T) :
    Bool × Store κ τ T :=
  if (store.live now key).isSome then (false, store)
  else (true, Function.update store key (some ⟨token, deadline⟩))

/-- Delete the key if it holds this token. -/
def Store.compareDelete [DecidableEq τ] (store : Store κ τ T) (now : T) (key : κ) (token : τ) :
    Store κ τ T :=
  if (store.live now key).any fun e => decide (e.token = token) then
    Function.update store key none
  else store

def Store.lose (store : Store κ τ T) (key : κ) : Store κ τ T := Function.update store key none

/-- The key is under this token, until the deadline. -/
def Store.Holds {κ : Type} (store : Store κ τ T) (now : T) (key : κ) (token : τ) (deadline : T) :
    Prop :=
  store.live now key = some ⟨token, deadline⟩

section

variable {κ : Type} {store : Store κ τ T} {now later : T} {key : κ} {token token' : τ}
  {deadline deadline' : T}

theorem holds_iff :
    store.Holds now key token deadline ↔ store key = some ⟨token, deadline⟩ ∧ now < deadline := by
  simp [Store.Holds, Store.live, Option.filter_eq_some_iff]

theorem Store.Holds.wait (h : store.Holds now key token deadline) (hlater : later < deadline) :
    store.Holds later key token deadline :=
  holds_iff.mpr ⟨(holds_iff.mp h).1, hlater⟩

/-- A key has one holder. -/
theorem Store.Holds.unique (h : store.Holds now key token deadline)
    (h' : store.Holds now key token' deadline') : token = token' := by
  rw [Store.Holds, h] at h'
  cases h'
  rfl

end

variable {store store' : Store κ τ T} {now : T} {key key' : κ} {token token' : τ}
  {deadline deadline' : T}

/-! ## Taking and giving up -/

/-- A held key is refused. -/
theorem setNx_refused (h : store.Holds now key token deadline) :
    store.setNx now key token' deadline' = (false, store) := by
  rw [Store.setNx, h]
  rfl

/-- What setting a key can come to: somebody holds it, or one holds it from now on. -/
theorem setNx_cases (store : Store κ τ T) (now : T) (key : κ) (token : τ) (deadline : T) :
    (∃ holder until_, store.Holds now key holder until_ ∧
      store.setNx now key token deadline = (false, store)) ∨
    store.setNx now key token deadline =
      (true, Function.update store key (some ⟨token, deadline⟩)) := by
  cases hlive : store.live now key with
  | some e => exact .inl ⟨e.token, e.deadline, hlive, setNx_refused hlive⟩
  | none =>
      refine .inr ?_
      rw [Store.setNx, hlive]
      rfl

/-- Who is granted the key holds it. -/
theorem holds_granted (h : store.setNx now key token deadline = (true, store'))
    (hnow : now < deadline) : store'.Holds now key token deadline := by
  rcases setNx_cases store now key token deadline with ⟨_, _, -, heq⟩ | heq
  · rw [heq] at h
    cases h
  · rw [heq] at h
    cases h
    refine holds_iff.mpr ⟨?_, hnow⟩
    rw [Function.update_self]

theorem Store.Holds.update (h : store.Holds now key token deadline) (hne : key' ≠ key)
    (e : Option (Entry τ T)) :
    Store.Holds (Function.update store key' e) now key token deadline := by
  refine holds_iff.mpr ⟨?_, (holds_iff.mp h).2⟩
  rw [Function.update_of_ne (Ne.symm hne)]
  exact (holds_iff.mp h).1

/-- Whatever is set, a holder stays. -/
theorem Store.Holds.setNx (h : store.Holds now key token deadline) (key' : κ) (token' : τ)
    (deadline' : T) :
    (store.setNx now key' token' deadline').2.Holds now key token deadline := by
  by_cases hk : key' = key
  · subst hk
    rw [setNx_refused h]
    exact h
  · rcases setNx_cases store now key' token' deadline' with ⟨_, _, -, heq⟩ | heq
    · rw [heq]
      exact h
    · rw [heq]
      exact h.update hk _

/-- A delete with another token frees nobody's key. -/
theorem Store.Holds.compareDelete [DecidableEq τ] (h : store.Holds now key token deadline)
    (key' : κ) (hne : token' ≠ token) :
    (store.compareDelete now key' token').Holds now key token deadline := by
  rw [Store.compareDelete]
  split
  · rename_i hany
    refine h.update ?_ _
    rintro rfl
    rw [h] at hany
    exact hne (of_decide_eq_true hany).symm
  · exact h

theorem Store.Holds.lose (h : store.Holds now key token deadline) (hne : key' ≠ key) :
    (store.lose key').Holds now key token deadline :=
  h.update hne none

end Lease
