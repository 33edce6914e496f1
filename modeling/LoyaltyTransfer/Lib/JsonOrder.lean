/-
# `Lib.JsonOrder` — JSON values up to the order of members

`SameUpToOrder` relates two values that differ only in the order of the members of
their objects, at any level.  `canon` of `Lib.Json` picks one value of each class,
provided that no object has two members of one name, as no dictionary does
(`distinctKeys`).

    the induction rule for values, by their items and members     `Value.induct`
    one value for each class                                      `canon_eq_iff`
    one line for each text                                        `newline_not_mem_dumps`
-/
import LoyaltyTransfer.Lib.Json

namespace Json

/-! ## By items and members -/

/-- What holds of an array when it holds of its items and of an object when it holds
of its members' values, holds of every value. -/
theorem Value.induct {P : Value → Prop} (null : P .null) (bool : ∀ b, P (.bool b))
    (int : ∀ n, P (.int n)) (float : ∀ x, P (.float x)) (str : ∀ s, P (.str s))
    (arr : ∀ xs, (∀ x ∈ xs, P x) → P (.arr xs))
    (obj : ∀ fields, (∀ p ∈ fields, P p.2) → P (.obj fields)) (v : Value) : P v := by
  refine @Value.rec P (fun xs => ∀ x ∈ xs, P x) (fun fields => ∀ p ∈ fields, P p.2)
    (fun p => P p.2) null bool int float str arr obj ?_ ?_ ?_ ?_ ?_ v
  · intro x hx
    cases hx
  · intro v vs hv hvs x hx
    rcases List.mem_cons.mp hx with rfl | hx
    · exact hv
    · exact hvs x hx
  · intro p hp
    cases hp
  · intro f fs hf hfs p hp
    rcases List.mem_cons.mp hp with rfl | hp
    · exact hf
    · exact hfs p hp
  · intro k v hv
    exact hv

theorem canonList_eq_map (xs : List Value) : canonList xs = xs.map canon := by
  induction xs with
  | nil => rfl
  | cons x xs ih => rw [canonList, ih, List.map_cons]

/-- A member with its value in canonical order. -/
def canonMember (p : String × Value) : String × Value := (p.1, canon p.2)

theorem canonFields_eq_map (fs : List (String × Value)) : canonFields fs = fs.map canonMember := by
  induction fs with
  | nil => rfl
  | cons f fs ih =>
      obtain ⟨k, v⟩ := f
      rw [canonFields, ih, List.map_cons]
      rfl

/-! ## Equal up to the order of members -/

/-- Two members of one name, with related values. -/
inductive SameMember (R : Value → Value → Prop) : String × Value → String × Value → Prop
  | member (k : String) {v v' : Value} (h : R v v') : SameMember R (k, v) (k, v')

/-- Two values are equal up to the order of members at every level. -/
inductive SameUpToOrder : Value → Value → Prop
  | null : SameUpToOrder .null .null
  | bool (b : Bool) : SameUpToOrder (.bool b) (.bool b)
  | int (n : Int) : SameUpToOrder (.int n) (.int n)
  | float (x : Float) : SameUpToOrder (.float x) (.float x)
  | str (s : String) : SameUpToOrder (.str s) (.str s)
  | arr {xs ys : List Value} (h : List.Forall₂ SameUpToOrder xs ys) :
      SameUpToOrder (.arr xs) (.arr ys)
  | obj {fs gs hs : List (String × Value)} (h : List.Forall₂ (SameMember SameUpToOrder) fs gs)
      (hperm : gs.Perm hs) : SameUpToOrder (.obj fs) (.obj hs)

mutual
/-- No object has two members of one name. -/
def distinctKeys : Value → Bool
  | .arr xs => distinctKeysList xs
  | .obj fields => decide (fields.map Prod.fst).Nodup && distinctKeysFields fields
  | _ => true
def distinctKeysList : List Value → Bool
  | [] => true
  | v :: vs => distinctKeys v && distinctKeysList vs
def distinctKeysFields : List (String × Value) → Bool
  | [] => true
  | (_, v) :: fs => distinctKeys v && distinctKeysFields fs
end

theorem distinctKeysList_iff {xs : List Value} :
    distinctKeysList xs = true ↔ ∀ x ∈ xs, distinctKeys x = true := by
  induction xs with
  | nil => simp [distinctKeysList]
  | cons x xs ih => rw [distinctKeysList, Bool.and_eq_true, ih, List.forall_mem_cons]

theorem distinctKeysFields_iff {fs : List (String × Value)} :
    distinctKeysFields fs = true ↔ ∀ p ∈ fs, distinctKeys p.2 = true := by
  induction fs with
  | nil => simp [distinctKeysFields]
  | cons f fs ih =>
      obtain ⟨k, v⟩ := f
      rw [distinctKeysFields, Bool.and_eq_true, ih, List.forall_mem_cons]

theorem distinctKeys_obj {fields : List (String × Value)} :
    distinctKeys (.obj fields) = true ↔
      (fields.map Prod.fst).Nodup ∧ ∀ p ∈ fields, distinctKeys p.2 = true := by
  rw [distinctKeys, Bool.and_eq_true, decide_eq_true_eq, distinctKeysFields_iff]

/-! ## One value for each class -/

/-- The order of members in canonical values. -/
abbrev KeyLe (a b : String × Value) : Prop := a.1 ≤ b.1

instance : Std.Total KeyLe := ⟨fun a b => le_total a.1 b.1⟩

instance : IsTrans (String × Value) KeyLe := ⟨fun _ _ _ h h' => le_trans h h'⟩

/-- Members in one order or another are sorted to the same list. -/
theorem insertionSort_eq_of_perm {fs gs : List (String × Value)} (h : fs.Perm gs)
    (hkeys : (gs.map Prod.fst).Nodup) : fs.insertionSort KeyLe = gs.insertionSort KeyLe := by
  have hperm : (fs.insertionSort KeyLe).Perm (gs.insertionSort KeyLe) :=
    (List.perm_insertionSort _ _).trans (h.trans (List.perm_insertionSort _ _).symm)
  refine hperm.eq_of_pairwise ?_ (List.pairwise_insertionSort _ _) (List.pairwise_insertionSort _ _)
  intro a b ha hb hab hba
  have ha : a ∈ gs := h.subset ((List.mem_insertionSort _).mp ha)
  exact List.inj_on_of_nodup_map hkeys ha ((List.mem_insertionSort _).mp hb) (le_antisymm hab hba)

/-- Lists with equal images, item by item. -/
theorem forall₂_of_map_eq {α β : Type*} {f : α → β} {R : α → α → Prop} {xs ys : List α}
    (h : xs.map f = ys.map f) (hR : ∀ x ∈ xs, ∀ y, f x = f y → R x y) : List.Forall₂ R xs ys := by
  induction xs generalizing ys with
  | nil =>
      rw [List.map_eq_nil_iff.mp h.symm]
      exact .nil
  | cons x xs ih =>
      cases ys with
      | nil => cases h
      | cons y ys =>
          rw [List.map_cons, List.map_cons, List.cons.injEq] at h
          exact .cons (hR x (List.mem_cons_self ..) y h.1)
            (ih h.2 fun z hz => hR z (List.mem_cons_of_mem _ hz))

theorem map_eq_of_forall₂ {α β : Type*} {f : α → β} {R : α → α → Prop} {xs ys : List α}
    (h : List.Forall₂ R xs ys) (hR : ∀ x ∈ xs, ∀ y ∈ ys, R x y → f x = f y) :
    xs.map f = ys.map f := by
  induction h with
  | nil => rfl
  | cons hxy _ ih =>
      rw [List.map_cons, List.map_cons, hR _ (List.mem_cons_self ..) _ (List.mem_cons_self ..) hxy,
        ih fun x hx y hy => hR x (List.mem_cons_of_mem _ hx) y (List.mem_cons_of_mem _ hy)]

/-- Lists whose images are the same up to order, one of them put in the order of the
other. -/
theorem exists_perm_of_map_perm {α β : Type*} {f : α → β} {xs ys : List α}
    (h : (xs.map f).Perm (ys.map f)) : ∃ zs : List α, xs.map f = zs.map f ∧ zs.Perm ys := by
  have hcomp : Relation.Comp (fun as bs => as = bs.map f) List.Perm (xs.map f) ys := by
    rw [List.eq_map_comp_perm]
    exact h
  exact hcomp

@[simp] theorem map_fst_canonMember (fs : List (String × Value)) :
    (fs.map canonMember).map Prod.fst = fs.map Prod.fst := by
  rw [List.map_map]
  rfl

theorem canon_arr (xs : List Value) : canon (.arr xs) = .arr (xs.map canon) := by
  rw [canon, canonList_eq_map]

theorem canon_obj (fs : List (String × Value)) :
    canon (.obj fs) = .obj ((fs.map canonMember).insertionSort KeyLe) := by
  rw [canon, canonFields_eq_map]

theorem canon_eq_of_same {v v' : Value} (h : SameUpToOrder v v')
    (h' : distinctKeys v' = true) : canon v = canon v' := by
  induction v using Value.induct generalizing v' with
  | null =>
      cases h
      rfl
  | bool b =>
      cases h
      rfl
  | int n =>
      cases h
      rfl
  | float x =>
      cases h
      rfl
  | str s =>
      cases h
      rfl
  | arr xs ih =>
      cases h with
      | arr h =>
          rw [distinctKeys, distinctKeysList_iff] at h'
          rw [canon_arr, canon_arr,
            map_eq_of_forall₂ h fun x hx y hy hxy => ih x hx hxy (h' y hy)]
  | obj fs ih =>
      cases h with
      | @obj _ gs hs h hperm =>
          obtain ⟨hkeys, hmembers⟩ := distinctKeys_obj.mp h'
          have hmap : fs.map canonMember = gs.map canonMember := by
            refine map_eq_of_forall₂ h ?_
            intro p hp q hq hpq
            cases hpq with
            | member k hv =>
                rw [canonMember, canonMember, ih _ hp hv (hmembers _ (hperm.subset hq))]
          rw [canon_obj, canon_obj, hmap, insertionSort_eq_of_perm (hperm.map canonMember)]
          rw [map_fst_canonMember]
          exact hkeys

theorem same_of_canon_eq {v v' : Value} (h : canon v = canon v') : SameUpToOrder v v' := by
  induction v using Value.induct generalizing v' with
  | null =>
      cases v' <;> cases h
      exact .null
  | bool b =>
      cases v' <;> cases h
      exact .bool b
  | int n =>
      cases v' <;> cases h
      exact .int n
  | float x =>
      cases v' <;> cases h
      exact .float x
  | str s =>
      cases v' <;> cases h
      exact .str s
  | arr xs ih =>
      cases v' with
      | arr ys =>
          rw [canon_arr, canon_arr, Value.arr.injEq] at h
          exact .arr (forall₂_of_map_eq h fun x hx y hxy => ih x hx hxy)
      | _ => cases h
  | obj fs ih =>
      cases v' with
      | obj gs =>
          rw [canon_obj, canon_obj, Value.obj.injEq] at h
          have hsorted : (fs.map canonMember).Perm (gs.map canonMember) := by
            refine (List.perm_insertionSort KeyLe _).symm.trans ?_
            rw [h]
            exact List.perm_insertionSort KeyLe _
          obtain ⟨zs, hzs, hperm⟩ := exists_perm_of_map_perm hsorted
          refine .obj (forall₂_of_map_eq hzs ?_) hperm
          rintro ⟨k, v⟩ hp ⟨k', w⟩ heq
          obtain ⟨rfl, hv⟩ := Prod.mk.inj heq
          exact .member k (ih _ hp hv)
      | _ => cases h

/-- Two values have one canonical value exactly when they are equal up to the order of
members. -/
theorem canon_eq_iff {v v' : Value} (h' : distinctKeys v' = true) :
    canon v = canon v' ↔ SameUpToOrder v v' :=
  ⟨same_of_canon_eq, fun h => canon_eq_of_same h h'⟩

/-! ## One line for each text -/

/-- An escape has no newline, in particular none for a newline. -/
theorem newline_not_mem_escape (c : Char) : '\n' ∉ escape c := by
  by_cases hctl : c.toNat < 32
  · obtain ⟨n, hn, rfl⟩ : ∃ n, n < 32 ∧ c = Char.ofNat n := ⟨c.toNat, hctl, by simp⟩
    interval_cases n <;> decide
  · have hne : '\n' ≠ c := by
      rintro rfl
      exact hctl (by decide)
    simp only [escape]
    split_ifs <;> simp [hne]

theorem newline_not_mem_dumpsString (s : String) : '\n' ∉ dumpsString s := by
  simp only [dumpsString, List.mem_cons, List.mem_append, List.mem_flatMap, List.not_mem_nil,
    or_false, not_or, not_exists, not_and]
  exact ⟨by decide, fun c _ => newline_not_mem_escape c, by decide⟩

theorem newline_not_mem_number {x : List Char} (h : ∀ c ∈ x, isNumChar c = true) : '\n' ∉ x := by
  intro hmem
  cases h _ hmem

theorem newline_not_mem_dumpsList {xs : List Value} (h : ∀ x ∈ xs, '\n' ∉ dumps x) :
    '\n' ∉ dumpsList xs := by
  induction xs with
  | nil => exact List.not_mem_nil
  | cons x xs ih =>
      obtain ⟨hx, hxs⟩ := List.forall_mem_cons.mp h
      rw [dumpsList_cons, List.mem_append]
      rintro (hmem | hmem)
      · exact hx hmem
      · cases xs with
        | nil => cases hmem
        | cons y ys =>
            rcases List.mem_cons.mp hmem with heq | hmem
            · cases heq
            · exact ih hxs hmem

theorem newline_not_mem_dumpsFields {fs : List (String × Value)}
    (h : ∀ p ∈ fs, '\n' ∉ dumps p.2) : '\n' ∉ dumpsFields fs := by
  induction fs with
  | nil => exact List.not_mem_nil
  | cons f fs ih =>
      obtain ⟨k, v⟩ := f
      obtain ⟨hv, hfs⟩ := List.forall_mem_cons.mp h
      rw [dumpsFields_cons, List.mem_append, List.mem_cons, List.mem_append]
      rintro (hmem | heq | hmem | hmem)
      · exact newline_not_mem_dumpsString k hmem
      · cases heq
      · exact hv hmem
      · cases fs with
        | nil => cases hmem
        | cons g gs =>
            rcases List.mem_cons.mp hmem with heq | hmem
            · cases heq
            · exact ih hfs hmem

/-- The text of a value is one line. -/
theorem newline_not_mem_dumps (v : Value) : '\n' ∉ dumps v := by
  induction v using Value.induct with
  | null => decide
  | bool b => cases b <;> decide
  | int n => exact newline_not_mem_number (isNumChar_toString n)
  | float x => exact newline_not_mem_number x.isNumChar_text
  | str s => exact newline_not_mem_dumpsString s
  | arr xs ih =>
      rw [dumps, List.mem_cons, List.mem_append]
      rintro (heq | hmem | hmem)
      · cases heq
      · exact newline_not_mem_dumpsList ih hmem
      · cases List.mem_singleton.mp hmem
  | obj fs ih =>
      rw [dumps, List.mem_cons, List.mem_append]
      rintro (heq | hmem | hmem)
      · cases heq
      · exact newline_not_mem_dumpsFields ih hmem
      · cases List.mem_singleton.mp hmem

end Json
