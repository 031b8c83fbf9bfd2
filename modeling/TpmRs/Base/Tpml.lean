import TpmRs.Marshalable.Exact

/-!
# TPML lists

What `impl_tpml` generates for a struct of a `count: u32` and an array of
`ListCapacity` entries. The list is the first `count` entries of the array. Equality
compares the whole array, so it is equality of lists only as long as every operation
leaves the entries past the count at their default.
-/

namespace TpmRs

open Library Library.Fallible Library.Slice

structure Tpml (α : Type) (listCapacity : ℕ) where
  count : U32
  list : List.Vector α listCapacity
  deriving DecidableEq

namespace Tpml

variable {α : Type} {cap : ℕ}

/-- A list and its two fields. -/
def fields : Tpml α cap ≃ U32 × List.Vector α cap × Unit where
  toFun v := (v.count, v.list, ())
  invFun p := ⟨p.1, p.2.1⟩
  left_inv _ := rfl
  right_inv _ := rfl

variable [Inhabited α]

def ty (listType : Ty α) (cap : ℕ) : Ty (Tpml α cap) :=
  .namedStruct fields
    (.length .u32 rfl (.lengthArray 0 listType Inhabited.default cap .nil))

/-- `Default::default`. -/
def default : Tpml α cap where
  count := 0
  list := .replicate cap Inhabited.default

def new (elements : List α) : Except TpmRcError (Tpml α cap) :=
  if h : elements.length > cap then .error .size
  else .ok
    { count := BitVec.ofNat 32 elements.length
      list := array (elements ++ (List.replicate cap Inhabited.default).drop elements.length)
        (by simp; omega) }

omit [Inhabited α]

/-- `count()`. -/
def getCount (self : Tpml α cap) : ℕ := self.count.toNat

/-- The accessor under the name of the list field. -/
def getList {ε σ : Type} (self : Tpml α cap) : Fallible ε σ (List α) :=
  sliceTo self.list.toList (min self.getCount cap)

def add (element : α) : Fallible TpmRcError (Tpml α cap) Unit := fun self =>
  if h : self.getCount ≥ cap then .error (.err .size) self
  else .ok ()
    { count := self.count + 1
      list := self.list.set ⟨self.getCount, Nat.not_le.mp h⟩ element }

/-- One element after another. -/
def addAll : List α → Fallible TpmRcError (Tpml α cap) Unit
  | [] => pure ()
  | element :: elements => do
    add element
    addAll elements

/-- The next `n` elements in the bytes. -/
def decodeEntries (listType : Ty α) : ℕ → UnmarshalM (List α)
  | 0 => pure []
  | n + 1 => do
    let x ← listType.tryUnmarshal
    let xs ← decodeEntries listType n
    pure (x :: xs)

/-- The elements that the bytes announce and then list. -/
def decodedElements (listType : Ty α) (b : List U8) : List α :=
  match (Prim.u32.tryUnmarshal >>= fun count => decodeEntries listType count.toNat).run b with
  | .ok xs _ => xs
  | .error _ _ => []

variable [Inhabited α]

/-- The values that the operations produce, each with the elements that it was given. -/
inductive Built (listType : Ty α) : List α → Tpml α cap → Prop
  | default : Built listType [] default
  | new {xs : List α} {x : Tpml α cap} (h : new xs = .ok x) : Built listType xs x
  | tryUnmarshal {b r : List U8} {x : Tpml α cap}
      (h : (ty listType cap).tryUnmarshal.run b = .ok x r) :
      Built listType (decodedElements listType b) x
  | add {xs : List α} {x y : Tpml α cap} {element : α} (hx : Built listType xs x)
      (h : (add element).run x = .ok () y) : Built listType (xs ++ [element]) y
  | addFailed {xs : List α} {x y : Tpml α cap} {element : α} {e : Fault TpmRcError}
      (hx : Built listType xs x) (h : (add element).run x = .error e y) : Built listType xs y

/-- The array is the elements `xs` and then defaults. -/
structure Represents (x : Tpml α cap) (xs : List α) : Prop where
  count_eq : x.count.toNat = xs.length
  list_eq : x.list.toList = xs ++ List.replicate (cap - xs.length) Inhabited.default

theorem Represents.length_le {x : Tpml α cap} {xs : List α} (h : Represents x xs) :
    xs.length ≤ cap := by
  have hlen := congrArg List.length h.list_eq
  rw [List.Vector.toList_length, List.length_append, List.length_replicate] at hlen
  omega

theorem Represents.eq {x y : Tpml α cap} {xs : List α} (hx : Represents x xs)
    (hy : Represents y xs) : x = y := by
  have hcount : x.count = y.count := BitVec.eq_of_toNat_eq (hx.count_eq.trans hy.count_eq.symm)
  have hlist : x.list = y.list := List.Vector.eq _ _ (hx.list_eq.trans hy.list_eq.symm)
  cases x
  cases y
  simp_all

theorem Represents.run_getList {ε σ : Type} {x : Tpml α cap} {xs : List α} (h : Represents x xs)
    (s : σ) : (x.getList : Fallible ε σ (List α)).run s = .ok xs s := by
  have hmin : min x.getCount cap = xs.length := by
    rw [getCount, h.count_eq]
    exact Nat.min_eq_left h.length_le
  rw [getList, hmin, sliceTo_of_le (by simpa using h.length_le), EStateM.run_pure, h.list_eq,
    List.take_left]

theorem represents_default : Represents (default : Tpml α cap) [] :=
  ⟨rfl, rfl⟩

theorem new_of_le {xs : List α} (h : xs.length ≤ cap) (hcap : cap < 2 ^ 32) :
    ∃ x : Tpml α cap, new xs = .ok x ∧ Represents x xs := by
  refine ⟨_, dif_neg (Nat.not_lt.mpr h), ?_, ?_⟩
  · simp only [BitVec.toNat_ofNat]
    omega
  · rw [toList_array, List.drop_replicate]

theorem new_of_lt {xs : List α} (h : cap < xs.length) :
    (new xs : Except TpmRcError (Tpml α cap)) = .error .size := dif_pos h

theorem Represents.run_add {x : Tpml α cap} {xs : List α} (hx : Represents x xs)
    (hlt : xs.length < cap) (hcap : cap < 2 ^ 32) (element : α) :
    ∃ y, (add element).run x = .ok () y ∧ Represents y (xs ++ [element]) := by
  have hcount : ¬x.getCount ≥ cap := by
    rw [getCount, hx.count_eq]
    omega
  refine ⟨_, dif_neg hcount, ?_, ?_⟩
  · have hone : (1 : U32).toNat = 1 := rfl
    simp only [BitVec.toNat_add, hone, hx.count_eq, List.length_append, List.length_singleton]
    omega
  · have hsucc : cap - xs.length = cap - (xs ++ [element]).length + 1 := by
      rw [List.length_append, List.length_singleton]
      omega
    simp only [List.Vector.toList_set, getCount, hx.count_eq, hx.list_eq]
    rw [List.set_append_right _ _ (Nat.le_refl _), Nat.sub_self, hsucc, List.replicate_succ,
      List.set_cons_zero, List.append_assoc, List.singleton_append]

theorem Represents.run_add_of_eq {x : Tpml α cap} {xs : List α} (hx : Represents x xs)
    (heq : xs.length = cap) (element : α) : (add element).run x = .error (.err .size) x := by
  have hcount : x.getCount ≥ cap := by
    rw [getCount, hx.count_eq]
    omega
  exact dif_pos hcount

theorem Represents.run_addAll {x : Tpml α cap} {xs : List α} (hx : Represents x xs)
    (hcap : cap < 2 ^ 32) (ys : List α) (hle : xs.length + ys.length ≤ cap) :
    ∃ y, (addAll ys).run x = .ok () y ∧ Represents y (xs ++ ys) := by
  induction ys generalizing x xs with
  | nil => exact ⟨x, rfl, by simpa using hx⟩
  | cons y ys ih =>
    rw [List.length_cons] at hle
    obtain ⟨x', hadd, hx'⟩ := hx.run_add (by omega) hcap y
    obtain ⟨z, haddAll, hz⟩ := ih hx' (by rw [List.length_append, List.length_singleton]; omega)
    refine ⟨z, ?_, by simpa using hz⟩
    rw [addAll, run_bind_of_ok hadd, haddAll]

omit [Inhabited α] in
theorem run_unmarshalEntries_eq_ok {listType : Ty α} {m n : ℕ} (hn : n ≤ m)
    {entries v : List.Vector α m} {b r : List U8}
    (h : (unmarshalEntries listType.tryUnmarshal n entries).run b = .ok v r) :
    ∃ xs, (decodeEntries listType n).run b = .ok xs r ∧ xs.length = n ∧
      v.toList = xs ++ entries.toList.drop n := by
  induction m generalizing n b with
  | zero =>
    obtain rfl : n = 0 := Nat.le_zero.mp hn
    obtain ⟨rfl, rfl⟩ : entries = v ∧ b = r := by simpa [unmarshalEntries] using h
    exact ⟨[], rfl, rfl, rfl⟩
  | succ m ih =>
    cases n with
    | zero =>
      obtain ⟨rfl, rfl⟩ : entries = v ∧ b = r := by simpa [unmarshalEntries] using h
      exact ⟨[], rfl, rfl, rfl⟩
    | succ n =>
      rw [unmarshalEntries] at h
      obtain ⟨x, b', hx, hrest⟩ := run_bind_eq_ok_iff.mp h
      obtain ⟨vs, b'', hvs, hpure⟩ := run_bind_eq_ok_iff.mp hrest
      obtain ⟨rfl, rfl⟩ : x ::ᵥ vs = v ∧ b'' = r := by simpa using hpure
      obtain ⟨xs, hxs, hlen, hlist⟩ := ih (Nat.le_of_succ_le_succ hn) hvs
      refine ⟨x :: xs, ?_, by rw [List.length_cons, hlen], ?_⟩
      · rw [decodeEntries, run_bind_of_ok hx, run_bind_of_ok hxs, EStateM.run_pure]
      · obtain ⟨y, ys, rfl⟩ := entries.exists_eq_cons
        simpa using hlist

theorem represents_of_tryUnmarshal {listType : Ty α} {b r : List U8} {x : Tpml α cap}
    (h : (ty listType cap).tryUnmarshal.run b = .ok x r) :
    Represents x (decodedElements listType b) := by
  simp only [ty, Ty.tryUnmarshal, NamedFields.unmarshal, bind_assoc, pure_bind,
    run_bind_eq_ok_iff, Fin.cons_zero] at h
  obtain ⟨count, b₁, hcount, p, r', hrest, hpure⟩ := h
  by_cases hle : count.toNat > cap
  · rw [if_pos hle, run_fail] at hrest
    cases hrest
  · rw [if_neg hle, run_bind_eq_ok_iff] at hrest
    obtain ⟨entries, b₂, hentries, hnil⟩ := hrest
    obtain ⟨xs, hxs, hlen, hlist⟩ := run_unmarshalEntries_eq_ok (Nat.not_lt.mp hle) hentries
    obtain ⟨rfl, rfl⟩ : (entries, ()) = p ∧ b₂ = r' := by simpa using hnil
    obtain ⟨rfl, rfl⟩ : fields.symm (count, entries, ()) = x ∧ b₂ = r := by simpa using hpure
    have hdecoded : decodedElements listType b = xs := by
      rw [decodedElements, run_bind_of_ok hcount, hxs]
    rw [hdecoded]
    refine ⟨hlen.symm, ?_⟩
    rw [toList_replicate, List.drop_replicate, ← hlen] at hlist
    exact hlist

/-- Every history leaves the array as its elements followed by defaults. -/
theorem Built.represents {listType : Ty α} (hcap : cap < 2 ^ 32) {xs : List α} {x : Tpml α cap}
    (h : Built listType xs x) : Represents x xs := by
  induction h with
  | default => exact represents_default
  | @new xs x h =>
    by_cases hle : xs.length ≤ cap
    · obtain ⟨y, hnew, hy⟩ := new_of_le hle hcap
      obtain rfl : y = x := Except.ok.inj (hnew.symm.trans h)
      exact hy
    · rw [new_of_lt (Nat.not_le.mp hle)] at h
      cases h
  | tryUnmarshal h => exact represents_of_tryUnmarshal h
  | @add xs x y element _ h ih =>
    by_cases hlt : xs.length < cap
    · obtain ⟨z, hadd, hz⟩ := ih.run_add hlt hcap element
      obtain ⟨-, rfl⟩ : () = () ∧ z = y := by simpa using hadd.symm.trans h
      exact hz
    · have heq : xs.length = cap := Nat.le_antisymm ih.length_le (Nat.not_lt.mp hlt)
      rw [ih.run_add_of_eq heq] at h
      cases h
  | @addFailed xs x y element e _ h ih =>
    by_cases hlt : xs.length < cap
    · obtain ⟨z, hadd, -⟩ := ih.run_add hlt hcap element
      rw [hadd] at h
      cases h
    · have heq : xs.length = cap := Nat.le_antisymm ih.length_le (Nat.not_lt.mp hlt)
      rw [ih.run_add_of_eq heq] at h
      obtain ⟨-, rfl⟩ := (EStateM.Result.error.injEq ..).mp h
      exact ih

theorem exists_new_iff {xs : List α} (hcap : cap < 2 ^ 32) :
    (∃ x : Tpml α cap, new xs = .ok x) ↔ xs.length ≤ cap := by
  constructor
  · intro h
    rcases h with ⟨x, hx⟩
    by_contra hlt
    rw [new_of_lt (Nat.not_le.mp hlt)] at hx
    cases hx
  · intro h
    obtain ⟨x, hx, -⟩ := new_of_le h hcap
    exact ⟨x, hx⟩

theorem Represents.exists_run_add_iff {x : Tpml α cap} {xs : List α} (hx : Represents x xs)
    (hcap : cap < 2 ^ 32) (element : α) :
    (∃ y, (add element).run x = .ok () y) ↔ xs.length ≠ cap := by
  constructor
  · intro h heq
    rcases h with ⟨y, hy⟩
    rw [hx.run_add_of_eq heq] at hy
    cases hy
  · intro hne
    obtain ⟨y, hy, -⟩ := hx.run_add (lt_of_le_of_ne hx.length_le hne) hcap element
    exact ⟨y, hy⟩

theorem Represents.eq_iff {x y : Tpml α cap} {xs ys : List α} (hx : Represents x xs)
    (hy : Represents y ys) : x = y ↔ xs = ys := by
  constructor
  · rintro rfl
    have hlen : xs.length = ys.length := hx.count_eq.symm.trans hy.count_eq
    exact (List.append_inj (hx.list_eq.symm.trans hy.list_eq) hlen).1
  · rintro rfl
    exact hx.eq hy

end Tpml
end TpmRs
