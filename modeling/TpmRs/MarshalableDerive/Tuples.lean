import TpmRs.MarshalableDerive.Structs

/-!
# Fields without names

A tuple struct and the variants of an enum have fields without names. The macro numbers
them: field `i` is the member `i` of `self` and the variable `fi`.
-/

namespace TpmRs.MarshalableDerive

open Library Library.Fallible Run

namespace Crate

variable (Γ : Crate)

/-- The values of the fields. -/
def Tuple : List RustType → Type
  | [] => Unit
  | ty :: types => Γ.denote ty × Tuple types

/-- The fields of a value, numbered from `i`. -/
def ofTuple : (i : ℕ) → (types : List RustType) → Γ.Tuple types → StructValue Γ
  | _, [], _ => []
  | i, ty :: types, (v, vs) => (.unnamed i, ⟨ty, v⟩) :: ofTuple (i + 1) types vs

/-- The variables of the fields, numbered from `i`. -/
def tupleVars : (i : ℕ) → (types : List RustType) → Γ.Tuple types → Vars Γ
  | _, [], _ => []
  | i, ty :: types, (v, vs) => (indexIdent i, ⟨ty, v⟩) :: tupleVars (i + 1) types vs

/-- The variables after the statements for the fields. -/
def bindTuple : (i : ℕ) → (types : List RustType) → Γ.Tuple types → Vars Γ → Vars Γ
  | _, [], _, vars => vars
  | i, ty :: types, (v, vs), vars => bindTuple (i + 1) types vs ((indexIdent i, ⟨ty, v⟩) :: vars)

/-- The description of the fields. -/
def tupleFields : (types : List RustType) → Option (TupleFields (Γ.Tuple types))
  | [] => some .nil
  | ty :: types =>
    match Γ.marshalable ty, tupleFields types with
    | some t, some rest => some (.cons t rest)
    | _, _ => none

end Crate

variable {Γ : Crate}

theorem indexIdent_inj {i j : ℕ} : indexIdent i = indexIdent j ↔ i = j := by
  unfold indexIdent
  rw [String.append_right_inj]
  constructor
  · intro h
    have hdigits : Nat.toDigits 10 i = Nat.toDigits 10 j := by
      simpa using congrArg String.toList h
    simpa using congrArg (Nat.ofDigitChars 10 · 0) hdigits
  · rintro rfl
    rfl

theorem indexIdent_ne_buffer (i : ℕ) : indexIdent i ≠ "buffer" := by
  intro h
  have hhead := congrArg String.toList h
  simp [indexIdent] at hhead

theorem tupleFields_cons_eq_some {ty : RustType} {types : List RustType}
    {description : TupleFields (Γ.Tuple (ty :: types))}
    (h : Γ.tupleFields (ty :: types) = some description) :
    ∃ t rest, Γ.marshalable ty = some t ∧ Γ.tupleFields types = some rest ∧
      description = .cons t rest := by
  unfold Crate.tupleFields at h
  split at h
  · next t rest ht hrest =>
    cases h
    exact ⟨t, rest, ht, hrest, rfl⟩
  · cases h

theorem exists_tupleFields {types : List RustType}
    (h : ∀ ty ∈ types, (Γ.marshalable ty).isSome) :
    ∃ description, Γ.tupleFields types = some description := by
  induction types with
  | nil => exact ⟨.nil, rfl⟩
  | cons ty types ih =>
    obtain ⟨t, ht⟩ := Option.isSome_iff_exists.mp (h ty List.mem_cons_self)
    obtain ⟨rest, hrest⟩ := ih fun ty' hty => h ty' (List.mem_cons_of_mem _ hty)
    exact ⟨.cons t rest, by simp [Crate.tupleFields, ht, hrest]⟩

theorem mem_ofTuple {i : ℕ} {types : List RustType} {vs : Γ.Tuple types} {m : Member}
    {v : Typed Γ} (h : (m, v) ∈ Γ.ofTuple i types vs) : ∃ j, i ≤ j ∧ m = .unnamed j := by
  induction types generalizing i with
  | nil => cases h
  | cons ty types ih =>
    obtain ⟨w, vs⟩ := vs
    rcases List.mem_cons.mp h with h | h
    · cases h
      exact ⟨i, le_rfl, rfl⟩
    · obtain ⟨j, hj, rfl⟩ := ih h
      exact ⟨j, by omega, rfl⟩

theorem lookup_ofTuple {i : ℕ} {types : List RustType} {vs : Γ.Tuple types} {m : Member}
    {v : Typed Γ} (h : (m, v) ∈ Γ.ofTuple i types vs) :
    (Γ.ofTuple i types vs).lookup m = some v := by
  induction types generalizing i with
  | nil => cases h
  | cons ty types ih =>
    obtain ⟨w, vs⟩ := vs
    rcases List.mem_cons.mp h with h | h
    · cases h
      simp [Crate.ofTuple]
    · obtain ⟨j, hj, rfl⟩ := mem_ofTuple h
      have hne : j ≠ i := by omega
      have hbeq : (Member.unnamed j == Member.unnamed i) = false := by simp [hne]
      rw [Crate.ofTuple, List.lookup_cons, hbeq]
      exact ih h

/-- The marshal statements of a tuple do what its description says. -/
theorem runMarshal_tuple {types : List RustType} {description : TupleFields (Γ.Tuple types)}
    (h : Γ.tupleFields types = some description) {i : ℕ} {self : StructValue Γ}
    {vs : Γ.Tuple types} (hself : ∀ m v, (m, v) ∈ Γ.ofTuple i types vs → self.lookup m = some v)
    (written : ℕ) :
    runMarshal self ((List.range' i types.length).map fun j => .field (.unnamed j)) written =
      OptionT.lift (description.marshal vs written) := by
  induction types generalizing i written with
  | nil =>
    cases h
    rfl
  | cons ty types ih =>
    obtain ⟨t, rest, ht, hrest, rfl⟩ := tupleFields_cons_eq_some h
    obtain ⟨v, vs⟩ := vs
    have hhead := hself _ _ List.mem_cons_self
    have htail := fun w => ih hrest (i := i + 1)
      (fun m x hm => hself m x (List.mem_cons_of_mem _ hm)) w
    rw [List.length_cons, List.range'_succ, List.map_cons, runMarshal, List.foldlM_cons,
      runMarshal_member hhead ht]
    exact (bind_congr htail).trans (lift_bind_lift _ _)

/-- The unmarshal statements of a tuple do what its description says, and leave each field
in the variable of its number. -/
theorem runUnmarshal_tuple {types : List RustType} {description : TupleFields (Γ.Tuple types)}
    (h : Γ.tupleFields types = some description) {i : ℕ} {vars : Vars Γ}
    (hvars : vars.lookup "buffer" = none) :
    runUnmarshal ((types.zipIdx i).map fun p => .field (indexIdent p.2) p.1) vars =
      OptionT.lift (description.unmarshal >>= fun vs => pure (Γ.bindTuple i types vs vars)) := by
  induction types generalizing i vars with
  | nil =>
    cases h
    rfl
  | cons ty types ih =>
    obtain ⟨t, rest, ht, hrest, rfl⟩ := tupleFields_cons_eq_some h
    have hbuffer (v : Γ.denote ty) :
        ((indexIdent i, (⟨ty, v⟩ : Typed Γ)) :: vars).lookup "buffer" = none := by
      rw [lookup_cons_of_ne (indexIdent_ne_buffer i).symm, hvars]
    have htail := fun v => ih hrest (i := i + 1) (hbuffer v)
    have hcons : (((ty :: types).zipIdx i).map fun p => UnmarshalStmt.field (indexIdent p.2) p.1) =
        [.field (indexIdent i) ty] ++
          (types.zipIdx (i + 1)).map fun p => .field (indexIdent p.2) p.1 := rfl
    rw [hcons, runUnmarshal_append, runUnmarshal_field hvars (indexIdent i) ht]
    exact lift_bind_runUnmarshal htail

theorem lookup_bindTuple_of_lt {j i : ℕ} (h : j < i) {types : List RustType}
    (vs : Γ.Tuple types) (vars : Vars Γ) :
    (Γ.bindTuple i types vs vars).lookup (indexIdent j) = vars.lookup (indexIdent j) := by
  induction types generalizing i vars with
  | nil => rfl
  | cons ty types ih =>
    obtain ⟨v, vs⟩ := vs
    have hne : indexIdent j ≠ indexIdent i := indexIdent_inj.not.mpr (by omega)
    rw [Crate.bindTuple, ih (by omega), lookup_cons_of_ne hne]

theorem eval_range' (i : ℕ) (types : List RustType) (vs : Γ.Tuple types) (vars : Vars Γ) :
    FieldList.eval (Γ.bindTuple i types vs vars)
        ((List.range' i types.length).map fun j => (.unnamed j, indexIdent j)) =
      some (Γ.ofTuple i types vs) := by
  induction types generalizing i vars with
  | nil => rfl
  | cons ty types ih =>
    obtain ⟨v, vs⟩ := vs
    have hhead : (Γ.bindTuple (i + 1) types vs ((indexIdent i, ⟨ty, v⟩) :: vars)).lookup
        (indexIdent i) = some ⟨ty, v⟩ := by
      rw [lookup_bindTuple_of_lt (by omega)]
      simp
    have hrest := ih (i + 1) vs ((indexIdent i, ⟨ty, v⟩) :: vars)
    simp only [List.length_cons, List.range'_succ, List.map_cons, FieldList.eval,
      Crate.bindTuple]
    rw [hhead, hrest]
    rfl

/-- The code that the macro generates for a tuple struct, of which every type has an
implementation, does what its description says. -/
theorem getStructCode_unnamed_preserves {types : List RustType}
    (h : ∀ ty ∈ types, (Γ.marshalable ty).isSome) :
    ∃ code description, getStructCode (.unnamed types) = .ok code ∧
      Γ.tupleFields types = some description ∧
      (∀ vs : Γ.Tuple types, code.runTryMarshal (Γ.ofTuple 0 types vs) =
        OptionT.lift ((Ty.tupleStruct (.refl _) description).tryMarshal vs)) ∧
      code.runTryUnmarshal Γ = OptionT.lift
        (Γ.ofTuple 0 types <$> (Ty.tupleStruct (.refl _) description).tryUnmarshal) := by
  obtain ⟨description, hdescription⟩ := exists_tupleFields h
  refine ⟨_, description, rfl, hdescription, ?_, ?_⟩
  · intro vs
    rw [StructCode.runTryMarshal, List.range_eq_range']
    exact runMarshal_tuple hdescription (fun m v => lookup_ofTuple) 0
  · have hunmarshal : (Ty.tupleStruct (.refl _) description).tryUnmarshal =
        description.unmarshal := by
      simp [Ty.tryUnmarshal]
    rw [hunmarshal, map_eq_pure_bind, StructCode.runTryUnmarshal,
      runUnmarshal_tuple hdescription rfl]
    simp only [getFieldList, List.range_eq_range']
    exact lift_bind_resolve fun vs => eval_range' 0 types vs []

end TpmRs.MarshalableDerive
