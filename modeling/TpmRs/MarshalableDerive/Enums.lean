import TpmRs.MarshalableDerive.Tuples

/-!
# The code for an enum

The variants of an enum are fields without names, each behind a selector. The macro
reports every variant that is no tuple, or the first one without a selector. The code
that it generates otherwise picks a variant by its name in `try_marshal_variant` and by
the first selector that matches in `try_unmarshal_variant`.
-/

namespace TpmRs.MarshalableDerive

open Library Library.Fallible Library.Slice Run

namespace Variant

def types (v : Variant) : List RustType :=
  match v.fields with
  | .unnamed types => types
  | _ => []

def isTuple (v : Variant) : Bool :=
  match v.fields with
  | .unnamed _ => true
  | _ => false

/-- The code for a variant in `try_marshal_variant`. -/
def marshalArm (v : Variant) : MarshalArm where
  variant := v.ident
  binders := getFieldList v.fields
  body := (List.range v.types.length).map indexIdent

/-- The code for a variant in `try_unmarshal_variant`. -/
def unmarshalArm (v : Variant) (selector : Expr) : UnmarshalArm where
  selector := selector
  body := v.types.zipIdx.map fun p => .field (indexIdent p.2) p.1
  variant := v.ident
  fields := getFieldList v.fields

/-- The error for a variant that is no tuple. -/
def fieldsError (v : Variant) : Error :=
  .new (.fields v.fields) "Cannot marshal named field in an enum"

def selectorError (v : Variant) : Error :=
  .new (.ident v.ident) "Enum variant must declare a selector"

theorem fields_of_isTuple {v : Variant} (h : v.isTuple = true) : v.fields = .unnamed v.types := by
  unfold isTuple at h
  unfold types
  split at h
  · next types hfields => rw [hfields]
  · cases h

end Variant

/-- The code for an accepted enum. -/
def enumCode (variants : List Variant) : EnumCode where
  tryMarshalVariant := variants.map Variant.marshalArm
  tryUnmarshalVariant := variants.filterMap fun v => v.discriminant.map v.unmarshalArm

def variantOutcome (_ : List Variant) (v : Variant) : Except Error MarshalArm :=
  if v.isTuple then .ok v.marshalArm else .error v.fieldsError

theorem getVariantMarshal_of_isTuple {v : Variant} (h : v.isTuple = true) :
    getVariantMarshal v = pure v.marshalArm := by
  have hfields := v.fields_of_isTuple h
  unfold getVariantMarshal Variant.marshalArm
  rw [hfields]

theorem getVariantMarshal_of_not_isTuple {v : Variant} (h : v.isTuple = false) :
    getVariantMarshal v = fail v.fieldsError := by
  unfold Variant.isTuple at h
  unfold getVariantMarshal Variant.fieldsError
  split
  · next types hfields => simp [hfields] at h
  · rfl

theorem follows_getVariantMarshal :
    Follows getVariantMarshal (fun _ => ()) variantOutcome (fun _ => False) := by
  apply Follows.of_run
  · intro before v _
    cases htuple : v.isTuple with
    | true =>
      rw [getVariantMarshal_of_isTuple htuple, variantOutcome, if_pos htuple]
      rfl
    | false =>
      rw [getVariantMarshal_of_not_isTuple htuple, variantOutcome, if_neg (by simp [htuple])]
      rfl
  · intro before v h
    exact h.elim

theorem errorsOf_outcomes_variantOutcome (before variants : List Variant) :
    errorsOf (outcomes variantOutcome before variants) =
      (variants.filter fun v => !v.isTuple).map Variant.fieldsError := by
  induction variants generalizing before with
  | nil => rfl
  | cons v variants ih =>
    rw [outcomes, variantOutcome]
    cases htuple : v.isTuple with
    | true => simp [htuple, ih]
    | false => simp [htuple, ih]

theorem getVariantsUnmarshal_of_isTuple {variants : List Variant}
    (h : ∀ v ∈ variants, v.isTuple = true) (code : List UnmarshalArm) :
    getVariantsUnmarshal variants [] code =
      match variants.find? fun v => v.discriminant.isNone with
      | some v => .error (.err v.selectorError)
      | none => .ok (code ++ (enumCode variants).tryUnmarshalVariant) := by
  induction variants generalizing code with
  | nil => simp [getVariantsUnmarshal, enumCode]
  | cons v variants ih =>
    have hfields := v.fields_of_isTuple (h v List.mem_cons_self)
    have hrest := ih fun w hw => h w (List.mem_cons_of_mem _ hw)
    unfold getVariantsUnmarshal
    simp only [hfields, getFieldUnmarshal]
    cases hsel : v.discriminant with
    | none => simp [getSelection, hsel, Variant.selectorError]
    | some sel =>
      simp only [getSelection, hsel]
      rw [hrest]
      simp [hsel, enumCode, Variant.unmarshalArm, hfields]

/-- What the macro reports for an enum: all variants that are no tuples, or else the first
one without a selector. -/
theorem getEnumImpl_eq (variants : List Variant) :
    getEnumImpl variants =
      match variants.filter (fun v => !v.isTuple),
        variants.find? (fun v => v.discriminant.isNone) with
      | [], none => .ok (enumCode variants)
      | [], some v => .error (.err v.selectorError)
      | bad, _ => .error (.err (bad.map Variant.fieldsError).flatten) := by
  have hno : ∀ v ∈ variants, ¬False := fun _ _ h => h
  have hrun := follows_getVariantMarshal.run_collect hno
  rw [errorsOf_outcomes_variantOutcome] at hrun
  unfold getEnumImpl
  rw [hrun]
  cases hbad : variants.filter fun v => !v.isTuple with
  | cons v bad => rfl
  | nil =>
    have htuple : ∀ v ∈ variants, v.isTuple = true := by
      intro v hv
      by_contra hne
      have hmem : v ∈ variants.filter fun v => !v.isTuple := by
        simp [hv, Bool.eq_false_of_not_eq_true hne]
      simp [hbad] at hmem
    have hnil : errorsOf (outcomes variantOutcome [] variants) = [] := by
      rw [errorsOf_outcomes_variantOutcome, hbad]
      rfl
    have hvalue : ∀ before v code, variantOutcome before v = .ok code →
        code = v.marshalArm := by
      intro before v code ho
      unfold variantOutcome at ho
      split_ifs at ho
      cases ho
      rfl
    simp only [List.map_nil, outcomes_eq_map_ok hnil hvalue]
    rw [getVariantsUnmarshal_of_isTuple htuple []]
    cases variants.find? fun v => v.discriminant.isNone with
    | none => rfl
    | some v => rfl

/-- The variant that a value is in, and its fields. -/
abbrev EnumValue (Γ : Crate) := Ident × StructValue Γ

variable {Γ : Crate}

/-- The variables of a pattern; it must name every field, in order. -/
def FieldList.bind : FieldList → StructValue Γ → Option (Vars Γ)
  | [], [] => some []
  | (member, name) :: fields, (member', v) :: self =>
    if member = member' then (FieldList.bind fields self).map ((name, v) :: ·) else none
  | _, _ => none

/-- The statements `written += fN.try_marshal(&mut buffer[written..])?;` of an arm. -/
def MarshalArm.run (arm : MarshalArm) (self : StructValue Γ) : Run ℕ := do
  let vars ← resolve (arm.binders.bind self)
  arm.body.foldlM (fun written name => do
    let v ← resolve (vars.lookup name)
    marshalMember written v) 0

/-- `match self { ... }`. -/
def EnumCode.runTryMarshalVariant (code : EnumCode) (self : EnumValue Γ) : Run ℕ :=
  match code.tryMarshalVariant.find? fun arm => arm.variant == self.1 with
  | some arm => arm.run self.2
  | none => rejected

def UnmarshalArm.run (Γ : Crate) (arm : UnmarshalArm) : Run (EnumValue Γ) := do
  let vars ← runUnmarshal arm.body []
  let fields ← resolve (arm.fields.eval vars)
  pure (arm.variant, fields)

/-- The arms in order; `constant` evaluates a selector. -/
def EnumCode.runTryUnmarshalVariant {p : Prim} (Γ : Crate) (constant : Expr → BitVec p.bits)
    (code : EnumCode) (selector : BitVec p.bits) : Run (EnumValue Γ) :=
  match code.tryUnmarshalVariant.find? fun arm => selector == constant arm.selector with
  | some arm => arm.run Γ
  | none => OptionT.lift (fail .selector)

/-- The value of the selector that a variant declares. -/
def Variant.selector {p : Prim} (constant : Expr → BitVec p.bits) (v : Variant) : BitVec p.bits :=
  match v.discriminant with
  | some sel => constant sel
  | none => 0

/-- `written += ...?;` around code that writes to `&mut buffer[written..]`. -/
def runAdvance (written : ℕ) (x : Run ℕ) : Run ℕ := OptionT.mk do
  let n ← onSuffix written x.run
  pure (n.map (written + ·))

/-- The discriminant of a value that is in the variant `name`. -/
def discriminant {p : Prim} (constant : Expr → BitVec p.bits) (variants : List Variant)
    (name : Ident) : Option (BitVec p.bits) :=
  (variants.find? fun v => v.ident == name).map (Variant.selector constant)

/-- `get_enum_marshal_impl`. -/
def EnumCode.runTryMarshal {p : Prim} (constant : Expr → BitVec p.bits) (variants : List Variant)
    (code : EnumCode) (self : EnumValue Γ) : Run ℕ := do
  let selector ← resolve (discriminant constant variants self.1)
  let written ← OptionT.lift (advance 0 (p.tryMarshal selector))
  runAdvance written (code.runTryMarshalVariant self)

/-- `get_enum_unmarshal_impl`. -/
def EnumCode.runTryUnmarshal {p : Prim} (Γ : Crate) (constant : Expr → BitVec p.bits)
    (code : EnumCode) : Run (EnumValue Γ) := do
  let selector ← OptionT.lift p.tryUnmarshal
  code.runTryUnmarshalVariant Γ constant selector

namespace Crate

variable (Γ : Crate)

/-- The values of an enum. -/
def Sum : List Variant → Type
  | [] => Empty
  | v :: variants => Γ.Tuple v.types ⊕ Sum variants

def ofSum : (variants : List Variant) → Γ.Sum variants → EnumValue Γ
  | v :: _, .inl vs => (v.ident, Γ.ofTuple 0 v.types vs)
  | _ :: variants, .inr w => ofSum variants w

end Crate

/-- The description of the variants. -/
def Crate.variants (Γ : Crate) {p : Prim} (constant : Expr → BitVec p.bits) :
    (variants : List Variant) →
      Option (Variants p (variants.map (Variant.selector constant)) (Γ.Sum variants))
  | [] => some .nil
  | v :: vs =>
    if fresh : v.selector constant ∉ vs.map (Variant.selector constant) then
      match Γ.tupleFields v.types, Γ.variants constant vs with
      | some fields, some rest => some (.cons (v.selector constant) fresh fields rest)
      | _, _ => none
    else none

theorem mem_tupleVars {i : ℕ} {types : List RustType} {vs : Γ.Tuple types} {name : Ident}
    {v : Typed Γ} (h : (name, v) ∈ Γ.tupleVars i types vs) : ∃ j, i ≤ j ∧ name = indexIdent j := by
  induction types generalizing i with
  | nil => cases h
  | cons ty types ih =>
    obtain ⟨w, vs⟩ := vs
    rcases List.mem_cons.mp h with h | h
    · cases h
      exact ⟨i, le_rfl, rfl⟩
    · obtain ⟨j, hj, rfl⟩ := ih h
      exact ⟨j, by omega, rfl⟩

theorem lookup_tupleVars {i : ℕ} {types : List RustType} {vs : Γ.Tuple types} {name : Ident}
    {v : Typed Γ} (h : (name, v) ∈ Γ.tupleVars i types vs) :
    (Γ.tupleVars i types vs).lookup name = some v := by
  induction types generalizing i with
  | nil => cases h
  | cons ty types ih =>
    obtain ⟨w, vs⟩ := vs
    rcases List.mem_cons.mp h with h | h
    · cases h
      simp [Crate.tupleVars]
    · obtain ⟨j, hj, rfl⟩ := mem_tupleVars h
      have hne : indexIdent j ≠ indexIdent i := indexIdent_inj.not.mpr (by omega)
      rw [Crate.tupleVars, lookup_cons_of_ne hne]
      exact ih h

theorem bind_range' (i : ℕ) (types : List RustType) (vs : Γ.Tuple types) :
    FieldList.bind ((List.range' i types.length).map fun j => (.unnamed j, indexIdent j))
        (Γ.ofTuple i types vs) = some (Γ.tupleVars i types vs) := by
  induction types generalizing i with
  | nil => rfl
  | cons ty types ih =>
    obtain ⟨v, vs⟩ := vs
    rw [List.length_cons, List.range'_succ, List.map_cons, Crate.ofTuple, FieldList.bind,
      if_pos rfl, ih]
    rfl

theorem foldlM_marshalMember {types : List RustType} {description : TupleFields (Γ.Tuple types)}
    (h : Γ.tupleFields types = some description) {i : ℕ} {vars : Vars Γ} {vs : Γ.Tuple types}
    (hvars : ∀ name v, (name, v) ∈ Γ.tupleVars i types vs → vars.lookup name = some v)
    (written : ℕ) :
    ((List.range' i types.length).map indexIdent).foldlM (fun written name => do
      let v ← resolve (vars.lookup name)
      marshalMember written v) written = OptionT.lift (description.marshal vs written) := by
  induction types generalizing i written with
  | nil =>
    cases h
    rfl
  | cons ty types ih =>
    obtain ⟨t, rest, ht, hrest, rfl⟩ := tupleFields_cons_eq_some h
    obtain ⟨v, vs⟩ := vs
    have hhead := hvars _ _ List.mem_cons_self
    have htail := fun w => ih hrest (i := i + 1)
      (fun name x hm => hvars name x (List.mem_cons_of_mem _ hm)) w
    rw [List.length_cons, List.range'_succ, List.map_cons, List.foldlM_cons, hhead, resolve_some,
      pure_bind, marshalMember]
    simp only [ht]
    exact (bind_congr htail).trans (lift_bind_lift _ _)

theorem run_marshalArm {v : Variant} (htuple : v.isTuple = true)
    {fields : TupleFields (Γ.Tuple v.types)} (h : Γ.tupleFields v.types = some fields)
    (vs : Γ.Tuple v.types) :
    v.marshalArm.run (Γ.ofTuple 0 v.types vs) = OptionT.lift (fields.marshal vs 0) := by
  rw [MarshalArm.run, Variant.marshalArm]
  simp only [v.fields_of_isTuple htuple, getFieldList, List.range_eq_range']
  rw [bind_range', resolve_some, pure_bind]
  exact foldlM_marshalMember h (fun name x => lookup_tupleVars) 0

theorem run_unmarshalArm {v : Variant} (htuple : v.isTuple = true)
    {fields : TupleFields (Γ.Tuple v.types)} (h : Γ.tupleFields v.types = some fields)
    (selector : Expr) :
    (v.unmarshalArm selector).run Γ = OptionT.lift
      (fields.unmarshal >>= fun vs => pure (v.ident, Γ.ofTuple 0 v.types vs)) := by
  rw [UnmarshalArm.run, Variant.unmarshalArm]
  simp only [v.fields_of_isTuple htuple, getFieldList, List.range_eq_range']
  rw [runUnmarshal_tuple h rfl, ← bind_assoc,
    lift_bind_resolve fun vs => eval_range' 0 v.types vs []]
  apply OptionT.ext
  simp

theorem variants_cons_eq_some {p : Prim} {constant : Expr → BitVec p.bits} {v : Variant}
    {variants : List Variant} {description : Variants p
      ((v :: variants).map (Variant.selector constant)) (Γ.Sum (v :: variants))}
    (h : Γ.variants constant (v :: variants) = some description) :
    ∃ fresh fields rest, Γ.tupleFields v.types = some fields ∧
      Γ.variants constant variants = some rest ∧
      description = .cons (v.selector constant) fresh fields rest := by
  unfold Crate.variants at h
  split_ifs at h with fresh
  split at h
  · next fields rest hfields hrest =>
    cases h
    exact ⟨fresh, fields, rest, hfields, hrest, rfl⟩
  · cases h

theorem ofSum_mem {variants : List Variant} (w : Γ.Sum variants) :
    (Γ.ofSum variants w).1 ∈ variants.map Variant.ident := by
  induction variants with
  | nil => exact w.elim
  | cons v variants ih =>
    cases w with
    | inl vs => exact List.mem_cons_self
    | inr w => exact List.mem_cons_of_mem _ (ih w)

theorem map_bind_pure {α β γ : Type} (x : UnmarshalM α) (g : α → β) (f : β → γ) :
    (f <$> (x >>= fun a => pure (g a))) = x >>= fun a => pure (f (g a)) := by
  simp

section

variable {p : Prim} {constant : Expr → BitVec p.bits} {variants : List Variant}
  {description : Variants p (variants.map (Variant.selector constant)) (Γ.Sum variants)}

/-- The arm for the variant of a value does what the description says. -/
theorem exists_marshalArm (h : Γ.variants constant variants = some description)
    (htuple : ∀ v ∈ variants, v.isTuple = true) (hnodup : (variants.map Variant.ident).Nodup)
    (w : Γ.Sum variants) :
    ∃ arm, (variants.map Variant.marshalArm).find?
        (fun arm => arm.variant == (Γ.ofSum variants w).1) = some arm ∧
      arm.run (Γ.ofSum variants w).2 = OptionT.lift (description.tryMarshalVariant w) := by
  induction variants with
  | nil => exact w.elim
  | cons v variants ih =>
    obtain ⟨fresh, fields, rest, hfields, hrest, rfl⟩ := variants_cons_eq_some h
    obtain ⟨hv, hnodup⟩ := List.nodup_cons.mp hnodup
    cases w with
    | inl vs =>
      refine ⟨v.marshalArm, ?_, run_marshalArm (htuple v List.mem_cons_self) hfields vs⟩
      simp [Variant.marshalArm, Crate.ofSum]
    | inr w =>
      obtain ⟨arm, hfind, hrun⟩ := ih hrest (fun u hu => htuple u (List.mem_cons_of_mem _ hu))
        hnodup w
      have hne : v.ident ≠ (Γ.ofSum variants w).1 := fun heq => hv (heq ▸ ofSum_mem w)
      refine ⟨arm, ?_, hrun⟩
      rw [List.map_cons,
        List.find?_cons_of_neg (by simpa [Variant.marshalArm, Crate.ofSum] using hne)]
      exact hfind

/-- The first arm whose selector matches does what the description says. -/
theorem run_unmarshalArms (h : Γ.variants constant variants = some description)
    (htuple : ∀ v ∈ variants, v.isTuple = true)
    (hsel : ∀ v ∈ variants, v.discriminant.isSome) (selector : BitVec p.bits) :
    (enumCode variants).runTryUnmarshalVariant Γ constant selector =
      OptionT.lift (Γ.ofSum variants <$> description.tryUnmarshalVariant selector) := by
  induction variants with
  | nil =>
    cases h
    rfl
  | cons v variants ih =>
    obtain ⟨fresh, fields, rest, hfields, hrest, rfl⟩ := variants_cons_eq_some h
    have hih := ih hrest (fun u hu => htuple u (List.mem_cons_of_mem _ hu))
      fun u hu => hsel u (List.mem_cons_of_mem _ hu)
    obtain ⟨sel, hv⟩ := Option.isSome_iff_exists.mp (hsel v List.mem_cons_self)
    have hvsel : v.selector constant = constant sel := by rw [Variant.selector, hv]
    have harms : (enumCode (v :: variants)).tryUnmarshalVariant =
        v.unmarshalArm sel :: (enumCode variants).tryUnmarshalVariant := by
      simp [enumCode, hv]
    unfold EnumCode.runTryUnmarshalVariant at hih ⊢
    rw [harms]
    have hfinal (m : UnmarshalM (Γ.Tuple v.types ⊕ Γ.Sum variants))
        (hm : (Variants.cons (v.selector constant) fresh fields rest).tryUnmarshalVariant
          selector = m) : OptionT.lift (Γ.ofSum (v :: variants) <$> m) =
        (OptionT.lift (Γ.ofSum (v :: variants) <$> (Variants.cons (v.selector constant) fresh
          fields rest).tryUnmarshalVariant selector) : Run (EnumValue Γ)) := hm ▸ rfl
    by_cases hmatch : selector = constant sel
    · rw [List.find?_cons_of_pos (by simpa [Variant.unmarshalArm] using hmatch)]
      refine ((run_unmarshalArm (htuple v List.mem_cons_self) hfields sel).trans ?_).trans
        (hfinal _ (if_pos (hvsel ▸ hmatch)))
      exact congrArg OptionT.lift
        (map_bind_pure fields.unmarshal Sum.inl (Γ.ofSum (v :: variants))).symm
    · rw [List.find?_cons_of_neg (by simpa [Variant.unmarshalArm] using hmatch)]
      refine (hih.trans ?_).trans (hfinal _ (if_neg (hvsel ▸ hmatch)))
      rw [map_eq_pure_bind]
      exact congrArg OptionT.lift
        (map_bind_pure (rest.tryUnmarshalVariant selector) Sum.inr (Γ.ofSum (v :: variants))).symm

end

/-- Enough for the code for an enum to compile: distinct names, distinct selectors and an
implementation for every type. -/
structure EnumTypechecks {p : Prim} (Γ : Crate) (constant : Expr → BitVec p.bits)
    (variants : List Variant) : Prop where
  nodup : (variants.map Variant.ident).Nodup
  selectors : (variants.map (Variant.selector constant)).Nodup
  types : ∀ v ∈ variants, ∀ ty ∈ v.types, (Γ.marshalable ty).isSome

theorem exists_variants {p : Prim} {constant : Expr → BitVec p.bits} {variants : List Variant}
    (h : EnumTypechecks Γ constant variants) :
    ∃ description, Γ.variants constant variants = some description := by
  induction variants with
  | nil => exact ⟨.nil, rfl⟩
  | cons v variants ih =>
    obtain ⟨fresh, hselectors⟩ := List.nodup_cons.mp h.selectors
    obtain ⟨fields, hfields⟩ := exists_tupleFields (h.types v List.mem_cons_self)
    obtain ⟨rest, hrest⟩ := ih ⟨(List.nodup_cons.mp h.nodup).2, hselectors,
      fun u hu => h.types u (List.mem_cons_of_mem _ hu)⟩
    refine ⟨.cons (v.selector constant) fresh fields rest, ?_⟩
    unfold Crate.variants
    rw [dif_pos fresh]
    simp only [hfields, hrest]

theorem runAdvance_lift (written : ℕ) (m : MarshalM ℕ) :
    runAdvance written (OptionT.lift m) = OptionT.lift (advance written m) := by
  apply OptionT.ext
  funext buffer
  change (onSuffix written (some <$> m) >>= fun n => pure (n.map (written + ·))).run buffer =
    (some <$> advance written m).run buffer
  by_cases hw : written ≤ buffer.length
  · cases hm : m.run (buffer.drop written) with
    | ok n rest =>
      have hsome : (some <$> m).run (buffer.drop written) = .ok (some n) rest := by simp [hm]
      rw [run_bind_of_ok (run_onSuffix_of_ok hw hsome), run_map, run_advance_of_ok hw hm]
      rfl
    | error e rest =>
      have hsome : (some <$> m).run (buffer.drop written) = .error e rest := by simp [hm]
      rw [run_bind_of_error (run_onSuffix_of_error hw hsome), run_map,
        run_advance_of_error hw hm]
  · have hlt := Nat.not_le.mp hw
    rw [run_bind_of_error (run_onSuffix_of_lt hlt), run_map, run_advance_of_lt hlt]

theorem discriminant_ofSum {p : Prim} {constant : Expr → BitVec p.bits} {variants : List Variant}
    {description : Variants p (variants.map (Variant.selector constant)) (Γ.Sum variants)}
    (h : Γ.variants constant variants = some description)
    (hnodup : (variants.map Variant.ident).Nodup) (w : Γ.Sum variants) :
    discriminant constant variants (Γ.ofSum variants w).1 = some (description.discriminant w) := by
  induction variants with
  | nil => exact w.elim
  | cons v variants ih =>
    obtain ⟨fresh, fields, rest, hfields, hrest, rfl⟩ := variants_cons_eq_some h
    obtain ⟨hv, hnodup⟩ := List.nodup_cons.mp hnodup
    cases w with
    | inl vs =>
      simp [discriminant, Crate.ofSum]
      rfl
    | inr w =>
      have hne : v.ident ≠ (Γ.ofSum variants w).1 := fun heq => hv (heq ▸ ofSum_mem w)
      have hrest' := ih hrest hnodup w
      unfold discriminant at hrest' ⊢
      rw [List.find?_cons_of_neg (by simpa [Crate.ofSum] using hne)]
      exact hrest'

theorem getEnumImpl_eq_ok {variants : List Variant} {code : EnumCode}
    (h : getEnumImpl variants = .ok code) :
    (∀ v ∈ variants, v.isTuple = true) ∧ (∀ v ∈ variants, v.discriminant.isSome) ∧
      code = enumCode variants := by
  rw [getEnumImpl_eq] at h
  split at h
  · next hbad hnone =>
    cases h
    exact ⟨by simpa using hbad, by simpa [Option.isSome_iff_ne_none] using hnone, rfl⟩
  · cases h
  · cases h

theorem runTryMarshalVariant_eq {p : Prim} {constant : Expr → BitVec p.bits}
    {variants : List Variant}
    {description : Variants p (variants.map (Variant.selector constant)) (Γ.Sum variants)}
    (h : Γ.variants constant variants = some description)
    (htuple : ∀ v ∈ variants, v.isTuple = true) (hnodup : (variants.map Variant.ident).Nodup)
    (w : Γ.Sum variants) :
    (enumCode variants).runTryMarshalVariant (Γ.ofSum variants w) =
      OptionT.lift (description.tryMarshalVariant w) := by
  obtain ⟨arm, hfind, hrun⟩ := exists_marshalArm h htuple hnodup w
  unfold EnumCode.runTryMarshalVariant
  rw [enumCode, hfind]
  exact hrun

/-- The code that the macro generates for an enum does what the description of the enum
says: the routines for a variant and those that put its selector in front. -/
theorem getEnumImpl_preserves {p : Prim} {constant : Expr → BitVec p.bits}
    {variants : List Variant} {code : EnumCode} (hcode : getEnumImpl variants = .ok code)
    (h : EnumTypechecks Γ constant variants) :
    ∃ description, Γ.variants constant variants = some description ∧
      (∀ w : Γ.Sum variants,
        code.runTryMarshalVariant (Γ.ofSum variants w) =
          OptionT.lift (description.tryMarshalVariant w) ∧
        code.runTryMarshal constant variants (Γ.ofSum variants w) =
          OptionT.lift ((Ty.enum (.refl _) description).tryMarshal w)) ∧
      (∀ selector, code.runTryUnmarshalVariant Γ constant selector =
        OptionT.lift (Γ.ofSum variants <$> description.tryUnmarshalVariant selector)) ∧
      code.runTryUnmarshal Γ constant =
        OptionT.lift (Γ.ofSum variants <$> (Ty.enum (.refl _) description).tryUnmarshal) := by
  obtain ⟨htuple, hsel, rfl⟩ := getEnumImpl_eq_ok hcode
  obtain ⟨description, hdescription⟩ := exists_variants h
  have hmarshal := runTryMarshalVariant_eq hdescription htuple h.nodup
  have hunmarshal := run_unmarshalArms hdescription htuple hsel
  refine ⟨description, hdescription, fun w => ⟨hmarshal w, ?_⟩, hunmarshal, ?_⟩
  · rw [EnumCode.runTryMarshal, discriminant_ofSum hdescription h.nodup w, resolve_some, pure_bind,
      hmarshal w]
    simp only [runAdvance_lift]
    rw [lift_bind_lift]
    rfl
  · rw [EnumCode.runTryUnmarshal, bind_congr hunmarshal, lift_bind_lift]
    simp [Ty.tryUnmarshal]

/-- A keyed hash scheme: three variants of two, four and no bytes. -/
def schemeVariants : List Variant :=
  [⟨"Hmac", .unnamed [.prim .u16], some (.other "5")⟩,
    ⟨"ExclusiveOr", .unnamed [.array (.prim .u8) (.other "4")], some (.other "10")⟩,
    ⟨"Null", .unnamed [.unit], some (.other "16")⟩]

def schemeSelector : Expr → BitVec Prim.u16.bits
  | .other "5" => 5
  | .other "10" => 10
  | _ => 16

theorem enumTypechecks_scheme : EnumTypechecks byteCrate schemeSelector schemeVariants where
  nodup := by decide
  selectors := by decide
  types := by decide

theorem getEnumImpl_preserves_scheme :
    ∃ description, byteCrate.variants schemeSelector schemeVariants = some description ∧
      (∀ w, (enumCode schemeVariants).runTryMarshalVariant (byteCrate.ofSum schemeVariants w) =
          OptionT.lift (description.tryMarshalVariant w) ∧
        (enumCode schemeVariants).runTryMarshal schemeSelector schemeVariants
            (byteCrate.ofSum schemeVariants w) =
          OptionT.lift ((Ty.enum (.refl _) description).tryMarshal w)) ∧
      (∀ selector,
        (enumCode schemeVariants).runTryUnmarshalVariant byteCrate schemeSelector selector =
          OptionT.lift
            (byteCrate.ofSum schemeVariants <$> description.tryUnmarshalVariant selector)) ∧
      (enumCode schemeVariants).runTryUnmarshal byteCrate schemeSelector = OptionT.lift
        (byteCrate.ofSum schemeVariants <$> (Ty.enum (.refl _) description).tryUnmarshal) :=
  getEnumImpl_preserves rfl enumTypechecks_scheme

end TpmRs.MarshalableDerive
