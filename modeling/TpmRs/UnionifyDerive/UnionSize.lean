import TpmRs.Marshalable.Exact
import TpmRs.Marshalable.Layout
import TpmRs.MarshalableDerive.Enums

/-!
# `derive(UnionSize)`

The macro turns an enum into the `repr(C)` union of its payloads and gives the size of
that union as a constant, which the type library uses as the capacity of byte buffers. A
variant has at most one field; all variants with more are reported together, and generic
enums are refused before. The size is the least multiple of the alignment with room for
every payload, so that a buffer of that size holds whatever a value of the enum is
marshaled to.
-/

namespace TpmRs.UnionifyDerive

open Library Library.Fallible MarshalableDerive

structure ItemEnum where
  ident : Ident
  /-- `generics.params`. -/
  generics : List Ident
  variants : List Variant

def enumFieldsToUnionType (fields : Fields) : Except Error (Option RustType) :=
  match fields with
  | .named [f] => .ok (some f.ty)
  | .unnamed [ty] => .ok (some ty)
  | .unit => .ok none
  | _ => .error (.new (.fields fields)
      "UnionSize is not derivable for enum variants containing more than one field")

def enumVariantToUnionField (v : Variant) : Except Error (Option (Ident × RustType)) :=
  match enumFieldsToUnionType v.fields with
  | .error e => .error e
  | .ok (some ty) => .ok (some (v.ident, ty))
  | .ok none => .ok none

/-- The fields of the union. -/
def taggedEnumToUnion (taggedEnum : ItemEnum) : Except Error (List (Ident × RustType)) :=
  if taggedEnum.generics ≠ [] then
    .error (.new .generics "UnionSize is only supported on enums without generics")
  else
    let results := taggedEnum.variants.map enumVariantToUnionField
    match errorsOf results with
    | [] => .ok ((valuesOf results).filterMap id)
    | errors => .error errors.flatten

/-- The module with the union and the implementation of `UnionSize`. -/
structure UnionModule where
  enumIdent : Ident
  unionFields : List (Ident × RustType)

def constructModule (taggedEnum : ItemEnum) : Except Error UnionModule :=
  match taggedEnumToUnion taggedEnum with
  | .error e => .error e
  | .ok unionFields => .ok ⟨taggedEnum.ident, unionFields⟩

/-- The fields are neither of one type nor absent. -/
def isRefused (v : Variant) : Bool :=
  match v.fields with
  | .named [_] | .unnamed [_] | .unit => false
  | _ => true

/-- The member of the union for a variant. -/
def unionField (v : Variant) : Option (Ident × RustType) :=
  match v.fields with
  | .named [f] => some (v.ident, f.ty)
  | .unnamed [ty] => some (v.ident, ty)
  | _ => none

def fieldsError (v : Variant) : Error :=
  .new (.fields v.fields)
    "UnionSize is not derivable for enum variants containing more than one field"

theorem enumVariantToUnionField_eq (v : Variant) :
    enumVariantToUnionField v =
      if isRefused v then .error (fieldsError v) else .ok (unionField v) := by
  unfold enumVariantToUnionField enumFieldsToUnionType isRefused unionField fieldsError
  cases v.fields with
  | unit => rfl
  | named fields =>
    match fields with
    | [] => rfl
    | [_] => rfl
    | _ :: _ :: _ => rfl
  | unnamed types =>
    match types with
    | [] => rfl
    | [_] => rfl
    | _ :: _ :: _ => rfl

theorem errorsOf_map_enumVariantToUnionField (variants : List Variant) :
    errorsOf (variants.map enumVariantToUnionField) =
      (variants.filter isRefused).map fieldsError := by
  induction variants with
  | nil => rfl
  | cons v variants ih =>
    rw [List.map_cons, enumVariantToUnionField_eq]
    cases h : isRefused v with
    | true => simp [h, ih]
    | false => simp [h, ih]

theorem valuesOf_map_enumVariantToUnionField {variants : List Variant}
    (h : variants.filter isRefused = []) :
    (valuesOf (variants.map enumVariantToUnionField)).filterMap id =
      variants.filterMap unionField := by
  induction variants with
  | nil => rfl
  | cons v variants ih =>
    rw [List.filter_cons] at h
    split_ifs at h with hv
    have hrest := ih h
    rw [List.map_cons, enumVariantToUnionField_eq, if_neg hv, valuesOf_cons_ok]
    cases hfield : unionField v with
    | none => simpa [hfield] using hrest
    | some field => simpa [hfield] using hrest

theorem taggedEnumToUnion_eq (taggedEnum : ItemEnum) :
    taggedEnumToUnion taggedEnum =
      match taggedEnum.generics, taggedEnum.variants.filter isRefused with
      | [], [] => .ok (taggedEnum.variants.filterMap unionField)
      | [], bad => .error (bad.map fieldsError).flatten
      | _, _ =>
        .error (.new .generics "UnionSize is only supported on enums without generics") := by
  unfold taggedEnumToUnion
  cases taggedEnum.generics with
  | cons g gs => rfl
  | nil =>
    rw [if_neg (by simp)]
    simp only [errorsOf_map_enumVariantToUnionField]
    cases h : taggedEnum.variants.filter isRefused with
    | nil => exact congrArg Except.ok (valuesOf_map_enumVariantToUnionField h)
    | cons v bad => rfl

/-- What the macro makes of an enum: the error about generics alone, or else one error for
every variant that is refused, in order, or else the union of the types of the variants. -/
theorem constructModule_eq (taggedEnum : ItemEnum) :
    constructModule taggedEnum =
      if taggedEnum.generics ≠ [] then
        .error (.new .generics "UnionSize is only supported on enums without generics")
      else if ∃ v ∈ taggedEnum.variants, isRefused v then
        .error ((taggedEnum.variants.filter isRefused).map fieldsError).flatten
      else .ok ⟨taggedEnum.ident, taggedEnum.variants.filterMap unionField⟩ := by
  have hany : (∃ v ∈ taggedEnum.variants, isRefused v) ↔
      taggedEnum.variants.filter isRefused ≠ [] := by
    simp [List.filter_eq_nil_iff]
  unfold constructModule
  rw [taggedEnumToUnion_eq]
  cases hgenerics : taggedEnum.generics with
  | cons g gs => rfl
  | nil =>
    rw [if_neg (by simp), if_congr hany rfl rfl]
    cases h : taggedEnum.variants.filter isRefused with
    | nil => rfl
    | cons v bad => rfl

/-- The layout of a type. -/
def layout (Γ : Crate) : RustType → Layout
  | .prim p => p.layout
  | .unit => .struct []
  | .path path => (Γ.ty path).layout
  | .array elem len => .array (layout Γ elem) (Γ.size len)
  | .other => .struct []

/-- `size_of` of the union; a union must have a field. -/
def unionSize (Γ : Crate) (fields : List (Ident × RustType)) : Option ℕ :=
  if fields = [] then none else some (Layout.union (fields.map fun f => layout Γ f.2)).size

variable {Γ : Crate}

theorem layout_of_marshalable {ty : RustType} {t : Ty (Γ.denote ty)}
    (h : Γ.marshalable ty = some t) : t.layout = layout Γ ty := by
  unfold Crate.marshalable at h
  split at h
  · cases h
    rfl
  · cases h
    rfl
  · cases h
    rfl
  · cases h
    rfl
  · cases h

theorem constructModule_eq_ok {taggedEnum : ItemEnum} {m : UnionModule}
    (h : constructModule taggedEnum = .ok m) :
    (∀ v ∈ taggedEnum.variants, isRefused v = false) ∧
      m.unionFields = taggedEnum.variants.filterMap unionField := by
  unfold constructModule at h
  rw [taggedEnumToUnion_eq] at h
  cases hgenerics : taggedEnum.generics with
  | cons g gs =>
    rw [hgenerics] at h
    cases h
  | nil =>
    rw [hgenerics] at h
    cases hbad : taggedEnum.variants.filter isRefused with
    | nil =>
      rw [hbad] at h
      cases h
      exact ⟨by simpa using hbad, rfl⟩
    | cons v bad =>
      rw [hbad] at h
      cases h

theorem unionField_of_isTuple {v : Variant} (htuple : v.isTuple = true)
    (hfew : isRefused v = false) :
    ∃ ty, v.types = [ty] ∧ unionField v = some (v.ident, ty) := by
  have hfields := v.fields_of_isTuple htuple
  unfold isRefused at hfew
  rw [hfields] at hfew
  split at hfew
  · next h => cases h
  · next ty h =>
    injection h with htypes
    exact ⟨ty, htypes, by simp [unionField, hfields, htypes]⟩
  · next h => cases h
  · cases hfew

theorem maxSize_le_unionSize {fields : List (Ident × RustType)} {n : ℕ}
    (h : unionSize Γ fields = some n) : Layout.maxSize (fields.map fun f => layout Γ f.2) ≤ n := by
  unfold unionSize at h
  split_ifs at h
  cases h
  exact Layout.maxSize_le_size_union _

theorem size_layouts_of_types_eq {types : List RustType} {ty : RustType} (htypes : types = [ty])
    {fields : TupleFields (Γ.Tuple types)} (h : Γ.tupleFields types = some fields) :
    (Layout.struct fields.layouts).size = (layout Γ ty).size := by
  subst htypes
  obtain ⟨t, rest, ht, hrest, rfl⟩ := tupleFields_cons_eq_some h
  cases hrest
  change (Layout.struct [t.layout]).size = _
  rw [Layout.size_struct_singleton, layout_of_marshalable ht]

theorem maxSize_layouts_le {p : Prim} {constant : Expr → BitVec p.bits} {variants : List Variant}
    {description : Variants p (variants.map (Variant.selector constant)) (Γ.Sum variants)}
    (h : Γ.variants constant variants = some description)
    (htuple : ∀ v ∈ variants, v.isTuple = true) (hfew : ∀ v ∈ variants, isRefused v = false) :
    Layout.maxSize description.layouts ≤
      Layout.maxSize ((variants.filterMap unionField).map fun f => layout Γ f.2) := by
  induction variants with
  | nil =>
    cases h
    exact le_rfl
  | cons v variants ih =>
    obtain ⟨fresh, fields, rest, hfields, hrest, rfl⟩ := variants_cons_eq_some h
    have htail := ih hrest (fun u hu => htuple u (List.mem_cons_of_mem _ hu))
      fun u hu => hfew u (List.mem_cons_of_mem _ hu)
    obtain ⟨ty, hty, hfield⟩ := unionField_of_isTuple (htuple v List.mem_cons_self)
      (hfew v List.mem_cons_self)
    have hhead := size_layouts_of_types_eq hty hfields
    rw [List.filterMap_cons_some hfield]
    exact max_le_max hhead.le htail

theorem run_lift_of_ok {α : Type} {m : Fallible TpmRcError (List U8) α} {a : α}
    {buffer buffer' : List U8} (h : m.run buffer = .ok a buffer') :
    (OptionT.lift m : Run α).run.run buffer = .ok (some a) buffer' := by
  rw [OptionT.run_lift, run_bind_of_ok h]
  rfl

/-- Both macros accept the enum, and the generated code compiles with the union of size `n`. -/
structure DerivesBoth {p : Prim} (Γ : Crate) (constant : Expr → BitVec p.bits)
    (taggedEnum : ItemEnum) (code : EnumCode) (n : ℕ) : Prop where
  code_eq : getEnumImpl taggedEnum.variants = .ok code
  typechecks : EnumTypechecks Γ constant taggedEnum.variants
  size_eq : ∃ m, constructModule taggedEnum = .ok m ∧ unionSize Γ m.unionFields = some n

/-- A buffer of the size of the union holds every variant: what the generated code writes
there for a well-formed value is read back from there under the selector of the value. -/
theorem runTryMarshalVariant_unionSize {p : Prim} {constant : Expr → BitVec p.bits}
    {taggedEnum : ItemEnum} {code : EnumCode} {n : ℕ}
    (h : DerivesBoth Γ constant taggedEnum code n) :
    ∃ description, Γ.variants constant taggedEnum.variants = some description ∧
      ∀ (w : Γ.Sum taggedEnum.variants) (buffer : List U8), description.WellFormed w →
        buffer.length = n → ∃ k buffer', k ≤ n ∧ buffer'.length = n ∧
          (code.runTryMarshalVariant (Γ.ofSum _ w)).run.run buffer = .ok (some k) buffer' ∧
          buffer'.drop k = buffer.drop k ∧
          (code.runTryUnmarshalVariant Γ constant (description.discriminant w)).run.run buffer' =
            .ok (some (Γ.ofSum _ w)) (buffer'.drop k) := by
  obtain ⟨htuple, hsel, rfl⟩ := getEnumImpl_eq_ok h.code_eq
  obtain ⟨description, hdescription⟩ := exists_variants h.typechecks
  obtain ⟨m, hunion, hsize⟩ := h.size_eq
  obtain ⟨hfew, hfields⟩ := constructModule_eq_ok hunion
  rw [hfields] at hsize
  refine ⟨description, hdescription, fun w buffer hw hbuffer => ?_⟩
  obtain ⟨enc, henc⟩ : ∃ enc, enc = Chunk.flat (description.chunks w) := ⟨_, rfl⟩
  have hroom : enc.length ≤ n := by
    rw [henc]
    exact (description.length_enc_le w hw).trans
      ((maxSize_layouts_le hdescription htuple hfew).trans (maxSize_le_unionSize hsize))
  have hmarshal : (description.tryMarshalVariant w).run buffer =
      .ok enc.length (enc ++ buffer.drop enc.length) := by
    rw [description.tryMarshalVariant_eq_writeAll w hw,
      Chunk.run_writeAll_of_le _ _ (by rw [← henc]; omega), ← henc]
    simp
  have hunmarshal : (description.tryUnmarshalVariant (description.discriminant w)).run
      (enc ++ buffer.drop enc.length) = .ok w (buffer.drop enc.length) :=
    ((description.decodes _).run_eq_ok_iff _ w _).mpr ⟨⟨hw, rfl⟩, by rw [henc]⟩
  refine ⟨enc.length, enc ++ buffer.drop enc.length, hroom, ?_, ?_, ?_, ?_⟩
  · rw [List.length_append, List.length_drop]
    omega
  · rw [runTryMarshalVariant_eq hdescription htuple h.typechecks.nodup w]
    exact run_lift_of_ok hmarshal
  · exact List.drop_left
  · rw [run_unmarshalArms hdescription htuple hsel, List.drop_left]
    exact run_lift_of_ok (by rw [run_map, hunmarshal])

def schemeEnum : ItemEnum := ⟨"TpmuSchemeKeyedHash", [], schemeVariants⟩

theorem runTryMarshalVariant_unionSize_scheme :
    ∃ description, byteCrate.variants schemeSelector schemeEnum.variants = some description ∧
      ∀ (w : byteCrate.Sum schemeEnum.variants) (buffer : List U8), description.WellFormed w →
        buffer.length = 4 → ∃ k buffer', k ≤ 4 ∧ buffer'.length = 4 ∧
          ((enumCode schemeVariants).runTryMarshalVariant (byteCrate.ofSum _ w)).run.run buffer =
            .ok (some k) buffer' ∧
          buffer'.drop k = buffer.drop k ∧
          ((enumCode schemeVariants).runTryUnmarshalVariant byteCrate schemeSelector
            (description.discriminant w)).run.run buffer' =
              .ok (some (byteCrate.ofSum _ w)) (buffer'.drop k) :=
  runTryMarshalVariant_unionSize ⟨rfl, enumTypechecks_scheme,
    ⟨"TpmuSchemeKeyedHash", [("Hmac", .prim .u16),
      ("ExclusiveOr", .array (.prim .u8) (.other "4")), ("Null", .unit)]⟩, rfl, by decide⟩

end TpmRs.UnionifyDerive
