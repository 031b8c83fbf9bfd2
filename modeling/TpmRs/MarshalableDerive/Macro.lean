import TpmRs.Base.Tpml
import TpmRs.MarshalableDerive.Enums
import TpmRs.MarshalableDerive.Tpm2b

/-!
# The macro as a whole

Which definitions `derive(Marshalable)` accepts and what it generates for them. The
TPML lists are one definition with a length attribute, written once for each type of
element; its code is the codec of `Tpml`.
-/

namespace TpmRs.MarshalableDerive

open Library Library.Fallible Run

variable {Γ : Crate}

/-- Whether a definition has one of the flags for containers. -/
def DeriveInput.isContainer (input : DeriveInput) : Bool :=
  input.attrs.any (hasMarshalableAttr · "tpm2b_simple") ||
    input.attrs.any (hasMarshalableAttr · "tpm2b_struct")

/-- The rules for a definition without a flag for containers. -/
def Data.Accepted : Data → Prop
  | .struct (.named fields) => MarshalableDerive.Accepted fields
  | .struct (.unnamed _) => True
  | .struct .unit => True
  | .enum variants => ∀ v ∈ variants, v.isTuple = true ∧ v.discriminant.isSome
  | .union => False

theorem getEnumImpl_isOk_iff {variants : List Variant} :
    (∃ code, getEnumImpl variants = .ok code) ↔
      ∀ v ∈ variants, v.isTuple = true ∧ v.discriminant.isSome := by
  constructor
  · rintro ⟨code, hcode⟩ v hv
    obtain ⟨htuple, hsel, -⟩ := getEnumImpl_eq_ok hcode
    exact ⟨htuple v hv, hsel v hv⟩
  · intro h
    have hbad : variants.filter (fun v => !v.isTuple) = [] := by
      simpa using fun v hv => (h v hv).1
    have hnone : variants.find? (fun v => v.discriminant.isNone) = none := by
      simpa using fun v hv => Option.isSome_iff_ne_none.mp (h v hv).2
    exact ⟨enumCode variants, by rw [getEnumImpl_eq, hbad, hnone]⟩

/-- Without a flag the macro accepts exactly the definitions that follow the rules, and
generates an implementation of `Marshalable` for each. -/
theorem deriveTpmMarshalInner_isOk_iff {input : DeriveInput} (h : input.isContainer = false) :
    (∃ expansion, deriveTpmMarshalInner input = .ok expansion ∧
      expansion.marshalable.isSome) ↔ input.data.Accepted := by
  obtain ⟨hsimple, hstruct⟩ := Bool.or_eq_false_iff.mp h
  unfold deriveTpmMarshalInner
  simp only [hsimple, hstruct, Bool.or_self, if_neg Bool.false_ne_true]
  cases input.data with
  | struct fields =>
    cases fields with
    | named fields =>
      simp only [Data.Accepted]
      constructor
      · rintro ⟨expansion, hok, -⟩
        split at hok
        · cases hok
        · next code hcode => exact (getStructCode_named_eq_ok_iff.mp hcode).1
      · intro haccepted
        have hcode := getStructCode_named_eq_ok_iff.mpr ⟨haccepted, rfl⟩
        simp [hcode]
    | unnamed types => simp [getStructCode, getFieldMarshalBody, getFieldUnmarshal, Data.Accepted]
    | unit => simp [getStructCode, getFieldMarshalBody, getFieldUnmarshal, Data.Accepted]
  | enum variants =>
    simp only [Data.Accepted, ← getEnumImpl_isOk_iff]
    constructor
    · rintro ⟨expansion, hok, -⟩
      split at hok
      · cases hok
      · next code hcode => exact ⟨code, hcode⟩
    · rintro ⟨code, hcode⟩
      simp [hcode]
  | union => simp [Data.Accepted]

theorem deriveTpmMarshalInner_isOk_iff_list :
    ∃ expansion, deriveTpmMarshalInner ⟨"TpmlDigest", [],
        .struct (.named (tpmlFields "digests" .nil (.other "8")))⟩ = .ok expansion ∧
      expansion.marshalable.isSome :=
  (deriveTpmMarshalInner_isOk_iff rfl).mpr (getStructCode_named_eq_ok_iff.mp rfl).1

/-- What the macro does with an enum: it reports all variants that are no tuples, or else the
first one without a selector; a flag for containers leaves the routines for a variant and
drops the implementation of `Marshalable`. -/
theorem deriveTpmMarshalInner_enum {input : DeriveInput} {variants : List Variant}
    (h : input.data = .enum variants) :
    deriveTpmMarshalInner input =
      match variants.filter (fun v => !v.isTuple),
        variants.find? (fun v => v.discriminant.isNone) with
      | [], none => .ok ⟨.marshalableVariant (enumCode variants),
          if input.isContainer then none else some .enum⟩
      | [], some v => .error (.err v.selectorError)
      | bad, _ => .error (.err (bad.map Variant.fieldsError).flatten) := by
  unfold deriveTpmMarshalInner
  simp only [h, getEnumImpl_eq]
  cases variants.filter (fun v => !v.isTuple) with
  | nil =>
    cases variants.find? (fun v => v.discriminant.isNone) with
    | none => rfl
    | some v => rfl
  | cons v bad => rfl

/-- An enum with a unit variant. -/
def nullVariants : List Variant :=
  [⟨"Sha1", .unnamed [.unit], some (.other "4")⟩, ⟨"Null", .unit, none⟩]

theorem deriveTpmMarshalInner_enum_null :
    deriveTpmMarshalInner ⟨"TpmuHa", [], .enum nullVariants⟩ =
      .error (.err [(.fields .unit, .text "Cannot marshal named field in an enum")]) :=
  deriveTpmMarshalInner_enum
    (rfl : (⟨"TpmuHa", [], .enum nullVariants⟩ : DeriveInput).data = .enum nullVariants)

end TpmRs.MarshalableDerive
