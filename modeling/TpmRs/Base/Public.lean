import TpmRs.Base.Lists
import TpmRs.Base.Schemes
import TpmRs.Marshalable.SelectorApart

/-!
# Public and sensitive areas

The public and the sensitive area of an object. Both begin with the selector of the
union at their end, so that their codecs are written by hand.
-/

namespace TpmRs

open Library Library.Fallible

def tpm2LabelMaxBuffer : ℕ := 32
def tpm2MaxSymData : ℕ := 256
def tpm2MaxEccKeyBytes : ℕ := 128
def tpm2MaxSymKeyBytes : ℕ := 32
def tpm2MaxRsaKeyBytes : ℕ := 512
def tpm2PrivateVendorSpecificBytes : ℕ := tpm2MaxRsaKeyBytes / 2 * (3 + 2)

abbrev Tpm2bSymKey := Tpm2b tpm2MaxSymKeyBytes
abbrev Tpm2bLabel := Tpm2b tpm2LabelMaxBuffer
abbrev Tpm2bPublicKeyRsa := Tpm2b tpm2MaxRsaKeyBytes
abbrev Tpm2bPrivateKeyRsa := Tpm2b (tpm2MaxRsaKeyBytes / 2)
abbrev Tpm2bEccParameter := Tpm2b tpm2MaxEccKeyBytes
abbrev Tpm2bPrivateVendorSpecific := Tpm2b tpm2PrivateVendorSpecificBytes

structure TpmsDerive where
  label : Tpm2bLabel
  context : Tpm2bLabel
  deriving DecidableEq

namespace TpmsDerive

def fields : TpmsDerive ≃ Tpm2bLabel × Tpm2bLabel × Unit where
  toFun v := (v.label, v.context, ())
  invFun p := ⟨p.1, p.2.1⟩
  left_inv _ := rfl
  right_inv _ := rfl

def ty : Ty TpmsDerive :=
  .namedStruct fields (.field (.tpm2bSimple _) (.field (.tpm2bSimple _) .nil))

end TpmsDerive

/-- The size of the union of the plain data and the derivation values. -/
def TpmuSensitiveCreate.unionSize : ℕ :=
  (Layout.union [(Ty.byteArray tpm2MaxSymData).layout, TpmsDerive.ty.layout]).size

abbrev Tpm2bSensitiveData := Tpm2b TpmuSensitiveCreate.unionSize

structure TpmsSensitiveCreate where
  userAuth : Tpm2bAuth
  data : Tpm2bSensitiveData
  deriving DecidableEq

namespace TpmsSensitiveCreate

def fields : TpmsSensitiveCreate ≃ Tpm2bAuth × Tpm2bSensitiveData × Unit where
  toFun v := (v.userAuth, v.data, ())
  invFun p := ⟨p.1, p.2.1⟩
  left_inv _ := rfl
  right_inv _ := rfl

def ty : Ty TpmsSensitiveCreate :=
  .namedStruct fields (.field (.tpm2bSimple _) (.field (.tpm2bSimple _) .nil))

end TpmsSensitiveCreate

structure TpmsEccPoint where
  x : Tpm2bEccParameter
  y : Tpm2bEccParameter
  deriving DecidableEq

namespace TpmsEccPoint

def fields : TpmsEccPoint ≃ Tpm2bEccParameter × Tpm2bEccParameter × Unit where
  toFun v := (v.x, v.y, ())
  invFun p := ⟨p.1, p.2.1⟩
  left_inv _ := rfl
  right_inv _ := rfl

def ty : Ty TpmsEccPoint :=
  .namedStruct fields (.field (.tpm2bSimple _) (.field (.tpm2bSimple _) .nil))

end TpmsEccPoint

/-- The parameters of a key and its public part. -/
inductive PublicParmsAndId where
  | keyedHash (f0 : TpmsKeyedHashParms) (f1 : Tpm2bDigest)
  | sym (f0 : TpmsSymCipherParms) (f1 : Tpm2bDigest)
  | rsa (f0 : TpmsRsaParms) (f1 : Tpm2bPublicKeyRsa)
  | ecc (f0 : TpmsEccParms) (f1 : TpmsEccPoint)
  deriving DecidableEq

namespace PublicParmsAndId

abbrev Payload := (TpmsKeyedHashParms × Tpm2bDigest × Unit) ⊕ (TpmsSymCipherParms × Tpm2bDigest ×
  Unit) ⊕ (TpmsRsaParms × Tpm2bPublicKeyRsa × Unit) ⊕ (TpmsEccParms × TpmsEccPoint × Unit) ⊕ Empty

def variants : PublicParmsAndId ≃ Payload where
  toFun
    | keyedHash f0 f1 => .inl (f0, f1, ())
    | sym f0 f1 => .inr (.inl (f0, f1, ()))
    | rsa f0 f1 => .inr (.inr (.inl (f0, f1, ())))
    | ecc f0 f1 => .inr (.inr (.inr (.inl (f0, f1, ()))))
  invFun
    | .inl (f0, f1, ()) => keyedHash f0 f1
    | .inr (.inl (f0, f1, ())) => sym f0 f1
    | .inr (.inr (.inl (f0, f1, ()))) => rsa f0 f1
    | .inr (.inr (.inr (.inl (f0, f1, ())))) => ecc f0 f1
  left_inv v := by cases v <;> rfl
  right_inv v := by rcases v with v | v | v | v | v <;> first | rfl | cases v

def selectors : List U16 := [TpmAlgId.keyedHash.val, TpmAlgId.symCipher.val, TpmAlgId.rsa.val,
  TpmAlgId.ecc.val]

def impl : EnumImpl PublicParmsAndId Payload selectors where
  variants := variants
  payloads :=
    .cons (p := .u16) TpmAlgId.keyedHash.val (by decide)
      (.cons TpmsKeyedHashParms.ty (.cons (.tpm2bSimple _) .nil))
    (.cons (p := .u16) TpmAlgId.symCipher.val (by decide)
      (.cons TpmsSymCipherParms.ty (.cons (.tpm2bSimple _) .nil))
    (.cons (p := .u16) TpmAlgId.rsa.val (by decide)
      (.cons TpmsRsaParms.ty (.cons (.tpm2bSimple _) .nil))
    (.cons (p := .u16) TpmAlgId.ecc.val (by decide)
      (.cons TpmsEccParms.ty (.cons TpmsEccPoint.ty .nil)) .nil)))

end PublicParmsAndId

/-- The private part of a key. -/
inductive TpmuSensitiveComposite where
  | rsa (f0 : Tpm2bPrivateKeyRsa)
  | ecc (f0 : Tpm2bEccParameter)
  | bits (f0 : Tpm2bSensitiveData)
  | sym (f0 : Tpm2bSymKey)
  | any (f0 : Tpm2bPrivateVendorSpecific)
  deriving DecidableEq

namespace TpmuSensitiveComposite

abbrev Payload := (Tpm2bPrivateKeyRsa × Unit) ⊕ (Tpm2bEccParameter × Unit) ⊕ (Tpm2bSensitiveData ×
  Unit) ⊕ (Tpm2bSymKey × Unit) ⊕ (Tpm2bPrivateVendorSpecific × Unit) ⊕ Empty

def variants : TpmuSensitiveComposite ≃ Payload where
  toFun
    | rsa f0 => .inl (f0, ())
    | ecc f0 => .inr (.inl (f0, ()))
    | bits f0 => .inr (.inr (.inl (f0, ())))
    | sym f0 => .inr (.inr (.inr (.inl (f0, ()))))
    | any f0 => .inr (.inr (.inr (.inr (.inl (f0, ())))))
  invFun
    | .inl (f0, ()) => rsa f0
    | .inr (.inl (f0, ())) => ecc f0
    | .inr (.inr (.inl (f0, ()))) => bits f0
    | .inr (.inr (.inr (.inl (f0, ())))) => sym f0
    | .inr (.inr (.inr (.inr (.inl (f0, ()))))) => any f0
  left_inv v := by cases v <;> rfl
  right_inv v := by rcases v with v | v | v | v | v | v <;> first | rfl | cases v

def selectors : List U16 := [TpmAlgId.rsa.val, TpmAlgId.ecc.val, TpmAlgId.keyedHash.val,
  TpmAlgId.symCipher.val, TpmAlgId.null.val]

def impl : EnumImpl TpmuSensitiveComposite Payload selectors where
  variants := variants
  payloads :=
    .cons (p := .u16) TpmAlgId.rsa.val (by decide) (.cons (.tpm2bSimple _) .nil)
    (.cons (p := .u16) TpmAlgId.ecc.val (by decide) (.cons (.tpm2bSimple _) .nil)
    (.cons (p := .u16) TpmAlgId.keyedHash.val (by decide) (.cons (.tpm2bSimple _) .nil)
    (.cons (p := .u16) TpmAlgId.symCipher.val (by decide) (.cons (.tpm2bSimple _) .nil)
    (.cons (p := .u16) TpmAlgId.null.val (by decide) (.cons (.tpm2bSimple _) .nil) .nil))))

end TpmuSensitiveComposite

/-- `TPMT_PUBLIC`. -/
structure TpmtPublic where
  nameAlg : TpmiAlgHash
  objectAttributes : TpmaObject
  authPolicy : Tpm2bDigest
  parmsAndId : PublicParmsAndId
  deriving DecidableEq

namespace TpmtPublic

def fields : TpmtPublic ≃
    Unit × (TpmiAlgHash × TpmaObject × Tpm2bDigest × Unit) × PublicParmsAndId.Payload where
  toFun v := ((), (v.nameAlg, v.objectAttributes, v.authPolicy, ()),
    PublicParmsAndId.variants v.parmsAndId)
  invFun p := ⟨p.2.1.1, p.2.1.2.1, p.2.1.2.2.1, PublicParmsAndId.variants.symm p.2.2⟩
  left_inv v := by simp
  right_inv p := by simp

def ty : Ty TpmtPublic :=
  .selectorApart (p := .u16) fields .nil
    (.cons TpmiAlgHash.ty (.cons TpmaObject.ty (.cons (.tpm2bSimple _) .nil)))
    PublicParmsAndId.impl.payloads

def tryMarshal (self : TpmtPublic) : MarshalM ℕ := do
  let written ← advance 0 (Prim.u16.tryMarshal (PublicParmsAndId.impl.discriminant self.parmsAndId))
  let written ← advance written (TpmiAlgHash.ty.tryMarshal self.nameAlg)
  let written ← advance written (TpmaObject.ty.tryMarshal self.objectAttributes)
  let written ← advance written self.authPolicy.tryMarshal
  advance written (PublicParmsAndId.impl.tryMarshalVariant self.parmsAndId)

def tryUnmarshal : UnmarshalM TpmtPublic := do
  let selector ← Prim.u16.tryUnmarshal
  let nameAlg ← TpmiAlgHash.ty.tryUnmarshal
  let objectAttributes ← TpmaObject.ty.tryUnmarshal
  let authPolicy ← Tpm2b.tryUnmarshal _
  let parmsAndId ← PublicParmsAndId.impl.tryUnmarshalVariant selector
  pure { nameAlg, objectAttributes, authPolicy, parmsAndId }

instance : Marshalable TpmtPublic := ⟨tryUnmarshal, tryMarshal⟩

/-- What `try_unmarshal` reads before the variant, for the selector. -/
def readSelector : UnmarshalM U16 := do
  let selector ← Prim.u16.tryUnmarshal
  let _ ← TpmiAlgHash.ty.tryUnmarshal
  let _ ← TpmaObject.ty.tryUnmarshal
  let _ : Tpm2bDigest ← Tpm2b.tryUnmarshal _
  pure selector

structure WellFormed (v : TpmtPublic) : Prop where
  authPolicy : v.authPolicy.WellFormed
  parmsAndId : PublicParmsAndId.impl.WellFormed v.parmsAndId

/-- The selector, the fields in order and the variant. -/
def enc (v : TpmtPublic) : List U8 :=
  Prim.u16.enc (PublicParmsAndId.impl.discriminant v.parmsAndId) ++
    Prim.u16.enc v.nameAlg.val ++ Prim.u32.enc v.objectAttributes.val ++
    v.authPolicy.enc ++ PublicParmsAndId.impl.encVariant v.parmsAndId

theorem tryMarshal_eq : tryMarshal = ty.tryMarshal := by
  funext self
  simp [tryMarshal, ty, Ty.tryMarshal, TupleFields.marshal, fields, EnumImpl.discriminant,
    EnumImpl.tryMarshalVariant, PublicParmsAndId.impl]

theorem tryUnmarshal_eq : tryUnmarshal = ty.tryUnmarshal := by
  simp [tryUnmarshal, ty, Ty.tryUnmarshal, TupleFields.unmarshal, fields,
    EnumImpl.tryUnmarshalVariant, PublicParmsAndId.impl]

theorem wellFormed_eq : WellFormed = ty.WellFormed := by
  funext v
  apply propext
  simp only [ty, Ty.WellFormed, TupleFields.WellFormed, TpmiAlgHash.ty, TpmaObject.ty,
    Ty.wellFormed_newtype, true_and, and_true]
  exact ⟨fun h => ⟨h.authPolicy, h.parmsAndId⟩, fun h => ⟨h.1, h.2⟩⟩

theorem enc_eq : enc = ty.enc := by
  funext v
  simp [enc, ty, Ty.enc, Ty.chunks, TupleFields.chunks, TpmiAlgHash.ty, TpmaObject.ty, fields,
    EnumImpl.discriminant, EnumImpl.encVariant, PublicParmsAndId.impl]

theorem selectorApartExact : SelectorApartExact tryMarshal tryUnmarshal WellFormed enc
    PublicParmsAndId.selectors readSelector := by
  rw [tryMarshal_eq, tryUnmarshal_eq, wellFormed_eq, enc_eq]
  apply Ty.selectorApartExact
  simp [readSelector, TupleFields.unmarshal, Ty.tryUnmarshal]

end TpmtPublic

/-- `TPMT_SENSITIVE`. -/
structure TpmtSensitive where
  authValue : Tpm2bAuth
  seedValue : Tpm2bDigest
  sensitive : TpmuSensitiveComposite
  deriving DecidableEq

namespace TpmtSensitive

def fields : TpmtSensitive ≃
    Unit × (Tpm2bAuth × Tpm2bDigest × Unit) × TpmuSensitiveComposite.Payload where
  toFun v := ((), (v.authValue, v.seedValue, ()), TpmuSensitiveComposite.variants v.sensitive)
  invFun p := ⟨p.2.1.1, p.2.1.2.1, TpmuSensitiveComposite.variants.symm p.2.2⟩
  left_inv v := by simp
  right_inv p := by simp

def ty : Ty TpmtSensitive :=
  .selectorApart (p := .u16) fields .nil (.cons (.tpm2bSimple _) (.cons (.tpm2bSimple _) .nil))
    TpmuSensitiveComposite.impl.payloads

def tryMarshal (self : TpmtSensitive) : MarshalM ℕ := do
  let written ← advance 0
    (Prim.u16.tryMarshal (TpmuSensitiveComposite.impl.discriminant self.sensitive))
  let written ← advance written self.authValue.tryMarshal
  let written ← advance written self.seedValue.tryMarshal
  advance written (TpmuSensitiveComposite.impl.tryMarshalVariant self.sensitive)

def tryUnmarshal : UnmarshalM TpmtSensitive := do
  let selector ← Prim.u16.tryUnmarshal
  let authValue ← Tpm2b.tryUnmarshal _
  let seedValue ← Tpm2b.tryUnmarshal _
  let sensitive ← TpmuSensitiveComposite.impl.tryUnmarshalVariant selector
  pure { authValue, seedValue, sensitive }

instance : Marshalable TpmtSensitive := ⟨tryUnmarshal, tryMarshal⟩

/-- What `try_unmarshal` reads before the variant, for the selector. -/
def readSelector : UnmarshalM U16 := do
  let selector ← Prim.u16.tryUnmarshal
  let _ : Tpm2bAuth ← Tpm2b.tryUnmarshal _
  let _ : Tpm2bDigest ← Tpm2b.tryUnmarshal _
  pure selector

structure WellFormed (v : TpmtSensitive) : Prop where
  authValue : v.authValue.WellFormed
  seedValue : v.seedValue.WellFormed
  sensitive : TpmuSensitiveComposite.impl.WellFormed v.sensitive

/-- The selector, the fields in order and the variant. -/
def enc (v : TpmtSensitive) : List U8 :=
  Prim.u16.enc (TpmuSensitiveComposite.impl.discriminant v.sensitive) ++ v.authValue.enc ++
    v.seedValue.enc ++ TpmuSensitiveComposite.impl.encVariant v.sensitive

theorem tryMarshal_eq : tryMarshal = ty.tryMarshal := by
  funext self
  simp [tryMarshal, ty, Ty.tryMarshal, TupleFields.marshal, fields, EnumImpl.discriminant,
    EnumImpl.tryMarshalVariant, TpmuSensitiveComposite.impl]

theorem tryUnmarshal_eq : tryUnmarshal = ty.tryUnmarshal := by
  simp [tryUnmarshal, ty, Ty.tryUnmarshal, TupleFields.unmarshal, fields,
    EnumImpl.tryUnmarshalVariant, TpmuSensitiveComposite.impl]

theorem wellFormed_eq : WellFormed = ty.WellFormed := by
  funext v
  apply propext
  simp only [ty, Ty.WellFormed, TupleFields.WellFormed, true_and, and_true]
  exact ⟨fun h => ⟨⟨h.authValue, h.seedValue⟩, h.sensitive⟩, fun h => ⟨h.1.1, h.1.2, h.2⟩⟩

theorem enc_eq : enc = ty.enc := by
  funext v
  simp [enc, ty, Ty.enc, Ty.chunks, TupleFields.chunks, fields, EnumImpl.discriminant,
    EnumImpl.encVariant, TpmuSensitiveComposite.impl]

theorem selectorApartExact : SelectorApartExact tryMarshal tryUnmarshal WellFormed enc
    TpmuSensitiveComposite.selectors readSelector := by
  rw [tryMarshal_eq, tryUnmarshal_eq, wellFormed_eq, enc_eq]
  apply Ty.selectorApartExact
  simp [readSelector, TupleFields.unmarshal, Ty.tryUnmarshal]

end TpmtSensitive
end TpmRs
