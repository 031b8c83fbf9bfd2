import TpmRs.Base.Public

/-!
# Attestation and creation data

What a TPM signs about itself and its objects. The selector of what is attested comes
second in the encoding and the variant last.
-/

namespace TpmRs

open Library Library.Fallible

def tpm2MaxNvBufferSize : ℕ := 2048

/-- The size of the union of a digest and a handle. -/
def TpmuName.unionSize : ℕ := (Layout.union [TpmtHa.ty.layout, TpmHandle.ty.layout]).size

abbrev Tpm2bMaxNvBuffer := Tpm2b tpm2MaxNvBufferSize
abbrev Tpm2bName := Tpm2b TpmuName.unionSize

def TpmlPcrSelection.ty : Ty TpmlPcrSelection := Tpml.ty TpmsPcrSelection.ty tpm2NumPcrBanks

structure TpmsClockInfo where
  clock : U64
  resetCount : U32
  restartCount : U32
  safe : TpmiYesNo
  deriving DecidableEq

namespace TpmsClockInfo

def fields : TpmsClockInfo ≃ U64 × U32 × U32 × TpmiYesNo × Unit where
  toFun v := (v.clock, v.resetCount, v.restartCount, v.safe, ())
  invFun p := ⟨p.1, p.2.1, p.2.2.1, p.2.2.2.1⟩
  left_inv _ := rfl
  right_inv _ := rfl

def ty : Ty TpmsClockInfo :=
  .namedStruct fields (.field (.prim .u64) (.field (.prim .u32) (.field (.prim .u32) (.field
    TpmiYesNo.ty .nil))))

end TpmsClockInfo

structure TpmsQuoteInfo where
  pcrSelect : TpmlPcrSelection
  pcrDigest : Tpm2bDigest
  deriving DecidableEq

namespace TpmsQuoteInfo

def fields : TpmsQuoteInfo ≃ TpmlPcrSelection × Tpm2bDigest × Unit where
  toFun v := (v.pcrSelect, v.pcrDigest, ())
  invFun p := ⟨p.1, p.2.1⟩
  left_inv _ := rfl
  right_inv _ := rfl

def ty : Ty TpmsQuoteInfo :=
  .namedStruct fields (.field TpmlPcrSelection.ty (.field (.tpm2bSimple _) .nil))

end TpmsQuoteInfo

structure TpmsCreationInfo where
  objectName : Tpm2bName
  creationHash : Tpm2bDigest
  deriving DecidableEq

namespace TpmsCreationInfo

def fields : TpmsCreationInfo ≃ Tpm2bName × Tpm2bDigest × Unit where
  toFun v := (v.objectName, v.creationHash, ())
  invFun p := ⟨p.1, p.2.1⟩
  left_inv _ := rfl
  right_inv _ := rfl

def ty : Ty TpmsCreationInfo :=
  .namedStruct fields (.field (.tpm2bSimple _) (.field (.tpm2bSimple _) .nil))

end TpmsCreationInfo

structure TpmsCertifyInfo where
  name : Tpm2bName
  qualifiedName : Tpm2bName
  deriving DecidableEq

namespace TpmsCertifyInfo

def fields : TpmsCertifyInfo ≃ Tpm2bName × Tpm2bName × Unit where
  toFun v := (v.name, v.qualifiedName, ())
  invFun p := ⟨p.1, p.2.1⟩
  left_inv _ := rfl
  right_inv _ := rfl

def ty : Ty TpmsCertifyInfo :=
  .namedStruct fields (.field (.tpm2bSimple _) (.field (.tpm2bSimple _) .nil))

end TpmsCertifyInfo

structure TpmsCommandAuditInfo where
  auditCounter : U64
  digestAlg : U16
  auditDigest : Tpm2bDigest
  commandDigest : Tpm2bDigest
  deriving DecidableEq

namespace TpmsCommandAuditInfo

def fields : TpmsCommandAuditInfo ≃ U64 × U16 × Tpm2bDigest × Tpm2bDigest × Unit where
  toFun v := (v.auditCounter, v.digestAlg, v.auditDigest, v.commandDigest, ())
  invFun p := ⟨p.1, p.2.1, p.2.2.1, p.2.2.2.1⟩
  left_inv _ := rfl
  right_inv _ := rfl

def ty : Ty TpmsCommandAuditInfo :=
  .namedStruct fields (.field (.prim .u64) (.field (.prim .u16) (.field (.tpm2bSimple _) (.field
    (.tpm2bSimple _) .nil))))

end TpmsCommandAuditInfo

structure TpmsSessionAuditInfo where
  exclusiveSession : TpmiYesNo
  sessionDigest : Tpm2bDigest
  deriving DecidableEq

namespace TpmsSessionAuditInfo

def fields : TpmsSessionAuditInfo ≃ TpmiYesNo × Tpm2bDigest × Unit where
  toFun v := (v.exclusiveSession, v.sessionDigest, ())
  invFun p := ⟨p.1, p.2.1⟩
  left_inv _ := rfl
  right_inv _ := rfl

def ty : Ty TpmsSessionAuditInfo :=
  .namedStruct fields (.field TpmiYesNo.ty (.field (.tpm2bSimple _) .nil))

end TpmsSessionAuditInfo

structure TpmsTimeInfo where
  time : U64
  clockInfo : TpmsClockInfo
  deriving DecidableEq

namespace TpmsTimeInfo

def fields : TpmsTimeInfo ≃ U64 × TpmsClockInfo × Unit where
  toFun v := (v.time, v.clockInfo, ())
  invFun p := ⟨p.1, p.2.1⟩
  left_inv _ := rfl
  right_inv _ := rfl

def ty : Ty TpmsTimeInfo :=
  .namedStruct fields (.field (.prim .u64) (.field TpmsClockInfo.ty .nil))

end TpmsTimeInfo

structure TpmsTimeAttestInfo where
  time : TpmsTimeInfo
  firmwareVersion : U64
  deriving DecidableEq

namespace TpmsTimeAttestInfo

def fields : TpmsTimeAttestInfo ≃ TpmsTimeInfo × U64 × Unit where
  toFun v := (v.time, v.firmwareVersion, ())
  invFun p := ⟨p.1, p.2.1⟩
  left_inv _ := rfl
  right_inv _ := rfl

def ty : Ty TpmsTimeAttestInfo :=
  .namedStruct fields (.field TpmsTimeInfo.ty (.field (.prim .u64) .nil))

end TpmsTimeAttestInfo

structure TpmsNvCertifyInfo where
  indexName : Tpm2bName
  offset : U16
  nvContents : Tpm2bMaxNvBuffer
  deriving DecidableEq

namespace TpmsNvCertifyInfo

def fields : TpmsNvCertifyInfo ≃ Tpm2bName × U16 × Tpm2bMaxNvBuffer × Unit where
  toFun v := (v.indexName, v.offset, v.nvContents, ())
  invFun p := ⟨p.1, p.2.1, p.2.2.1⟩
  left_inv _ := rfl
  right_inv _ := rfl

def ty : Ty TpmsNvCertifyInfo :=
  .namedStruct fields (.field (.tpm2bSimple _) (.field (.prim .u16) (.field (.tpm2bSimple _) .nil)))

end TpmsNvCertifyInfo

/-- What is attested. -/
inductive TpmuAttest where
  | certify (f0 : TpmsCertifyInfo)
  | creation (f0 : TpmsCreationInfo)
  | quote (f0 : TpmsQuoteInfo)
  | commandAudit (f0 : TpmsCommandAuditInfo)
  | sessionAudit (f0 : TpmsSessionAuditInfo)
  | time (f0 : TpmsTimeAttestInfo)
  | nv (f0 : TpmsNvCertifyInfo)
  deriving DecidableEq

namespace TpmuAttest

abbrev Payload := (TpmsCertifyInfo × Unit) ⊕ (TpmsCreationInfo × Unit) ⊕ (TpmsQuoteInfo × Unit) ⊕
  (TpmsCommandAuditInfo × Unit) ⊕ (TpmsSessionAuditInfo × Unit) ⊕ (TpmsTimeAttestInfo × Unit) ⊕
  (TpmsNvCertifyInfo × Unit) ⊕ Empty

def variants : TpmuAttest ≃ Payload where
  toFun
    | certify f0 => .inl (f0, ())
    | creation f0 => .inr (.inl (f0, ()))
    | quote f0 => .inr (.inr (.inl (f0, ())))
    | commandAudit f0 => .inr (.inr (.inr (.inl (f0, ()))))
    | sessionAudit f0 => .inr (.inr (.inr (.inr (.inl (f0, ())))))
    | time f0 => .inr (.inr (.inr (.inr (.inr (.inl (f0, ()))))))
    | nv f0 => .inr (.inr (.inr (.inr (.inr (.inr (.inl (f0, ())))))))
  invFun
    | .inl (f0, ()) => certify f0
    | .inr (.inl (f0, ())) => creation f0
    | .inr (.inr (.inl (f0, ()))) => quote f0
    | .inr (.inr (.inr (.inl (f0, ())))) => commandAudit f0
    | .inr (.inr (.inr (.inr (.inl (f0, ()))))) => sessionAudit f0
    | .inr (.inr (.inr (.inr (.inr (.inl (f0, ())))))) => time f0
    | .inr (.inr (.inr (.inr (.inr (.inr (.inl (f0, ()))))))) => nv f0
  left_inv v := by cases v <;> rfl
  right_inv v := by rcases v with v | v | v | v | v | v | v | v <;> first | rfl | cases v

def selectors : List U16 := [TpmSt.attestCertify.val, TpmSt.attestCreation.val,
  TpmSt.attestQuote.val, TpmSt.attestCommandAudit.val, TpmSt.attestSessionAudit.val,
  TpmSt.attestTime.val, TpmSt.attestNV.val]

def impl : EnumImpl TpmuAttest Payload selectors where
  variants := variants
  payloads :=
    .cons (p := .u16) TpmSt.attestCertify.val (by decide) (.cons TpmsCertifyInfo.ty .nil)
    (.cons (p := .u16) TpmSt.attestCreation.val (by decide) (.cons TpmsCreationInfo.ty .nil)
    (.cons (p := .u16) TpmSt.attestQuote.val (by decide) (.cons TpmsQuoteInfo.ty .nil)
    (.cons (p := .u16) TpmSt.attestCommandAudit.val (by decide) (.cons TpmsCommandAuditInfo.ty .nil)
    (.cons (p := .u16) TpmSt.attestSessionAudit.val (by decide) (.cons TpmsSessionAuditInfo.ty .nil)
    (.cons (p := .u16) TpmSt.attestTime.val (by decide) (.cons TpmsTimeAttestInfo.ty .nil)
    (.cons (p := .u16) TpmSt.attestNV.val (by decide) (.cons TpmsNvCertifyInfo.ty .nil) .nil))))))

end TpmuAttest

/-- `TPMS_ATTEST`. -/
structure TpmsAttest where
  magic : TpmGenerated
  qualifiedSigner : Tpm2bName
  extraData : Tpm2bData
  clockInfo : TpmsClockInfo
  firmwareVersion : U64
  attested : TpmuAttest
  deriving DecidableEq

namespace TpmsAttest

def fields : TpmsAttest ≃ (TpmGenerated × Unit) ×
    (Tpm2bName × Tpm2bData × TpmsClockInfo × U64 × Unit) × TpmuAttest.Payload where
  toFun v := ((v.magic, ()), (v.qualifiedSigner, v.extraData, v.clockInfo, v.firmwareVersion, ()),
    TpmuAttest.variants v.attested)
  invFun p := ⟨p.1.1, p.2.1.1, p.2.1.2.1, p.2.1.2.2.1, p.2.1.2.2.2.1,
    TpmuAttest.variants.symm p.2.2⟩
  left_inv v := by simp
  right_inv p := by simp

def ty : Ty TpmsAttest :=
  .selectorApart (p := .u16) fields (.cons TpmGenerated.ty .nil)
    (.cons (.tpm2bSimple _) (.cons (.tpm2bSimple _) (.cons TpmsClockInfo.ty
      (.cons (.prim .u64) .nil))))
    TpmuAttest.impl.payloads

def tryMarshal (self : TpmsAttest) : MarshalM ℕ := do
  let written ← advance 0 (TpmGenerated.ty.tryMarshal self.magic)
  let written ← advance written (Prim.u16.tryMarshal (TpmuAttest.impl.discriminant self.attested))
  let written ← advance written self.qualifiedSigner.tryMarshal
  let written ← advance written self.extraData.tryMarshal
  let written ← advance written (TpmsClockInfo.ty.tryMarshal self.clockInfo)
  let written ← advance written (Prim.u64.tryMarshal self.firmwareVersion)
  advance written (TpmuAttest.impl.tryMarshalVariant self.attested)

def tryUnmarshal : UnmarshalM TpmsAttest := do
  let magic ← TpmGenerated.ty.tryUnmarshal
  let selector ← Prim.u16.tryUnmarshal
  let qualifiedSigner ← Tpm2b.tryUnmarshal _
  let extraData ← Tpm2b.tryUnmarshal _
  let clockInfo ← TpmsClockInfo.ty.tryUnmarshal
  let firmwareVersion ← Prim.u64.tryUnmarshal
  let attested ← TpmuAttest.impl.tryUnmarshalVariant selector
  pure { magic, qualifiedSigner, extraData, clockInfo, firmwareVersion, attested }

instance : Marshalable TpmsAttest := ⟨tryUnmarshal, tryMarshal⟩

/-- What `try_unmarshal` reads before the variant, for the selector. -/
def readSelector : UnmarshalM U16 := do
  let _ ← TpmGenerated.ty.tryUnmarshal
  let selector ← Prim.u16.tryUnmarshal
  let _ : Tpm2bName ← Tpm2b.tryUnmarshal _
  let _ : Tpm2bData ← Tpm2b.tryUnmarshal _
  let _ ← TpmsClockInfo.ty.tryUnmarshal
  let _ ← Prim.u64.tryUnmarshal
  pure selector

structure WellFormed (v : TpmsAttest) : Prop where
  qualifiedSigner : v.qualifiedSigner.WellFormed
  extraData : v.extraData.WellFormed
  attested : TpmuAttest.impl.WellFormed v.attested

/-- The magic number, the selector, the fields in order and the variant. -/
def enc (v : TpmsAttest) : List U8 :=
  Prim.u32.enc v.magic.val ++ Prim.u16.enc (TpmuAttest.impl.discriminant v.attested) ++
    v.qualifiedSigner.enc ++ v.extraData.enc ++ TpmsClockInfo.ty.enc v.clockInfo ++
    Prim.u64.enc v.firmwareVersion ++ TpmuAttest.impl.encVariant v.attested

theorem tryMarshal_eq : tryMarshal = ty.tryMarshal := by
  funext self
  simp [tryMarshal, ty, Ty.tryMarshal, TupleFields.marshal, fields, EnumImpl.discriminant,
    EnumImpl.tryMarshalVariant, TpmuAttest.impl]

theorem tryUnmarshal_eq : tryUnmarshal = ty.tryUnmarshal := by
  simp [tryUnmarshal, ty, Ty.tryUnmarshal, TupleFields.unmarshal, fields,
    EnumImpl.tryUnmarshalVariant, TpmuAttest.impl]

theorem wellFormed_clockInfo (v : TpmsClockInfo) : TpmsClockInfo.ty.WellFormed v := by
  simp [TpmsClockInfo.ty, TpmiYesNo.ty, TpmsClockInfo.fields, Ty.WellFormed,
    NamedFields.WellFormed]

theorem wellFormed_eq : WellFormed = ty.WellFormed := by
  funext v
  apply propext
  simp only [ty, Ty.WellFormed, TupleFields.WellFormed, TpmGenerated.ty, Ty.wellFormed_newtype,
    wellFormed_clockInfo, true_and, and_true]
  exact ⟨fun h => ⟨⟨h.qualifiedSigner, h.extraData⟩, h.attested⟩, fun h => ⟨h.1.1, h.1.2, h.2⟩⟩

theorem enc_eq : enc = ty.enc := by
  funext v
  simp [enc, ty, Ty.enc, Ty.chunks, TupleFields.chunks, TpmGenerated.ty, fields,
    EnumImpl.discriminant, EnumImpl.encVariant, TpmuAttest.impl]

theorem selectorApartExact : SelectorApartExact tryMarshal tryUnmarshal WellFormed enc
    TpmuAttest.selectors readSelector := by
  rw [tryMarshal_eq, tryUnmarshal_eq, wellFormed_eq, enc_eq]
  apply Ty.selectorApartExact
  simp [readSelector, TupleFields.unmarshal, Ty.tryUnmarshal]

end TpmsAttest

/-- The three codecs that are written by hand are exact. -/
theorem selectorApart_codecs_exact :
    SelectorApartExact TpmtPublic.tryMarshal TpmtPublic.tryUnmarshal TpmtPublic.WellFormed
        TpmtPublic.enc PublicParmsAndId.selectors TpmtPublic.readSelector ∧
      SelectorApartExact TpmtSensitive.tryMarshal TpmtSensitive.tryUnmarshal
        TpmtSensitive.WellFormed TpmtSensitive.enc TpmuSensitiveComposite.selectors
        TpmtSensitive.readSelector ∧
      SelectorApartExact TpmsAttest.tryMarshal TpmsAttest.tryUnmarshal TpmsAttest.WellFormed
        TpmsAttest.enc TpmuAttest.selectors TpmsAttest.readSelector :=
  ⟨TpmtPublic.selectorApartExact, TpmtSensitive.selectorApartExact, TpmsAttest.selectorApartExact⟩

/-- The environment in which an object was created. -/
structure TpmsCreationData where
  pcrSelect : TpmlPcrSelection
  pcrDigest : Tpm2bDigest
  locality : TpmaLocality
  parentNameAlg : TpmAlgId
  parentName : Tpm2bName
  parentQualifiedName : Tpm2bName
  outsideInfo : Tpm2bData
  deriving DecidableEq

namespace TpmsCreationData

def fields : TpmsCreationData ≃ TpmlPcrSelection × Tpm2bDigest × TpmaLocality × TpmAlgId × Tpm2bName
    × Tpm2bName × Tpm2bData × Unit where
  toFun v := (v.pcrSelect, v.pcrDigest, v.locality, v.parentNameAlg, v.parentName,
    v.parentQualifiedName, v.outsideInfo, ())
  invFun p := ⟨p.1, p.2.1, p.2.2.1, p.2.2.2.1, p.2.2.2.2.1, p.2.2.2.2.2.1, p.2.2.2.2.2.2.1⟩
  left_inv _ := rfl
  right_inv _ := rfl

def ty : Ty TpmsCreationData :=
  .namedStruct fields (.field TpmlPcrSelection.ty (.field (.tpm2bSimple _) (.field TpmaLocality.ty
    (.field TpmAlgId.ty (.field (.tpm2bSimple _) (.field (.tpm2bSimple _) (.field (.tpm2bSimple _)
    .nil)))))))

end TpmsCreationData

end TpmRs
