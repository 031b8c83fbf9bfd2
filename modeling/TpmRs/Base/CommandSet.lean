import TpmRs.Base.Attributes
import TpmRs.Base.Commands
import TpmRs.Base.Holders

/-!
# The command set

The commands that have parameters, handles and responses in the type library besides
`TPM2_Startup` and `TPM2_GetRandom`: starting a session, creating a primary object, reading
PCRs and querying capabilities.
-/

namespace TpmRs

open Library

namespace TpmCc

def createPrimary : TpmCc := ⟨0x00000131⟩
def startAuthSession : TpmCc := ⟨0x00000176⟩
def getCapability : TpmCc := ⟨0x0000017A⟩
def pcrRead : TpmCc := ⟨0x0000017E⟩

end TpmCc

/-- `TPM_SE`. -/
structure TpmSe where
  val : U8
  deriving DecidableEq

def TpmSe.ty : Ty TpmSe := .newtype .u8 ⟨val, mk, fun _ => rfl, fun _ => rfl⟩

/-- `TPM_CAP`. -/
structure TpmCap where
  val : U32
  deriving DecidableEq

namespace TpmCap

def algs : TpmCap := ⟨0x00000000⟩
def handles : TpmCap := ⟨0x00000001⟩
def commands : TpmCap := ⟨0x00000002⟩
def ppCommands : TpmCap := ⟨0x00000003⟩
def auditCommands : TpmCap := ⟨0x00000004⟩
def pcrs : TpmCap := ⟨0x00000005⟩
def tpmProperties : TpmCap := ⟨0x00000006⟩
def pcrProperties : TpmCap := ⟨0x00000007⟩
def eccCurves : TpmCap := ⟨0x00000008⟩
def authPolicies : TpmCap := ⟨0x00000009⟩

def ty : Ty TpmCap := .newtype .u32 ⟨val, mk, fun _ => rfl, fun _ => rfl⟩

end TpmCap

/-- `TPMI_DH_OBJECT`. -/
structure TpmiDhObject where
  val : U32
  deriving DecidableEq

def TpmiDhObject.ty : Ty TpmiDhObject := .newtype .u32 ⟨val, mk, fun _ => rfl, fun _ => rfl⟩

/-- `TPMI_DH_ENTITY`. -/
structure TpmiDhEntity where
  val : U32
  deriving DecidableEq

def TpmiDhEntity.ty : Ty TpmiDhEntity := .newtype .u32 ⟨val, mk, fun _ => rfl, fun _ => rfl⟩

/-- `TPMI_RH_HIERARCHY`. -/
structure TpmiRhHierarchy where
  val : U32
  deriving DecidableEq

def TpmiRhHierarchy.ty : Ty TpmiRhHierarchy :=
  .newtype .u32 ⟨val, mk, fun _ => rfl, fun _ => rfl⟩

instance : Inhabited TpmaCc := ⟨⟨0⟩⟩

def TpmaCc.ty : Ty TpmaCc := .newtype .u32 ⟨val, mk, fun _ => rfl, fun _ => rfl⟩

/-- `TpmuEncryptedSecret::UNION_SIZE`. -/
def TpmuEncryptedSecret.unionSize : ℕ :=
  (Layout.union [.array Prim.u8.layout TpmsEccPoint.ty.sizeOf,
    .array Prim.u8.layout tpm2MaxRsaKeyBytes,
    .array Prim.u8.layout (Tpm2b.layout TpmtHa.unionSize).size,
    .array Prim.u8.layout (Tpm2b.layout TpmtHa.unionSize).size]).size

abbrev Tpm2bEncryptedSecret := Tpm2b TpmuEncryptedSecret.unionSize

/-- `TPM2_StartAuthSession` (command). -/
structure StartAuthSessionCmd where
  nonceCaller : Tpm2bNonce
  encryptedSalt : Tpm2bEncryptedSecret
  sessionType : TpmSe
  symmetric : TpmtSymDefObject
  authHash : TpmiAlgHash
  deriving DecidableEq

namespace StartAuthSessionCmd

def fields : StartAuthSessionCmd ≃
    Tpm2bNonce × Tpm2bEncryptedSecret × TpmSe × TpmtSymDefObject × TpmiAlgHash × Unit where
  toFun v := (v.nonceCaller, v.encryptedSalt, v.sessionType, v.symmetric, v.authHash, ())
  invFun p := ⟨p.1, p.2.1, p.2.2.1, p.2.2.2.1, p.2.2.2.2.1⟩
  left_inv _ := rfl
  right_inv _ := rfl

def ty : Ty StartAuthSessionCmd :=
  .namedStruct fields (.field (.tpm2bSimple _) (.field (.tpm2bSimple _) (.field TpmSe.ty
    (.field TpmtSymDefObject.ty (.field TpmiAlgHash.ty .nil)))))

end StartAuthSessionCmd

structure StartAuthSessionHandles where
  tpmKey : TpmiDhObject
  bind : TpmiDhEntity
  deriving DecidableEq

namespace StartAuthSessionHandles

def fields : StartAuthSessionHandles ≃ TpmiDhObject × TpmiDhEntity × Unit where
  toFun v := (v.tpmKey, v.bind, ())
  invFun p := ⟨p.1, p.2.1⟩
  left_inv _ := rfl
  right_inv _ := rfl

def ty : Ty StartAuthSessionHandles :=
  .namedStruct fields (.field TpmiDhObject.ty (.field TpmiDhEntity.ty .nil))

instance : Marshalable StartAuthSessionHandles := ty.marshalable

end StartAuthSessionHandles

/-- `TPM2_StartAuthSession` (response). -/
structure StartAuthSessionResp where
  nonceTpm : Tpm2bNonce
  deriving DecidableEq

def StartAuthSessionResp.ty : Ty StartAuthSessionResp :=
  .namedStruct (β := Tpm2bNonce × Unit)
    ⟨fun v => (v.nonceTpm, ()), fun p => ⟨p.1⟩, fun _ => rfl, fun _ => rfl⟩
    (.field (.tpm2bSimple _) .nil)

instance : Marshalable StartAuthSessionResp := StartAuthSessionResp.ty.marshalable
instance : Marshalable TpmiShAuthSession := TpmiShAuthSession.ty.marshalable

instance : TpmCommand StartAuthSessionCmd StartAuthSessionHandles StartAuthSessionResp
    TpmiShAuthSession where
  toMarshalable := StartAuthSessionCmd.ty.marshalable
  cmdCode := .startAuthSession

/-- A proof that an object was created by the TPM. -/
structure TpmtTkCreation where
  tag : TpmSt
  hierarchy : TpmiRhHierarchy
  digest : Tpm2bDigest
  deriving DecidableEq

namespace TpmtTkCreation

def fields : TpmtTkCreation ≃ TpmSt × TpmiRhHierarchy × Tpm2bDigest × Unit where
  toFun v := (v.tag, v.hierarchy, v.digest, ())
  invFun p := ⟨p.1, p.2.1, p.2.2.1⟩
  left_inv _ := rfl
  right_inv _ := rfl

def ty : Ty TpmtTkCreation :=
  .namedStruct fields (.field TpmSt.ty (.field TpmiRhHierarchy.ty (.field (.tpm2bSimple _) .nil)))

end TpmtTkCreation

/-- `TPM2_CreatePrimary` (command). -/
structure CreatePrimaryCmd where
  inSensitive : Tpm2bSensitiveCreate
  inPublic : Tpm2bPublic
  outsideInfo : Tpm2bData
  creationPcr : TpmlPcrSelection

namespace CreatePrimaryCmd

def fields : CreatePrimaryCmd ≃
    Tpm2bSensitiveCreate × Tpm2bPublic × Tpm2bData × TpmlPcrSelection × Unit where
  toFun v := (v.inSensitive, v.inPublic, v.outsideInfo, v.creationPcr, ())
  invFun p := ⟨p.1, p.2.1, p.2.2.1, p.2.2.2.1⟩
  left_inv _ := rfl
  right_inv _ := rfl

def ty : Ty CreatePrimaryCmd :=
  .namedStruct fields (.field (.tpm2bSimple _) (.field (.tpm2bSimple _) (.field (.tpm2bSimple _)
    (.field TpmlPcrSelection.ty .nil))))

end CreatePrimaryCmd

/-- `TPM2_CreatePrimary` (response). -/
structure CreatePrimaryResp where
  outPublic : Tpm2bPublic
  creationData : Tpm2bCreationData
  creationHash : Tpm2bDigest
  creationTicket : TpmtTkCreation
  name : Tpm2bName

namespace CreatePrimaryResp

def fields : CreatePrimaryResp ≃
    Tpm2bPublic × Tpm2bCreationData × Tpm2bDigest × TpmtTkCreation × Tpm2bName × Unit where
  toFun v := (v.outPublic, v.creationData, v.creationHash, v.creationTicket, v.name, ())
  invFun p := ⟨p.1, p.2.1, p.2.2.1, p.2.2.2.1, p.2.2.2.2.1⟩
  left_inv _ := rfl
  right_inv _ := rfl

def ty : Ty CreatePrimaryResp :=
  .namedStruct fields (.field (.tpm2bSimple _) (.field (.tpm2bSimple _) (.field (.tpm2bSimple _)
    (.field TpmtTkCreation.ty (.field (.tpm2bSimple _) .nil)))))

instance : Marshalable CreatePrimaryResp := ty.marshalable

end CreatePrimaryResp

instance : Marshalable TpmiRhHierarchy := TpmiRhHierarchy.ty.marshalable
instance : Marshalable TpmHandle := TpmHandle.ty.marshalable

instance : TpmCommand CreatePrimaryCmd TpmiRhHierarchy CreatePrimaryResp TpmHandle where
  toMarshalable := CreatePrimaryCmd.ty.marshalable
  cmdCode := .createPrimary

/-- `TPM2_PCR_Read` (command). -/
structure PcrReadCmd where
  pcrSelectionIn : TpmlPcrSelection

def PcrReadCmd.ty : Ty PcrReadCmd :=
  .namedStruct (β := TpmlPcrSelection × Unit)
    ⟨fun v => (v.pcrSelectionIn, ()), fun p => ⟨p.1⟩, fun _ => rfl, fun _ => rfl⟩
    (.field TpmlPcrSelection.ty .nil)

/-- `TPM2_PCR_Read` (response). -/
structure PcrReadResp where
  pcrUpdateCounter : U32
  pcrSelectionOut : TpmlPcrSelection
  pcrValues : TpmlDigest

namespace PcrReadResp

def fields : PcrReadResp ≃ U32 × TpmlPcrSelection × TpmlDigest × Unit where
  toFun v := (v.pcrUpdateCounter, v.pcrSelectionOut, v.pcrValues, ())
  invFun p := ⟨p.1, p.2.1, p.2.2.1⟩
  left_inv _ := rfl
  right_inv _ := rfl

def ty : Ty PcrReadResp :=
  .namedStruct fields (.field (.prim .u32) (.field TpmlPcrSelection.ty
    (.field (Tpml.ty (.tpm2bSimple _) _) .nil)))

instance : Marshalable PcrReadResp := ty.marshalable

end PcrReadResp

instance : TpmCommand PcrReadCmd Unit PcrReadResp Unit where
  toMarshalable := PcrReadCmd.ty.marshalable
  cmdCode := .pcrRead

/-- `TPM2_GetCapability` (command). -/
structure GetCapabilityCmd where
  capability : TpmCap
  property : TpmPt
  propertyCount : U32
  deriving DecidableEq

namespace GetCapabilityCmd

def fields : GetCapabilityCmd ≃ TpmCap × TpmPt × U32 × Unit where
  toFun v := (v.capability, v.property, v.propertyCount, ())
  invFun p := ⟨p.1, p.2.1, p.2.2.1⟩
  left_inv _ := rfl
  right_inv _ := rfl

def ty : Ty GetCapabilityCmd :=
  .namedStruct fields (.field TpmCap.ty (.field TpmPt.ty (.field (.prim .u32) .nil)))

end GetCapabilityCmd

abbrev TpmlCca := Tpml TpmaCc tpm2MaxCapCc

/-- One list for each capability. -/
inductive TpmsCapabilityData where
  | algorithms (f0 : TpmlAlgProperty)
  | handles (f0 : TpmlHandle)
  | command (f0 : TpmlCca)
  | ppCommands (f0 : TpmlCc)
  | auditCommands (f0 : TpmlCc)
  | assignedPcr (f0 : TpmlPcrSelection)
  | tpmProperties (f0 : TpmlTaggedTpmProperty)
  | pcrProperties (f0 : TpmlTaggedPcrProperty)
  | eccCurves (f0 : TpmlEccCurve)
  | authPolicies (f0 : TpmlTaggedPolicy)

namespace TpmsCapabilityData

abbrev Payload := (TpmlAlgProperty × Unit) ⊕ (TpmlHandle × Unit) ⊕ (TpmlCca × Unit) ⊕
  (TpmlCc × Unit) ⊕ (TpmlCc × Unit) ⊕ (TpmlPcrSelection × Unit) ⊕ (TpmlTaggedTpmProperty × Unit) ⊕
  (TpmlTaggedPcrProperty × Unit) ⊕ (TpmlEccCurve × Unit) ⊕ (TpmlTaggedPolicy × Unit) ⊕ Empty

def variants : TpmsCapabilityData ≃ Payload where
  toFun
    | algorithms f0 => .inl (f0, ())
    | handles f0 => .inr (.inl (f0, ()))
    | command f0 => .inr (.inr (.inl (f0, ())))
    | ppCommands f0 => .inr (.inr (.inr (.inl (f0, ()))))
    | auditCommands f0 => .inr (.inr (.inr (.inr (.inl (f0, ())))))
    | assignedPcr f0 => .inr (.inr (.inr (.inr (.inr (.inl (f0, ()))))))
    | tpmProperties f0 => .inr (.inr (.inr (.inr (.inr (.inr (.inl (f0, ())))))))
    | pcrProperties f0 => .inr (.inr (.inr (.inr (.inr (.inr (.inr (.inl (f0, ()))))))))
    | eccCurves f0 => .inr (.inr (.inr (.inr (.inr (.inr (.inr (.inr (.inl (f0, ())))))))))
    | authPolicies f0 =>
      .inr (.inr (.inr (.inr (.inr (.inr (.inr (.inr (.inr (.inl (f0, ()))))))))))
  invFun
    | .inl (f0, ()) => algorithms f0
    | .inr (.inl (f0, ())) => handles f0
    | .inr (.inr (.inl (f0, ()))) => command f0
    | .inr (.inr (.inr (.inl (f0, ())))) => ppCommands f0
    | .inr (.inr (.inr (.inr (.inl (f0, ()))))) => auditCommands f0
    | .inr (.inr (.inr (.inr (.inr (.inl (f0, ())))))) => assignedPcr f0
    | .inr (.inr (.inr (.inr (.inr (.inr (.inl (f0, ()))))))) => tpmProperties f0
    | .inr (.inr (.inr (.inr (.inr (.inr (.inr (.inl (f0, ())))))))) => pcrProperties f0
    | .inr (.inr (.inr (.inr (.inr (.inr (.inr (.inr (.inl (f0, ()))))))))) => eccCurves f0
    | .inr (.inr (.inr (.inr (.inr (.inr (.inr (.inr (.inr (.inl (f0, ())))))))))) =>
      authPolicies f0
  left_inv v := by cases v <;> rfl
  right_inv v := by
    rcases v with v | v | v | v | v | v | v | v | v | v | v <;> first | rfl | cases v

def ty : Ty TpmsCapabilityData :=
  .enum (p := .u32) variants
    (.cons TpmCap.algs.val (by decide) (.cons (Tpml.ty TpmsAlgProperty.ty _) .nil)
    (.cons TpmCap.handles.val (by decide) (.cons (Tpml.ty TpmHandle.ty _) .nil)
    (.cons TpmCap.commands.val (by decide) (.cons (Tpml.ty TpmaCc.ty _) .nil)
    (.cons TpmCap.ppCommands.val (by decide) (.cons (Tpml.ty TpmCc.ty _) .nil)
    (.cons TpmCap.auditCommands.val (by decide) (.cons (Tpml.ty TpmCc.ty _) .nil)
    (.cons TpmCap.pcrs.val (by decide) (.cons TpmlPcrSelection.ty .nil)
    (.cons TpmCap.tpmProperties.val (by decide) (.cons (Tpml.ty TpmsTaggedProperty.ty _) .nil)
    (.cons TpmCap.pcrProperties.val (by decide) (.cons (Tpml.ty TpmsTaggedPcrSelect.ty _) .nil)
    (.cons TpmCap.eccCurves.val (by decide) (.cons (Tpml.ty TpmEccCurve.ty _) .nil)
    (.cons TpmCap.authPolicies.val (by decide) (.cons (Tpml.ty TpmsTaggedPolicy.ty _) .nil)
    .nil))))))))))

end TpmsCapabilityData

/-- `TPM2_GetCapability` (response). -/
structure GetCapabilityResp where
  moreData : TpmiYesNo
  capabilityData : TpmsCapabilityData

namespace GetCapabilityResp

def fields : GetCapabilityResp ≃ TpmiYesNo × TpmsCapabilityData × Unit where
  toFun v := (v.moreData, v.capabilityData, ())
  invFun p := ⟨p.1, p.2.1⟩
  left_inv _ := rfl
  right_inv _ := rfl

def ty : Ty GetCapabilityResp :=
  .namedStruct fields (.field TpmiYesNo.ty (.field TpmsCapabilityData.ty .nil))

instance : Marshalable GetCapabilityResp := ty.marshalable

end GetCapabilityResp

instance : TpmCommand GetCapabilityCmd Unit GetCapabilityResp Unit where
  toMarshalable := GetCapabilityCmd.ty.marshalable
  cmdCode := .getCapability

end TpmRs
