import TpmRs.Marshalable.Layout

/-!
# Constants and structures

The part of the TPM 2.0 type library that commands, responses and sessions are made
of. An open enum is a newtype over its representation with named constants, so that
any value of the representation can occur.
-/

namespace TpmRs

open Library

/-- A tuple struct of one integer. -/
def Ty.newtype {α : Type} (p : Prim) (e : α ≃ BitVec p.bits) : Ty α :=
  .tupleStruct (e.trans (Equiv.prodPUnit _).symm) (.cons (.prim p) .nil)

@[simp] theorem Ty.wellFormed_newtype {α : Type} (p : Prim) (e : α ≃ BitVec p.bits) (v : α) :
    (Ty.newtype p e).WellFormed v := by
  simp [newtype, WellFormed, TupleFields.WellFormed]

@[simp] theorem Ty.chunks_newtype {α : Type} (p : Prim) (e : α ≃ BitVec p.bits) (v : α) :
    (Ty.newtype p e).chunks v = [⟨p.enc (e v), true⟩] := by
  simp [newtype, chunks, TupleFields.chunks]

/-- `TPM_ST`. -/
structure TpmSt where
  val : U16
  deriving DecidableEq

namespace TpmSt

def noSessions : TpmSt := ⟨0x8001⟩
def sessions : TpmSt := ⟨0x8002⟩
def attestNV : TpmSt := ⟨0x8014⟩
def attestCommandAudit : TpmSt := ⟨0x8015⟩
def attestSessionAudit : TpmSt := ⟨0x8016⟩
def attestCertify : TpmSt := ⟨0x8017⟩
def attestQuote : TpmSt := ⟨0x8018⟩
def attestTime : TpmSt := ⟨0x8019⟩
def attestCreation : TpmSt := ⟨0x801A⟩

def ty : Ty TpmSt := .newtype .u16 ⟨val, mk, fun _ => rfl, fun _ => rfl⟩

end TpmSt

/-- `TPM_CC`. -/
structure TpmCc where
  val : U32
  deriving DecidableEq

namespace TpmCc

def startup : TpmCc := ⟨0x00000144⟩
def getRandom : TpmCc := ⟨0x0000017B⟩

def ty : Ty TpmCc := .newtype .u32 ⟨val, mk, fun _ => rfl, fun _ => rfl⟩

end TpmCc

/-- `TPM_SU`. -/
structure TpmSu where
  val : U16
  deriving DecidableEq

namespace TpmSu

def clear : TpmSu := ⟨0x0000⟩
def state : TpmSu := ⟨0x0001⟩

def ty : Ty TpmSu := .newtype .u16 ⟨val, mk, fun _ => rfl, fun _ => rfl⟩

end TpmSu

/-- `TPMI_ST_COMMAND_TAG`. -/
structure TpmiStCommandTag where
  val : U16
  deriving DecidableEq

namespace TpmiStCommandTag

def noSessions : TpmiStCommandTag := ⟨TpmSt.noSessions.val⟩
def sessions : TpmiStCommandTag := ⟨TpmSt.sessions.val⟩

def ty : Ty TpmiStCommandTag := .newtype .u16 ⟨val, mk, fun _ => rfl, fun _ => rfl⟩

end TpmiStCommandTag

/-- `TPMI_SH_AUTH_SESSION`. -/
structure TpmiShAuthSession where
  val : U32
  deriving DecidableEq

namespace TpmiShAuthSession

/-- A password authorization. -/
def rsPw : TpmiShAuthSession := ⟨0x40000009⟩

def ty : Ty TpmiShAuthSession := .newtype .u32 ⟨val, mk, fun _ => rfl, fun _ => rfl⟩

end TpmiShAuthSession

/-- The attributes of a session (`TPMA_SESSION`). -/
structure TpmaSession where
  val : U8
  deriving DecidableEq

def TpmaSession.ty : Ty TpmaSession := .newtype .u8 ⟨val, mk, fun _ => rfl, fun _ => rfl⟩

/-- `TpmtHa::UNION_SIZE`, the size of the largest digest. -/
def TpmtHa.unionSize : ℕ := [20, 32, 48, 64, 32].foldr max 0

abbrev Tpm2bDigest := Tpm2b TpmtHa.unionSize
abbrev Tpm2bData := Tpm2b TpmtHa.unionSize
abbrev Tpm2bNonce := Tpm2bDigest
abbrev Tpm2bAuth := Tpm2bDigest

structure TpmsAuthCommand where
  sessionHandle : TpmiShAuthSession
  nonce : Tpm2bNonce
  sessionAttributes : TpmaSession
  hmac : Tpm2bAuth
  deriving DecidableEq

namespace TpmsAuthCommand

def fields : TpmsAuthCommand ≃ TpmiShAuthSession × Tpm2bNonce × TpmaSession × Tpm2bAuth × Unit where
  toFun v := (v.sessionHandle, v.nonce, v.sessionAttributes, v.hmac, ())
  invFun p := ⟨p.1, p.2.1, p.2.2.1, p.2.2.2.1⟩
  left_inv _ := rfl
  right_inv _ := rfl

def ty : Ty TpmsAuthCommand :=
  .namedStruct fields (.field TpmiShAuthSession.ty (.field (.tpm2bSimple _)
    (.field TpmaSession.ty (.field (.tpm2bSimple _) .nil))))

instance : Marshalable TpmsAuthCommand := ty.marshalable

theorem length_enc_le {v : TpmsAuthCommand} (h : ty.WellFormed v) : (ty.enc v).length ≤ 137 := by
  simp only [ty, Ty.WellFormed, NamedFields.WellFormed, fields, Equiv.coe_fn_mk, and_true] at h
  obtain ⟨-, hnonce, -, hhmac⟩ := h
  have hn : v.nonce.size.toNat ≤ 64 := hnonce.size_le
  have hh : v.hmac.size.toNat ≤ 64 := hhmac.size_le
  simp [ty, fields, Ty.enc, Ty.chunks, NamedFields.chunks, TpmiShAuthSession.ty, TpmaSession.ty,
    Prim.size, Tpm2b.enc, Tpm2b.length_payload hnonce, Tpm2b.length_payload hhmac]
  omega

end TpmsAuthCommand

structure TpmsAuthResponse where
  nonce : Tpm2bNonce
  sessionAttributes : TpmaSession
  hmac : Tpm2bData
  deriving DecidableEq

namespace TpmsAuthResponse

def fields : TpmsAuthResponse ≃ Tpm2bNonce × TpmaSession × Tpm2bData × Unit where
  toFun v := (v.nonce, v.sessionAttributes, v.hmac, ())
  invFun p := ⟨p.1, p.2.1, p.2.2.1⟩
  left_inv _ := rfl
  right_inv _ := rfl

def ty : Ty TpmsAuthResponse :=
  .namedStruct fields (.field (.tpm2bSimple _) (.field TpmaSession.ty
    (.field (.tpm2bSimple _) .nil)))

instance : Marshalable TpmsAuthResponse := ty.marshalable

end TpmsAuthResponse
end TpmRs
