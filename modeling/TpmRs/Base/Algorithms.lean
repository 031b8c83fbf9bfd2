import TpmRs.Base.Structures

/-!
# Algorithms, attributes and handles

Open enums and bit flags of the type library, each a newtype over its representation.
Only the named values that select a variant somewhere are listed.
-/

namespace TpmRs

/-- `TPM_ALG_ID`. -/
structure TpmAlgId where
  val : U16
  deriving DecidableEq

namespace TpmAlgId

def rsa : TpmAlgId := ⟨0x0001⟩
def sha1 : TpmAlgId := ⟨0x0004⟩
def hmac : TpmAlgId := ⟨0x0005⟩
def aes : TpmAlgId := ⟨0x0006⟩
def mgf1 : TpmAlgId := ⟨0x0007⟩
def keyedHash : TpmAlgId := ⟨0x0008⟩
def xor : TpmAlgId := ⟨0x000A⟩
def sha256 : TpmAlgId := ⟨0x000B⟩
def sha384 : TpmAlgId := ⟨0x000C⟩
def sha512 : TpmAlgId := ⟨0x000D⟩
def null : TpmAlgId := ⟨0x0010⟩
def sm3256 : TpmAlgId := ⟨0x0012⟩
def sm4 : TpmAlgId := ⟨0x0013⟩
def rsassa : TpmAlgId := ⟨0x0014⟩
def rsaes : TpmAlgId := ⟨0x0015⟩
def rsapss : TpmAlgId := ⟨0x0016⟩
def oaep : TpmAlgId := ⟨0x0017⟩
def ecdsa : TpmAlgId := ⟨0x0018⟩
def ecdh : TpmAlgId := ⟨0x0019⟩
def ecdaa : TpmAlgId := ⟨0x001A⟩
def sm2 : TpmAlgId := ⟨0x001B⟩
def ecSchnorr : TpmAlgId := ⟨0x001C⟩
def ecmqv : TpmAlgId := ⟨0x001D⟩
def kdf1Sp80056a : TpmAlgId := ⟨0x0020⟩
def kdf2 : TpmAlgId := ⟨0x0021⟩
def kdf1Sp800108 : TpmAlgId := ⟨0x0022⟩
def ecc : TpmAlgId := ⟨0x0023⟩
def symCipher : TpmAlgId := ⟨0x0025⟩
def camellia : TpmAlgId := ⟨0x0026⟩

def ty : Ty TpmAlgId := .newtype .u16 ⟨val, mk, fun _ => rfl, fun _ => rfl⟩

end TpmAlgId

/-- `TPM_ECC_CURVE`. -/
structure TpmEccCurve where
  val : U16
  deriving DecidableEq

def TpmEccCurve.ty : Ty TpmEccCurve := .newtype .u16 ⟨val, mk, fun _ => rfl, fun _ => rfl⟩

/-- `TPMI_ALG_HASH`. -/
structure TpmiAlgHash where
  val : U16
  deriving DecidableEq

def TpmiAlgHash.ty : Ty TpmiAlgHash := .newtype .u16 ⟨val, mk, fun _ => rfl, fun _ => rfl⟩

/-- `TPMI_ALG_KDF`. -/
structure TpmiAlgKdf where
  val : U16
  deriving DecidableEq

def TpmiAlgKdf.ty : Ty TpmiAlgKdf := .newtype .u16 ⟨val, mk, fun _ => rfl, fun _ => rfl⟩

/-- `TPMI_ALG_SYM_MODE`. -/
structure TpmiAlgSymMode where
  val : U16
  deriving DecidableEq

def TpmiAlgSymMode.ty : Ty TpmiAlgSymMode := .newtype .u16 ⟨val, mk, fun _ => rfl, fun _ => rfl⟩

/-- The number of bits in an AES key. -/
structure TpmiAesKeyBits where
  val : U16
  deriving DecidableEq

def TpmiAesKeyBits.ty : Ty TpmiAesKeyBits := .newtype .u16 ⟨val, mk, fun _ => rfl, fun _ => rfl⟩

/-- The number of bits in an SM4 key. -/
structure TpmiSm4KeyBits where
  val : U16
  deriving DecidableEq

def TpmiSm4KeyBits.ty : Ty TpmiSm4KeyBits := .newtype .u16 ⟨val, mk, fun _ => rfl, fun _ => rfl⟩

/-- The number of bits in a Camellia key. -/
structure TpmiCamelliaKeyBits where
  val : U16
  deriving DecidableEq

def TpmiCamelliaKeyBits.ty : Ty TpmiCamelliaKeyBits :=
  .newtype .u16 ⟨val, mk, fun _ => rfl, fun _ => rfl⟩

/-- The number of bits in an RSA key. -/
structure TpmiRsaKeyBits where
  val : U16
  deriving DecidableEq

def TpmiRsaKeyBits.ty : Ty TpmiRsaKeyBits := .newtype .u16 ⟨val, mk, fun _ => rfl, fun _ => rfl⟩

/-- `TPMA_OBJECT`. -/
structure TpmaObject where
  val : U32
  deriving DecidableEq

def TpmaObject.ty : Ty TpmaObject := .newtype .u32 ⟨val, mk, fun _ => rfl, fun _ => rfl⟩

/-- `TPMA_ALGORITHM`. -/
structure TpmaAlgorithm where
  val : U32
  deriving DecidableEq

def TpmaAlgorithm.ty : Ty TpmaAlgorithm := .newtype .u32 ⟨val, mk, fun _ => rfl, fun _ => rfl⟩

/-- `TPMA_LOCALITY`. -/
structure TpmaLocality where
  val : U8
  deriving DecidableEq

def TpmaLocality.ty : Ty TpmaLocality := .newtype .u8 ⟨val, mk, fun _ => rfl, fun _ => rfl⟩

/-- `TPMI_YES_NO`, in place of a boolean. -/
structure TpmiYesNo where
  val : U8
  deriving DecidableEq

def TpmiYesNo.ty : Ty TpmiYesNo := .newtype .u8 ⟨val, mk, fun _ => rfl, fun _ => rfl⟩

/-- `TPM_GENERATED`. -/
structure TpmGenerated where
  val : U32
  deriving DecidableEq

def TpmGenerated.ty : Ty TpmGenerated := .newtype .u32 ⟨val, mk, fun _ => rfl, fun _ => rfl⟩

/-- `TPM_HANDLE`. -/
structure TpmHandle where
  val : U32
  deriving DecidableEq

def TpmHandle.ty : Ty TpmHandle := .newtype .u32 ⟨val, mk, fun _ => rfl, fun _ => rfl⟩

/-- `TPM_PT`. -/
structure TpmPt where
  val : U32
  deriving DecidableEq

def TpmPt.ty : Ty TpmPt := .newtype .u32 ⟨val, mk, fun _ => rfl, fun _ => rfl⟩

/-- `TPM_PT_PCR`. -/
structure TpmPtPcr where
  val : U32
  deriving DecidableEq

def TpmPtPcr.ty : Ty TpmPtPcr := .newtype .u32 ⟨val, mk, fun _ => rfl, fun _ => rfl⟩

/-- `TPMI_ECC_CURVE`, an implemented curve. -/
structure TpmiEccCurve where
  curve : TpmEccCurve
  deriving DecidableEq

def TpmiEccCurve.ty : Ty TpmiEccCurve :=
  .tupleStruct (β := TpmEccCurve × Unit)
    ⟨fun v => (v.curve, ()), fun p => ⟨p.1⟩, fun _ => rfl, fun _ => rfl⟩
    (.cons TpmEccCurve.ty .nil)

end TpmRs
