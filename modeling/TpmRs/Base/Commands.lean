import TpmRs.Base.Structures

/-!
# Commands

A command fixes its code and the types of its handles, of its response parameters
and of its response handles.
-/

namespace TpmRs

/-- A command whose parameters are a `CmdT`. -/
class TpmCommand (CmdT : Type) (Handles RespT RespHandles : outParam Type) extends
    Marshalable CmdT where
  cmdCode : TpmCc

/-- `TPM2_Startup` (command). -/
structure StartupCmd where
  startupType : TpmSu
  deriving DecidableEq

def StartupCmd.ty : Ty StartupCmd :=
  .namedStruct (β := TpmSu × Unit)
    ⟨fun v => (v.startupType, ()), fun p => ⟨p.1⟩, fun _ => rfl, fun _ => rfl⟩
    (.field TpmSu.ty .nil)

instance : TpmCommand StartupCmd Unit Unit Unit where
  toMarshalable := StartupCmd.ty.marshalable
  cmdCode := .startup

/-- `TPM2_GetRandom` (command). -/
structure GetRandomCmd where
  bytesRequested : U16
  deriving DecidableEq

def GetRandomCmd.ty : Ty GetRandomCmd :=
  .namedStruct (β := U16 × Unit)
    ⟨fun v => (v.bytesRequested, ()), fun p => ⟨p.1⟩, fun _ => rfl, fun _ => rfl⟩
    (.field (.prim .u16) .nil)

/-- `TPM2_GetRandom` (response). -/
structure GetRandomResp where
  randomBytes : Tpm2bDigest
  deriving DecidableEq

def GetRandomResp.ty : Ty GetRandomResp :=
  .namedStruct (β := Tpm2bDigest × Unit)
    ⟨fun v => (v.randomBytes, ()), fun p => ⟨p.1⟩, fun _ => rfl, fun _ => rfl⟩
    (.field (.tpm2bSimple _) .nil)

instance : Marshalable GetRandomResp := GetRandomResp.ty.marshalable

instance : TpmCommand GetRandomCmd Unit GetRandomResp Unit where
  toMarshalable := GetRandomCmd.ty.marshalable
  cmdCode := .getRandom

end TpmRs
