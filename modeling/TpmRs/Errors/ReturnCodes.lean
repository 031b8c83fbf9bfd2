import Mathlib.Tactic

/-!
# Return codes

The nonzero 32-bit codes that the service (`TpmRcError`) and the client layers
report, and their common type `TssError`. A code that is zero means success, so
none of these types has a zero value.
-/

namespace TpmRs

/-- A TPM 2.0 service error (`TPM_RC`). -/
structure TpmRcError where
  get : BitVec 32
  ne_zero : get ≠ 0
  deriving DecidableEq

namespace TpmRcError

/-- Offset for Format 1 style error codes. -/
def rcFmt1 : BitVec 32 := 0x080

/-- Asymmetric algorithm not supported or not correct. -/
def asymmetric : TpmRcError := ⟨rcFmt1 + 0x001, by decide⟩

/-- Value is out of range or is not correct for the context. -/
def value : TpmRcError := ⟨rcFmt1 + 0x004, by decide⟩

/-- Structure is the wrong size. -/
def size : TpmRcError := ⟨rcFmt1 + 0x015, by decide⟩

/-- Union selector is incorrect. -/
def selector : TpmRcError := ⟨rcFmt1 + 0x018, by decide⟩

/-- The command size is inconsistent with the contents of the command buffer. -/
def commandSize : TpmRcError := ⟨0x142, by decide⟩

/-- Command code not supported. -/
def commandCode : TpmRcError := ⟨0x143, by decide⟩

/-- Out of shared memory or need space for internal operations. -/
def memory : TpmRcError := ⟨0x904, by decide⟩

end TpmRcError

/-- An error that can occur at any layer. -/
structure TssError where
  get : BitVec 32
  ne_zero : get ≠ 0
  deriving DecidableEq

namespace TssError

/-- `TryFrom<u32>`: only a nonzero code is an error. -/
def tryFrom (val : BitVec 32) : Option TssError :=
  if h : val ≠ 0 then some ⟨val, h⟩ else none

/-- `From<TpmRcError>`. -/
def ofTpmRc (e : TpmRcError) : TssError := ⟨e.get, e.ne_zero⟩

theorem tryFrom_zero : tryFrom 0 = none := by simp [tryFrom]

theorem tryFrom_of_ne_zero {val : BitVec 32} (h : val ≠ 0) : tryFrom val = some ⟨val, h⟩ :=
  dif_pos h

end TssError

/-- A TSS error of the TCS layer. -/
structure TssTcsError where
  get : BitVec 32
  ne_zero : get ≠ 0
  deriving DecidableEq

namespace TssTcsError

/-- Tag a common return code with the TCS layer. -/
def new (value : BitVec 32) (h : value ||| (0x2 <<< 12) ≠ 0 := by decide) : TssTcsError :=
  ⟨value ||| (0x2 <<< 12), h⟩

/-- One or more parameter is bad. -/
def badParameter : TssTcsError := new 3

/-- Ran out of memory. -/
def outOfMemory : TssTcsError := new 5

/-- The TPM returned success but something is wrong. -/
def tpmUnexpected : TssTcsError := new 16

end TssTcsError

/-- `From<TssTcsError>`. -/
def TssError.ofTssTcs (e : TssTcsError) : TssError := ⟨e.get, e.ne_zero⟩

end TpmRs
