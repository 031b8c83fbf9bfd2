import TpmRs.Base.Commands
import TpmRs.Client.Sessions

/-!
# Running a command

The client marshals a command into a local buffer, transacts with the TPM and
unmarshals the response. The TPM is a parameter that may answer in any way; what it
does to its own state is kept whether or not the response is accepted.
-/

namespace TpmRs

open Library Library.Fallible Library.Slice AuthorizationArea

def cmdBufferSize : ℕ := 4096
def respBufferSize : ℕ := 4096

/-- The `Tpm` trait; the response buffer has `n` bytes. -/
class Tpm (T : Type) where
  transact {n : ℕ} (command : List U8) : Fallible TssError (T × List.Vector U8 n) Unit

/-- `transact` on a zeroed response buffer. -/
def Tpm.respond {T : Type} [Tpm T] (command : List U8) :
    Fallible TssError T (List.Vector U8 respBufferSize) := fun tpm =>
  match (transact command).run (tpm, List.Vector.replicate respBufferSize 0) with
  | .ok () (tpm, respBuffer) => .ok respBuffer tpm
  | .error e (tpm, _) => .error e tpm

section

variable {T : Type} [Tpm T] {command : List U8} {tpm tpm' : T}
  {respBuffer : List.Vector U8 respBufferSize}

theorem Tpm.run_respond_of_ok
    (h : (transact command).run (tpm, List.Vector.replicate respBufferSize 0) =
      .ok () (tpm', respBuffer)) :
    (respond command).run tpm = .ok respBuffer tpm' := by
  change respond command tpm = _
  rw [respond, h]

theorem Tpm.run_respond_of_error {e : Fault TssError}
    (h : (transact command).run (tpm, List.Vector.replicate respBufferSize 0) =
      .error e (tpm', respBuffer)) :
    (respond command).run tpm = .error e tpm' := by
  change respond command tpm = _
  rw [respond, h]

end

structure CmdHeader where
  tag : TpmiStCommandTag
  size : U32
  code : TpmCc
  deriving DecidableEq

namespace CmdHeader

/-- The flag is true when there are no sessions. -/
def new (hasSessions : Bool) (code : TpmCc) : CmdHeader :=
  let tag := if hasSessions then TpmiStCommandTag.noSessions else TpmiStCommandTag.sessions
  { tag := tag, size := 0, code := code }

def fields : CmdHeader ≃ TpmiStCommandTag × U32 × TpmCc × Unit where
  toFun v := (v.tag, v.size, v.code, ())
  invFun p := ⟨p.1, p.2.1, p.2.2.1⟩
  left_inv _ := rfl
  right_inv _ := rfl

def ty : Ty CmdHeader :=
  .namedStruct fields (.field TpmiStCommandTag.ty (.field (.prim .u32) (.field TpmCc.ty .nil)))

instance : Marshalable CmdHeader := ty.marshalable

end CmdHeader

structure RespHeader where
  tag : TpmSt
  size : U32
  rc : U32
  deriving DecidableEq

namespace RespHeader

def fields : RespHeader ≃ TpmSt × U32 × U32 × Unit where
  toFun v := (v.tag, v.size, v.rc, ())
  invFun p := ⟨p.1, p.2.1, p.2.2.1⟩
  left_inv _ := rfl
  right_inv _ := rfl

def ty : Ty RespHeader :=
  .namedStruct fields (.field TpmSt.ty (.field (.prim .u32) (.field (.prim .u32) .nil)))

instance : Marshalable RespHeader := ty.marshalable

end RespHeader

/-- A service error is returned as an error of any layer. -/
def liftRc {σ α : Type} (x : Fallible TpmRcError σ α) : Fallible TssError σ α :=
  mapErr TssError.ofTpmRc x

section

variable {AA X Y Z : Type} [Session X] [Session Y] [Session Z] [AuthorizationArea AA X Y Z]

/-- `authOffset` is at least the size of the size field, so the difference is exact. -/
def marshalAuthSize (authOffset : ℕ) : Fallible TssError (List U8) ℕ := do
  let authSize : U32 := BitVec.ofNat 32 (authOffset - 4)
  let _ ← liftRc (Prim.u32.tryMarshal authSize)
  pure authOffset

/-- Add any command sessions to the command buffer. -/
def writeCommandSessions (sessions : AA) : Fallible TssError (List U8) ℕ :=
  if isEmpty sessions then pure 0
  else
    match decomposeRef sessions with
    | (none, _, _) => marshalAuthSize 4
    | (some s1, s2, s3) => do
      let authOffset ← advance 4 (liftRc (Marshalable.tryMarshal (Session.getAuthCommand s1)))
      match s2 with
      | none => marshalAuthSize authOffset
      | some s2 => do
        let authOffset ←
          advance authOffset (liftRc (Marshalable.tryMarshal (Session.getAuthCommand s2)))
        match s3 with
        | none => marshalAuthSize authOffset
        | some s3 => do
          let authOffset ←
            advance authOffset (liftRc (Marshalable.tryMarshal (Session.getAuthCommand s3)))
          marshalAuthSize authOffset

/-- Unmarshal the response header and check the contained response code. -/
def readResponseHeader {σ : Type} (buffer : List U8) : Fallible TssError σ (RespHeader × ℕ) := do
  let (respHeader, unmarsh) ← onLocal buffer (liftRc (Marshalable.tryUnmarshal (α := RespHeader)))
  match TssError.tryFrom respHeader.rc with
  | some error => fail error
  | none => pure (respHeader, buffer.length - unmarsh.length)

/-- Unmarshal and validate any response sessions. -/
def readResponseSessions (sessions : AA) : Fallible TssError (List U8) Unit :=
  match decomposeRef sessions with
  | (none, _, _) => pure ()
  | (some s1, s2, s3) => do
    let auth ← liftRc Marshalable.tryUnmarshal
    fromExcept (Session.validateAuthResponse s1 auth)
    match s2 with
    | none => pure ()
    | some s2 => do
      let auth ← liftRc Marshalable.tryUnmarshal
      fromExcept (Session.validateAuthResponse s2 auth)
      match s3 with
      | none => pure ()
      | some s3 => do
        let auth ← liftRc Marshalable.tryUnmarshal
        fromExcept (Session.validateAuthResponse s3 auth)

variable {CmdT Handles RespT RespHandles T : Type}
  [TpmCommand CmdT Handles RespT RespHandles] [Marshalable Handles] [Marshalable RespT]
  [Marshalable RespHandles] [Tpm T]

/-- `run_command_with_handles` up to the transaction: the command buffer. -/
def writeCommand (cmd : CmdT) (cmdHandles : Handles) (cmdSessions : AA) :
    Fallible TssError (List U8) ℕ := do
  let cmdHeader := CmdHeader.new (isEmpty cmdSessions) (TpmCommand.cmdCode CmdT)
  let written ← liftRc (Marshalable.tryMarshal cmdHeader)
  let written ← advance written (liftRc (Marshalable.tryMarshal cmdHandles))
  let written ← advance written (writeCommandSessions cmdSessions)
  let written ← advance written (liftRc (Marshalable.tryMarshal cmd))
  -- update the command size
  let cmdHeader := { cmdHeader with size := BitVec.ofNat 32 written }
  let _ ← liftRc (Marshalable.tryMarshal cmdHeader)
  pure written

/-- The size of the parameters, which is present only with sessions. -/
def readParamSize (tag : TpmSt) : Fallible TssError (List U8) Unit :=
  if tag = .sessions then do
    let _paramSize ← liftRc Prim.u32.tryUnmarshal
    pure ()
  else pure ()

/-- `run_command_with_handles` on the bytes after the response header. -/
def readResponseBody (cmdSessions : AA) (respHeader : RespHeader) :
    Fallible TssError (List U8) (RespT × RespHandles) := do
  let respHandles ← liftRc Marshalable.tryUnmarshal
  readParamSize respHeader.tag
  let resp ← liftRc Marshalable.tryUnmarshal
  readResponseSessions cmdSessions
  let unmarsh ← get
  if unmarsh.isEmpty then pure (resp, respHandles) else fail (.ofTssTcs .tpmUnexpected)

/-- `run_command_with_handles` after the transaction. -/
def readResponse {σ : Type} (cmdSessions : AA) (respBuffer : List.Vector U8 respBufferSize) :
    Fallible TssError σ (RespT × RespHandles) := do
  let (respHeader, read) ← readResponseHeader respBuffer.toList
  let respSize := respHeader.size.toNat
  if respSize > respBuffer.length then fail (.ofTssTcs .outOfMemory)
  else
    let unmarsh ← sliceRange respBuffer.toList read respSize
    let (resp, _) ← onLocal unmarsh (readResponseBody cmdSessions respHeader)
    pure resp

/-- Run a command with the provided handles and sessions. -/
def runCommandWithHandles (cmd : CmdT) (cmdHandles : Handles) (cmdSessions : AA) :
    Fallible TssError T (RespT × RespHandles) := do
  let (written, cmdBuffer) ←
    onLocal (List.replicate cmdBufferSize 0) (writeCommand cmd cmdHandles cmdSessions)
  let command ← sliceTo cmdBuffer written
  let respBuffer ← Tpm.respond command
  readResponse cmdSessions respBuffer

/-- Run a command with default handles. -/
def runCommand [Inhabited Handles] (cmd : CmdT) : Fallible TssError T RespT := do
  let (resp, _) ← runCommandWithHandles cmd default ()
  pure resp

end

/-- A TPM that always answers with the same bytes. -/
structure FakeTpm where
  response : List U8

instance : Tpm FakeTpm where
  transact {n} _ := fun (self, response) =>
    .ok () (self, array (self.response.take n ++ response.toList.drop self.response.length)
      (by simp; omega))

end TpmRs
