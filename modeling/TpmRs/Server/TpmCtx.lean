import TpmRs.Base.Structures
import TpmRs.Server.Platform

/-!
# The server

A cursor gives access first to the request and then to the response. The context
parses the header of a request, lets the handler write the response parameters after
the place of the response header, and writes the header last. On an error only the
error code is written. The handler and the context have a single field each, the
generator and the entropy source, and are represented by it.
-/

namespace TpmRs

open Library Library.Fallible

structure RequestResponseCursor (B : Type) where
  buffers : B
  requestOffset : ℕ
  responseOffset : ℕ

def RequestResponseCursor.new {B : Type} (buffers : B) (responseOffset : ℕ) :
    RequestResponseCursor B := ⟨buffers, 0, responseOffset⟩

abbrev CommandHandler (D E : Type) [Drbg D] := Crypto D E
abbrev TpmContext (D E : Type) [Drbg D] := CommandHandler D E

/-- Computations of the server on the handler and on the cursor over its buffers. -/
abbrev ServerM (ε D E B : Type) [Drbg D] :=
  Fallible ε (CommandHandler D E × RequestResponseCursor B)

variable {ε D E B R : Type} [Drbg D] [EntropySource E] [TpmReadBuffer R] [TpmBuffers B R]

/-- `ok_or`. -/
def okOr {σ α : Type} (e : ε) (x : Fallible ε σ (Option α)) : Fallible ε σ α := do
  match ← x with
  | some a => pure a
  | none => fail e

namespace RequestThenResponse

/-- An integer at the last read position, which moves past it. -/
def readBe (p : Prim) : ServerM ε D E B (Option (BitVec p.bits)) := fun (handler, self) =>
  match TpmReadBuffer.readBe p (TpmBuffers.getRequest self.buffers) self.requestOffset with
  | .ok result =>
    .ok (some result) (handler, { self with requestOffset := self.requestOffset + p.size })
  | .error _ => .ok none (handler, self)

abbrev readBeU16 : ServerM ε D E B (Option U16) := readBe .u16

abbrev readBeU32 : ServerM ε D E B (Option U32) := readBe .u32

end RequestThenResponse

/-- `Response::write`. -/
def Response.write (data : List U8) : ServerM WriteOutOfBounds D E B Unit := fun (handler, self) =>
  match TpmWriteBuffer.write (TpmBuffers.getResponse self.buffers) self.responseOffset data with
  | .ok response => .ok () (handler, { self with
      buffers := TpmBuffers.setResponse self.buffers response
      responseOffset := self.responseOffset + data.length })
  | .error e => .error (.err e) (handler, self)

/-- `Response::write_callback`; the callback also works on the handler. -/
def Response.writeCallback (size : ℕ)
    (callback : Fallible Empty (CommandHandler D E × List.Vector U8 size) Unit) :
    ServerM WriteOutOfBounds D E B Unit := fun (handler, self) =>
  match (TpmWriteBuffer.writeCallback self.responseOffset size callback).run
      (handler, TpmBuffers.getResponse self.buffers) with
  | .ok () (handler, response) => .ok () (handler, { self with
      buffers := TpmBuffers.setResponse self.buffers response
      responseOffset := self.responseOffset + size })
  | .error e (handler, response) => .error e (handler, { self with
      buffers := TpmBuffers.setResponse self.buffers response })

/-- `response().write` at a fixed offset. -/
def RequestResponseCursor.write (writeOffset : ℕ) (data : List U8) :
    ServerM WriteOutOfBounds D E B Unit := fun (handler, self) =>
  match TpmWriteBuffer.write (TpmBuffers.getResponse self.buffers) writeOffset data with
  | .ok response => .ok () (handler, { self with
      buffers := TpmBuffers.setResponse self.buffers response })
  | .error e => .error (.err e) (handler, self)

def RequestResponseCursor.lastResponseByteWritten : ServerM ε D E B ℕ := fun (handler, self) =>
  .ok self.responseOffset (handler, self)

namespace CommandHandler

/-- Reseed the generator from the entropy source if it asks for it. -/
def reseedIfRequired : Fallible ServerError (CommandHandler D E) Unit := do
  if ← Crypto.requiresReseeding then
    let seed : Drbg.Entropy D := AsMut.default
    let filled ← Crypto.fillEntropy ⟨AsMut.asMut seed, rfl⟩
    let seed := AsMut.setMut seed filled.toList
    mapErr .ofDrbgError (Crypto.reseed seed [])
  else pure ()

def tryGetRandom {n : ℕ} : Fallible ServerError (CommandHandler D E × List.Vector U8 n) Unit := do
  onFst reseedIfRequired
  mapErr .ofDrbgError (Crypto.fillBytes [])

def getRandomOrFailureMode {n : ℕ} :
    Fallible Empty (CommandHandler D E × List.Vector U8 n) Unit := fun s =>
  match tryGetRandom.run s with
  | .ok () s => .ok () s
  -- `todo!()` on an error
  | .error _ s => .error .panic s

/-- The command `TPM2_GetRandom`. -/
def getRandom : ServerM TpmRcError D E B Unit := do
  let requestedBytes ← okOr .commandSize RequestThenResponse.readBeU16
  mapErr (fun _ => .memory) (Response.writeCallback requestedBytes.toNat getRandomOrFailureMode)

end CommandHandler

namespace TpmContext

/-- The handler for a command code. -/
def dispatch (commandCode : TpmCc) : ServerM TpmRcError D E B Unit :=
  if commandCode = .getRandom then CommandHandler.getRandom else fail .commandCode

/-- The success header, in front of what the handler wrote. -/
def writeHeader : ServerM TpmRcError D E B ℕ := do
  let responseSize ← RequestResponseCursor.lastResponseByteWritten
  mapErr (fun _ => .memory) (RequestResponseCursor.write 0 (Prim.u16.enc 0x8001))
  mapErr (fun _ => .memory)
    (RequestResponseCursor.write 2 (Prim.u32.enc (BitVec.ofNat 32 responseSize)))
  mapErr (fun _ => .memory) (RequestResponseCursor.write 6 (Prim.u32.enc 0))
  pure responseSize

/-- `execute_command` on the cursor. -/
def executeRequest (requestSize : ℕ) : ServerM TpmRcError D E B ℕ := do
  let _session ← okOr .commandSize RequestThenResponse.readBeU16
  let size ← okOr .commandSize RequestThenResponse.readBeU32
  if size.toNat ≠ requestSize then fail .commandSize
  else
    let commandCode ← okOr .commandSize RequestThenResponse.readBeU32
    dispatch ⟨commandCode⟩
    writeHeader

/-- `execute_command` on the buffers; the response starts at offset `10`. -/
def executeCommand : Fallible TpmRcError (TpmContext D E × B) ℕ := fun (self, buffers) =>
  let requestSize := TpmReadBuffer.len (TpmBuffers.getRequest buffers)
  match (executeRequest requestSize).run (self, ⟨buffers, 0, 10⟩) with
  | .ok size (self, cursor) => .ok size (self, cursor.buffers)
  | .error e (self, cursor) => .error e (self, cursor.buffers)

/-- Write the error code; the other header fields stay as they are. -/
def fillError (response : List U8) (error : TpmRcError) : ℕ × List U8 :=
  match TpmWriteBuffer.write response 6 (Prim.u32.enc error.get) with
  | .ok response => (10, response)
  | .error _ => (0, response)

/-- Process a request and write the response into a separate buffer. -/
def executeCommandSeparate (request : List U8) :
    Fallible Empty (TpmContext D E × List U8) ℕ := fun (self, response) =>
  match executeCommand.run (self, SeparateBuffers.mk request response) with
  | .ok size (self, buf) => .ok size (self, buf.writer)
  | .error (.err e) (self, buf) => .ok (fillError buf.writer e).1 (self, (fillError buf.writer e).2)
  | .error .panic (self, buf) => .error .panic (self, buf.writer)

/-- Process a request and write the response back into the same buffer. -/
def executeCommandInPlace (requestSize : ℕ) :
    Fallible Empty (TpmContext D E × List U8) ℕ := fun (self, inOut) =>
  match executeCommand.run (self, InOutBuffer.new inOut requestSize) with
  | .ok size (self, buf) => .ok size (self, buf.buffer)
  | .error (.err e) (self, buf) => .ok (fillError buf.buffer e).1 (self, (fillError buf.buffer e).2)
  | .error .panic (self, buf) => .error .panic (self, buf.buffer)

end TpmContext
end TpmRs
