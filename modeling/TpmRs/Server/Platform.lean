import TpmRs.Marshalable.Primitive

/-!
# The server's platform

What the server is given by its platform: byte buffers for requests and responses,
a deterministic random bit generator and an entropy source. The server keeps one
generator and one source; `calls` is a ghost record of the calls made to them, which
no code reads.
-/

namespace TpmRs

open Library Library.Fallible Library.Slice

structure ReadOutOfBounds where
  deriving DecidableEq

structure WriteOutOfBounds where
  deriving DecidableEq

/-- A request buffer with random access. -/
class TpmReadBuffer (R : Type) where
  len : R → ℕ
  /-- `read_into` on an output buffer of length `n`. -/
  readInto (self : R) (offset n : ℕ) : Except ReadOutOfBounds (List U8)

namespace TpmReadBuffer

variable {R : Type} [TpmReadBuffer R]

/-- An integer encoded in big endian at the offset. -/
def readBe (p : Prim) (self : R) (offset : ℕ) : Except ReadOutOfBounds (BitVec p.bits) := do
  let buffer ← readInto self offset p.size
  pure (BitVec.ofNat p.bits (BigEndian.ofBe buffer))

abbrev readBeU16 (self : R) (offset : ℕ) : Except ReadOutOfBounds U16 := readBe .u16 self offset

abbrev readBeU32 (self : R) (offset : ℕ) : Except ReadOutOfBounds U32 := readBe .u32 self offset

instance : TpmReadBuffer (List U8) where
  len := List.length
  readInto self offset n :=
    match getRange self offset n with
    | some readFrom => .ok readFrom
    | none => .error ⟨⟩

end TpmReadBuffer

namespace TpmWriteBuffer

/-- `<[u8]>::write`. -/
def write (self : List U8) (writeOffset : ℕ) (data : List U8) :
    Except WriteOutOfBounds (List U8) :=
  match getRange self writeOffset data.length with
  | some _ => .ok (putRange self writeOffset data)
  | none => .error ⟨⟩

/-- `<[u8]>::write_callback`; the callback also works on what it captures. -/
def writeCallback {σ : Type} (writeOffset size : ℕ)
    (callback : Fallible Empty (σ × List.Vector U8 size) Unit) :
    Fallible WriteOutOfBounds (σ × List U8) Unit := fun (captured, self) =>
  if h : writeOffset + size ≤ self.length then
    let buffer := array ((self.drop writeOffset).take size) (by simp; omega)
    match callback.run (captured, buffer) with
    | .ok () (captured, buffer) => .ok () (captured, putRange self writeOffset buffer.toList)
    | .error .panic (captured, buffer) =>
      .error .panic (captured, putRange self writeOffset buffer.toList)
  else .error (.err ⟨⟩) (captured, self)

end TpmWriteBuffer

/-- The request and the response, which may share their memory. -/
class TpmBuffers (B : Type) (Request : outParam Type) where
  getRequest : B → Request
  getResponse : B → List U8
  /-- Replace the response through the mutable borrow. -/
  setResponse : B → List U8 → B

structure SeparateBuffers where
  reader : List U8
  writer : List U8

instance : TpmBuffers SeparateBuffers (List U8) where
  getRequest self := self.reader
  getResponse self := self.writer
  setResponse self response := { self with writer := response }

/-- A request and response in the same buffer; `len` bytes can be read. -/
structure InOutBuffer where
  buffer : List U8
  len : ℕ

namespace InOutBuffer

def new (buffer : List U8) (requestSize : ℕ) : InOutBuffer where
  buffer := buffer
  len := min requestSize buffer.length

instance : TpmReadBuffer InOutBuffer where
  len self := self.len
  readInto self offset n :=
    -- the read view is limited to the request portion
    if self.len < offset + n then .error ⟨⟩ else TpmReadBuffer.readInto self.buffer offset n

instance : TpmBuffers InOutBuffer InOutBuffer where
  getRequest self := self
  getResponse self := self.buffer
  setResponse self response := { self with buffer := response }

end InOutBuffer

structure DrbgError where
  deriving DecidableEq

inductive ServerError where
  | drbgError
  deriving DecidableEq

/-- `From<DrbgError>`. -/
def ServerError.ofDrbgError (_ : DrbgError) : ServerError := .drbgError

/-- `Default + AsMut<[u8]>`. -/
class AsMut (S : Type) where
  default : S
  asMut : S → List U8
  /-- The value after a write through `as_mut`. -/
  setMut : S → List U8 → S

/-- A deterministic random bit generator. -/
class Drbg (D : Type) where
  Entropy : Type
  entropyAsMut : AsMut Entropy
  reseed (entropyInput : Entropy) (additionalInput : List U8) : Fallible DrbgError D Unit
  fillBytes {n : ℕ} (additionalInput : List U8) :
    Fallible DrbgError (D × List.Vector U8 n) Unit
  requiresReseeding : D → Bool × D

instance {D : Type} [Drbg D] : AsMut (Drbg.Entropy D) := Drbg.entropyAsMut

class EntropySource (E : Type) where
  fillEntropy {n : ℕ} (self : E) (dest : List.Vector U8 n) : E × List.Vector U8 n

/-- A call to the generator or to the entropy source. -/
inductive Call (D : Type) [Drbg D] where
  | requiresReseeding (answer : Bool)
  | fillEntropy (dest filled : List U8)
  | reseed (entropyInput : Drbg.Entropy D) (additionalInput : List U8)
  | fillBytes (additionalInput : List U8) (len : ℕ) (filled : List U8)

structure Crypto (D E : Type) [Drbg D] where
  drbg : D
  entropy : E
  calls : List (Call D)

namespace Crypto

variable {D E ε : Type} [Drbg D] [EntropySource E]

def requiresReseeding : Fallible ε (Crypto D E) Bool := fun self =>
  let (answer, drbg) := Drbg.requiresReseeding self.drbg
  .ok answer { self with drbg := drbg, calls := self.calls ++ [.requiresReseeding answer] }

def fillEntropy {n : ℕ} (dest : List.Vector U8 n) :
    Fallible ε (Crypto D E) (List.Vector U8 n) := fun self =>
  let (entropy, filled) := EntropySource.fillEntropy self.entropy dest
  .ok filled { self with
    entropy := entropy
    calls := self.calls ++ [.fillEntropy dest.toList filled.toList] }

def reseed (entropyInput : Drbg.Entropy D) (additionalInput : List U8) :
    Fallible DrbgError (Crypto D E) Unit := fun self =>
  let calls := self.calls ++ [.reseed entropyInput additionalInput]
  match (Drbg.reseed entropyInput additionalInput).run self.drbg with
  | .ok () drbg => .ok () { self with drbg := drbg, calls := calls }
  | .error e drbg => .error e { self with drbg := drbg, calls := calls }

def fillBytes {n : ℕ} (additionalInput : List U8) :
    Fallible DrbgError (Crypto D E × List.Vector U8 n) Unit := fun (self, dest) =>
  match (Drbg.fillBytes additionalInput).run (self.drbg, dest) with
  | .ok () (drbg, dest) => .ok () ({ self with
      drbg := drbg
      calls := self.calls ++ [.fillBytes additionalInput n dest.toList] }, dest)
  | .error e (drbg, dest) => .error e ({ self with
      drbg := drbg
      calls := self.calls ++ [.fillBytes additionalInput n dest.toList] }, dest)

end Crypto
end TpmRs
