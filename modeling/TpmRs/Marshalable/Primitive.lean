import TpmRs.Errors.ReturnCodes
import TpmRs.Library.ChunkWriter
import TpmRs.Library.Decoder
import Mathlib.Data.Vector.Basic

/-!
# Marshaling of primitive types

`try_marshal` writes to the front of a mutable buffer and returns the number of
bytes used; `try_unmarshal` consumes the front of an `UnmarshalBuf`. The byte array
`[u8; M]` is the one primitive from which the integers are built, through their
big-endian bytes.
-/

namespace TpmRs

open Library Library.Fallible Library.Slice

abbrev U8 := Byte
abbrev U16 := BitVec 16
abbrev U32 := BitVec 32
abbrev U64 := BitVec 64

/-- A marshaler runs on the mutable buffer. -/
abbrev MarshalM := Fallible TpmRcError (List U8)

/-- An unmarshaler runs on the bytes that are left in an `UnmarshalBuf`. -/
abbrev UnmarshalM := Fallible TpmRcError (List U8)

namespace UnmarshalBuf

/-- Take `len` bytes off the front, or nothing when fewer are left. -/
def get (len : ℕ) : UnmarshalM (Option (List U8)) := fun buffer =>
  if len > buffer.length then .ok none buffer
  else .ok (some (buffer.take len)) (buffer.drop len)

theorem run_get_of_le {len : ℕ} {buffer : List U8} (h : len ≤ buffer.length) :
    (get len).run buffer = .ok (some (buffer.take len)) (buffer.drop len) := by
  change get len buffer = _
  simp [get, h]

theorem run_get_of_lt {len : ℕ} {buffer : List U8} (h : buffer.length < len) :
    (get len).run buffer = .ok none buffer := by
  change get len buffer = _
  simp [get, h]

end UnmarshalBuf

namespace ByteArray

variable {m : ℕ}

/-- `<[u8; M]>::try_unmarshal`. -/
def tryUnmarshal (m : ℕ) : UnmarshalM (List.Vector U8 m) := do
  match ← UnmarshalBuf.get m with
  | some mine =>
    -- `x.copy_from_slice(mine)` on `[0u8; M]` requires equal lengths
    if h : mine.length = m then pure (array mine h) else abort
  | none => fail .memory

/-- `<[u8; M]>::try_marshal`. -/
def tryMarshal (self : List.Vector U8 m) : MarshalM ℕ := do
  let buffer ← get
  if buffer.length ≥ self.length then
    copyPrefix self.toList
    pure self.length
  else fail .memory

theorem run_tryUnmarshal_of_le {buffer : List U8} (h : m ≤ buffer.length) :
    (tryUnmarshal m).run buffer =
      .ok (array (buffer.take m) (List.length_take_of_le h)) (buffer.drop m) := by
  rw [tryUnmarshal, run_bind_of_ok (UnmarshalBuf.run_get_of_le h)]
  simp [h]

theorem run_tryUnmarshal_of_lt {buffer : List U8} (h : buffer.length < m) :
    (tryUnmarshal m).run buffer = .error (.err .memory) buffer := by
  rw [tryUnmarshal, run_bind_of_ok (UnmarshalBuf.run_get_of_lt h), run_fail]

theorem decodes (m : ℕ) : Decodes (tryUnmarshal m) (fun _ => True) List.Vector.toList := by
  constructor
  · intro b s h
    by_cases hm : m ≤ b.length
    · simp [run_tryUnmarshal_of_le hm] at h
    · simp [run_tryUnmarshal_of_lt (Nat.not_le.mp hm)] at h
  · intro b v r
    by_cases hm : m ≤ b.length
    · rw [run_tryUnmarshal_of_le hm, EStateM.Result.ok.injEq, true_and, array_eq_iff]
      constructor
      · intro h
        rcases h with ⟨hv, rfl⟩
        rw [← hv, List.take_append_drop]
      · rintro rfl
        exact ⟨List.take_left' v.toList_length, List.drop_left' v.toList_length⟩
    · rw [run_tryUnmarshal_of_lt (Nat.not_le.mp hm)]
      refine ⟨nofun, ?_⟩
      intro h
      rcases h with ⟨-, rfl⟩
      simp at hm

theorem tryMarshal_eq_writeAll (self : List.Vector U8 m) :
    tryMarshal self = Chunk.writeAll .memory [⟨self.toList, true⟩] 0 := by
  rw [Chunk.writeAll_singleton]
  funext buffer
  change (tryMarshal self).run buffer = (Chunk.write .memory ⟨self.toList, true⟩).run buffer
  by_cases h : self.toList.length ≤ buffer.length
  · have hm : m ≤ buffer.length := by simpa using h
    rw [Chunk.run_write_of_le _ h]
    simp [tryMarshal, List.Vector.length, hm, run_copyPrefix_of_le h]
  · have hm : ¬m ≤ buffer.length := by simpa using h
    rw [Chunk.run_write_of_lt _ (Nat.not_le.mp h)]
    simp [tryMarshal, List.Vector.length, hm]

end ByteArray

/-- The primitive integers with `{to,from}_be_bytes`. -/
inductive Prim where
  | u8 | u16 | u32 | u64 | i8 | i16 | i32 | i64
  deriving DecidableEq

namespace Prim

/-- `size_of` of the type. -/
@[reducible] def size : Prim → ℕ
  | u8 | i8 => 1
  | u16 | i16 => 2
  | u32 | i32 => 4
  | u64 | i64 => 8

@[reducible] def bits : Prim → ℕ
  | u8 | i8 => 8
  | u16 | i16 => 16
  | u32 | i32 => 32
  | u64 | i64 => 64

@[reducible] def unsigned : Prim → Bool
  | u8 | u16 | u32 | u64 => true
  | i8 | i16 | i32 | i64 => false

theorem pow_size (p : Prim) : 256 ^ p.size = 2 ^ p.bits := by cases p <;> rfl

/-- `to_be_bytes` and `from_be_bytes`; a signed value is its two's complement. -/
def beBytes (p : Prim) : BitVec p.bits ≃ List.Vector U8 p.size where
  toFun v := array (BigEndian.toBe p.size v.toNat) (BigEndian.length_toBe _ _)
  invFun bs := BitVec.ofNat p.bits (BigEndian.ofBe bs.toList)
  left_inv v := by
    have hv : v.toNat < 256 ^ p.size := p.pow_size ▸ v.isLt
    simp [BigEndian.ofBe_toBe_of_lt hv]
  right_inv bs := by
    apply List.Vector.eq
    have hlt : BigEndian.ofBe bs.toList < 2 ^ p.bits := by
      simpa [← p.pow_size] using BigEndian.ofBe_lt bs.toList
    have hbs := BigEndian.toBe_ofBe bs.toList
    rw [bs.toList_length] at hbs
    simpa [Nat.mod_eq_of_lt hlt] using hbs

/-- The big-endian bytes of a value. -/
def enc (p : Prim) (v : BitVec p.bits) : List U8 := BigEndian.toBe p.size v.toNat

@[simp] theorem length_enc (p : Prim) (v : BitVec p.bits) : (p.enc v).length = p.size := by
  simp [enc]

theorem enc_injective (p : Prim) : Function.Injective p.enc :=
  fun _ _ h => p.beBytes.injective (List.Vector.eq _ _ h)

theorem enc_ofNat_ofBe (p : Prim) {bs : List U8} (h : bs.length = p.size) :
    p.enc (BitVec.ofNat p.bits (BigEndian.ofBe bs)) = bs :=
  congrArg List.Vector.toList (p.beBytes.right_inv (array bs h))

def tryUnmarshal (p : Prim) : UnmarshalM (BitVec p.bits) := do
  let x ← ByteArray.tryUnmarshal p.size
  pure (p.beBytes.symm x)

def tryMarshal (p : Prim) (self : BitVec p.bits) : MarshalM ℕ :=
  ByteArray.tryMarshal (p.beBytes self)

theorem decodes (p : Prim) : Decodes p.tryUnmarshal (fun _ => True) p.enc :=
  (ByteArray.decodes p.size).map p.beBytes

theorem tryMarshal_eq_writeAll (p : Prim) (v : BitVec p.bits) :
    p.tryMarshal v = Chunk.writeAll .memory [⟨p.enc v, true⟩] 0 :=
  ByteArray.tryMarshal_eq_writeAll (p.beBytes v)

end Prim
end TpmRs
