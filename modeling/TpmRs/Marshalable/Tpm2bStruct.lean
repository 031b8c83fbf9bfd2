import TpmRs.Marshalable.Exact
import TpmRs.Marshalable.Layout

/-!
# Containers of bytes and of structs

Whichever function made a container, its size is in bounds and the bytes past it are
zero, so that its contents determine it. What `derive(Tpm2bStruct)` generates puts the
encoding of a struct into a container that is as large as the struct is in memory.
-/

namespace TpmRs

open Library Library.Fallible Library.Slice

variable {α : Type} {cap : ℕ}

/-- A function that returns a `TpmRcResult` and works on no buffer. -/
abbrev ResultM := Fallible TpmRcError Unit

/-- A struct with a container of its own, and the description of its implementation. The
size in memory is the capacity of the container, whose size is a `u16`. -/
class Tpm2bStruct (α : Type) extends Marshalable α where
  structType : Ty α
  tryMarshal_eq : tryMarshal = structType.tryMarshal
  tryUnmarshal_eq : tryUnmarshal = structType.tryUnmarshal
  sizeOf_lt : structType.sizeOf < 2 ^ 16

/-- `size_of` of the struct, the capacity of its container. -/
def Tpm2bStruct.maxBufferSize (α : Type) [Tpm2bStruct α] : ℕ := (structType : Ty α).sizeOf

/-- The container of a struct. -/
abbrev Tpm2bStruct.Holder (α : Type) [Tpm2bStruct α] := Tpm2b (maxBufferSize α)

namespace Tpm2b

/-- `from_struct`. -/
def fromStruct [Marshalable α] (cap : ℕ) (val : α) : ResultM (Tpm2b cap) := do
  let x : Tpm2b cap := default
  let (used, buffer) ← onLocal x.buffer.toList (Marshalable.tryMarshal val)
  -- a slice keeps its length
  if h : buffer.length = cap then
    pure { size := BitVec.ofNat 16 used, buffer := array buffer h }
  else abort

/-- `to_struct`. -/
def toStruct (α : Type) [Marshalable α] (self : Tpm2b cap) : ResultM α := do
  let bytes ← self.getBuffer
  let (v, _) ← onLocal bytes Marshalable.tryUnmarshal
  pure v

theorem WellFormed.eq_of_payload_eq {x y : Tpm2b cap} (hx : x.WellFormed) (hy : y.WellFormed)
    (h : x.payload = y.payload) : x = y := by
  have hsize : x.size = y.size := by
    apply BitVec.eq_of_toNat_eq
    rw [← length_payload hx, h, length_payload hy]
  have hbuffer : x.buffer = y.buffer := by
    apply List.Vector.eq
    rw [buffer_eq_payload_append hx, buffer_eq_payload_append hy, h, hsize]
  cases x
  cases y
  simp_all

theorem payload_of_fromBytes {bytes : List U8} {self : Tpm2b cap}
    (h : fromBytes cap bytes = .ok self) : self.payload = bytes := by
  unfold fromBytes at h
  split_ifs at h with hlen
  obtain rfl := Except.ok.inj h
  have hsize : (BitVec.ofNat 16 bytes.length).toNat = bytes.length := by
    simp only [BitVec.toNat_ofNat]
    omega
  simp only [payload, hsize, toList_array, List.take_left]

theorem fromBytes_of_lt {bytes : List U8} (h : min (2 ^ 16 - 1) cap < bytes.length) :
    fromBytes cap bytes = .error .size := by
  rw [fromBytes, dif_pos h]

theorem exists_fromBytes_iff {bytes : List U8} :
    (∃ self, fromBytes cap bytes = .ok self) ↔ bytes.length ≤ min (2 ^ 16 - 1) cap := by
  constructor
  · intro h
    rcases h with ⟨self, h⟩
    apply Nat.not_lt.mp
    intro hlt
    simp [fromBytes_of_lt hlt] at h
  · intro h
    rw [fromBytes, dif_neg (Nat.not_lt.mpr h)]
    exact ⟨_, rfl⟩

theorem wellFormed_of_tryUnmarshal {b r : List U8} {self : Tpm2b cap}
    (h : (tryUnmarshal cap).run b = .ok self r) : self.WellFormed :=
  (((decodes cap).run_eq_ok_iff b self r).mp h).1

theorem run_tryUnmarshal_of_lt {gotSize : U16} {b : List U8}
    (h : b.length < gotSize.toNat ∨ cap < gotSize.toNat) :
    ∃ b', (tryUnmarshal cap).run (Prim.u16.enc gotSize ++ b) = .error (.err .memory) b' := by
  have hsize := (Prim.u16.decodes.run_eq_ok_iff (Prim.u16.enc gotSize ++ b) gotSize b).mpr
    ⟨trivial, rfl⟩
  obtain ⟨b', hbuffer⟩ := run_readBuffer_of_lt h
  exact ⟨b', by rw [tryUnmarshal, run_bind_of_ok hsize, run_bind_of_error hbuffer]⟩

/-- Reading the size and the contents is `from_bytes` of the contents. -/
theorem run_tryUnmarshal_of_fromBytes {bytes : List U8} {self : Tpm2b cap}
    (h : fromBytes cap bytes = .ok self) (r : List U8) :
    (tryUnmarshal cap).run (Prim.u16.enc (BitVec.ofNat 16 bytes.length) ++ bytes ++ r) =
      .ok self r := by
  have hwf := wellFormed_of_fromBytes h
  have hpayload := payload_of_fromBytes h
  apply ((decodes cap).run_eq_ok_iff _ _ _).mpr
  refine ⟨hwf, ?_⟩
  have hsize : BitVec.ofNat 16 bytes.length = self.size := by
    rw [← hpayload, length_payload hwf, BitVec.ofNat_toNat, BitVec.setWidth_eq]
  rw [enc, hpayload, hsize]

theorem WellFormed.fromBytes_payload {self : Tpm2b cap} (h : self.WellFormed) :
    fromBytes cap self.payload = .ok self := by
  have hlen : self.payload.length ≤ min (2 ^ 16 - 1) cap := by
    have hsize := self.size.isLt
    have hcap := h.size_le
    rw [length_payload h]
    omega
  obtain ⟨x, hx⟩ := exists_fromBytes_iff.mpr hlen
  obtain rfl := (wellFormed_of_fromBytes hx).eq_of_payload_eq h (payload_of_fromBytes hx)
  exact hx

end Tpm2b

section Struct

variable [Tpm2bStruct α]

open Tpm2bStruct

/-- A well-formed struct fits, and the contents of its container are its encoding. -/
theorem Tpm2b.exists_run_fromStruct {v : α} (h : structType.WellFormed v) :
    ∃ t : Holder α, (fromStruct (maxBufferSize α) v).run () = .ok t () ∧ t.WellFormed ∧
      t.payload = structType.enc v := by
  have hle : (structType.enc v).length ≤ maxBufferSize α := structType.length_enc_le v h
  have hlt : maxBufferSize α < 2 ^ 16 := sizeOf_lt
  have hput := structType.puts_tryMarshal h (List.replicate (maxBufferSize α) 0)
    (by simpa using hle)
  have hlen : (structType.enc v ++
      (List.replicate (maxBufferSize α) 0).drop (structType.enc v).length).length =
      maxBufferSize α := by
    simp [hle]
  have hsize : (BitVec.ofNat 16 (structType.enc v).length).toNat = (structType.enc v).length := by
    simp only [BitVec.toNat_ofNat]
    omega
  refine ⟨⟨BitVec.ofNat 16 (structType.enc v).length, array _ hlen⟩, ?_, ⟨?_, ?_⟩, ?_⟩
  · have hbuffer : (default : Holder α).buffer.toList = List.replicate (maxBufferSize α) 0 := rfl
    rw [← tryMarshal_eq] at hput
    rw [fromStruct, hbuffer, run_bind_of_ok (run_onLocal_of_ok hput ())]
    simp [hle]
  · simp only [hsize]
    exact hle
  · simp only [hsize, toList_array, List.drop_left]
  · simp only [payload, hsize, toList_array, List.take_left]

/-- Extracting a struct decodes the contents and ignores what follows it. -/
theorem Tpm2b.run_toStruct_eq_ok_iff {self : Tpm2b cap} (h : self.WellFormed) (v : α) :
    (toStruct α self).run () = .ok v () ↔
      structType.WellFormed v ∧ ∃ rest, self.payload = structType.enc v ++ rest := by
  rw [toStruct, run_bind_of_ok (run_getBuffer h ()), run_bind_eq_ok_iff]
  constructor
  · intro h
    rcases h with ⟨⟨w, rest⟩, _, hrun, heq⟩
    obtain rfl : w = v := by simpa using heq
    rw [run_onLocal_eq_ok_iff, tryUnmarshal_eq, structType.decodes.run_eq_ok_iff] at hrun
    exact ⟨hrun.1.1, rest, hrun.1.2⟩
  · intro h
    rcases h with ⟨hv, rest, hpayload⟩
    refine ⟨(v, rest), (), ?_, rfl⟩
    rw [run_onLocal_eq_ok_iff, tryUnmarshal_eq, structType.decodes.run_eq_ok_iff]
    exact ⟨⟨hv, hpayload⟩, rfl⟩

end Struct

namespace Tpm2b

/-- The containers that the public functions make. -/
inductive Built : {cap : ℕ} → Tpm2b cap → Prop
  | default {cap : ℕ} : Built (Tpm2b.default : Tpm2b cap)
  | fromBytes {cap : ℕ} {bytes : List U8} {self : Tpm2b cap} :
      fromBytes cap bytes = .ok self → Built self
  | tryUnmarshal {cap : ℕ} {b r : List U8} {self : Tpm2b cap} :
      (tryUnmarshal cap).run b = .ok self r → Built self
  | fromStruct {α : Type} [Tpm2bStruct α] {v : α} {self : Tpm2bStruct.Holder α} :
      Tpm2bStruct.structType.WellFormed v →
      (fromStruct (Tpm2bStruct.maxBufferSize α) v).run () = .ok self () → Built self

theorem Built.wellFormed {self : Tpm2b cap} (h : Built self) : self.WellFormed := by
  cases h with
  | default => exact wellFormed_default
  | fromBytes h => exact wellFormed_of_fromBytes h
  | tryUnmarshal h => exact wellFormed_of_tryUnmarshal h
  | fromStruct hv h =>
    obtain ⟨t, ht, hwf, -⟩ := exists_run_fromStruct hv
    obtain ⟨rfl, -⟩ := EStateM.Result.ok.inj (ht.symm.trans h)
    exact hwf

end Tpm2b
end TpmRs
