import TpmRs.Marshalable.Primitive

/-!
# TPM2B containers

What `#[marshalable(tpm2b_simple)]` generates for a struct of a `size: u16` and a
byte array of `MAX_BUFFER_SIZE` bytes. The first `size` bytes of the array are the
contents; the bounds of the accessors and of the marshaler rely on `size` being at
most the capacity, and equality of the whole array relies on the rest being zero.
-/

namespace TpmRs

open Library Library.Fallible Library.Slice

/-- A `tpm2b_simple` struct whose byte array has `maxBufferSize` entries. -/
structure Tpm2b (maxBufferSize : ℕ) where
  size : U16
  buffer : List.Vector U8 maxBufferSize
  deriving DecidableEq

namespace Tpm2b

variable {cap : ℕ}

def getSize (self : Tpm2b cap) : U16 := self.size

/-- `get_buffer` and `as_ref`. -/
def getBuffer {ε σ : Type} (self : Tpm2b cap) : Fallible ε σ (List U8) :=
  sliceTo self.buffer.toList self.getSize.toNat

/-- `from_bytes`. -/
def fromBytes (cap : ℕ) (buffer : List U8) : Except TpmRcError (Tpm2b cap) :=
  if h : buffer.length > min (2 ^ 16 - 1) cap then .error .size
  else .ok
    { size := BitVec.ofNat 16 buffer.length
      buffer := array (buffer ++ (List.replicate cap 0).drop buffer.length) (by simp; omega) }

/-- `Default::default`. -/
def default : Tpm2b cap where
  size := 0
  buffer := List.Vector.replicate cap 0

/-- The array that `try_unmarshal` builds once the size is known. -/
def readBuffer (cap : ℕ) (gotSize : U16) : UnmarshalM (List.Vector U8 cap) := do
  match ← UnmarshalBuf.get gotSize.toNat with
  | none => fail .memory
  | some sizedBuffer =>
    if sizedBuffer.length > cap then fail .memory
    -- `dest.buffer[..got_size].copy_from_slice(sized_buffer)`
    else if h : gotSize.toNat ≤ cap ∧ sizedBuffer.length = gotSize.toNat then
      pure (array (sizedBuffer ++ (List.replicate cap 0).drop gotSize.toNat) (by simp; omega))
    else abort

def tryUnmarshal (cap : ℕ) : UnmarshalM (Tpm2b cap) := do
  let gotSize ← Prim.u16.tryUnmarshal
  let buffer ← readBuffer cap gotSize
  pure { size := gotSize, buffer := buffer }

def tryMarshal (self : Tpm2b cap) : MarshalM ℕ := do
  let used ← Prim.u16.tryMarshal self.size
  -- `let (_, rest) = buffer.split_at_mut(used)`
  onSuffix used do
    let rest ← get
    let bufferMarsh := self.getSize.toNat
    if bufferMarsh > max cap rest.length then fail .memory
    else
      let src ← sliceTo self.buffer.toList bufferMarsh
      copyPrefix src
      pure (used + bufferMarsh)

/-- The contents. -/
def payload (self : Tpm2b cap) : List U8 := self.buffer.toList.take self.size.toNat

/-- The size is in bounds and the bytes past it are zero. -/
structure WellFormed (v : Tpm2b cap) : Prop where
  size_le : v.size.toNat ≤ cap
  zero_tail : v.buffer.toList.drop v.size.toNat = (List.replicate cap 0).drop v.size.toNat

instance (v : Tpm2b cap) : Decidable v.WellFormed :=
  decidable_of_iff (v.size.toNat ≤ cap ∧
    v.buffer.toList.drop v.size.toNat = (List.replicate cap 0).drop v.size.toNat)
    ⟨fun h => ⟨h.1, h.2⟩, fun h => ⟨h.1, h.2⟩⟩

theorem wellFormed_default : (default : Tpm2b cap).WellFormed :=
  ⟨Nat.zero_le _, rfl⟩

theorem wellFormed_of_fromBytes {bytes : List U8} {self : Tpm2b cap}
    (h : fromBytes cap bytes = .ok self) : self.WellFormed := by
  unfold fromBytes at h
  split_ifs at h with hlen
  obtain rfl := Except.ok.inj h
  have hsize : (BitVec.ofNat 16 bytes.length).toNat = bytes.length := by
    simp only [BitVec.toNat_ofNat]
    omega
  refine ⟨by simp only [hsize]; omega, ?_⟩
  simp only [hsize, toList_array]
  exact List.drop_left

theorem length_payload {self : Tpm2b cap} (h : self.WellFormed) :
    self.payload.length = self.size.toNat := by
  simp [payload, h.size_le]

theorem run_getBuffer {ε σ : Type} {self : Tpm2b cap} (h : self.WellFormed) (s : σ) :
    (self.getBuffer : Fallible ε σ (List U8)).run s = .ok self.payload s := by
  rw [getBuffer, getSize, sliceTo_of_le (by simpa using h.size_le), EStateM.run_pure, payload]

theorem buffer_eq_payload_append {self : Tpm2b cap} (h : self.WellFormed) :
    self.buffer.toList = self.payload ++ (List.replicate cap 0).drop self.size.toNat := by
  rw [← h.zero_tail, payload, List.take_append_drop]

/-- The size prefix is checked against the room left; the contents are not. -/
def chunks (self : Tpm2b cap) : List (Chunk U8) :=
  [⟨Prim.u16.enc self.size, true⟩, ⟨self.payload, false⟩]

def enc (self : Tpm2b cap) : List U8 := Prim.u16.enc self.size ++ self.payload

@[simp] theorem flat_chunks (self : Tpm2b cap) : Chunk.flat self.chunks = self.enc := by
  simp [chunks, enc]

theorem run_readBuffer_of_le {gotSize : U16} {b : List U8} (hb : gotSize.toNat ≤ b.length)
    (hcap : gotSize.toNat ≤ cap) :
    (readBuffer cap gotSize).run b =
      .ok (array (b.take gotSize.toNat ++ (List.replicate cap 0).drop gotSize.toNat)
        (by simp; omega)) (b.drop gotSize.toNat) := by
  rw [readBuffer, run_bind_of_ok (UnmarshalBuf.run_get_of_le hb)]
  simp [hb, hcap, Nat.not_lt.mpr hcap]

theorem run_readBuffer_of_lt {gotSize : U16} {b : List U8}
    (h : b.length < gotSize.toNat ∨ cap < gotSize.toNat) :
    ∃ b', (readBuffer cap gotSize).run b = .error (.err .memory) b' := by
  by_cases hb : gotSize.toNat ≤ b.length
  · have hcap : cap < gotSize.toNat := by omega
    refine ⟨b.drop gotSize.toNat, ?_⟩
    rw [readBuffer, run_bind_of_ok (UnmarshalBuf.run_get_of_le hb)]
    simp [hb, hcap]
  · refine ⟨b, ?_⟩
    rw [readBuffer, run_bind_of_ok (UnmarshalBuf.run_get_of_lt (Nat.not_le.mp hb)), run_fail]

theorem decodes_readBuffer (cap : ℕ) (gotSize : U16) :
    Decodes (readBuffer cap gotSize) (fun v => (⟨gotSize, v⟩ : Tpm2b cap).WellFormed)
      (fun v => (⟨gotSize, v⟩ : Tpm2b cap).payload) := by
  constructor
  · intro b s h
    by_cases hle : gotSize.toNat ≤ b.length ∧ gotSize.toNat ≤ cap
    · simp [run_readBuffer_of_le hle.1 hle.2] at h
    · have hlt : b.length < gotSize.toNat ∨ cap < gotSize.toNat := by omega
      obtain ⟨b', hb'⟩ := run_readBuffer_of_lt hlt
      simp [hb'] at h
  · intro b v r
    by_cases hle : gotSize.toNat ≤ b.length ∧ gotSize.toNat ≤ cap
    · rw [run_readBuffer_of_le hle.1 hle.2, EStateM.Result.ok.injEq, array_eq_iff]
      have hlen : (b.take gotSize.toNat).length = gotSize.toNat := by simp [hle.1]
      constructor
      · intro h
        rcases h with ⟨hv, rfl⟩
        have hpay : (⟨gotSize, v⟩ : Tpm2b cap).payload = b.take gotSize.toNat := by
          rw [payload, ← hv, List.take_left' hlen]
        refine ⟨⟨hle.2, ?_⟩, by rw [hpay, List.take_append_drop]⟩
        rw [← hv, List.drop_left' hlen]
      · intro h
        rcases h with ⟨hwf, rfl⟩
        have hpay := length_payload hwf
        rw [List.take_left' hpay, List.drop_left' hpay]
        exact ⟨(buffer_eq_payload_append hwf).symm, rfl⟩
    · have hlt : b.length < gotSize.toNat ∨ cap < gotSize.toNat := by omega
      obtain ⟨b', hb'⟩ := run_readBuffer_of_lt hlt
      rw [hb']
      refine ⟨nofun, ?_⟩
      intro h
      rcases h with ⟨hwf, rfl⟩
      have hpay := length_payload hwf
      have hcap : gotSize.toNat ≤ cap := hwf.size_le
      simp only [List.length_append, hpay] at hle
      omega

/-- A container and its two fields. -/
def fields : Tpm2b cap ≃ U16 × List.Vector U8 cap where
  toFun v := (v.size, v.buffer)
  invFun p := ⟨p.1, p.2⟩
  left_inv _ := rfl
  right_inv _ := rfl

theorem decodes (cap : ℕ) : Decodes (tryUnmarshal cap) WellFormed enc := by
  have h := ((Prim.decodes .u16).seq (decodes_readBuffer cap)).map fields
  simp only [bind_assoc, pure_bind] at h
  exact h.congr (fun v => by simp [fields]) (fun _ => rfl)

theorem writePayload_eq_advance {self : Tpm2b cap} (h : self.size.toNat ≤ cap) (used : ℕ) :
    (onSuffix used do
      let rest ← get
      let bufferMarsh := self.getSize.toNat
      if bufferMarsh > max cap rest.length then fail .memory
      else
        let src ← sliceTo self.buffer.toList bufferMarsh
        copyPrefix src
        pure (used + bufferMarsh)) =
      advance used (Chunk.write TpmRcError.memory ⟨self.payload, false⟩) := by
  have hpay : self.payload.length = self.size.toNat := by simp [payload, h]
  have hsrc : (sliceTo self.buffer.toList self.size.toNat : MarshalM (List U8)) =
      pure self.payload := by
    simp [sliceTo, h, payload]
  have hguard (n : ℕ) : ¬max cap n < self.size.toNat := by omega
  funext buffer
  by_cases hw : used ≤ buffer.length
  · by_cases hfit : self.payload.length ≤ (buffer.drop used).length
    · refine (run_onSuffix_of_ok hw ?_).trans
        (run_advance_of_ok hw (Chunk.run_write_of_le _ hfit)).symm
      simp [getSize, hguard, hsrc, run_copyPrefix_of_le hfit, hpay]
    · have hlt := Nat.not_le.mp hfit
      refine (run_onSuffix_of_error hw ?_).trans
        (run_advance_of_error hw (Chunk.run_write_of_lt _ hlt)).symm
      simp [getSize, hguard, hsrc, run_copyPrefix_of_lt hlt]
  · have hlt := Nat.not_le.mp hw
    exact (run_onSuffix_of_lt hlt).trans (run_advance_of_lt hlt).symm

theorem tryMarshal_eq_writeAll {self : Tpm2b cap} (h : self.size.toNat ≤ cap) :
    self.tryMarshal = Chunk.writeAll .memory self.chunks 0 := by
  have hsplit : self.chunks = [⟨Prim.u16.enc self.size, true⟩] ++ [⟨self.payload, false⟩] := rfl
  rw [hsplit, Chunk.writeAll_append, ← Prim.tryMarshal_eq_writeAll]
  simp only [tryMarshal, writePayload_eq_advance h, Chunk.writeAll, bind_pure]

end Tpm2b
end TpmRs
