import TpmRs.Marshalable.Exact

/-!
# Marshaling into short buffers

A buffer that is too short cuts the encoding in one chunk. The marshalers check the
room for every chunk but the contents of a TPM2B container, whose guard compares
with the larger of the capacity and the room left. So a buffer that ends inside such
contents aborts, and every other short buffer is reported.
-/

namespace TpmRs

open Library Library.Fallible

/-- The chunk that is cut is the one that holds the first byte without room. -/
theorem Library.Chunk.getElem?_flag_of_cutAt {α : Type} (cs : List (Chunk α)) {room : ℕ}
    {c : Chunk α} (h : Chunk.cutAt cs room = some c) :
    (cs.flatMap fun d => List.replicate d.bytes.length !d.checked)[room]? = some !c.checked := by
  induction cs generalizing room with
  | nil => simp [Chunk.cutAt] at h
  | cons d cs ih =>
    by_cases hd : d.bytes.length ≤ room
    · rw [Chunk.cutAt, if_pos hd] at h
      rw [List.flatMap_cons, List.getElem?_append_right (by simpa using hd)]
      simpa using ih h
    · rw [Chunk.cutAt, if_neg hd, Option.some.injEq] at h
      subst h
      have hroom : room < d.bytes.length := Nat.not_le.mp hd
      rw [List.flatMap_cons, List.getElem?_append_left (by simpa using hroom)]
      simp [hroom]

namespace Ty

variable {α : Type}

/-- The outcome in a short buffer is decided by where the buffer ends. -/
theorem run_tryMarshal_of_lt (t : Ty α) {v : α} (hv : t.WellFormed v) {buffer : List U8}
    (h : buffer.length < (t.enc v).length) :
    ∃ buffer', (t.tryMarshal v).run buffer =
      .error (if t.inPayload v buffer.length then .panic else .err .memory) buffer' := by
  obtain ⟨c, hc⟩ := Chunk.cutAt_isSome (t.chunks v) h
  obtain ⟨buffer', hrun⟩ := Chunk.run_writeAll_of_cut TpmRcError.memory (t.chunks v)
    (Nat.zero_le _) (by simpa using hc)
  refine ⟨buffer', ?_⟩
  rw [t.tryMarshal_eq_writeAll v hv, hrun, inPayload, Chunk.getElem?_flag_of_cutAt _ hc]
  cases c.checked <;> simp

/-- A short buffer is reported unless it ends inside the contents of a container. -/
theorem tryMarshal_reports_short_iff (t : Ty α) {v : α} (hv : t.WellFormed v)
    {buffer : List U8} (h : buffer.length < (t.enc v).length) :
    (∃ buffer', (t.tryMarshal v).run buffer = .error (.err .memory) buffer') ↔
      ¬t.inPayload v buffer.length := by
  obtain ⟨buffer', hrun⟩ := t.run_tryMarshal_of_lt hv h
  rw [hrun]
  by_cases hin : t.inPayload v buffer.length <;> simp [hin]

/-- A digest that holds one byte. -/
def oneByteDigest : Tpm2b 64 where
  size := 1
  buffer := Slice.array (0xAB :: List.replicate 63 0) rfl

theorem tryMarshal_reports_short_oneByteDigest :
    ∃ buffer', ((tpm2bSimple 64).tryMarshal oneByteDigest).run [0xFF] =
      .error (.err .memory) buffer' := by
  have hwf : (tpm2bSimple 64).WellFormed oneByteDigest := by
    change oneByteDigest.WellFormed
    decide
  have hshort : [(0xFF : U8)].length < ((tpm2bSimple 64).enc oneByteDigest).length := by decide
  exact ((tpm2bSimple 64).tryMarshal_reports_short_iff hwf hshort).mpr (by decide)

/-- Room for the size prefix alone: the copy of the contents is out of bounds. -/
theorem not_tryMarshal_reports_short :
    ¬∀ (β : Type) (t : Ty β) (v : β), t.WellFormed v → ∀ buffer : List U8,
      buffer.length < (t.enc v).length →
        ∃ buffer', (t.tryMarshal v).run buffer = .error (.err .memory) buffer' := by
  intro h
  have hwf : (tpm2bSimple 64).WellFormed oneByteDigest := by
    change oneByteDigest.WellFormed
    decide
  obtain ⟨buffer', hrun⟩ := h _ (tpm2bSimple 64) oneByteDigest hwf [0xFF, 0xFF] (by decide)
  have hpanic : ((tpm2bSimple 64).tryMarshal oneByteDigest).run [0xFF, 0xFF] =
      .error .panic [0, 1] := rfl
  cases hpanic.symm.trans hrun

end Ty
end TpmRs
