import TpmRs.Base.Attest
import TpmRs.Marshalable.Tpm2bStruct

/-!
# Containers of structs

The three containers that hold a struct: `Tpm2bSensitiveCreate`, `Tpm2bPublic` and
`Tpm2bCreationData`. Each struct fits into its container and comes back. In the other
direction a container can hold more than a struct, and what follows the struct is lost.
-/

namespace TpmRs

open Library Library.Fallible Tpm2bStruct

instance : Tpm2bStruct TpmsSensitiveCreate where
  toMarshalable := TpmsSensitiveCreate.ty.marshalable
  structType := TpmsSensitiveCreate.ty
  tryMarshal_eq := rfl
  tryUnmarshal_eq := rfl
  sizeOf_lt := by decide

instance : Tpm2bStruct TpmtPublic where
  structType := TpmtPublic.ty
  tryMarshal_eq := TpmtPublic.tryMarshal_eq
  tryUnmarshal_eq := TpmtPublic.tryUnmarshal_eq
  sizeOf_lt := by decide

instance : Tpm2bStruct TpmsCreationData where
  toMarshalable := TpmsCreationData.ty.marshalable
  structType := TpmsCreationData.ty
  tryMarshal_eq := rfl
  tryUnmarshal_eq := rfl
  sizeOf_lt := by decide

abbrev Tpm2bSensitiveCreate := Holder TpmsSensitiveCreate
abbrev Tpm2bPublic := Holder TpmtPublic
abbrev Tpm2bCreationData := Holder TpmsCreationData

example : [maxBufferSize TpmsSensitiveCreate, maxBufferSize TpmtPublic,
    maxBufferSize TpmsCreationData] = [324, 616, 408] := by decide

section Generic

variable (α : Type) [Tpm2bStruct α]

/-- Every well-formed struct is put into its container at full length and comes back. -/
def RoundTrips : Prop :=
  ∀ v : α, structType.WellFormed v → ∃ t : Holder α,
    (Tpm2b.fromStruct (maxBufferSize α) v).run () = .ok t () ∧
      t.getSize.toNat = (structType.enc v).length ∧ (t.toStruct α).run () = .ok v ()

theorem roundTrips : RoundTrips α := by
  intro v hv
  obtain ⟨t, hrun, hwf, hpayload⟩ := Tpm2b.exists_run_fromStruct hv
  refine ⟨t, hrun, ?_, ?_⟩
  · rw [← hpayload, Tpm2b.length_payload hwf, Tpm2b.getSize]
  · apply (Tpm2b.run_toStruct_eq_ok_iff hwf v).mpr
    exact ⟨hv, [], by rw [hpayload, List.append_nil]⟩

variable {α}

/-- Containers made from bytes, as the other end of the wire can. -/
inductive Tpm2b.Received {cap : ℕ} (self : Tpm2b cap) : Prop
  | tryUnmarshal {b r : List U8} : (tryUnmarshal cap).run b = .ok self r → Received self
  | fromBytes {bytes : List U8} : fromBytes cap bytes = .ok self → Received self

theorem Tpm2b.Received.wellFormed {cap : ℕ} {self : Tpm2b cap} (h : self.Received) :
    self.WellFormed := by
  cases h with
  | tryUnmarshal h => exact wellFormed_of_tryUnmarshal h
  | fromBytes h => exact wellFormed_of_fromBytes h

/-- Whatever struct is extracted from a container, putting it back gives the container. -/
def Tpm2bStruct.HoldsOne (t : Holder α) : Prop :=
  ∀ v : α, (t.toStruct α).run () = .ok v () →
    (Tpm2b.fromStruct (maxBufferSize α) v).run () = .ok t ()

/-- The contents go on after the encoding of a well-formed struct. -/
def Tpm2bStruct.GoesOn (t : Holder α) : Prop :=
  ∃ (v : α) (rest : List U8), structType.WellFormed v ∧ rest ≠ [] ∧
    t.payload = structType.enc v ++ rest

theorem Tpm2bStruct.holdsOne_iff_not_goesOn {t : Holder α} (h : t.WellFormed) :
    HoldsOne t ↔ ¬GoesOn t := by
  constructor
  · intro hone hmore
    rcases hmore with ⟨v, rest, hv, hrest, hpayload⟩
    have hrun := hone v ((Tpm2b.run_toStruct_eq_ok_iff h v).mpr ⟨hv, rest, hpayload⟩)
    obtain ⟨t', hrun', -, hpayload'⟩ := Tpm2b.exists_run_fromStruct hv
    obtain ⟨rfl, -⟩ := EStateM.Result.ok.inj (hrun.symm.trans hrun')
    rw [hpayload] at hpayload'
    exact hrest (by simpa using hpayload')
  · intro hmore v hrun
    obtain ⟨hv, rest, hpayload⟩ := (Tpm2b.run_toStruct_eq_ok_iff h v).mp hrun
    have hrest : rest = [] := by
      by_contra hne
      exact hmore ⟨v, rest, hv, hne, hpayload⟩
    obtain ⟨t', hrun', hwf', hpayload'⟩ := Tpm2b.exists_run_fromStruct hv
    rw [hrest, List.append_nil, ← hpayload'] at hpayload
    obtain rfl := h.eq_of_payload_eq hwf' hpayload
    exact hrun'

end Generic

theorem fromStruct_toStruct_roundTrips :
    RoundTrips TpmsSensitiveCreate ∧ RoundTrips TpmtPublic ∧ RoundTrips TpmsCreationData :=
  ⟨roundTrips _, roundTrips _, roundTrips _⟩

/-- Extracting a struct from received bytes and putting it back gives the same container
exactly when the contents do not go on after the struct. -/
theorem toStruct_fromStruct_iff (s : Tpm2bSensitiveCreate) (p : Tpm2bPublic)
    (c : Tpm2bCreationData) :
    (s.Received → (HoldsOne s ↔ ¬GoesOn s)) ∧ (p.Received → (HoldsOne p ↔ ¬GoesOn p)) ∧
      (c.Received → (HoldsOne c ↔ ¬GoesOn c)) :=
  ⟨fun h => holdsOne_iff_not_goesOn h.wellFormed, fun h => holdsOne_iff_not_goesOn h.wellFormed,
    fun h => holdsOne_iff_not_goesOn h.wellFormed⟩

/-- Two empty containers and one more byte. -/
theorem not_holdsOne_trailing : ∃ t : Tpm2bSensitiveCreate,
    Tpm2b.fromBytes (maxBufferSize TpmsSensitiveCreate) [0, 0, 0, 0, 7] = .ok t ∧ ¬HoldsOne t := by
  have hlen : ([0, 0, 0, 0, 7] : List U8).length ≤
      min (2 ^ 16 - 1) (maxBufferSize TpmsSensitiveCreate) := by decide
  obtain ⟨t, ht⟩ := Tpm2b.exists_fromBytes_iff.mpr hlen
  refine ⟨t, ht, ?_⟩
  rw [holdsOne_iff_not_goesOn (Tpm2b.wellFormed_of_fromBytes ht), not_not]
  refine ⟨⟨.default, .default⟩, [7], ?_, by decide, ?_⟩
  · exact ⟨Tpm2b.wellFormed_default, Tpm2b.wellFormed_default, trivial⟩
  · rw [Tpm2b.payload_of_fromBytes ht]
    decide

end TpmRs
