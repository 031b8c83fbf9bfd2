import TpmRs.Base.Algorithms
import TpmRs.Base.Tpml

/-!
# The lists of the type library

The entries of the lists and the capacities of the nine types that `impl_tpml` is given.
Most capacities are the number of entries whose size in memory fits in the capability
data.
-/

namespace TpmRs

open Library Library.Fallible Library.Slice

def tpm2ShaDigestSize : ℕ := 20
def tpm2Sha1DigestSize : ℕ := 20
def tpm2Sha256DigestSize : ℕ := 32
def tpm2Sha384DigestSize : ℕ := 48
def tpm2Sha512DigestSize : ℕ := 64
def tpm2Sm3256DigestSize : ℕ := 32

def tpm2MaxCapBuffer : ℕ := 1024
def tpm2NumPcrBanks : ℕ := 16
def tpm2MaxPcrs : ℕ := 32
def tpm2PcrSelectMax : ℕ := (tpm2MaxPcrs + 7) / 8
def tpmlDigestMaxDigests : ℕ := 8

/-- The capability buffer without the capability and the count. -/
def tpm2MaxCapData : ℕ := tpm2MaxCapBuffer - Prim.u32.layout.size - Prim.u32.layout.size

instance {cap : ℕ} : Inhabited (Tpm2b cap) := ⟨.default⟩
instance : Inhabited TpmCc := ⟨⟨0⟩⟩
instance : Inhabited TpmHandle := ⟨⟨0⟩⟩
instance : Inhabited TpmEccCurve := ⟨⟨0⟩⟩

/-- `TPMT_HA`, a digest with its algorithm. -/
inductive TpmtHa where
  | sha1 (digest : List.Vector U8 tpm2ShaDigestSize)
  | sha256 (digest : List.Vector U8 tpm2Sha256DigestSize)
  | sha384 (digest : List.Vector U8 tpm2Sha384DigestSize)
  | sha512 (digest : List.Vector U8 tpm2Sha512DigestSize)
  | sm3_256 (digest : List.Vector U8 tpm2Sm3256DigestSize)
  deriving DecidableEq

namespace TpmtHa

instance : Inhabited TpmtHa := ⟨.sha1 (.replicate tpm2Sha1DigestSize 0)⟩

def variants : TpmtHa ≃ (List.Vector U8 tpm2ShaDigestSize × Unit) ⊕
    (List.Vector U8 tpm2Sha256DigestSize × Unit) ⊕ (List.Vector U8 tpm2Sha384DigestSize × Unit) ⊕
    (List.Vector U8 tpm2Sha512DigestSize × Unit) ⊕ (List.Vector U8 tpm2Sm3256DigestSize × Unit) ⊕
    Empty where
  toFun
    | sha1 f0 => .inl (f0, ())
    | sha256 f0 => .inr (.inl (f0, ()))
    | sha384 f0 => .inr (.inr (.inl (f0, ())))
    | sha512 f0 => .inr (.inr (.inr (.inl (f0, ()))))
    | sm3_256 f0 => .inr (.inr (.inr (.inr (.inl (f0, ())))))
  invFun
    | .inl (f0, ()) => sha1 f0
    | .inr (.inl (f0, ())) => sha256 f0
    | .inr (.inr (.inl (f0, ()))) => sha384 f0
    | .inr (.inr (.inr (.inl (f0, ())))) => sha512 f0
    | .inr (.inr (.inr (.inr (.inl (f0, ()))))) => sm3_256 f0
  left_inv v := by cases v <;> rfl
  right_inv v := by rcases v with v | v | v | v | v | v <;> first | rfl | cases v

def ty : Ty TpmtHa :=
  .enum (p := .u16) variants
    (.cons TpmAlgId.sha1.val (by decide) (.cons (.byteArray _) .nil)
    (.cons TpmAlgId.sha256.val (by decide) (.cons (.byteArray _) .nil)
    (.cons TpmAlgId.sha384.val (by decide) (.cons (.byteArray _) .nil)
    (.cons TpmAlgId.sha512.val (by decide) (.cons (.byteArray _) .nil)
    (.cons TpmAlgId.sm3256.val (by decide) (.cons (.byteArray _) .nil) .nil)))))

end TpmtHa

structure TpmsPcrSelection where
  hash : TpmiAlgHash
  sizeofSelect : U8
  pcrSelect : List.Vector U8 tpm2PcrSelectMax
  deriving DecidableEq

namespace TpmsPcrSelection

instance : Inhabited TpmsPcrSelection := ⟨⟨0⟩, 0, .replicate tpm2PcrSelectMax 0⟩

def fields : TpmsPcrSelection ≃ TpmiAlgHash × U8 × List.Vector U8 tpm2PcrSelectMax × Unit where
  toFun v := (v.hash, v.sizeofSelect, v.pcrSelect, ())
  invFun p := ⟨p.1, p.2.1, p.2.2.1⟩
  left_inv _ := rfl
  right_inv _ := rfl

def ty : Ty TpmsPcrSelection :=
  .namedStruct fields (.field TpmiAlgHash.ty (.length .u8 rfl
    (.lengthArray (.last 0) (.prim .u8) 0 tpm2PcrSelectMax .nil)))

end TpmsPcrSelection

structure TpmsAlgProperty where
  alg : TpmAlgId
  algProperties : TpmaAlgorithm
  deriving DecidableEq

namespace TpmsAlgProperty

instance : Inhabited TpmsAlgProperty := ⟨⟨0⟩, ⟨0⟩⟩

def fields : TpmsAlgProperty ≃ TpmAlgId × TpmaAlgorithm × Unit where
  toFun v := (v.alg, v.algProperties, ())
  invFun p := ⟨p.1, p.2.1⟩
  left_inv _ := rfl
  right_inv _ := rfl

def ty : Ty TpmsAlgProperty :=
  .namedStruct fields (.field TpmAlgId.ty (.field TpmaAlgorithm.ty .nil))

end TpmsAlgProperty

structure TpmsTaggedProperty where
  property : TpmPt
  value : U32
  deriving DecidableEq

namespace TpmsTaggedProperty

instance : Inhabited TpmsTaggedProperty := ⟨⟨0⟩, 0⟩

def fields : TpmsTaggedProperty ≃ TpmPt × U32 × Unit where
  toFun v := (v.property, v.value, ())
  invFun p := ⟨p.1, p.2.1⟩
  left_inv _ := rfl
  right_inv _ := rfl

def ty : Ty TpmsTaggedProperty :=
  .namedStruct fields (.field TpmPt.ty (.field (.prim .u32) .nil))

end TpmsTaggedProperty

structure TpmsTaggedPcrSelect where
  tag : TpmPtPcr
  sizeOfSelect : U8
  pcrSelect : List.Vector U8 tpm2PcrSelectMax
  deriving DecidableEq

namespace TpmsTaggedPcrSelect

instance : Inhabited TpmsTaggedPcrSelect := ⟨⟨0⟩, 0, .replicate tpm2PcrSelectMax 0⟩

def fields : TpmsTaggedPcrSelect ≃ TpmPtPcr × U8 × List.Vector U8 tpm2PcrSelectMax × Unit where
  toFun v := (v.tag, v.sizeOfSelect, v.pcrSelect, ())
  invFun p := ⟨p.1, p.2.1, p.2.2.1⟩
  left_inv _ := rfl
  right_inv _ := rfl

def ty : Ty TpmsTaggedPcrSelect :=
  .namedStruct fields (.field TpmPtPcr.ty (.length .u8 rfl
    (.lengthArray (.last 0) (.prim .u8) 0 tpm2PcrSelectMax .nil)))

end TpmsTaggedPcrSelect

structure TpmsTaggedPolicy where
  handle : TpmHandle
  policyHash : TpmtHa
  deriving DecidableEq

namespace TpmsTaggedPolicy

instance : Inhabited TpmsTaggedPolicy := ⟨⟨0⟩, default⟩

def fields : TpmsTaggedPolicy ≃ TpmHandle × TpmtHa × Unit where
  toFun v := (v.handle, v.policyHash, ())
  invFun p := ⟨p.1, p.2.1⟩
  left_inv _ := rfl
  right_inv _ := rfl

def ty : Ty TpmsTaggedPolicy :=
  .namedStruct fields (.field TpmHandle.ty (.field TpmtHa.ty .nil))

end TpmsTaggedPolicy

def tpm2MaxCapAlgs : ℕ := tpm2MaxCapData / TpmsAlgProperty.ty.sizeOf
def tpm2MaxCapHandles : ℕ := tpm2MaxCapData / TpmHandle.ty.sizeOf
def tpm2MaxCapCc : ℕ := tpm2MaxCapData / TpmCc.ty.sizeOf
def tpm2MaxTpmProperties : ℕ := tpm2MaxCapData / TpmsTaggedProperty.ty.sizeOf
def tpm2MaxPcrProperties : ℕ := tpm2MaxCapData / TpmsTaggedPcrSelect.ty.sizeOf
def tpm2MaxEccCurves : ℕ := tpm2MaxCapData / TpmEccCurve.ty.sizeOf
def tpm2MaxTaggedPolicies : ℕ := tpm2MaxCapData / TpmsTaggedPolicy.ty.sizeOf

abbrev TpmlPcrSelection := Tpml TpmsPcrSelection tpm2NumPcrBanks
abbrev TpmlAlgProperty := Tpml TpmsAlgProperty tpm2MaxCapAlgs
abbrev TpmlHandle := Tpml TpmHandle tpm2MaxCapHandles
abbrev TpmlCc := Tpml TpmCc tpm2MaxCapCc
abbrev TpmlTaggedTpmProperty := Tpml TpmsTaggedProperty tpm2MaxTpmProperties
abbrev TpmlTaggedPcrProperty := Tpml TpmsTaggedPcrSelect tpm2MaxPcrProperties
abbrev TpmlEccCurve := Tpml TpmEccCurve tpm2MaxEccCurves
abbrev TpmlTaggedPolicy := Tpml TpmsTaggedPolicy tpm2MaxTaggedPolicies
abbrev TpmlDigest := Tpml Tpm2bDigest tpmlDigestMaxDigests

example : [tpm2MaxCapAlgs, tpm2MaxCapHandles, tpm2MaxCapCc, tpm2MaxTpmProperties,
    tpm2MaxPcrProperties, tpm2MaxEccCurves, tpm2MaxTaggedPolicies] =
    [127, 254, 254, 127, 84, 508, 14] := by decide

namespace Tpml

variable {α : Type} [Inhabited α] {cap : ℕ}

/-- Over any history a list is a sequence of at most `cap` elements: the accessor returns
what was put in, in order, `new` and `add` succeed exactly while there is room, a failed
`add` changes nothing, and equal accessors mean equal values. -/
theorem bounded_sequence (listType : Ty α) (hcap : cap < 2 ^ 32) :
    (∀ (xs : List α) (x : Tpml α cap), Built listType xs x →
      x.getCount ≤ cap ∧
      x.list.toList.drop x.getCount = List.replicate (cap - x.getCount) Inhabited.default ∧
      (x.getList : Fallible Empty Unit (List α)).run () = .ok xs ()) ∧
    (∀ xs : List α, ((∃ x : Tpml α cap, new xs = .ok x) ↔ xs.length ≤ cap) ∧
      (cap < xs.length → (new xs : Except TpmRcError (Tpml α cap)) = .error .size)) ∧
    (∀ (xs : List α) (x : Tpml α cap), new xs = .ok x → (addAll xs).run default = .ok () x) ∧
    (∀ (xs : List α) (x : Tpml α cap) (element : α), Built listType xs x →
      ((∃ y, (add element).run x = .ok () y) ↔ x.getCount ≠ cap) ∧
      (x.getCount = cap → (add element).run x = .error (.err .size) x)) ∧
    ∀ (xs ys : List α) (x y : Tpml α cap), Built listType xs x → Built listType ys y →
      (x = y ↔ (x.getList : Fallible Empty Unit (List α)).run () = y.getList.run ()) := by
  refine ⟨?_, fun xs => ⟨exists_new_iff hcap, new_of_lt⟩, ?_, ?_, ?_⟩
  · intro xs x h
    have hx := h.represents hcap
    refine ⟨?_, ?_, hx.run_getList ()⟩
    · rw [getCount, hx.count_eq]
      exact hx.length_le
    · rw [getCount, hx.count_eq, hx.list_eq, List.drop_left]
  · intro xs x h
    have hx := (show Built listType xs x from .new h).represents hcap
    obtain ⟨y, hrun, hy⟩ := represents_default.run_addAll hcap xs (by simpa using hx.length_le)
    obtain rfl := hy.eq hx
    exact hrun
  · intro xs x element h
    have hx := h.represents hcap
    rw [getCount, hx.count_eq]
    exact ⟨hx.exists_run_add_iff hcap element, fun heq => hx.run_add_of_eq heq element⟩
  · intro xs ys x y h h'
    have hx := h.represents hcap
    have hy := h'.represents hcap
    rw [hx.run_getList, hy.run_getList, hx.eq_iff hy, EStateM.Result.ok.injEq]
    simp

/-- A selection of the PCRs `0` to `3` and `8` to `11`. -/
def sha256Selection : TpmsPcrSelection where
  hash := ⟨TpmAlgId.sha256.val⟩
  sizeofSelect := 2
  pcrSelect := array [0xF, 0xF, 0x0, 0x0] rfl

theorem bounded_sequence_sha256Selection :
    ∃ x : TpmlPcrSelection, new [sha256Selection] = .ok x ∧
      (addAll [sha256Selection]).run default = .ok () x ∧
      (x.getList : Fallible Empty Unit (List TpmsPcrSelection)).run () =
        .ok [sha256Selection] () := by
  have hcap : tpm2NumPcrBanks < 2 ^ 32 := by decide
  have h := bounded_sequence TpmsPcrSelection.ty hcap
  obtain ⟨x, hx⟩ := (h.2.1 [sha256Selection]).1.mpr (by decide)
  exact ⟨x, hx, h.2.2.1 _ _ hx, (h.1 _ _ (.new hx)).2.2⟩

end Tpml
end TpmRs
