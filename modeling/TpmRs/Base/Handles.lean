import TpmRs.Base.Algorithms
import TpmRs.Base.Attributes
import TpmRs.Marshalable.Exact

/-!
# Checked handles

Two handle types hold a `u32` that `try_from` checks against the ranges of the handle
types. The derived `Default` and `Marshalable` do not make that check: the default is
zero, which is in no range, and the decoder takes any four bytes. So a handle is valid
exactly if it was checked or the bytes that it was decoded from were in range.
-/

namespace TpmRs

open Library Library.Fallible

/-- `TPM_HT`. -/
structure TpmHt where
  val : U8
  deriving DecidableEq

namespace TpmHt

def nvIndex : TpmHt := ⟨0x01⟩
def hmacSession : TpmHt := ⟨0x02⟩
def policySession : TpmHt := ⟨0x03⟩

end TpmHt

def tpm2MaxActiveSessions : U32 := 64

/-- `TPM_HC`. -/
structure TpmHc where
  get : U32
  deriving DecidableEq

namespace TpmHc

/-- Handle constant shift. -/
def hrShift : U32 := 24

def new (handleType : TpmHt) : TpmHc := ⟨handleType.val.setWidth 32 <<< hrShift⟩

def hrHmacSession : TpmHc := new .hmacSession
def hrPolicySession : TpmHc := new .policySession
def hrNvIndex : TpmHc := new .nvIndex

def hmacSessionFirst : TpmHc := hrHmacSession
def hmacSessionLast : TpmHc := ⟨hrHmacSession.get + tpm2MaxActiveSessions - 1⟩
def policySessionFirst : TpmHc := hrPolicySession
def policySessionLast : TpmHc := ⟨hrPolicySession.get + tpm2MaxActiveSessions - 1⟩
def nvIndexFirst : TpmHc := hrNvIndex
def nvIndexLast : TpmHc := ⟨nvIndexFirst.get + 0x00FFFFFF⟩

/-- `(first..=last).contains(&value)`. -/
def rangeContains (first last : TpmHc) (value : U32) : Bool :=
  first.get ≤ value && value ≤ last.get

def isHmacSession : U32 → Bool := rangeContains hmacSessionFirst hmacSessionLast

def isPolicySession : U32 → Bool := rangeContains policySessionFirst policySessionLast

def isNvIndex : U32 → Bool := rangeContains nvIndexFirst nvIndexLast

end TpmHc

/-- `TPMI_RH_NV_INDEX`. -/
structure TpmiRhNvIndex where
  val : U32
  deriving DecidableEq

namespace TpmiRhNvIndex

def tryFrom (value : U32) : Except TpmRcError TpmiRhNvIndex :=
  if TpmHc.isNvIndex value then .ok ⟨value⟩ else .error .value

/-- The derived `Default::default`. -/
def default : TpmiRhNvIndex := ⟨0⟩

def ty : Ty TpmiRhNvIndex := .newtype .u32 ⟨val, mk, fun _ => rfl, fun _ => rfl⟩

end TpmiRhNvIndex

namespace TpmiShAuthSession

/-- An HMAC session, a policy session or the password authorization. -/
def isAuthSession (value : U32) : Bool :=
  TpmHc.isHmacSession value || TpmHc.isPolicySession value || value == rsPw.val

def tryFrom (value : U32) : Except TpmRcError TpmiShAuthSession :=
  if isAuthSession value then .ok ⟨value⟩ else .error .value

/-- The derived `Default::default`. -/
def default : TpmiShAuthSession := ⟨0⟩

end TpmiShAuthSession

def TpmaNv.ty : Ty TpmaNv := .newtype .u32 ⟨val, mk, fun _ => rfl, fun _ => rfl⟩

structure TpmsNvPublic where
  nvIndex : TpmiRhNvIndex
  nameAlg : TpmiAlgHash
  attributes : TpmaNv
  authPolicy : Tpm2bDigest
  dataSize : U16
  deriving DecidableEq

namespace TpmsNvPublic

def fields : TpmsNvPublic ≃
    TpmiRhNvIndex × TpmiAlgHash × TpmaNv × Tpm2bDigest × U16 × Unit where
  toFun v := (v.nvIndex, v.nameAlg, v.attributes, v.authPolicy, v.dataSize, ())
  invFun p := ⟨p.1, p.2.1, p.2.2.1, p.2.2.2.1, p.2.2.2.2.1⟩
  left_inv _ := rfl
  right_inv _ := rfl

def ty : Ty TpmsNvPublic :=
  .namedStruct fields (.field TpmiRhNvIndex.ty (.field TpmiAlgHash.ty (.field TpmaNv.ty
    (.field (.tpm2bSimple _) (.field (.prim .u16) .nil)))))

end TpmsNvPublic

/-- The derived `Default::default`. -/
def TpmsAuthCommand.default : TpmsAuthCommand where
  sessionHandle := .default
  nonce := Tpm2b.default
  sessionAttributes := ⟨0⟩
  hmac := Tpm2b.default

/-- A public way to a handle, with its input. -/
inductive HandleSource where
  | tryFrom (value : U32)
  | default
  | unmarshal (buffer : List U8)
  /-- The default of the struct that holds the handle. -/
  | holderDefault
  /-- Decoding the struct that holds the handle. -/
  | holderUnmarshal (buffer : List U8)

/-- The value that a decoder returns on the buffer. -/
def UnmarshalM.value? {α : Type} (m : UnmarshalM α) (buffer : List U8) : Option α :=
  match m.run buffer with
  | .ok v _ => some v
  | .error _ _ => none

/-- The handle that a source gives, from what its type and the struct that holds it have. -/
def HandleSource.handle {H K : Type} (tryFrom : U32 → Except TpmRcError H) (default : H) (ty : Ty H)
    (holderDefault : Option K) (holderTy : Ty K) (field : K → H) : HandleSource → Option H
  | .tryFrom value => (tryFrom value).toOption
  | .default => some default
  | .unmarshal buffer => ty.tryUnmarshal.value? buffer
  | .holderDefault => holderDefault.map field
  | .holderUnmarshal buffer => (holderTy.tryUnmarshal.value? buffer).map field

/-- `TpmsNvPublic` has no default. -/
def TpmiRhNvIndex.ofSource : HandleSource → Option TpmiRhNvIndex :=
  HandleSource.handle tryFrom default ty none TpmsNvPublic.ty (·.nvIndex)

def TpmiShAuthSession.ofSource : HandleSource → Option TpmiShAuthSession :=
  HandleSource.handle tryFrom default ty (some TpmsAuthCommand.default) TpmsAuthCommand.ty
    (·.sessionHandle)

/-- The integer in the first four bytes. -/
def leadingU32 (buffer : List U8) : U32 := BitVec.ofNat 32 (BigEndian.ofBe (buffer.take 4))

/-- The handle is checked, or it is decoded from bytes that are in range. -/
def HandleSource.InRange (valid : U32 → Bool) : HandleSource → Prop
  | .tryFrom _ => True
  | .default | .holderDefault => False
  | .unmarshal buffer | .holderUnmarshal buffer => valid (leadingU32 buffer)

section decoded

variable {α β γ : Type} {buffer : List U8}

theorem leadingU32_append (value : U32) (rest : List U8) :
    leadingU32 (Prim.u32.enc value ++ rest) = value := by
  unfold leadingU32
  rw [List.take_left' (Prim.u32.length_enc value)]
  exact Prim.u32.beBytes.left_inv value

theorem UnmarshalM.value?_eq_some_iff {m : UnmarshalM α} {v : α} :
    m.value? buffer = some v ↔ ∃ rest, m.run buffer = .ok v rest := by
  unfold UnmarshalM.value?
  cases m.run buffer <;> simp

theorem value?_newtype_eq_some {e : α ≃ U32} {v : α}
    (h : (Ty.newtype .u32 e).tryUnmarshal.value? buffer = some v) : e v = leadingU32 buffer := by
  obtain ⟨rest, hrun⟩ := UnmarshalM.value?_eq_some_iff.mp h
  obtain ⟨-, rfl⟩ := ((Ty.newtype .u32 e).decodes.run_eq_ok_iff _ _ _).mp hrun
  simp [Ty.enc, leadingU32_append]

theorem value?_first_eq_some {e : α ≃ U32} {e' : γ ≃ α × β} {fields : NamedFields 0 β} {v : γ}
    (h : (Ty.namedStruct e' (.field (.newtype .u32 e) fields)).tryUnmarshal.value? buffer =
      some v) : e (e' v).1 = leadingU32 buffer := by
  obtain ⟨rest, hrun⟩ := UnmarshalM.value?_eq_some_iff.mp h
  obtain ⟨-, rfl⟩ := ((Ty.decodes _).run_eq_ok_iff _ _ _).mp hrun
  simp [Ty.enc, Ty.chunks, NamedFields.chunks, leadingU32_append]

theorem value?_newtype_enc (e : α ≃ U32) (value : U32) :
    (Ty.newtype .u32 e).tryUnmarshal.value? (Prim.u32.enc value) = some (e.symm value) := by
  refine UnmarshalM.value?_eq_some_iff.mpr ⟨[], ?_⟩
  refine ((Ty.newtype .u32 e).decodes.run_eq_ok_iff _ _ _).mpr ⟨by simp, ?_⟩
  simp [Ty.enc]

end decoded

section checked

variable {H K β : Type} {e : H ≃ U32} {fields : K ≃ H × β} {rest : NamedFields 0 β}
  {valid : U32 → Bool} {tryFrom : U32 → Except TpmRcError H} {default : H}
  {holderDefault : Option K} {source : HandleSource}

theorem HandleSource.valid_iff_inRange {v : H}
    (h : source.handle tryFrom default (.newtype .u32 e) holderDefault
      (.namedStruct fields (.field (.newtype .u32 e) rest)) (fun k => (fields k).1) = some v)
    (htryFrom : ∀ value, tryFrom value = if valid value then .ok (e.symm value) else .error .value)
    (hdefault : ¬ valid (e default)) (hholder : ∀ k ∈ holderDefault, ¬ valid (e (fields k).1)) :
    valid (e v) ↔ source.InRange valid := by
  cases source with
  | tryFrom value =>
    simp only [handle, htryFrom] at h
    split_ifs at h with hvalid
    · obtain rfl := Option.some.inj h
      rw [e.apply_symm_apply]
      exact iff_of_true hvalid trivial
    · cases h
  | default =>
    obtain rfl := Option.some.inj h
    exact iff_of_false hdefault not_false
  | unmarshal buffer =>
    rw [value?_newtype_eq_some h]
    rfl
  | holderDefault =>
    obtain ⟨k, hk, rfl⟩ := Option.map_eq_some_iff.mp h
    exact iff_of_false (hholder k hk) not_false
  | holderUnmarshal buffer =>
    obtain ⟨k, hk, rfl⟩ := Option.map_eq_some_iff.mp h
    rw [value?_first_eq_some hk]
    rfl

/-- The decoder takes the integers that `tryFrom` rejects. -/
theorem HandleSource.unmarshal_isSome_iff_tryFrom
    (htryFrom : ∀ value, tryFrom value = if valid value then .ok (e.symm value) else .error .value)
    (holderTy : Ty K) (field : K → H) (value : U32) :
    ((HandleSource.handle tryFrom default (.newtype .u32 e) holderDefault holderTy field
        (.unmarshal (Prim.u32.enc value))).isSome ↔
      (HandleSource.handle tryFrom default (.newtype .u32 e) holderDefault holderTy field
        (.tryFrom value)).isSome) ↔ valid value := by
  simp only [handle, value?_newtype_enc, htryFrom, Option.isSome_some, true_iff]
  cases valid value <;> simp [Except.toOption]

end checked

theorem TpmiRhNvIndex.valid_iff_inRange {source : HandleSource} {v : TpmiRhNvIndex}
    (h : ofSource source = some v) : TpmHc.isNvIndex v.val ↔ source.InRange TpmHc.isNvIndex := by
  refine HandleSource.valid_iff_inRange h (fun _ => rfl) ?_ ?_
  · decide
  · intro k hk
    cases hk

theorem TpmiShAuthSession.valid_iff_inRange {source : HandleSource} {v : TpmiShAuthSession}
    (h : ofSource source = some v) : isAuthSession v.val ↔ source.InRange isAuthSession := by
  refine HandleSource.valid_iff_inRange h (fun _ => rfl) ?_ ?_
  · decide
  · intro k hk
    obtain rfl := Option.some.inj hk
    decide

/-- When a handle that can be obtained is valid: if it was checked, or decoded from an
integer in range. Where the integer is not in range, decoding does not fail as `tryFrom`
does. -/
theorem checkedHandle_valid_iff (source : HandleSource) (value : U32) :
    (∀ v, TpmiRhNvIndex.ofSource source = some v →
      (TpmHc.isNvIndex v.val ↔ source.InRange TpmHc.isNvIndex)) ∧
    (∀ v, TpmiShAuthSession.ofSource source = some v →
      (TpmiShAuthSession.isAuthSession v.val ↔
        source.InRange TpmiShAuthSession.isAuthSession)) ∧
    (((TpmiRhNvIndex.ofSource (.unmarshal (Prim.u32.enc value))).isSome ↔
      (TpmiRhNvIndex.ofSource (.tryFrom value)).isSome) ↔ TpmHc.isNvIndex value) ∧
    (((TpmiShAuthSession.ofSource (.unmarshal (Prim.u32.enc value))).isSome ↔
      (TpmiShAuthSession.ofSource (.tryFrom value)).isSome) ↔
        TpmiShAuthSession.isAuthSession value) :=
  ⟨fun _ h => TpmiRhNvIndex.valid_iff_inRange h,
    fun _ h => TpmiShAuthSession.valid_iff_inRange h,
    HandleSource.unmarshal_isSome_iff_tryFrom (fun _ => rfl) _ _ value,
    HandleSource.unmarshal_isSome_iff_tryFrom (fun _ => rfl) _ _ value⟩

theorem checkedHandle_valid_iff_nvIndexFirst :
    TpmHc.isNvIndex (TpmiRhNvIndex.mk TpmHc.nvIndexFirst.get).val :=
  ((checkedHandle_valid_iff (.tryFrom TpmHc.nvIndexFirst.get) 0).1 _ (by decide)).mpr trivial

/-- Zero is in no range, and is both the default and what four zero bytes decode to. -/
theorem checkedHandle_zero :
    TpmiRhNvIndex.ofSource .default = some ⟨0⟩ ∧
      TpmiRhNvIndex.ofSource (.unmarshal [0, 0, 0, 0]) = some ⟨0⟩ ∧ ¬ TpmHc.isNvIndex 0 ∧
      TpmiShAuthSession.ofSource .holderDefault = some ⟨0⟩ ∧
      TpmiShAuthSession.ofSource (.unmarshal [0, 0, 0, 0]) = some ⟨0⟩ ∧
      ¬ TpmiShAuthSession.isAuthSession 0 := by
  decide

end TpmRs
