import TpmRs.Errors.ReturnCodes

/-!
# Format 1 response codes

A format 1 code says which handle, parameter or session it is about. The type and the
position are added to a base code as masks; a session is told from a handle by the top
bit of the position field. The decoder never looks at that bit: it compares the mask
of the session type with zero, where the code was meant. So only the codes about
parameters decode to what was encoded.
-/

namespace TpmRs

/-- The type of error of a format 1 code. -/
inductive ErrorType where
  | handle
  | parameter
  | session
  deriving DecidableEq

namespace ErrorType

def parameterMask : BitVec 32 := 0x40

def sessionMask : BitVec 32 := 0x800

def handleMask : BitVec 32 := 0x0

def toMask : ErrorType → BitVec 32
  | handle => handleMask
  | parameter => parameterMask
  | session => sessionMask

def fromMask (val : BitVec 32) : Option ErrorType :=
  if val &&& 0x80 = 0 then none
  else if val &&& parameterMask ≠ 0 then some parameter
  -- the mask itself is compared, not its bit of `val`
  else if sessionMask ≠ 0 then some session
  else some handle

end ErrorType

/-- The position of the handle, parameter or session, starting from 1. -/
inductive ErrorPosition where
  | pos1 | pos2 | pos3 | pos4 | pos5 | pos6 | pos7 | pos8
  | pos9 | posA | posB | posC | posD | posE | posF
  deriving DecidableEq

namespace ErrorPosition

/-- `self as u32`. -/
def toU32 : ErrorPosition → BitVec 32
  | pos1 => 1 | pos2 => 2 | pos3 => 3 | pos4 => 4 | pos5 => 5
  | pos6 => 6 | pos7 => 7 | pos8 => 8 | pos9 => 9 | posA => 10
  | posB => 11 | posC => 12 | posD => 13 | posE => 14 | posF => 15

def toMask (self : ErrorPosition) : BitVec 32 := self.toU32 <<< 8

/-- The position with the given mask. -/
def ofField (field : BitVec 32) : Option ErrorPosition :=
  if field = 0x100 then some pos1
  else if field = 0x200 then some pos2
  else if field = 0x300 then some pos3
  else if field = 0x400 then some pos4
  else if field = 0x500 then some pos5
  else if field = 0x600 then some pos6
  else if field = 0x700 then some pos7
  else if field = 0x800 then some pos8
  else if field = 0x900 then some pos9
  else if field = 0xA00 then some posA
  else if field = 0xB00 then some posB
  else if field = 0xC00 then some posC
  else if field = 0xD00 then some posD
  else if field = 0xE00 then some posE
  else if field = 0xF00 then some posF
  else none

def fromMask (val : BitVec 32) : Option ErrorPosition :=
  if val &&& 0x80 = 0 then none else ofField (val &&& 0xF00)

end ErrorPosition

namespace ErrorType

/-- The positions of the code layout: the top bit of the position field belongs to the
type where the error is about a handle or a session. -/
def Allows (on : ErrorType) (pos : ErrorPosition) : Prop := on = parameter ∨ pos.toU32 ≤ 7

instance (on : ErrorType) (pos : ErrorPosition) : Decidable (on.Allows pos) :=
  inferInstanceAs (Decidable (_ ∨ _))

end ErrorType

namespace TpmRcError

/-- A base code with the masks of a type and a position. -/
def withMasks (base : TpmRcError) (on : ErrorType) (pos : ErrorPosition) : TpmRcError where
  get := base.get ||| on.toMask ||| pos.toMask
  ne_zero := fun h => base.ne_zero (BitVec.or_eq_zero_iff.mp (BitVec.or_eq_zero_iff.mp h).1).1

def asymmetricFor : ErrorType → ErrorPosition → TpmRcError := asymmetric.withMasks

def valueFor : ErrorType → ErrorPosition → TpmRcError := value.withMasks

def sizeFor : ErrorType → ErrorPosition → TpmRcError := size.withMasks

def selectorFor : ErrorType → ErrorPosition → TpmRcError := selector.withMasks

def isWarning (self : TpmRcError) : Bool := self.get &&& 0x980 == 0x900

/-- The type and position of a format 1 code. -/
def format1Parameter (self : TpmRcError) : Option (ErrorType × ErrorPosition) :=
  match ErrorType.fromMask self.get, ErrorPosition.fromMask self.get with
  | some on, some pos => some (on, pos)
  | _, _ => none

/-- A format 1 code to which no type or position has been added. -/
structure IsFormat1Base (base : TpmRcError) : Prop where
  flag : base.get &&& 0x80 ≠ 0
  clear : base.get &&& 0xF40 = 0

variable {base : TpmRcError}

theorem get_withMasks (base : TpmRcError) (on : ErrorType) (pos : ErrorPosition) :
    (base.withMasks on pos).get = base.get ||| on.toMask ||| pos.toMask := rfl

/-- A field that is clear in the base code holds what the masks put there. -/
theorem withMasks_and {mask : BitVec 32} (h : base.get &&& mask = 0) (on : ErrorType)
    (pos : ErrorPosition) :
    (base.withMasks on pos).get &&& mask = (on.toMask ||| pos.toMask) &&& mask := by
  rw [get_withMasks, BitVec.or_assoc, BitVec.and_or_distrib_right, h]
  exact BitVec.zero_or

theorem IsFormat1Base.and_eq_zero (h : base.IsFormat1Base) {mask : BitVec 32}
    (hmask : 0xF40 &&& mask = mask) : base.get &&& mask = 0 := by
  rw [← hmask, ← BitVec.and_assoc, h.clear]
  exact BitVec.zero_and

theorem IsFormat1Base.withMasks_flag (h : base.IsFormat1Base) (on : ErrorType)
    (pos : ErrorPosition) : (base.withMasks on pos).get &&& 0x80 ≠ 0 := by
  intro hzero
  rw [get_withMasks, BitVec.or_assoc, BitVec.and_or_distrib_right] at hzero
  exact h.flag (BitVec.or_eq_zero_iff.mp hzero).1

theorem toMask_or_toMask_and (on : ErrorType) (pos : ErrorPosition) :
    (on.toMask ||| pos.toMask) &&& ErrorType.parameterMask = 0 ↔ on ≠ .parameter := by
  cases on <;> cases pos <;> decide

/-- Every type other than the parameter decodes to the session. -/
theorem fromMask_withMasks (h : base.IsFormat1Base) (on : ErrorType) (pos : ErrorPosition) :
    ErrorType.fromMask (base.withMasks on pos).get =
      some (if on = .parameter then .parameter else .session) := by
  unfold ErrorType.fromMask
  rw [if_neg (h.withMasks_flag on pos), withMasks_and (h.and_eq_zero (by decide))]
  by_cases hon : on = .parameter
  · rw [if_pos (mt (toMask_or_toMask_and on pos).mp (not_not.mpr hon)), if_pos hon]
  · rw [if_neg (not_not.mpr ((toMask_or_toMask_and on pos).mpr hon)),
      if_pos (by decide), if_neg hon]

/-- The position decodes from both masks, as they share a bit. -/
theorem positionFromMask_withMasks (h : base.IsFormat1Base) (on : ErrorType)
    (pos : ErrorPosition) :
    ErrorPosition.fromMask (base.withMasks on pos).get =
      ErrorPosition.ofField ((on.toMask ||| pos.toMask) &&& 0xF00) := by
  unfold ErrorPosition.fromMask
  rw [if_neg (h.withMasks_flag on pos), withMasks_and (h.and_eq_zero (by decide))]

theorem format1Parameter_withMasks (h : base.IsFormat1Base) (on : ErrorType)
    (pos : ErrorPosition) :
    (base.withMasks on pos).format1Parameter =
      (ErrorPosition.ofField ((on.toMask ||| pos.toMask) &&& 0xF00)).map fun pos =>
        (if on = .parameter then .parameter else .session, pos) := by
  unfold format1Parameter
  rw [fromMask_withMasks h, positionFromMask_withMasks h]
  cases ErrorPosition.ofField ((on.toMask ||| pos.toMask) &&& 0xF00) <;> rfl

theorem ofField_parameter (pos : ErrorPosition) :
    ErrorPosition.ofField ((ErrorType.parameter.toMask ||| pos.toMask) &&& 0xF00) = some pos := by
  cases pos <;> decide

/-- The type bit of a session is read as part of its position. -/
theorem ofField_session {pos : ErrorPosition} (h : pos.toU32 ≤ 7) :
    ErrorPosition.ofField ((ErrorType.session.toMask ||| pos.toMask) &&& 0xF00) ≠ some pos := by
  cases pos <;> revert h <;> decide

/-- What is encoded is what is decoded, for a parameter and for no other type. -/
theorem format1Parameter_eq_iff (h : base.IsFormat1Base) {on : ErrorType} {pos : ErrorPosition}
    (hallows : on.Allows pos) :
    (base.withMasks on pos).format1Parameter = some (on, pos) ↔ on = .parameter := by
  rw [format1Parameter_withMasks h]
  cases on with
  | parameter =>
    rw [ofField_parameter]
    simp
  | handle => simp
  | session => simpa using ofField_session (hallows.resolve_left (by decide))

/-- The type and position that the code layout gives to the masks in a code. -/
def layoutParameter (masks : BitVec 32) : Option (ErrorType × ErrorPosition) :=
  if masks &&& 0x40 ≠ 0 then (ErrorPosition.ofField (masks &&& 0xF00)).map (.parameter, ·)
  else (ErrorPosition.ofField (masks &&& 0x700)).map
    (if masks &&& 0x800 ≠ 0 then .session else .handle, ·)

theorem layoutParameter_masks {on : ErrorType} {pos : ErrorPosition} (h : on.Allows pos) :
    layoutParameter ((on.toMask ||| pos.toMask) &&& 0xF40) = some (on, pos) := by
  revert h
  cases on <;> cases pos <;> decide

theorem withMasks_injective (hbase : base.IsFormat1Base) {on on' : ErrorType}
    {pos pos' : ErrorPosition} (h : on.Allows pos) (h' : on'.Allows pos')
    (heq : base.withMasks on pos = base.withMasks on' pos') : on = on' ∧ pos = pos' := by
  have hfields := congrArg (fun code => code.get &&& 0xF40) heq
  simp only [withMasks_and hbase.clear] at hfields
  have hlayout := layoutParameter_masks h
  rw [hfields, layoutParameter_masks h'] at hlayout
  simpa [eq_comm] using hlayout

theorem format1Parameter_of_flag_clear {code : TpmRcError} (h : code.get &&& 0x80 = 0) :
    code.format1Parameter = none := by
  unfold format1Parameter ErrorType.fromMask
  rw [if_pos h]

theorem flag_clear_of_isWarning {code : TpmRcError} (h : code.isWarning) :
    code.get &&& 0x80 = 0 := by
  have hmask : code.get &&& 0x980 = 0x900 := by simpa [isWarning] using h
  have hand : code.get &&& 0x980 &&& 0x80 = code.get &&& 0x80 := BitVec.and_assoc ..
  rw [← hand, hmask]
  decide

theorem isFormat1Base_of_mem (h : base ∈ [asymmetric, value, size, selector]) :
    base.IsFormat1Base := by
  simp only [List.mem_cons, List.not_mem_nil, or_false] at h
  rcases h with rfl | rfl | rfl | rfl <;> exact ⟨by decide, by decide⟩

/-- Which codes decode to what was encoded: those about parameters. Nonetheless the codes
are all different, and codes of another format decode to nothing. -/
theorem format1Parameter_roundTrip (hbase : base.IsFormat1Base) {on : ErrorType}
    {pos : ErrorPosition} (h : on.Allows pos) :
    ((base.withMasks on pos).format1Parameter = some (on, pos) ↔ on = .parameter) ∧
      (∀ on' pos', on'.Allows pos' → base.withMasks on pos = base.withMasks on' pos' →
        on = on' ∧ pos = pos') ∧
      (∀ code : TpmRcError, code.get &&& 0x80 = 0 ∨ code.isWarning →
        code.format1Parameter = none) ∧
      ∀ code ∈ [asymmetric, value, size, selector], code.IsFormat1Base := by
  refine ⟨format1Parameter_eq_iff hbase h, ?_, ?_, fun code hmem => isFormat1Base_of_mem hmem⟩
  · intro on' pos' h' heq
    exact withMasks_injective hbase h h' heq
  · rintro code (hclear | hwarning)
    · exact format1Parameter_of_flag_clear hclear
    · exact format1Parameter_of_flag_clear (flag_clear_of_isWarning hwarning)

theorem format1Parameter_roundTrip_value :
    (valueFor .parameter .pos2).format1Parameter = some (.parameter, .pos2) :=
  (format1Parameter_roundTrip (isFormat1Base_of_mem (by decide)) (by decide)).1.mpr rfl

/-- The first handle decodes to the first session, and the first session to the ninth. -/
theorem valueFor_pos1_decoded :
    value.IsFormat1Base ∧ ErrorType.handle.Allows .pos1 ∧ ErrorType.session.Allows .pos1 ∧
      (valueFor .handle .pos1).format1Parameter = some (.session, .pos1) ∧
      (valueFor .session .pos1).format1Parameter = some (.session, .pos9) ∧
      ¬ ∀ on pos, on.Allows pos → (value.withMasks on pos).format1Parameter = some (on, pos) := by
  refine ⟨⟨by decide, by decide⟩, by decide, by decide, by decide, by decide, ?_⟩
  intro h
  exact absurd (h .handle .pos1 (by decide)) (by decide)

end TpmRcError
end TpmRs
