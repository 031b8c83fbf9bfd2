import TpmRs.Base.Structures
import TpmRs.Library.BitField

/-!
# Attribute words

Attributes are packed into a `u32`: some are multi-bit fields, which three functions
read and write by mask and shift, the others are flags, which the `bitflags` crate
reads and writes. Each of these operations acts on its own part of the word, so that
after any sequence of them every part has what was last put there.
-/

namespace TpmRs

open Library

/-- An attribute field built from a value. The shift is less than the width of the word. -/
def newAttributeField (value mask shift : U32) : U32 := (value <<< shift) &&& mask

def getAttributeField (value mask shift : U32) : U32 := (value &&& mask) >>> shift

def setAttributeField (value fieldValue mask shift : U32) : U32 :=
  (value &&& ~~~mask) ||| newAttributeField fieldValue mask shift

theorem newAttributeField_eq (x mask shift : U32) :
    newAttributeField x mask shift = setAttributeField 0 x mask shift := by
  simp [setAttributeField]

section fields

variable (f : BitField 32)

/-- The shift of a field, as the functions take it. -/
def fieldShift : U32 := BitVec.ofNat 32 f.shift

theorem toNat_fieldShift : (fieldShift f).toNat = f.shift := by
  have hfits := f.fits
  unfold fieldShift
  rw [BitVec.toNat_ofNat, Nat.mod_eq_of_lt (by omega)]

theorem getLsbD_newAttributeField (x : U32) {i : ℕ} (hi : i < 32) :
    (newAttributeField x f.mask (fieldShift f)).getLsbD i =
      if f.Covers i then x.getLsbD (i - f.shift) else false := by
  unfold newAttributeField
  rw [BitVec.getLsbD_and, f.getLsbD_mask, BitVec.getLsbD_shiftLeft', toNat_fieldShift]
  by_cases h : f.Covers i
  · simp [h, hi, Nat.not_lt.mpr h.1]
  · simp [h]

theorem setAttributeField_eq (v x : U32) :
    setAttributeField v x f.mask (fieldShift f) = f.set v (x.setWidth f.width) := by
  apply BitVec.eq_of_getLsbD_eq
  intro i hi
  unfold setAttributeField
  rw [f.getLsbD_set _ _ hi, BitVec.getLsbD_or, getLsbD_newAttributeField f x hi,
    BitVec.getLsbD_and, BitVec.getLsbD_not, f.getLsbD_mask]
  by_cases h : f.Covers i
  · have hwidth : i - f.shift < f.width := by
      have hle := h.1
      have hlt := h.2
      omega
    simp [h, hwidth]
  · simp [h, hi]

theorem getAttributeField_eq (v : U32) :
    getAttributeField v f.mask (fieldShift f) = (f.get v).setWidth 32 := by
  apply BitVec.eq_of_getLsbD_eq
  intro i hi
  unfold getAttributeField
  rw [BitVec.ushiftRight_eq', toNat_fieldShift, BitVec.getLsbD_ushiftRight, BitVec.getLsbD_and,
    f.getLsbD_mask, BitVec.getLsbD_setWidth]
  by_cases h : i < f.width
  · simp [f.covers_shift_add h, f.getLsbD_get v h, hi]
  · have hcovers : ¬ f.Covers (f.shift + i) := fun hc => h (Nat.lt_of_add_lt_add_left hc.2)
    rw [BitVec.getLsbD_of_ge _ _ (Nat.not_lt.mp h)]
    simp [hcovers]

/-- The laws of reading and writing a field of an attribute word. -/
structure FieldLaws (v : U32) : Prop where
  get_set : ∀ x, (getAttributeField (setAttributeField v x f.mask (fieldShift f)) f.mask
    (fieldShift f)).toNat = x.toNat % 2 ^ f.width
  set_outside : ∀ x, setAttributeField v x f.mask (fieldShift f) &&& ~~~f.mask = v &&& ~~~f.mask
  set_get : setAttributeField v (getAttributeField v f.mask (fieldShift f)) f.mask
    (fieldShift f) = v
  set_set : ∀ x y, setAttributeField (setAttributeField v x f.mask (fieldShift f)) y f.mask
    (fieldShift f) = setAttributeField v y f.mask (fieldShift f)
  set_comm : ∀ g : BitField 32, f.mask &&& g.mask = 0 → ∀ x y,
    setAttributeField (setAttributeField v x f.mask (fieldShift f)) y g.mask (fieldShift g) =
      setAttributeField (setAttributeField v y g.mask (fieldShift g)) x f.mask (fieldShift f)

theorem fieldLaws (v : U32) : FieldLaws f v where
  get_set x := by
    have hfits := f.fits
    rw [getAttributeField_eq, setAttributeField_eq, f.get_set, BitVec.toNat_setWidth_of_le,
      BitVec.toNat_setWidth]
    omega
  set_outside x := by
    apply BitVec.eq_of_getLsbD_eq
    intro i hi
    rw [setAttributeField_eq, BitVec.getLsbD_and, BitVec.getLsbD_and, BitVec.getLsbD_not,
      f.getLsbD_mask, f.getLsbD_set _ _ hi]
    by_cases h : f.Covers i <;> simp [h]
  set_get := by
    have hfits := f.fits
    rw [setAttributeField_eq, getAttributeField_eq, BitVec.setWidth_setWidth_of_le _ (by omega),
      BitVec.setWidth_eq, f.set_get]
  set_set x y := by
    simp only [setAttributeField_eq, f.set_set]
  set_comm g h x y := by
    simp only [setAttributeField_eq]
    exact ((f.disjoint_of_mask_and_eq_zero g h).apart v _ _).symm

end fields

/-- The functions that the `bitflags` crate gives to a type of flags over `u32`, on the
bits of the values. -/
structure Bitflags where
  insert : U32 → U32 → U32
  remove : U32 → U32 → U32
  toggle : U32 → U32 → U32
  set : U32 → U32 → Bool → U32
  contains : U32 → U32 → Bool

/-- What the crate documents for types whose bits are all known. -/
structure Bitflags.Documented (b : Bitflags) : Prop where
  insert_eq : ∀ bits other, b.insert bits other = bits ||| other
  remove_eq : ∀ bits other, b.remove bits other = bits &&& ~~~other
  toggle_eq : ∀ bits other, b.toggle bits other = bits ^^^ other
  set_eq : ∀ bits other value,
    b.set bits other value = if value then b.insert bits other else b.remove bits other
  contains_iff : ∀ bits other, b.contains bits other ↔ bits &&& other = other

/-- An update of a single flag. -/
inductive FlagUpdate where
  | insert
  | remove
  | toggle
  | set (value : Bool)

namespace FlagUpdate

def apply (b : Bitflags) (bits flag : U32) : FlagUpdate → U32
  | insert => b.insert bits flag
  | remove => b.remove bits flag
  | toggle => b.toggle bits flag
  | set value => b.set bits flag value

/-- What the update does to the flag. -/
def act : FlagUpdate → Bool → Bool
  | insert, _ => true
  | remove, _ => false
  | toggle, flag => !flag
  | set value, _ => value

end FlagUpdate

section flags

variable {b : Bitflags} (h : b.Documented)
include h

theorem FlagUpdate.apply_eq (update : FlagUpdate) (bits : U32) (i : Fin 32) :
    update.apply b bits (BitVec.twoPow 32 i) = (bit i).modify update.act bits := by
  cases update with
  | insert => exact (h.insert_eq ..).trans (or_twoPow i bits)
  | remove => exact (h.remove_eq ..).trans (and_not_twoPow i bits)
  | toggle => exact (h.toggle_eq ..).trans (xor_twoPow i bits)
  | set value =>
    unfold FlagUpdate.apply
    cases value with
    | true => exact (h.set_eq ..).trans ((h.insert_eq ..).trans (or_twoPow i bits))
    | false => exact (h.set_eq ..).trans ((h.remove_eq ..).trans (and_not_twoPow i bits))

theorem Bitflags.Documented.contains_eq (bits : U32) (i : Fin 32) :
    b.contains bits (BitVec.twoPow 32 i) = (bit i).get bits := by
  rw [Bool.eq_iff_iff, h.contains_iff, and_twoPow_eq_iff]

end flags

/-- A type of attributes: a word that is laid out in fields and flags, and the parts that its
updates write. -/
structure Attributes (α υ ι φ : Type) where
  layout : WordLayout 32 ι φ
  val : α → U32
  apply : Bitflags → α → υ → α
  toUpdate : υ → layout.Update
  val_apply : ∀ {b : Bitflags}, b.Documented → ∀ self u,
    val (apply b self u) = (toUpdate u).apply (val self)

namespace Attributes

variable {α υ ι φ : Type} (attributes : Attributes α υ ι φ) {b : Bitflags} (h : b.Documented)
  (self : α) (us : List υ)
include h

/-- After a run every part of the word has what was last put there. -/
theorem field_foldl [DecidableEq ι] {β : Type} (i : ι)
    (decode : BitVec (attributes.layout.field i).width → β) :
    decode ((attributes.layout.field i).lens.get
        (attributes.val (us.foldl (attributes.apply b) self))) =
      (us.filterMap fun u => ((attributes.toUpdate u).value? i).map decode).getLastD
        (decode ((attributes.layout.field i).lens.get (attributes.val self))) := by
  refine get_foldl_eq_getLastD
    (fun self => decode ((attributes.layout.field i).lens.get (attributes.val self))) ?_ self us
  intro self u
  rw [attributes.val_apply h, WordLayout.get_field_apply, Option.getD_map]

theorem contains_foldl [DecidableEq φ] (flag : φ) :
    b.contains (attributes.val (us.foldl (attributes.apply b) self))
        (BitVec.twoPow 32 (attributes.layout.bitOf flag)) =
      us.foldl (fun value u => (attributes.toUpdate u).act flag value)
        (b.contains (attributes.val self) (BitVec.twoPow 32 (attributes.layout.bitOf flag))) := by
  simp only [h.contains_eq]
  refine (List.foldl_hom (fun self =>
    (bit (attributes.layout.bitOf flag)).get (attributes.val self)) ?_).symm
  intro self u
  rw [attributes.val_apply h, WordLayout.get_bit_apply]

theorem unassigned_foldl {i : Fin 32} (hi : attributes.layout.Unassigned i) :
    (attributes.val (us.foldl (attributes.apply b) self)).getLsbD i =
      (attributes.val self).getLsbD i := by
  rw [← bit_get, ← bit_get]
  refine get_foldl_eq_get (fun self => (bit i).get (attributes.val self)) ?_ self us
  intro self u
  rw [attributes.val_apply h, WordLayout.get_unassigned_apply hi]

end Attributes

/-- The attributes of a command (`TPMA_CC`). -/
structure TpmaCc where
  val : U32
  deriving DecidableEq

namespace TpmaCc

inductive Flag where
  | nv
  | extensive
  | flushed
  | rHandle
  | v
  deriving DecidableEq

def Flag.bit : Flag → Fin 32
  | nv => 22
  | extensive => 23
  | flushed => 24
  | rHandle => 28
  | v => 29

def Flag.bits (flag : Flag) : U32 := 1#32 <<< flag.bit.val

def commandIndexShift : U32 := 0

def commandIndexMask : U32 := 0xFFFF

def cHandlesShift : U32 := 25

def cHandlesMask : U32 := (0x7 : U32) <<< cHandlesShift

/-- The attributes with the command index set to the value. -/
def commandIndex (index : U16) : TpmaCc :=
  ⟨newAttributeField (index.setWidth 32) commandIndexMask commandIndexShift⟩

/-- The attributes with the command handles set to the value. -/
def cHandles (count : U32) : TpmaCc := ⟨newAttributeField count cHandlesMask cHandlesShift⟩

def getCommandIndex (self : TpmaCc) : U16 :=
  (getAttributeField self.val commandIndexMask commandIndexShift).setWidth 16

def getCHandles (self : TpmaCc) : U32 := getAttributeField self.val cHandlesMask cHandlesShift

def setCommandIndex (self : TpmaCc) (index : U16) : TpmaCc :=
  ⟨setAttributeField self.val (index.setWidth 32) commandIndexMask commandIndexShift⟩

def setCHandles (self : TpmaCc) (count : U32) : TpmaCc :=
  ⟨setAttributeField self.val count cHandlesMask cHandlesShift⟩

def contains (b : Bitflags) (self : TpmaCc) (flag : Flag) : Bool := b.contains self.val flag.bits

/-- An update of the attributes. -/
inductive Update where
  | setCommandIndex (index : U16)
  | setCHandles (count : U32)
  | updateFlag (flag : Flag) (update : FlagUpdate)

namespace Update

def apply (b : Bitflags) (self : TpmaCc) : Update → TpmaCc
  | setCommandIndex index => self.setCommandIndex index
  | setCHandles count => self.setCHandles count
  | updateFlag flag update => ⟨update.apply b self.val flag.bits⟩

/-- The command index that the update sets. -/
def index? : Update → Option U16
  | setCommandIndex index => some index
  | _ => none

/-- The number of handles that the update sets, cut to three bits. -/
def count? : Update → Option U32
  | setCHandles count => some (count % 8)
  | _ => none

/-- What the update does to the flag. -/
def act (flag : Flag) (value : Bool) : Update → Bool
  | updateFlag other update => if other = flag then update.act value else value
  | _ => value

end Update

def run (b : Bitflags) (self : TpmaCc) (us : List Update) : TpmaCc := us.foldl (Update.apply b) self

abbrev commandIndexField : BitField 32 := ⟨0, 16, by decide⟩

abbrev cHandlesField : BitField 32 := ⟨25, 3, by decide⟩

theorem commandIndex_eq (index : U16) : commandIndex index = setCommandIndex ⟨0⟩ index :=
  congrArg mk (newAttributeField_eq ..)

theorem cHandles_eq (count : U32) : cHandles count = setCHandles ⟨0⟩ count :=
  congrArg mk (newAttributeField_eq ..)

theorem commandIndex_layout :
    commandIndexMask = commandIndexField.mask ∧
      commandIndexShift = fieldShift commandIndexField := by
  decide

theorem cHandles_layout :
    cHandlesMask = cHandlesField.mask ∧ cHandlesShift = fieldShift cHandlesField := by
  decide

theorem getCommandIndex_eq (self : TpmaCc) :
    self.getCommandIndex = commandIndexField.lens.get self.val := by
  unfold getCommandIndex
  rw [commandIndex_layout.1, commandIndex_layout.2, getAttributeField_eq,
    BitVec.setWidth_setWidth_of_le _ (by decide)]
  exact BitVec.setWidth_eq _

theorem setCommandIndex_eq (self : TpmaCc) (index : U16) :
    (self.setCommandIndex index).val = commandIndexField.lens.set self.val index := by
  unfold setCommandIndex
  rw [commandIndex_layout.1, commandIndex_layout.2, setAttributeField_eq,
    BitVec.setWidth_setWidth_of_le _ (by decide), BitVec.setWidth_eq]
  rfl

theorem getCHandles_eq (self : TpmaCc) :
    self.getCHandles = (cHandlesField.lens.get self.val).setWidth 32 := by
  unfold getCHandles
  rw [cHandles_layout.1, cHandles_layout.2, getAttributeField_eq]
  rfl

theorem setCHandles_eq (self : TpmaCc) (count : U32) :
    (self.setCHandles count).val = cHandlesField.lens.set self.val (count.setWidth 3) := by
  unfold setCHandles
  rw [cHandles_layout.1, cHandles_layout.2, setAttributeField_eq]
  rfl

/-- A bit that belongs to no field and to no flag. -/
def Unassigned (i : Fin 32) : Prop :=
  ¬ commandIndexField.Covers i ∧ ¬ cHandlesField.Covers i ∧ ∀ flag : Flag, flag.bit ≠ i

theorem Flag.bit_injective : Function.Injective Flag.bit := by
  intro flag other h
  cases flag <;> cases other <;> first | rfl | cases h

inductive Field where
  | commandIndex
  | cHandles
  deriving DecidableEq

/-- The parts of the word, no two of which share a bit. -/
def layout : WordLayout 32 Field Flag where
  field
    | .commandIndex => commandIndexField
    | .cHandles => cHandlesField
  bitOf := Flag.bit
  field_disjoint i j hne := by
    apply BitField.disjoint_of_mask_and_eq_zero
    cases i <;> cases j <;> first | decide | exact absurd rfl hne
  not_covers_bitOf i flag := by cases i <;> cases flag <;> decide
  bitOf_injective := Flag.bit_injective

/-- The part that the update writes. -/
def Update.toUpdate : Update → layout.Update
  | setCommandIndex index => .setField .commandIndex index
  | setCHandles count => .setField .cHandles (count.setWidth 3)
  | updateFlag flag update => .modifyBit flag update.act

def attributes : Attributes TpmaCc Update Field Flag where
  layout := layout
  val := val
  apply := Update.apply
  toUpdate := Update.toUpdate
  val_apply h self u := by
    cases u with
    | setCommandIndex index => exact setCommandIndex_eq self index
    | setCHandles count => exact setCHandles_eq self count
    | updateFlag flag update => exact update.apply_eq h self.val flag.bit

theorem Update.index?_eq :
    Update.index? = fun u => (u.toUpdate.value? Field.commandIndex).map id := by
  funext u
  cases u <;> rfl

theorem Update.count?_eq :
    Update.count? = fun u => (u.toUpdate.value? .cHandles).map (BitVec.setWidth 32) := by
  funext u
  cases u with
  | setCommandIndex index => rfl
  | setCHandles count =>
    have hcut := setWidth_setWidth_eq_umod (k := 3) (by decide) count
    exact congrArg some hcut.symm
  | updateFlag flag update => rfl

theorem Update.act_eq (flag : Flag) (value : Bool) (u : Update) :
    u.toUpdate.act flag value = u.act flag value := by
  cases u <;> rfl

section runs

variable {b : Bitflags} (h : b.Documented) (self : TpmaCc) (us : List Update)
include h

theorem getCommandIndex_run :
    (self.run b us).getCommandIndex =
      (us.filterMap Update.index?).getLastD self.getCommandIndex := by
  rw [getCommandIndex_eq, getCommandIndex_eq, Update.index?_eq]
  exact attributes.field_foldl h self us .commandIndex id

theorem getCHandles_run :
    (self.run b us).getCHandles = (us.filterMap Update.count?).getLastD self.getCHandles := by
  rw [getCHandles_eq, getCHandles_eq, Update.count?_eq]
  exact attributes.field_foldl h self us .cHandles (BitVec.setWidth 32)

theorem contains_run (flag : Flag) :
    (self.run b us).contains b flag =
      us.foldl (fun value u => u.act flag value) (self.contains b flag) := by
  simp only [← Update.act_eq]
  exact attributes.contains_foldl h self us flag

theorem unassigned_run {i : Fin 32} (hi : Unassigned i) :
    (self.run b us).val.getLsbD i = self.val.getLsbD i := by
  have hunassigned : layout.Unassigned i := by
    refine ⟨?_, hi.2.2⟩
    rintro (_ | _)
    · exact hi.1
    · exact hi.2.1
  exact attributes.unassigned_foldl h self us hunassigned

end runs

end TpmaCc

/-- The type of an NV index (`TPM_NT`). -/
structure TpmNt where
  val : U8
  deriving DecidableEq

/-- The attributes of an NV index (`TPMA_NV`). -/
structure TpmaNv where
  val : U32
  deriving DecidableEq

namespace TpmaNv

inductive Flag where
  | ppWrite
  | ownerWrite
  | authWrite
  | policyWrite
  | policyDelete
  | writeLocked
  | writeAll
  | writeDefine
  | writeStClear
  | globalLock
  | ppRead
  | ownerRead
  | authRead
  | policyRead
  | noDa
  | orderly
  | clearStClear
  | readLocked
  | written
  | platformCreate
  | readStClear
  deriving DecidableEq

def Flag.bit : Flag → Fin 32
  | ppWrite => 0
  | ownerWrite => 1
  | authWrite => 2
  | policyWrite => 3
  | policyDelete => 10
  | writeLocked => 11
  | writeAll => 12
  | writeDefine => 13
  | writeStClear => 14
  | globalLock => 15
  | ppRead => 16
  | ownerRead => 17
  | authRead => 18
  | policyRead => 19
  | noDa => 25
  | orderly => 26
  | clearStClear => 27
  | readLocked => 28
  | written => 29
  | platformCreate => 30
  | readStClear => 31

def Flag.bits (flag : Flag) : U32 := 1#32 <<< flag.bit.val

def ntMask : U32 := 0xF0

def ntShift : U32 := 4

/-- The attributes for an index type, with all other fields clear. -/
def fromIndexType (indexType : TpmNt) : TpmaNv :=
  ⟨newAttributeField (indexType.val.setWidth 32) ntMask ntShift⟩

def getIndexType (self : TpmaNv) : TpmNt :=
  ⟨(getAttributeField self.val ntMask ntShift).setWidth 8⟩

def setType (self : TpmaNv) (indexType : TpmNt) : TpmaNv :=
  ⟨setAttributeField self.val (indexType.val.setWidth 32) ntMask ntShift⟩

def contains (b : Bitflags) (self : TpmaNv) (flag : Flag) : Bool := b.contains self.val flag.bits

/-- An update of the attributes. -/
inductive Update where
  | setType (indexType : TpmNt)
  | updateFlag (flag : Flag) (update : FlagUpdate)

namespace Update

def apply (b : Bitflags) (self : TpmaNv) : Update → TpmaNv
  | setType indexType => self.setType indexType
  | updateFlag flag update => ⟨update.apply b self.val flag.bits⟩

/-- The index type that the update sets, cut to four bits. -/
def indexType? : Update → Option TpmNt
  | setType indexType => some ⟨indexType.val % 16⟩
  | _ => none

/-- What the update does to the flag. -/
def act (flag : Flag) (value : Bool) : Update → Bool
  | updateFlag other update => if other = flag then update.act value else value
  | _ => value

end Update

def run (b : Bitflags) (self : TpmaNv) (us : List Update) : TpmaNv := us.foldl (Update.apply b) self

abbrev ntField : BitField 32 := ⟨4, 4, by decide⟩

theorem fromIndexType_eq (indexType : TpmNt) : fromIndexType indexType = setType ⟨0⟩ indexType :=
  congrArg mk (newAttributeField_eq ..)

theorem nt_layout : ntMask = ntField.mask ∧ ntShift = fieldShift ntField := by decide

theorem getIndexType_eq (self : TpmaNv) :
    self.getIndexType = ⟨(ntField.lens.get self.val).setWidth 8⟩ := by
  unfold getIndexType
  rw [nt_layout.1, nt_layout.2, getAttributeField_eq, BitVec.setWidth_setWidth_of_le _ (by decide)]
  rfl

theorem setType_eq (self : TpmaNv) (indexType : TpmNt) :
    (self.setType indexType).val =
      ntField.lens.set self.val (indexType.val.setWidth 4) := by
  unfold setType
  rw [nt_layout.1, nt_layout.2, setAttributeField_eq, BitVec.setWidth_setWidth_of_le _ (by decide)]
  rfl

/-- A bit that does not belong to the type field and to no flag. -/
def Unassigned (i : Fin 32) : Prop := ¬ ntField.Covers i ∧ ∀ flag : Flag, flag.bit ≠ i

theorem Flag.bit_injective : Function.Injective Flag.bit := by
  intro flag other h
  cases flag <;> cases other <;> first | rfl | cases h

/-- The parts of the word, no two of which share a bit. -/
def layout : WordLayout 32 Unit Flag where
  field _ := ntField
  bitOf := Flag.bit
  field_disjoint i j hne := absurd rfl hne
  not_covers_bitOf _ flag := by cases flag <;> decide
  bitOf_injective := Flag.bit_injective

/-- The part that the update writes. -/
def Update.toUpdate : Update → layout.Update
  | setType indexType => .setField () (indexType.val.setWidth 4)
  | updateFlag flag update => .modifyBit flag update.act

def attributes : Attributes TpmaNv Update Unit Flag where
  layout := layout
  val := val
  apply := Update.apply
  toUpdate := Update.toUpdate
  val_apply h self u := by
    cases u with
    | setType indexType => exact setType_eq self indexType
    | updateFlag flag update => exact update.apply_eq h self.val flag.bit

theorem Update.indexType?_eq :
    Update.indexType? = fun u => (u.toUpdate.value? ()).map fun a => TpmNt.mk (a.setWidth 8) := by
  funext u
  cases u with
  | setType indexType =>
    have hcut := setWidth_setWidth_eq_umod (k := 4) (by decide) indexType.val
    exact congrArg (some ∘ TpmNt.mk) hcut.symm
  | updateFlag flag update => rfl

theorem Update.act_eq (flag : Flag) (value : Bool) (u : Update) :
    u.toUpdate.act flag value = u.act flag value := by
  cases u <;> rfl

section runs

variable {b : Bitflags} (h : b.Documented) (self : TpmaNv) (us : List Update)
include h

theorem getIndexType_run :
    (self.run b us).getIndexType = (us.filterMap Update.indexType?).getLastD self.getIndexType := by
  rw [getIndexType_eq, getIndexType_eq, Update.indexType?_eq]
  exact attributes.field_foldl h self us () fun a => TpmNt.mk (a.setWidth 8)

theorem contains_run (flag : Flag) :
    (self.run b us).contains b flag =
      us.foldl (fun value u => u.act flag value) (self.contains b flag) := by
  simp only [← Update.act_eq]
  exact attributes.contains_foldl h self us flag

theorem unassigned_run {i : Fin 32} (hi : Unassigned i) :
    (self.run b us).val.getLsbD i = self.val.getLsbD i :=
  attributes.unassigned_foldl h self us ⟨fun _ => hi.1, hi.2⟩

end runs

end TpmaNv

/-- The operations on the bits themselves. -/
def Bitflags.word : Bitflags where
  insert bits other := bits ||| other
  remove bits other := bits &&& ~~~other
  toggle bits other := bits ^^^ other
  set bits other value := if value then bits ||| other else bits &&& ~~~other
  contains bits other := bits &&& other == other

theorem Bitflags.documented_word : Bitflags.word.Documented where
  insert_eq _ _ := rfl
  remove_eq _ _ := rfl
  toggle_eq _ _ := rfl
  set_eq _ _ _ := rfl
  contains_iff _ _ := beq_iff_eq

/-- Fields of attribute words obey the laws of reading and writing, and over any run of
updates each getter returns what was last set, cut to the width of its field. -/
theorem attributeFields_lawful {b : Bitflags} (h : b.Documented) :
    (∀ (f : BitField 32) (v : U32), FieldLaws f v) ∧
      (∀ (self : TpmaCc) (us : List TpmaCc.Update),
        (self.run b us).getCommandIndex =
          (us.filterMap (·.index?)).getLastD self.getCommandIndex ∧
        (self.run b us).getCHandles = (us.filterMap (·.count?)).getLastD self.getCHandles ∧
        (∀ flag, (self.run b us).contains b flag =
          us.foldl (fun value u => u.act flag value) (self.contains b flag)) ∧
        ∀ i, TpmaCc.Unassigned i → (self.run b us).val.getLsbD i = self.val.getLsbD i) ∧
      ∀ (self : TpmaNv) (us : List TpmaNv.Update),
        (self.run b us).getIndexType =
          (us.filterMap (·.indexType?)).getLastD self.getIndexType ∧
        (∀ flag, (self.run b us).contains b flag =
          us.foldl (fun value u => u.act flag value) (self.contains b flag)) ∧
        ∀ i, TpmaNv.Unassigned i → (self.run b us).val.getLsbD i = self.val.getLsbD i := by
  refine ⟨fieldLaws, ?_, ?_⟩
  · intro self us
    exact ⟨TpmaCc.getCommandIndex_run h self us, TpmaCc.getCHandles_run h self us,
      fun flag => TpmaCc.contains_run h self us flag,
      fun i hi => TpmaCc.unassigned_run h self us hi⟩
  · intro self us
    exact ⟨TpmaNv.getIndexType_run h self us, fun flag => TpmaNv.contains_run h self us flag,
      fun i hi => TpmaNv.unassigned_run h self us hi⟩

theorem attributeFields_lawful_word :
    ((TpmaCc.mk 0x01400008).run Bitflags.word
      [.setCommandIndex 0xA0, .setCHandles 0xFFFFFFFF]).getCHandles = 7 :=
  ((attributeFields_lawful Bitflags.documented_word).2.1 _ _).2.1.trans (by decide)

end TpmRs
