import Mathlib.Tactic

/-!
# Packed words

A lens reads and overwrites one part of a state. Two lenses are apart when their
writes commute; then neither sees the writes of the other. A contiguous group of bits
of a word and a single bit of it are lenses, and they are apart when they share no bit.
A layout divides a word into such parts, and a write to one of them leaves the others.
-/

namespace TpmRs.Library

structure Lens (σ α : Type) where
  get : σ → α
  set : σ → α → σ
  get_set : ∀ s a, get (set s a) = a
  set_get : ∀ s, set s (get s) = s
  set_set : ∀ s a b, set (set s a) b = set s b

namespace Lens

variable {σ α β : Type} {l : Lens σ α} {m : Lens σ β}

/-- Writes through the two lenses commute. -/
def Apart (l : Lens σ α) (m : Lens σ β) : Prop :=
  ∀ s a b, l.set (m.set s b) a = m.set (l.set s a) b

theorem Apart.symm (h : l.Apart m) : m.Apart l := fun s b a => (h s a b).symm

theorem Apart.get_set (h : l.Apart m) (s : σ) (b : β) : l.get (m.set s b) = l.get s := by
  have hset := h s (l.get s) b
  rw [l.set_get] at hset
  rw [← hset, l.get_set]

/-- Change what the lens reads. -/
def modify (l : Lens σ α) (f : α → α) (s : σ) : σ := l.set s (f (l.get s))

@[simp] theorem get_modify (l : Lens σ α) (f : α → α) (s : σ) :
    l.get (l.modify f s) = f (l.get s) := l.get_set ..

theorem Apart.get_modify (h : l.Apart m) (f : β → β) (s : σ) :
    l.get (m.modify f s) = l.get s := h.get_set ..

/-- Read through an equivalence of the values. -/
def map (l : Lens σ α) (e : α ≃ β) : Lens σ β where
  get s := e (l.get s)
  set s b := l.set s (e.symm b)
  get_set s b := by simp [l.get_set]
  set_get s := by simp [l.set_get]
  set_set s a b := by simp [l.set_set]

theorem Apart.map_left {γ : Type} (h : l.Apart m) (e : α ≃ γ) : (l.map e).Apart m :=
  fun s c b => h s (e.symm c) b

theorem Apart.map_right {γ : Type} (h : l.Apart m) (e : β ≃ γ) : l.Apart (m.map e) :=
  (h.symm.map_left e).symm

end Lens

/-- Where each step overwrites or keeps what is read, the last one that overwrites wins. -/
theorem get_foldl_eq_getLastD {σ α υ : Type} (get : σ → α) {step : σ → υ → σ}
    {sets : υ → Option α} (h : ∀ s u, get (step s u) = (sets u).getD (get s)) (s : σ)
    (us : List υ) : get (us.foldl step s) = (us.filterMap sets).getLastD (get s) := by
  induction us generalizing s with
  | nil => rfl
  | cons u us ih =>
    rw [List.foldl_cons, ih, h]
    cases hu : sets u with
    | none => rw [List.filterMap_cons_none hu, Option.getD_none]
    | some b => rw [List.filterMap_cons_some hu, List.getLastD_cons, Option.getD_some]

theorem get_foldl_eq_get {σ α υ : Type} (get : σ → α) {step : σ → υ → σ}
    (h : ∀ s u, get (step s u) = get s) (s : σ) (us : List υ) :
    get (us.foldl step s) = get s := by
  induction us generalizing s with
  | nil => rfl
  | cons u us ih => exact (ih (step s u)).trans (h s u)

theorem setWidth_setWidth_eq_umod {w k : ℕ} (h : k < w) (x : BitVec w) :
    (x.setWidth k).setWidth w = x % BitVec.ofNat w (2 ^ k) := by
  apply BitVec.eq_of_toNat_eq
  rw [BitVec.toNat_setWidth_of_le h.le, BitVec.toNat_setWidth, BitVec.toNat_umod,
    BitVec.toNat_ofNat, Nat.mod_eq_of_lt (Nat.pow_lt_pow_right one_lt_two h)]

/-- A contiguous group of bits of a word of `n` bits. -/
structure BitField (n : ℕ) where
  shift : ℕ
  width : ℕ
  fits : shift + width ≤ n

namespace BitField

variable {n : ℕ} (f g : BitField n)

/-- The bit belongs to the field. -/
def Covers (i : ℕ) : Prop := f.shift ≤ i ∧ i < f.shift + f.width

instance (i : ℕ) : Decidable (f.Covers i) := inferInstanceAs (Decidable (_ ∧ _))

def mask : BitVec n := BitVec.ofNat n (2 ^ f.width - 1) <<< f.shift

def get (v : BitVec n) : BitVec f.width := v.extractLsb' f.shift f.width

def set (v : BitVec n) (a : BitVec f.width) : BitVec n :=
  v &&& ~~~f.mask ||| a.setWidth n <<< f.shift

theorem lt_of_covers {f : BitField n} {i : ℕ} (h : f.Covers i) : i < n :=
  h.2.trans_le f.fits

theorem getLsbD_mask (i : ℕ) : f.mask.getLsbD i = decide (f.Covers i) := by
  have hfits := f.fits
  unfold mask Covers
  rw [BitVec.getLsbD_shiftLeft, BitVec.getLsbD_ofNat, Nat.testBit_two_pow_sub_one]
  grind

theorem getLsbD_get (v : BitVec n) {i : ℕ} (h : i < f.width) :
    (f.get v).getLsbD i = v.getLsbD (f.shift + i) := by
  simp [get, h]

theorem getLsbD_set (v : BitVec n) (a : BitVec f.width) {i : ℕ} (hi : i < n) :
    (f.set v a).getLsbD i =
      if f.Covers i then a.getLsbD (i - f.shift) else v.getLsbD i := by
  unfold set
  rw [BitVec.getLsbD_or, BitVec.getLsbD_and, BitVec.getLsbD_not, getLsbD_mask,
    BitVec.getLsbD_shiftLeft, BitVec.getLsbD_setWidth]
  by_cases hlow : i < f.shift
  · have hcovers : ¬ f.Covers i := fun h => absurd h.1 (Nat.not_le.mpr hlow)
    simp [hcovers, hlow, hi]
  · have hsub : i - f.shift < n := (Nat.sub_le i f.shift).trans_lt hi
    by_cases hcovers : f.Covers i
    · simp [hcovers, hlow, hi, hsub]
    · have hhigh : a.getLsbD (i - f.shift) = false := by
        apply BitVec.getLsbD_of_ge
        have := not_and.mp hcovers (Nat.not_lt.mp hlow)
        omega
      simp [hcovers, hlow, hi, hsub, hhigh]

theorem covers_shift_add {i : ℕ} (h : i < f.width) : f.Covers (f.shift + i) :=
  ⟨Nat.le_add_right _ _, Nat.add_lt_add_left h _⟩

theorem get_set (v : BitVec n) (a : BitVec f.width) : f.get (f.set v a) = a := by
  apply BitVec.eq_of_getLsbD_eq
  intro i hi
  have hcovers := f.covers_shift_add hi
  rw [getLsbD_get _ _ hi, getLsbD_set _ _ _ (lt_of_covers hcovers), if_pos hcovers,
    Nat.add_sub_cancel_left]

theorem set_get (v : BitVec n) : f.set v (f.get v) = v := by
  apply BitVec.eq_of_getLsbD_eq
  intro i hi
  rw [getLsbD_set _ _ _ hi]
  split_ifs with h
  · have hwidth : i - f.shift < f.width := by
      have hle := h.1
      have hlt := h.2
      omega
    rw [getLsbD_get _ _ hwidth, Nat.add_sub_of_le h.1]
  · rfl

theorem set_set (v : BitVec n) (a b : BitVec f.width) : f.set (f.set v a) b = f.set v b := by
  apply BitVec.eq_of_getLsbD_eq
  intro i hi
  simp only [getLsbD_set _ _ _ hi]
  split_ifs <;> rfl

/-- The field as a part of the word. -/
def lens : Lens (BitVec n) (BitVec f.width) where
  get := f.get
  set := f.set
  get_set := f.get_set
  set_get := f.set_get
  set_set := f.set_set

/-- No bit belongs to both fields. -/
def Disjoint : Prop := ∀ i, f.Covers i → ¬ g.Covers i

theorem disjoint_of_mask_and_eq_zero (h : f.mask &&& g.mask = 0) : f.Disjoint g := by
  intro i hf hg
  have hbit := congrArg (BitVec.getLsbD · i) h
  simp [getLsbD_mask, hf, hg] at hbit

variable {f g} in
theorem Disjoint.apart (h : f.Disjoint g) : f.lens.Apart g.lens := by
  intro v a b
  apply BitVec.eq_of_getLsbD_eq
  intro i hi
  simp only [lens, getLsbD_set _ _ _ hi]
  split_ifs with hf hg
  · exact absurd hg (h i hf)
  · rfl
  · rfl
  · rfl

end BitField

/-- The bit of a word of one bit. -/
def boolEquiv : BitVec 1 ≃ Bool where
  toFun v := v.getLsbD 0
  invFun := BitVec.ofBool
  left_inv v := by
    revert v
    decide
  right_inv b := by cases b <;> rfl

/-- A single bit of a word, as a field. -/
abbrev BitField.single {n : ℕ} (i : Fin n) : BitField n := ⟨i, 1, i.isLt⟩

/-- A single bit of a word. -/
def bit {n : ℕ} (i : Fin n) : Lens (BitVec n) Bool := (BitField.single i).lens.map boolEquiv

section bit

variable {n : ℕ} (i : Fin n) (v : BitVec n)

theorem covers_single {i : Fin n} {j : ℕ} : (BitField.single i).Covers j ↔ j = i := by
  simp only [BitField.Covers]
  omega

theorem bit_get : (bit i).get v = v.getLsbD i := by
  change ((BitField.single i).get v).getLsbD 0 = _
  rw [BitField.getLsbD_get _ _ Nat.one_pos]
  rfl

theorem getLsbD_bit_set (b : Bool) {j : ℕ} (hj : j < n) :
    ((bit i).set v b).getLsbD j = if j = i then b else v.getLsbD j := by
  change ((BitField.single i).set v (BitVec.ofBool b)).getLsbD j = _
  rw [BitField.getLsbD_set _ _ _ hj]
  by_cases h : j = i
  · rw [if_pos (covers_single.mpr h), if_pos h, h, Nat.sub_self, BitVec.getLsbD_ofBool]
    simp
  · rw [if_neg (mt covers_single.mp h), if_neg h]

theorem or_twoPow : v ||| BitVec.twoPow n i = (bit i).set v true := by
  apply BitVec.eq_of_getLsbD_eq
  intro j hj
  rw [getLsbD_bit_set _ _ _ hj, BitVec.getLsbD_or, BitVec.getLsbD_twoPow]
  split_ifs with h <;> simp [h, eq_comm]

theorem and_not_twoPow : v &&& ~~~BitVec.twoPow n i = (bit i).set v false := by
  apply BitVec.eq_of_getLsbD_eq
  intro j hj
  rw [getLsbD_bit_set _ _ _ hj, BitVec.getLsbD_and, BitVec.getLsbD_not, BitVec.getLsbD_twoPow]
  split_ifs with h <;> simp [h, hj, eq_comm]

theorem xor_twoPow : v ^^^ BitVec.twoPow n i = (bit i).modify not v := by
  apply BitVec.eq_of_getLsbD_eq
  intro j hj
  rw [Lens.modify, getLsbD_bit_set _ _ _ hj, BitVec.getLsbD_xor, BitVec.getLsbD_twoPow, bit_get]
  split_ifs with h <;> simp [h, eq_comm]

theorem and_twoPow_eq_iff : v &&& BitVec.twoPow n i = BitVec.twoPow n i ↔ (bit i).get v := by
  rw [bit_get]
  constructor
  · intro h
    have hbit := congrArg (BitVec.getLsbD · i) h
    simpa using hbit
  · intro h
    apply BitVec.eq_of_getLsbD_eq
    intro j hj
    by_cases hij : i.val = j <;> simp [hij, ← h]

variable {i}

theorem bit_apart {j : Fin n} (h : i ≠ j) : (bit i).Apart (bit j) := by
  have hdisjoint : (BitField.single i).Disjoint (BitField.single j) := by
    intro k hi hj
    exact h (Fin.ext ((covers_single.mp hi).symm.trans (covers_single.mp hj)))
  exact (hdisjoint.apart.map_left boolEquiv).map_right boolEquiv

theorem BitField.apart_bit {f : BitField n} (h : ¬ f.Covers i) : f.lens.Apart (bit i) := by
  have hdisjoint : f.Disjoint (.single i) := by
    intro k hf hi
    exact h (covers_single.mp hi ▸ hf)
  exact hdisjoint.apart.map_right boolEquiv

end bit

/-- Fields and single bits of a word, no two of which share a bit. -/
structure WordLayout (n : ℕ) (ι φ : Type) where
  field : ι → BitField n
  bitOf : φ → Fin n
  field_disjoint : ∀ i j, i ≠ j → (field i).Disjoint (field j)
  not_covers_bitOf : ∀ i flag, ¬ (field i).Covers (bitOf flag)
  bitOf_injective : Function.Injective bitOf

/-- A write to one of the parts of a word. -/
inductive WordLayout.Update {n : ℕ} {ι φ : Type} (layout : WordLayout n ι φ) where
  | setField (i : ι) (a : BitVec (layout.field i).width)
  | modifyBit (flag : φ) (f : Bool → Bool)

namespace WordLayout

variable {n : ℕ} {ι φ : Type} {layout : WordLayout n ι φ}

namespace Update

def apply (v : BitVec n) : layout.Update → BitVec n
  | setField i a => (layout.field i).lens.set v a
  | modifyBit flag f => (bit (layout.bitOf flag)).modify f v

/-- What the write puts in the field, when it is the field that it writes. -/
def value? [DecidableEq ι] (i : ι) : layout.Update → Option (BitVec (layout.field i).width)
  | setField j a => if h : j = i then some (h ▸ a) else none
  | modifyBit _ _ => none

/-- What the write does to the bit of the flag. -/
def act [DecidableEq φ] (flag : φ) (value : Bool) : layout.Update → Bool
  | setField _ _ => value
  | modifyBit other f => if other = flag then f value else value

end Update

variable (layout) in
/-- The bit belongs to no part. -/
def Unassigned (k : Fin n) : Prop :=
  (∀ i, ¬ (layout.field i).Covers k) ∧ ∀ flag, layout.bitOf flag ≠ k

theorem field_apart_bit (i : ι) (flag : φ) :
    (layout.field i).lens.Apart (bit (layout.bitOf flag)) :=
  BitField.apart_bit (layout.not_covers_bitOf i flag)

theorem get_field_apply [DecidableEq ι] (i : ι) (v : BitVec n) (u : layout.Update) :
    (layout.field i).lens.get (u.apply v) =
      (u.value? i).getD ((layout.field i).lens.get v) := by
  unfold Update.apply Update.value?
  cases u with
  | setField j a =>
    by_cases h : j = i
    · subst h
      simp [Lens.get_set]
    · have hapart := (layout.field_disjoint i j (Ne.symm h)).apart
      simp [h, hapart.get_set]
  | modifyBit flag f => exact (layout.field_apart_bit i flag).get_modify f v

theorem get_bit_apply [DecidableEq φ] (flag : φ) (v : BitVec n) (u : layout.Update) :
    (bit (layout.bitOf flag)).get (u.apply v) =
      u.act flag ((bit (layout.bitOf flag)).get v) := by
  unfold Update.apply Update.act
  cases u with
  | setField i a => exact (layout.field_apart_bit i flag).symm.get_set v a
  | modifyBit other f =>
    by_cases h : other = flag
    · simp [h]
    · have hapart := bit_apart (layout.bitOf_injective.ne (Ne.symm h))
      simp [h, hapart.get_modify]

theorem get_unassigned_apply {k : Fin n} (hk : layout.Unassigned k) (v : BitVec n)
    (u : layout.Update) : (bit k).get (u.apply v) = (bit k).get v := by
  unfold Update.apply
  cases u with
  | setField i a => exact (BitField.apart_bit (hk.1 i)).symm.get_set v a
  | modifyBit flag f => exact (bit_apart (hk.2 flag).symm).get_modify f v

end WordLayout

end TpmRs.Library
