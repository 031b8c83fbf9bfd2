import Mathlib.Tactic

/-!
# C layouts

The size and the alignment that the C rules give to structs, unions and arrays: members
of a struct are placed in order at the next aligned offset, members of a union at offset
zero, and the size is a multiple of the alignment. Padding only ever adds to the size, so
a struct is at least as large as all its members and a union as its largest.
-/

namespace TpmRs.Library

/-- The least multiple of `a` that is not below `n`. -/
def alignUp (n a : ℕ) : ℕ := (n + a - 1) / a * a

theorem dvd_alignUp (n a : ℕ) : a ∣ alignUp n a := Dvd.intro_left _ rfl

theorem le_alignUp (n : ℕ) {a : ℕ} (h : 0 < a) : n ≤ alignUp n a := by
  have hmod := Nat.mod_lt (n + a - 1) h
  have hdiv := Nat.div_add_mod' (n + a - 1) a
  unfold alignUp
  omega

theorem alignUp_le {n a m : ℕ} (h : n ≤ m) (hdvd : a ∣ m) : alignUp n a ≤ m := by
  obtain ⟨k, rfl⟩ := hdvd
  rcases Nat.eq_zero_or_pos a with rfl | ha
  · simp [alignUp]
  · have hdiv : (n + a - 1) / a < k + 1 := by
      rw [Nat.div_lt_iff_lt_mul ha]
      have hmul : (k + 1) * a = a * k + a := by ring
      omega
    rw [alignUp, Nat.mul_comm a k]
    exact Nat.mul_le_mul_right a (Nat.lt_succ_iff.mp hdiv)

structure Layout where
  size : ℕ
  align : ℕ
  align_pos : 0 < align
  align_dvd_size : align ∣ size

namespace Layout

/-- A scalar, which is aligned to its size. -/
def scalar (n : ℕ) (h : 0 < n) : Layout := ⟨n, n, h, dvd_rfl⟩

def array (l : Layout) (n : ℕ) : Layout :=
  ⟨n * l.size, l.align, l.align_pos, l.align_dvd_size.mul_left n⟩

/-- The alignment that suits all the members. -/
def maxAlign : List Layout → ℕ
  | [] => 1
  | l :: ls => max l.align (maxAlign ls)

theorem maxAlign_pos (ls : List Layout) : 0 < maxAlign ls := by
  induction ls with
  | nil => exact Nat.one_pos
  | cons l ls ih => exact lt_max_of_lt_right ih

/-- The end of the last member when the first is placed from `offset` on. -/
def placeAll : List Layout → ℕ → ℕ
  | [], offset => offset
  | l :: ls, offset => placeAll ls (alignUp offset l.align + l.size)

theorem add_sum_le_placeAll (ls : List Layout) (offset : ℕ) :
    offset + (ls.map size).sum ≤ placeAll ls offset := by
  induction ls generalizing offset with
  | nil => exact Nat.le_refl _
  | cons l ls ih =>
    have hoffset := le_alignUp offset l.align_pos
    have hrest := ih (alignUp offset l.align + l.size)
    simp only [List.map_cons, List.sum_cons, placeAll]
    omega

def struct (ls : List Layout) : Layout :=
  ⟨alignUp (placeAll ls 0) (maxAlign ls), maxAlign ls, maxAlign_pos ls, dvd_alignUp _ _⟩

theorem sum_size_le_size_struct (ls : List Layout) : (ls.map size).sum ≤ (struct ls).size := by
  have hplace := add_sum_le_placeAll ls 0
  have halign := le_alignUp (placeAll ls 0) (maxAlign_pos ls)
  rw [Nat.zero_add] at hplace
  exact hplace.trans halign

def maxSize : List Layout → ℕ
  | [] => 0
  | l :: ls => max l.size (maxSize ls)

def union (ls : List Layout) : Layout :=
  ⟨alignUp (maxSize ls) (maxAlign ls), maxAlign ls, maxAlign_pos ls, dvd_alignUp _ _⟩

theorem maxSize_le_size_union (ls : List Layout) : maxSize ls ≤ (union ls).size :=
  le_alignUp _ (maxAlign_pos ls)

theorem size_struct_singleton (l : Layout) : (struct [l]).size = l.size := by
  have hzero : alignUp 0 l.align = 0 := Nat.le_zero.mp (alignUp_le le_rfl (dvd_zero _))
  have halign : max l.align 1 = l.align := max_eq_left l.align_pos
  change alignUp (alignUp 0 l.align + l.size) (max l.align 1) = l.size
  rw [hzero, Nat.zero_add, halign]
  exact le_antisymm (alignUp_le le_rfl l.align_dvd_size) (le_alignUp _ l.align_pos)

/-- A tag followed by the union of the variants. -/
def taggedUnion (tag : Layout) (variants : List Layout) : Layout := struct [tag, union variants]

theorem add_maxSize_le_size_taggedUnion (tag : Layout) (variants : List Layout) :
    tag.size + maxSize variants ≤ (taggedUnion tag variants).size := by
  have hstruct := sum_size_le_size_struct [tag, union variants]
  have hunion := maxSize_le_size_union variants
  simp only [List.map_cons, List.map_nil, List.sum_cons, List.sum_nil] at hstruct
  unfold taggedUnion
  omega

/-- Members before and after a tag, and the variants of a union at the end. -/
theorem sum_add_maxSize_le_size_struct (before after : List Layout) (tag : Layout)
    (variants : List Layout) :
    (before.map size).sum + (tag.size + ((after.map size).sum + maxSize variants)) ≤
      (struct (before ++ after ++ [taggedUnion tag variants])).size := by
  have hunion := add_maxSize_le_size_taggedUnion tag variants
  have hstruct := sum_size_le_size_struct (before ++ after ++ [taggedUnion tag variants])
  simp only [List.map_append, List.map_cons, List.map_nil, List.sum_append, List.sum_cons,
    List.sum_nil] at hstruct
  omega

end Layout
end TpmRs.Library
