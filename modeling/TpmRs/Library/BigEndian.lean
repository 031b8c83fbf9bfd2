import Mathlib.Tactic

/-!
# Big-endian bytes

A natural number below `256 ^ n` and its `n` bytes, most significant first,
determine each other.
-/

namespace TpmRs.Library

abbrev Byte := BitVec 8

namespace BigEndian

/-- The `n` low-order bytes of `x`, most significant first. -/
def toBe : ℕ → ℕ → List Byte
  | 0, _ => []
  | n + 1, x => toBe n (x / 256) ++ [BitVec.ofNat 8 x]

/-- The number that the bytes spell in base 256. -/
def ofBe (bs : List Byte) : ℕ := bs.foldl (fun x b => x * 256 + b.toNat) 0

@[simp] theorem length_toBe (n x : ℕ) : (toBe n x).length = n := by
  induction n generalizing x with
  | zero => rfl
  | succ n ih => simp [toBe, ih]

@[simp] theorem ofBe_nil : ofBe [] = 0 := rfl

theorem ofBe_concat (bs : List Byte) (b : Byte) :
    ofBe (bs ++ [b]) = ofBe bs * 256 + b.toNat := by
  simp [ofBe]

theorem ofBe_lt (bs : List Byte) : ofBe bs < 256 ^ bs.length := by
  induction bs using List.reverseRecOn with
  | nil => simp
  | append_singleton bs b ih =>
    have hb : b.toNat < 256 := b.isLt
    rw [ofBe_concat, List.length_append, List.length_singleton, pow_succ]
    omega

theorem ofBe_toBe (n x : ℕ) : ofBe (toBe n x) = x % 256 ^ n := by
  induction n generalizing x with
  | zero => simp [toBe, Nat.mod_one]
  | succ n ih =>
    have hx : (BitVec.ofNat 8 x).toNat = x % 256 := by simp
    rw [toBe, ofBe_concat, ih, hx, pow_succ', Nat.mod_mul]
    ring

theorem ofBe_toBe_of_lt {n x : ℕ} (h : x < 256 ^ n) : ofBe (toBe n x) = x := by
  rw [ofBe_toBe, Nat.mod_eq_of_lt h]

theorem toBe_ofBe (bs : List Byte) : toBe bs.length (ofBe bs) = bs := by
  induction bs using List.reverseRecOn with
  | nil => rfl
  | append_singleton bs b ih =>
    have hb : b.toNat < 256 := b.isLt
    have hdiv : (ofBe bs * 256 + b.toNat) / 256 = ofBe bs := by omega
    have hmod : BitVec.ofNat 8 (ofBe bs * 256 + b.toNat) = b := by
      apply BitVec.eq_of_toNat_eq
      simp only [BitVec.toNat_ofNat]
      omega
    rw [List.length_append, List.length_singleton, toBe, ofBe_concat, hdiv, hmod, ih]

end BigEndian
end TpmRs.Library
