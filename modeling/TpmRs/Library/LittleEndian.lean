import TpmRs.Library.BigEndian

/-!
# Little-endian bytes

The bytes of a number, least significant first: its big-endian bytes in reverse.
-/

namespace TpmRs.Library.LittleEndian

/-- The `n` low-order bytes of `x`, least significant first. -/
def toLe (n x : ℕ) : List Byte := (BigEndian.toBe n x).reverse

/-- The number that the bytes spell, the first being the least significant. -/
def ofLe (bs : List Byte) : ℕ := BigEndian.ofBe bs.reverse

@[simp] theorem length_toLe (n x : ℕ) : (toLe n x).length = n := by
  simp [toLe]

theorem ofLe_cons (b : Byte) (bs : List Byte) : ofLe (b :: bs) = b.toNat + 256 * ofLe bs := by
  unfold ofLe
  rw [List.reverse_cons, BigEndian.ofBe_concat]
  ring

theorem ofLe_append (bs cs : List Byte) :
    ofLe (bs ++ cs) = ofLe bs + 256 ^ bs.length * ofLe cs := by
  induction bs with
  | nil => simp [ofLe]
  | cons b bs ih =>
    rw [List.cons_append, ofLe_cons, ofLe_cons, ih, List.length_cons, pow_succ]
    ring

theorem ofLe_lt (bs : List Byte) : ofLe bs < 256 ^ bs.length := by
  have h := BigEndian.ofBe_lt bs.reverse
  rwa [List.length_reverse] at h

theorem ofLe_toLe_of_lt {n x : ℕ} (h : x < 256 ^ n) : ofLe (toLe n x) = x := by
  rw [ofLe, toLe, List.reverse_reverse, BigEndian.ofBe_toBe_of_lt h]

theorem toLe_ofLe (bs : List Byte) : toLe bs.length (ofLe bs) = bs := by
  have h := BigEndian.toBe_ofBe bs.reverse
  rw [List.length_reverse] at h
  rw [toLe, ofLe, h, List.reverse_reverse]

end TpmRs.Library.LittleEndian
