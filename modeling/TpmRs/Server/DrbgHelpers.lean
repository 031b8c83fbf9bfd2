import TpmRs.Library.ByteStream
import TpmRs.Library.LittleEndian
import TpmRs.Server.Draw

/-!
# The helpers of the generator

A generator may implement one of its three ways of drawing and take the others from
the helpers. `fill_bytes` draws as many 64-bit integers as fit and one more integer for
the rest; the integers are drawn by filling a buffer; all are in little endian. The
additional input goes to the first draw only.
-/

namespace TpmRs

open Library Library.Fallible

namespace Prim

/-- `to_le_bytes`. -/
def toLeBytes (p : Prim) (v : BitVec p.bits) : List U8 := LittleEndian.toLe p.size v.toNat

/-- `from_le_bytes`. -/
def fromLeBytes (p : Prim) (bs : List U8) : BitVec p.bits :=
  BitVec.ofNat p.bits (LittleEndian.ofLe bs)

@[simp] theorem length_toLeBytes (p : Prim) (v : BitVec p.bits) :
    (p.toLeBytes v).length = p.size := LittleEndian.length_toLe ..

theorem toNat_fromLeBytes (p : Prim) {bs : List U8} (h : bs.length = p.size) :
    (p.fromLeBytes bs).toNat = LittleEndian.ofLe bs := by
  have hlt := LittleEndian.ofLe_lt bs
  rw [h, p.pow_size] at hlt
  rw [fromLeBytes, BitVec.toNat_ofNat, Nat.mod_eq_of_lt hlt]

theorem fromLeBytes_append {bs cs : List U8} (hb : bs.length = 4) (hc : cs.length = 4) :
    (u32.fromLeBytes cs).setWidth 64 <<< 32 ||| (u32.fromLeBytes bs).setWidth 64 =
      u64.fromLeBytes (bs ++ cs) := by
  apply BitVec.eq_of_toNat_eq
  have hblt := LittleEndian.ofLe_lt bs
  have hclt := LittleEndian.ofLe_lt cs
  rw [hb] at hblt
  rw [hc] at hclt
  rw [toNat_fromLeBytes u64 (by simp [hb, hc]), LittleEndian.ofLe_append, hb, BitVec.toNat_or,
    BitVec.toNat_shiftLeft, BitVec.toNat_setWidth_of_le (by decide),
    BitVec.toNat_setWidth_of_le (by decide), toNat_fromLeBytes u32 hb, toNat_fromLeBytes u32 hc]
  have hshift : LittleEndian.ofLe cs <<< 32 < 2 ^ 64 := by
    rw [Nat.shiftLeft_eq]
    omega
  rw [Nat.mod_eq_of_lt hshift, ← Nat.shiftLeft_add_eq_or_of_lt (b := LittleEndian.ofLe bs) hblt,
    Nat.shiftLeft_eq]
  ring

theorem toLeBytes_fromLeBytes (p : Prim) {bs : List U8} (h : bs.length = p.size) :
    p.toLeBytes (p.fromLeBytes bs) = bs := by
  rw [toLeBytes, toNat_fromLeBytes p h, ← h, LittleEndian.toLe_ofLe]

end Prim

/-- The draws of single integers of a generator. -/
class DrbgNext (R : Type) where
  nextU32 (additionalInput : List U8) : Fallible DrbgError R U32
  nextU64 (additionalInput : List U8) : Fallible DrbgError R U64

variable {R : Type}

/-- `fill_bytes_via_next`; each turn of the loop goes on with the bytes after the first
eight. -/
def fillBytesViaNext [DrbgNext R] (additionalInput : List U8) :
    Fallible DrbgError (R × List U8) Unit := fun (rng, dest) =>
  if 8 ≤ dest.length then
    match (DrbgNext.nextU64 additionalInput).run rng with
    | .ok x rng =>
      match fillBytesViaNext [] (rng, dest.drop 8) with
      | .ok () (rng, right) => .ok () (rng, Prim.u64.toLeBytes x ++ right)
      | .error e (rng, right) => .error e (rng, Prim.u64.toLeBytes x ++ right)
    | .error e rng => .error e (rng, dest)
  else if 4 < dest.length then
    match (DrbgNext.nextU64 additionalInput).run rng with
    | .ok x rng => .ok () (rng, (Prim.u64.toLeBytes x).take dest.length)
    | .error e rng => .error e (rng, dest)
  else if 0 < dest.length then
    match (DrbgNext.nextU32 additionalInput).run rng with
    | .ok x rng => .ok () (rng, (Prim.u32.toLeBytes x).take dest.length)
    | .error e rng => .error e (rng, dest)
  else .ok () (rng, dest)
termination_by s => s.2.length

/-- `next_u32_via_fill` and `next_u64_via_fill`. -/
def nextViaFill [Drbg R] (p : Prim) (additionalInput : List U8) :
    Fallible DrbgError R (BitVec p.bits) := fun rng =>
  let buf : List.Vector U8 p.size := List.Vector.replicate p.size 0
  match (Drbg.fillBytes additionalInput).run (rng, buf) with
  | .ok () (rng, buf) => .ok (p.fromLeBytes buf.toList) rng
  | .error e (rng, _) => .error e rng

def nextU32ViaFill [Drbg R] : List U8 → Fallible DrbgError R U32 := nextViaFill .u32

def nextU64ViaFill [Drbg R] : List U8 → Fallible DrbgError R U64 := nextViaFill .u64

/-- `next_u64_via_u32`; the first value is the lower half. -/
def nextU64ViaU32 [DrbgNext R] (additionalInput : List U8) : Fallible DrbgError R U64 := do
  let x ← DrbgNext.nextU32 additionalInput
  let y ← DrbgNext.nextU32 []
  pure (y.setWidth 64 <<< 32 ||| x.setWidth 64)

/-- Which integer is drawn. -/
inductive Width where
  | u32
  | u64
  deriving DecidableEq

@[reducible] def Width.prim : Width → Prim
  | u32 => .u32
  | u64 => .u64

def nextInt [DrbgNext R] : (w : Width) → List U8 → Fallible DrbgError R (BitVec w.prim.bits)
  | .u32 => DrbgNext.nextU32
  | .u64 => DrbgNext.nextU64

/-- The first integer that is drawn for a nonempty destination. -/
def firstWidth (len : ℕ) : Width := if 4 < len then .u64 else .u32

section loop

variable [DrbgNext R] {x : List U8} {rng rng' : R} {dest : List U8}

theorem run_fillBytesViaNext_nil : (fillBytesViaNext x).run (rng, []) = .ok () (rng, []) := by
  change fillBytesViaNext x (rng, []) = _
  rw [fillBytesViaNext]
  rfl

theorem run_fillBytesViaNext_error (hdest : 0 < dest.length) {e : Fault DrbgError}
    (h : (nextInt (firstWidth dest.length) x).run rng = .error e rng') :
    (fillBytesViaNext x).run (rng, dest) = .error e (rng', dest) := by
  change fillBytesViaNext x (rng, dest) = _
  rw [fillBytesViaNext]
  by_cases h4 : 4 < dest.length
  · have hnext : (DrbgNext.nextU64 x).run rng = .error e rng' := by
      rwa [firstWidth, if_pos h4] at h
    rw [if_pos h4, hnext]
    exact ite_self _
  · have hnext : (DrbgNext.nextU32 x).run rng = .error e rng' := by
      rwa [firstWidth, if_neg h4] at h
    rw [if_neg (by omega), if_neg h4, if_pos hdest, hnext]

theorem run_fillBytesViaNext_chunk (hdest : 8 ≤ dest.length) {v : U64}
    (h : (DrbgNext.nextU64 x).run rng = .ok v rng') :
    (fillBytesViaNext x).run (rng, dest) =
      match (fillBytesViaNext []).run (rng', dest.drop 8) with
      | .ok () (rng, right) => .ok () (rng, Prim.u64.toLeBytes v ++ right)
      | .error e (rng, right) => .error e (rng, Prim.u64.toLeBytes v ++ right) := by
  change fillBytesViaNext x (rng, dest) = _
  rw [fillBytesViaNext, if_pos hdest, h]
  rfl

theorem run_fillBytesViaNext_tail (hpos : 0 < dest.length) (hdest : dest.length < 8) {v}
    (h : (nextInt (firstWidth dest.length) x).run rng = .ok v rng') :
    (fillBytesViaNext x).run (rng, dest) =
      .ok () (rng', ((firstWidth dest.length).prim.toLeBytes v).take dest.length) := by
  change fillBytesViaNext x (rng, dest) = _
  rw [fillBytesViaNext, if_neg (Nat.not_le.mpr hdest)]
  by_cases h4 : 4 < dest.length
  · have hwidth : firstWidth dest.length = .u64 := if_pos h4
    revert v h
    rw [hwidth]
    intro v h
    have hnext : (DrbgNext.nextU64 x).run rng = .ok v rng' := h
    rw [if_pos h4, hnext]
  · have hwidth : firstWidth dest.length = .u32 := if_neg h4
    revert v h
    rw [hwidth]
    intro v h
    have hnext : (DrbgNext.nextU32 x).run rng = .ok v rng' := h
    rw [if_neg h4, if_pos hpos, hnext]

end loop

section stream

variable [Drbg R] [DrbgNext R]

/-- The generator never fails, what it draws is the stream, and it draws integers by filling
a buffer. -/
structure Streams (stream : ByteStream R (List U8) []) : Prop where
  run_fillBytes : ∀ s x {n : ℕ} (dest : List.Vector U8 n), ∃ filled,
    (Drbg.fillBytes x).run (s, dest) = .ok () (stream.after s x n, filled) ∧
      filled.toList = stream.bytes s x n
  nextU32_eq : ∀ x, (DrbgNext.nextU32 x : Fallible DrbgError R U32) = nextU32ViaFill x
  nextU64_eq : ∀ x, (DrbgNext.nextU64 x : Fallible DrbgError R U64) = nextU64ViaFill x

/-- The length that is drawn: the rest after the chunks of eight is rounded up. -/
def drawnLen (len : ℕ) : ℕ :=
  8 * (len / 8) + if len % 8 = 0 then 0 else if len % 8 ≤ 4 then 4 else 8

theorem drawnLen_of_lt {len : ℕ} (hpos : 0 < len) (h : len < 8) :
    drawnLen len = (firstWidth len).prim.size := by
  unfold drawnLen firstWidth
  rw [Nat.div_eq_of_lt h, Nat.mod_eq_of_lt h, if_neg hpos.ne']
  split_ifs <;> first | omega | rfl

theorem drawnLen_of_le {len : ℕ} (h : 8 ≤ len) : drawnLen len = 8 + drawnLen (len - 8) := by
  unfold drawnLen
  rw [Nat.mod_eq_sub_mod h, Nat.div_eq_sub_div (by decide) h]
  ring

theorem le_size_firstWidth {len : ℕ} (h : len < 8) : len ≤ (firstWidth len).prim.size := by
  unfold firstWidth
  split_ifs with h4
  · exact h.le
  · exact Nat.not_lt.mp h4

variable {stream : ByteStream R (List U8) []}

namespace Streams

variable (h : Streams stream)
include h

theorem run_nextViaFill (p : Prim) (s : R) (x : List U8) :
    (nextViaFill p x).run s =
      .ok (p.fromLeBytes (stream.bytes s x p.size)) (stream.after s x p.size) := by
  obtain ⟨filled, hrun, hfilled⟩ := h.run_fillBytes s x (List.Vector.replicate p.size 0)
  change nextViaFill p x s = _
  unfold nextViaFill
  simp only [hrun, hfilled]

theorem run_nextInt (w : Width) (s : R) (x : List U8) :
    (nextInt w x).run s =
      .ok (w.prim.fromLeBytes (stream.bytes s x w.prim.size)) (stream.after s x w.prim.size) := by
  cases w with
  | u32 => exact (congrArg (·.run s) (h.nextU32_eq x)).trans (h.run_nextViaFill .u32 s x)
  | u64 => exact (congrArg (·.run s) (h.nextU64_eq x)).trans (h.run_nextViaFill .u64 s x)

/-- Filling through integers draws the bytes of the stream. -/
theorem run_fillBytesViaNext (s : R) (x : List U8) (dest : List U8) :
    (fillBytesViaNext x).run (s, dest) =
      .ok () (if dest.length = 0 then s else stream.after s x (drawnLen dest.length),
        stream.bytes s x dest.length) := by
  induction hn : dest.length using Nat.strong_induction_on generalizing s x dest with
  | _ n ih =>
    subst hn
    by_cases h8 : 8 ≤ dest.length
    · have hrest := ih (dest.length - 8) (by omega) (stream.after s x 8) [] (dest.drop 8)
        (List.length_drop)
      have hchunk : Prim.u64.toLeBytes (Prim.u64.fromLeBytes (stream.bytes s x 8)) =
          stream.bytes s x 8 := Prim.toLeBytes_fromLeBytes _ (stream.length_bytes ..)
      rw [run_fillBytesViaNext_chunk h8 (h.run_nextInt .u64 s x), hrest]
      simp only [hchunk, ← stream.bytes_of_le s x h8]
      rw [if_neg (by omega : ¬ dest.length = 0), drawnLen_of_le h8]
      split_ifs with hlast
      · rw [hlast]
        rfl
      · rw [stream.after_add]
    · by_cases hzero : dest.length = 0
      · obtain rfl := List.eq_nil_of_length_eq_zero hzero
        rw [run_fillBytesViaNext_nil, if_pos hzero, List.length_nil, stream.bytes_zero]
      · have hlt := Nat.not_le.mp h8
        have hpos := Nat.pos_of_ne_zero hzero
        rw [run_fillBytesViaNext_tail hpos hlt (h.run_nextInt _ s x), if_neg hzero,
          drawnLen_of_lt hpos hlt, Prim.toLeBytes_fromLeBytes _ (stream.length_bytes ..),
          stream.take_bytes s x (le_size_firstWidth hlt)]

theorem run_nextU64ViaU32 (s : R) (x : List U8) :
    (nextU64ViaU32 x).run s = (nextU64ViaFill x).run s := by
  have hlow : (DrbgNext.nextU32 x).run s =
      .ok (Prim.u32.fromLeBytes (stream.bytes s x 4)) (stream.after s x 4) :=
    h.run_nextInt .u32 s x
  have hhigh : (DrbgNext.nextU32 []).run (stream.after s x 4) =
      .ok (Prim.u32.fromLeBytes (stream.bytes (stream.after s x 4) [] 4))
        (stream.after (stream.after s x 4) [] 4) := h.run_nextInt .u32 _ []
  unfold nextU64ViaU32 nextU64ViaFill
  rw [run_bind_of_ok hlow, run_bind_of_ok hhigh, h.run_nextViaFill, EStateM.run_pure,
    Prim.fromLeBytes_append (stream.length_bytes ..) (stream.length_bytes ..),
    ← stream.bytes_add s x 4 4, ← stream.after_add s x 4 4]

end Streams

end stream

/-- For a generator that never fails and is a stream, the helpers agree with it and with each
other: filling through integers writes the bytes that filling writes, and goes as far as
filling with the length rounded up. -/
theorem drbgHelpers_agree [Drbg R] [DrbgNext R] {stream : ByteStream R (List U8) []}
    (h : Streams stream) (s : R) (x : List U8) :
    (∀ {n : ℕ} (dest : List.Vector U8 n) (rounded : List.Vector U8 (drawnLen n)),
      ∃ s₁ s₂ s₃ filled filled',
        (Drbg.fillBytes x).run (s, dest) = .ok () (s₁, filled) ∧
        (Drbg.fillBytes x).run (s, rounded) = .ok () (s₂, filled') ∧
        (fillBytesViaNext x).run (s, dest.toList) = .ok () (s₃, filled.toList) ∧
        (0 < n → s₃ = s₂)) ∧
    (nextU64ViaU32 x).run s = (nextU64ViaFill x).run s := by
  refine ⟨?_, h.run_nextU64ViaU32 s x⟩
  intro n dest rounded
  obtain ⟨filled, hfill, hfilled⟩ := h.run_fillBytes s x dest
  obtain ⟨filled', hfill', -⟩ := h.run_fillBytes s x rounded
  have hnext := h.run_fillBytesViaNext s x dest.toList
  rw [dest.toList_length, ← hfilled] at hnext
  exact ⟨_, _, _, filled, filled', hfill, hfill', hnext, fun hpos => if_neg hpos.ne'⟩

namespace FakeDrbg

instance : DrbgNext FakeDrbg where
  nextU32 := nextU32ViaFill
  nextU64 := nextU64ViaFill

theorem next_add (counter : U8) (a b : ℕ) :
    next counter (a + b) = next counter a ++ next (counter + BitVec.ofNat 8 a) b := by
  induction a generalizing counter with
  | zero => simp [next]
  | succ a ih =>
    have hcounter : counter + 1 + BitVec.ofNat 8 a = counter + BitVec.ofNat 8 (a + 1) := by
      rw [BitVec.ofNat_add, BitVec.add_assoc, BitVec.add_comm 1]
      rfl
    rw [Nat.add_right_comm, next, ih, next, List.cons_append, hcounter]

/-- The counter as a stream. -/
def stream : ByteStream FakeDrbg (List U8) [] where
  bytes self _ n := next self.counter n
  after self _ n := ⟨self.counter + BitVec.ofNat 8 n⟩
  length_bytes self _ n := length_next self.counter n
  bytes_add self _ a b := next_add self.counter a b
  after_add self _ a b := by rw [BitVec.ofNat_add, BitVec.add_assoc]

theorem streams : Streams stream where
  run_fillBytes _ _ _ _ := ⟨_, rfl, rfl⟩
  nextU32_eq _ := rfl
  nextU64_eq _ := rfl

end FakeDrbg

theorem drbgHelpers_agree_fakeDrbg :
    (fillBytesViaNext [1]).run ((⟨0⟩ : FakeDrbg), [0, 0, 0, 0, 0]) =
        .ok () (⟨8⟩, [1, 2, 3, 4, 5]) ∧
      (nextU64ViaU32 [1]).run (⟨0⟩ : FakeDrbg) = (nextU64ViaFill [1]).run ⟨0⟩ := by
  obtain ⟨hfill, hnext⟩ := drbgHelpers_agree FakeDrbg.streams ⟨0⟩ [1]
  refine ⟨?_, hnext⟩
  obtain ⟨s₁, s₂, s₃, filled, filled', h₁, h₂, h₃, hs⟩ :=
    hfill (List.Vector.replicate 5 0) (List.Vector.replicate (drawnLen 5) 0)
  cases h₁
  cases h₂
  rw [hs (by decide)] at h₃
  exact h₃

end TpmRs
