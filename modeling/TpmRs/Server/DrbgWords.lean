import TpmRs.Server.DrbgHelpers

/-!
# Generators of 32-bit words

A generator that only implements `next_u32` makes its 64-bit integers of two words and
fills a destination through both. What comes out is the little-endian bytes of the words
in the order of the draws, as many as are needed and none more. The faster path of eight
bytes at a time shows in one place only: when the second word of an integer cannot be
drawn, the first one is lost.
-/

namespace TpmRs

open Library Library.Fallible

namespace Prim

theorem fromLeBytes_toLeBytes (p : Prim) (v : BitVec p.bits) :
    p.fromLeBytes (p.toLeBytes v) = v := by
  apply BitVec.eq_of_toNat_eq
  have hlt : v.toNat < 256 ^ p.size := p.pow_size ▸ v.isLt
  rw [toNat_fromLeBytes p (length_toLeBytes p v), toLeBytes, LittleEndian.ofLe_toLe_of_lt hlt]

theorem toLeBytes_append (x y : U32) :
    u64.toLeBytes (y.setWidth 64 <<< 32 ||| x.setWidth 64) =
      u32.toLeBytes x ++ u32.toLeBytes y := by
  have happend := fromLeBytes_append (length_toLeBytes u32 x) (length_toLeBytes u32 y)
  rw [fromLeBytes_toLeBytes u32, fromLeBytes_toLeBytes u32] at happend
  rw [happend]
  apply toLeBytes_fromLeBytes
  simp [size]

end Prim

variable {R : Type} [DrbgNext R]

/-- At most `n` words, up to the first failure; the additional input goes to the first draw. -/
def drawWords (additionalInput : List U8) :
    ℕ → R → List U32 × EStateM.Result (Fault DrbgError) R Unit
  | 0, rng => ([], .ok () rng)
  | n + 1, rng =>
    match (DrbgNext.nextU32 additionalInput).run rng with
    | .ok word rng => ((drawWords [] n rng).1.cons word, (drawWords [] n rng).2)
    | .error e rng => ([], .error e rng)

/-- The bytes of the words in order. -/
def wordBytes (words : List U32) : List U8 := words.flatMap Prim.u32.toLeBytes

/-- A word for every four bytes. On a failure the destination has the words of which the second
was drawn as well, two by two. -/
def fillWords (additionalInput : List U8) (rng : R) (dest : List U8) :
    EStateM.Result (Fault DrbgError) (R × List U8) Unit :=
  let (words, outcome) := drawWords additionalInput ((dest.length + 3) / 4) rng
  match outcome with
  | .ok () rng => .ok () (rng, (wordBytes words).take dest.length)
  | .error e rng =>
    let written := 8 * (words.length / 2)
    .error e (rng, (wordBytes words).take written ++ dest.drop written)

section

variable {x : List U8} {rng rng' rng'' : R} {dest : List U8}

theorem drawWords_of_ok {word : U32} (h : (DrbgNext.nextU32 x).run rng = .ok word rng') (n : ℕ) :
    drawWords x (n + 1) rng =
      (word :: (drawWords [] n rng').1, (drawWords [] n rng').2) := by
  rw [drawWords, h]

theorem drawWords_of_error {e : Fault DrbgError}
    (h : (DrbgNext.nextU32 x).run rng = .error e rng') (n : ℕ) :
    drawWords x (n + 1) rng = ([], .error e rng') := by
  rw [drawWords, h]

theorem wordBytes_cons (word : U32) (words : List U32) :
    wordBytes (word :: words) = Prim.u32.toLeBytes word ++ wordBytes words := List.flatMap_cons

theorem fillWords_of_pair {x₀ x₁ : U32} (hdest : 8 ≤ dest.length)
    (h₀ : (DrbgNext.nextU32 x).run rng = .ok x₀ rng')
    (h₁ : (DrbgNext.nextU32 []).run rng' = .ok x₁ rng'') :
    fillWords x rng dest =
      match fillWords [] rng'' (dest.drop 8) with
      | .ok () (rng, right) => .ok () (rng, Prim.u32.toLeBytes x₀ ++ Prim.u32.toLeBytes x₁ ++ right)
      | .error e (rng, right) =>
        .error e (rng, Prim.u32.toLeBytes x₀ ++ Prim.u32.toLeBytes x₁ ++ right) := by
  have hcount : (dest.length + 3) / 4 = ((dest.drop 8).length + 3) / 4 + 1 + 1 := by
    rw [List.length_drop]
    omega
  have hfront : (Prim.u32.toLeBytes x₀ ++ Prim.u32.toLeBytes x₁).length = 8 := by simp [Prim.size]
  unfold fillWords
  rw [hcount, drawWords_of_ok h₀, drawWords_of_ok h₁]
  cases hrest : drawWords [] (((dest.drop 8).length + 3) / 4) rng'' with
  | mk words outcome =>
    simp only [wordBytes_cons, ← List.append_assoc]
    cases outcome with
    | ok u rng₂ =>
      simp only
      rw [List.take_append, hfront, List.take_of_length_le (hfront.trans_le hdest),
        List.length_drop]
    | error e rng₂ =>
      have hhalf : 8 * ((words.length + 1 + 1) / 2) = 8 + 8 * (words.length / 2) := by omega
      simp only [List.length_cons, hhalf]
      rw [List.take_append, hfront, List.take_of_length_le (by omega), Nat.add_sub_cancel_left,
        List.drop_drop, List.append_assoc]

theorem fillWords_of_error (hdest : 0 < dest.length) {e : Fault DrbgError}
    (h : (DrbgNext.nextU32 x).run rng = .error e rng') :
    fillWords x rng dest = .error e (rng', dest) := by
  have hcount : (dest.length + 3) / 4 = (dest.length - 1) / 4 + 1 := by omega
  unfold fillWords
  rw [hcount, drawWords_of_error h]
  rfl

/-- A single word is lost when the second one of its integer cannot be drawn. -/
theorem fillWords_of_second_error (hdest : 4 < dest.length) {word : U32} {e : Fault DrbgError}
    (h₀ : (DrbgNext.nextU32 x).run rng = .ok word rng')
    (h₁ : (DrbgNext.nextU32 []).run rng' = .error e rng'') :
    fillWords x rng dest = .error e (rng'', dest) := by
  have hcount : (dest.length + 3) / 4 = (dest.length - 5) / 4 + 1 + 1 := by omega
  unfold fillWords
  rw [hcount, drawWords_of_ok h₀, drawWords_of_error h₁]
  simp

theorem fillWords_of_le_four (hpos : 0 < dest.length) (hdest : dest.length ≤ 4) {word : U32}
    (h : (DrbgNext.nextU32 x).run rng = .ok word rng') :
    fillWords x rng dest = .ok () (rng', (Prim.u32.toLeBytes word).take dest.length) := by
  have hcount : (dest.length + 3) / 4 = 0 + 1 := by omega
  unfold fillWords
  rw [hcount, drawWords_of_ok h]
  simp [drawWords, wordBytes]

theorem fillWords_of_lt_eight {x₀ x₁ : U32} (h4 : 4 < dest.length) (h8 : dest.length < 8)
    (h₀ : (DrbgNext.nextU32 x).run rng = .ok x₀ rng')
    (h₁ : (DrbgNext.nextU32 []).run rng' = .ok x₁ rng'') :
    fillWords x rng dest =
      .ok () (rng'', (Prim.u32.toLeBytes x₀ ++ Prim.u32.toLeBytes x₁).take dest.length) := by
  have hcount : (dest.length + 3) / 4 = 0 + 1 + 1 := by omega
  unfold fillWords
  rw [hcount, drawWords_of_ok h₀, drawWords_of_ok h₁]
  simp [drawWords, wordBytes]

end

/-- The last integer, of the width that it is known to have. -/
theorem run_fillBytesViaNext_of_width {x dest : List U8} {rng rng' : R} {w : Width}
    (hw : firstWidth dest.length = w) (hpos : 0 < dest.length) (hdest : dest.length < 8)
    {v : BitVec w.prim.bits} (h : (nextInt w x).run rng = .ok v rng') :
    (fillBytesViaNext x).run (rng, dest) =
      .ok () (rng', (w.prim.toLeBytes v).take dest.length) := by
  subst hw
  exact run_fillBytesViaNext_tail hpos hdest h

/-- `next_u64` is left to the helper. -/
def ViaU32 (R : Type) [DrbgNext R] : Prop :=
  ∀ x, (DrbgNext.nextU64 x : Fallible DrbgError R U64) = nextU64ViaU32 x

section

variable {x dest : List U8} {rng rng' rng'' : R} (hvia : ViaU32 R)

include hvia

theorem ViaU32.run_nextU64_of_ok {x₀ x₁ : U32}
    (h₀ : (DrbgNext.nextU32 x).run rng = .ok x₀ rng')
    (h₁ : (DrbgNext.nextU32 []).run rng' = .ok x₁ rng'') :
    (DrbgNext.nextU64 x).run rng = .ok (x₁.setWidth 64 <<< 32 ||| x₀.setWidth 64) rng'' := by
  rw [hvia, nextU64ViaU32, run_bind_of_ok h₀, run_bind_of_ok h₁, EStateM.run_pure]

theorem ViaU32.run_nextU64_of_error {e : Fault DrbgError}
    (h : (DrbgNext.nextU32 x).run rng = .error e rng') :
    (DrbgNext.nextU64 x).run rng = .error e rng' := by
  rw [hvia, nextU64ViaU32, run_bind_of_error h]

theorem ViaU32.run_nextU64_of_second_error {x₀ : U32} {e : Fault DrbgError}
    (h₀ : (DrbgNext.nextU32 x).run rng = .ok x₀ rng')
    (h₁ : (DrbgNext.nextU32 []).run rng' = .error e rng'') :
    (DrbgNext.nextU64 x).run rng = .error e rng'' := by
  rw [hvia, nextU64ViaU32, run_bind_of_ok h₀, run_bind_of_error h₁]

theorem ViaU32.run_nextInt_of_error {e : Fault DrbgError}
    (h : (DrbgNext.nextU32 x).run rng = .error e rng') (w : Width) :
    (nextInt w x).run rng = .error e rng' := by
  cases w with
  | u32 => exact h
  | u64 => exact hvia.run_nextU64_of_error h

theorem ViaU32.run_fillBytesViaNext_of_error (hpos : 0 < dest.length) {e : Fault DrbgError}
    (h : (DrbgNext.nextU32 x).run rng = .error e rng') :
    (fillBytesViaNext x).run (rng, dest) = fillWords x rng dest := by
  rw [fillWords_of_error hpos h]
  exact run_fillBytesViaNext_error hpos (hvia.run_nextInt_of_error h _)

theorem ViaU32.run_fillBytesViaNext_of_second_error (h4 : 4 < dest.length) {x₀ : U32}
    {e : Fault DrbgError} (h₀ : (DrbgNext.nextU32 x).run rng = .ok x₀ rng')
    (h₁ : (DrbgNext.nextU32 []).run rng' = .error e rng'') :
    (fillBytesViaNext x).run (rng, dest) = fillWords x rng dest := by
  have hwidth : firstWidth dest.length = .u64 := if_pos h4
  rw [fillWords_of_second_error h4 h₀ h₁]
  apply run_fillBytesViaNext_error (by omega)
  rw [hwidth]
  exact hvia.run_nextU64_of_second_error h₀ h₁

/-- A turn of the loop draws two words. -/
theorem ViaU32.run_fillBytesViaNext_of_le (h8 : 8 ≤ dest.length)
    (hrest : ∀ rng : R,
      (fillBytesViaNext []).run (rng, dest.drop 8) = fillWords [] rng (dest.drop 8)) :
    (fillBytesViaNext x).run (rng, dest) = fillWords x rng dest := by
  cases h₀ : (DrbgNext.nextU32 x).run rng with
  | error e rng' => exact hvia.run_fillBytesViaNext_of_error (by omega) h₀
  | ok x₀ rng' =>
    cases h₁ : (DrbgNext.nextU32 []).run rng' with
    | error e rng'' => exact hvia.run_fillBytesViaNext_of_second_error (by omega) h₀ h₁
    | ok x₁ rng'' =>
      have hchunk := run_fillBytesViaNext_chunk h8 (hvia.run_nextU64_of_ok h₀ h₁)
      rw [hrest, Prim.toLeBytes_append] at hchunk
      have hpair := fillWords_of_pair h8 h₀ h₁
      cases hwords : fillWords [] rng'' (dest.drop 8) with
      | ok u filled =>
        rw [hwords] at hchunk hpair
        exact hchunk.trans hpair.symm
      | error e filled =>
        rw [hwords] at hchunk hpair
        exact hchunk.trans hpair.symm

/-- Behind the loop one integer is drawn, of two words or of one. -/
theorem ViaU32.run_fillBytesViaNext_of_lt (hpos : 0 < dest.length) (h8 : dest.length < 8) :
    (fillBytesViaNext x).run (rng, dest) = fillWords x rng dest := by
  cases h₀ : (DrbgNext.nextU32 x).run rng with
  | error e rng' => exact hvia.run_fillBytesViaNext_of_error hpos h₀
  | ok x₀ rng' =>
    by_cases h4 : 4 < dest.length
    · have hwidth : firstWidth dest.length = .u64 := if_pos h4
      cases h₁ : (DrbgNext.nextU32 []).run rng' with
      | error e rng'' => exact hvia.run_fillBytesViaNext_of_second_error h4 h₀ h₁
      | ok x₁ rng'' =>
        rw [fillWords_of_lt_eight h4 h8 h₀ h₁, ← Prim.toLeBytes_append]
        exact run_fillBytesViaNext_of_width hwidth hpos h8 (hvia.run_nextU64_of_ok h₀ h₁)
    · have hwidth : firstWidth dest.length = .u32 := if_neg h4
      rw [fillWords_of_le_four hpos (Nat.not_lt.mp h4) h₀]
      exact run_fillBytesViaNext_of_width hwidth hpos h8 h₀

end

/-- Filling through integers of which the larger are made of the smaller is filling word by word,
for every generator, also one that fails at any word. -/
theorem fillBytesViaNext_eq_fillWords (hvia : ViaU32 R) (x : List U8) (rng : R) (dest : List U8) :
    (fillBytesViaNext x).run (rng, dest) = fillWords x rng dest := by
  induction hn : dest.length using Nat.strong_induction_on generalizing x rng dest with
  | _ n ih =>
    subst hn
    by_cases hzero : dest.length = 0
    · obtain rfl := List.eq_nil_of_length_eq_zero hzero
      exact run_fillBytesViaNext_nil
    have hpos := Nat.pos_of_ne_zero hzero
    by_cases h8 : 8 ≤ dest.length
    · refine hvia.run_fillBytesViaNext_of_le h8 fun rng => ?_
      exact ih (dest.length - 8) (by omega) [] rng (dest.drop 8) List.length_drop
    · exact hvia.run_fillBytesViaNext_of_lt hpos (Nat.not_le.mp h8)

/-- A generator that takes its words from a list and fails when there are no more. -/
structure WordDrbg where
  words : List U32

namespace WordDrbg

def nextU32 (_ : List U8) : Fallible DrbgError WordDrbg U32 := fun self =>
  match self.words with
  | [] => .error (.err ⟨⟩) self
  | word :: words => .ok word ⟨words⟩

instance : DrbgNext WordDrbg where
  nextU32 := nextU32
  nextU64 additionalInput := do
    let x ← nextU32 additionalInput
    let y ← nextU32 []
    pure (y.setWidth 64 <<< 32 ||| x.setWidth 64)

theorem viaU32 : ViaU32 WordDrbg := fun _ => rfl

end WordDrbg

/-- Three words are enough for eleven bytes. For fourteen bytes the third one is lost. -/
theorem fillBytesViaNext_eq_fillWords_three :
    let rng : WordDrbg := ⟨[0x04030201, 0x08070605, 0x0C0B0A09]⟩
    (fillBytesViaNext [1]).run (rng, List.replicate 11 0) =
        .ok () (⟨[]⟩, [1, 2, 3, 4, 5, 6, 7, 8, 9, 10, 11]) ∧
      (fillBytesViaNext [1]).run (rng, List.replicate 14 0) =
        .error (.err ⟨⟩) (⟨[]⟩, [1, 2, 3, 4, 5, 6, 7, 8, 0, 0, 0, 0, 0, 0]) := by
  intro rng
  constructor
  · rw [fillBytesViaNext_eq_fillWords WordDrbg.viaU32]
    rfl
  · rw [fillBytesViaNext_eq_fillWords WordDrbg.viaU32]
    rfl

end TpmRs
