import TpmRs.Server.TpmCtx

/-!
# Drawing random bytes

The bytes of a response come from one draw: the generator is asked whether it has to be
reseeded, is reseeded from fresh entropy if so, and then fills the response once. When
its calls succeed, a draw leaves exactly these calls in the record.
-/

namespace TpmRs

open Library Library.Fallible Library.Slice

/-- The generator can fill any destination. -/
def CanFill {D : Type} [Drbg D] (drbg : D) : Prop :=
  ∀ {n : ℕ} (dest : List.Vector U8 n),
    ∃ drbg' filled, (Drbg.fillBytes []).run (drbg, dest) = .ok () (drbg', filled)

/-- The calls of a draw succeed: the fill, after the reseeding if it is required. -/
structure CanDraw {D : Type} [Drbg D] (drbg : D) : Prop where
  fill_ok : (Drbg.requiresReseeding drbg).1 = false → CanFill (Drbg.requiresReseeding drbg).2
  reseed_ok : (Drbg.requiresReseeding drbg).1 = true → ∀ entropyInput : Drbg.Entropy D,
    ∃ drbg', (Drbg.reseed entropyInput []).run (Drbg.requiresReseeding drbg).2 = .ok () drbg' ∧
      CanFill drbg'

/-- `fill_bytes` fills its destination entirely with new data, so the result does not
depend on what the destination held. -/
def Overwrites (D : Type) [Drbg D] : Prop :=
  ∀ {n : ℕ} (drbg drbg' : D) (dest dest' filled : List.Vector U8 n),
    (Drbg.fillBytes []).run (drbg, dest) = .ok () (drbg', filled) →
      (Drbg.fillBytes []).run (drbg, dest') = .ok () (drbg', filled)

/-- The calls for a response with the random bytes `payload`. -/
inductive IsBlock {D : Type} [Drbg D] (payload : List U8) : List (Call D) → Prop
  | direct : IsBlock payload [.requiresReseeding false, .fillBytes [] payload.length payload]
  | reseeded (filled : List U8) : IsBlock payload
      [.requiresReseeding true, .fillEntropy (AsMut.asMut (AsMut.default : Drbg.Entropy D)) filled,
        .reseed (AsMut.setMut AsMut.default filled) [], .fillBytes [] payload.length payload]

/-- From `ctx` to `ctx'`, one fill turned `dest` into `payload`, and the calls of one draw
were made. -/
structure Drawn {D E : Type} [Drbg D] {n : ℕ} (ctx : CommandHandler D E)
    (dest : List.Vector U8 n) (ctx' : CommandHandler D E) (payload : List.Vector U8 n) :
    Prop where
  filled : ∃ drbg : D, (Drbg.fillBytes []).run (drbg, dest) = .ok () (ctx'.drbg, payload)
  calls : ∃ block, IsBlock payload.toList block ∧ ctx'.calls = ctx.calls ++ block

namespace Crypto

variable {D E ε : Type} [Drbg D] {ctx : Crypto D E}

theorem run_requiresReseeding (ctx : Crypto D E) :
    (requiresReseeding : Fallible ε (Crypto D E) Bool).run ctx =
      .ok (Drbg.requiresReseeding ctx.drbg).1 { ctx with
        drbg := (Drbg.requiresReseeding ctx.drbg).2
        calls := ctx.calls ++ [.requiresReseeding (Drbg.requiresReseeding ctx.drbg).1] } := rfl

theorem run_fillEntropy [EntropySource E] {n : ℕ} (ctx : Crypto D E) (dest : List.Vector U8 n) :
    (fillEntropy dest : Fallible ε (Crypto D E) _).run ctx =
      .ok (EntropySource.fillEntropy ctx.entropy dest).2 { ctx with
        entropy := (EntropySource.fillEntropy ctx.entropy dest).1
        calls := ctx.calls ++ [.fillEntropy dest.toList
          (EntropySource.fillEntropy ctx.entropy dest).2.toList] } := rfl

theorem run_reseed_of_ok {drbg' : D} {entropyInput : Drbg.Entropy D} {additionalInput : List U8}
    (h : (Drbg.reseed entropyInput additionalInput).run ctx.drbg = .ok () drbg') :
    (reseed entropyInput additionalInput).run ctx = .ok () { ctx with
      drbg := drbg'
      calls := ctx.calls ++ [.reseed entropyInput additionalInput] } := by
  change reseed entropyInput additionalInput ctx = _
  simp only [reseed, h]

theorem run_fillBytes_of_ok {n : ℕ} {drbg' : D} {dest filled : List.Vector U8 n}
    {additionalInput : List U8}
    (h : (Drbg.fillBytes additionalInput).run (ctx.drbg, dest) = .ok () (drbg', filled)) :
    (fillBytes additionalInput).run (ctx, dest) = .ok () ({ ctx with
      drbg := drbg'
      calls := ctx.calls ++ [.fillBytes additionalInput n filled.toList] }, filled) := by
  change fillBytes additionalInput (ctx, dest) = _
  simp only [fillBytes, h]

end Crypto

namespace CommandHandler

variable {D E : Type} [Drbg D] [EntropySource E]

/-- The context after the answer to whether the generator has to be reseeded. -/
def askedReseeding (ctx : CommandHandler D E) : CommandHandler D E :=
  { ctx with
    drbg := (Drbg.requiresReseeding ctx.drbg).2
    calls := ctx.calls ++ [.requiresReseeding (Drbg.requiresReseeding ctx.drbg).1] }

/-- The bytes of a default seed. -/
def defaultSeed (S : Type) [AsMut S] : List.Vector U8 (AsMut.asMut (AsMut.default : S)).length :=
  ⟨AsMut.asMut AsMut.default, rfl⟩

/-- The context after the default seed was filled from the entropy source. -/
def seeded (ctx : CommandHandler D E) : CommandHandler D E × Drbg.Entropy D :=
  let seed := defaultSeed (Drbg.Entropy D)
  let (entropy, filled) := EntropySource.fillEntropy ctx.entropy seed
  ({ ctx with
    entropy := entropy
    calls := ctx.calls ++ [.fillEntropy seed.toList filled.toList] },
    AsMut.setMut AsMut.default filled.toList)

theorem run_reseedIfRequired_of_not_required {ctx : CommandHandler D E}
    (h : (Drbg.requiresReseeding ctx.drbg).1 = false) :
    reseedIfRequired.run ctx = .ok () (askedReseeding ctx) := by
  rw [reseedIfRequired, run_bind_of_ok (Crypto.run_requiresReseeding ctx), h]
  simp [askedReseeding, h]

theorem run_reseedIfRequired_of_required {ctx : CommandHandler D E}
    (h : (Drbg.requiresReseeding ctx.drbg).1 = true) :
    reseedIfRequired.run ctx =
      (mapErr .ofDrbgError (Crypto.reseed (seeded (askedReseeding ctx)).2 [])).run
        (seeded (askedReseeding ctx)).1 := by
  rw [reseedIfRequired, run_bind_of_ok (Crypto.run_requiresReseeding ctx), if_pos h]
  exact run_bind_of_ok (Crypto.run_fillEntropy _ _)

/-- Without need the generator is only asked; otherwise it is reseeded from the source. -/
theorem run_reseedIfRequired {ctx : CommandHandler D E} (hD : CanDraw ctx.drbg) :
    ∃ ctx', reseedIfRequired.run ctx = .ok () ctx' ∧ CanFill ctx'.drbg ∧
      (ctx'.calls = ctx.calls ++ [.requiresReseeding false] ∨
        ∃ filled, ctx'.calls = ctx.calls ++ [.requiresReseeding true,
          .fillEntropy (AsMut.asMut (AsMut.default : Drbg.Entropy D)) filled,
          .reseed (AsMut.setMut AsMut.default filled) []]) := by
  cases hask : (Drbg.requiresReseeding ctx.drbg).1 with
  | false =>
    refine ⟨_, run_reseedIfRequired_of_not_required hask, hD.fill_ok hask, .inl ?_⟩
    rw [askedReseeding, hask]
  | true =>
    let seed := defaultSeed (Drbg.Entropy D)
    obtain ⟨drbg, hreseed, hfill⟩ := hD.reseed_ok hask (seeded (askedReseeding ctx)).2
    have hrun : (Crypto.reseed (seeded (askedReseeding ctx)).2 []).run
        (seeded (askedReseeding ctx)).1 = .ok () _ := Crypto.run_reseed_of_ok hreseed
    refine ⟨_, (run_reseedIfRequired_of_required hask).trans (run_mapErr_of_ok hrun), hfill,
      .inr ⟨(EntropySource.fillEntropy ctx.entropy seed).2.toList, ?_⟩⟩
    simp [seeded, askedReseeding, hask, seed, defaultSeed]

theorem run_tryGetRandom_eq_fillBytes {n : ℕ} {ctx ctx' : CommandHandler D E}
    (h : reseedIfRequired.run ctx = .ok () ctx') (dest : List.Vector U8 n) :
    tryGetRandom.run (ctx, dest) =
      (mapErr .ofDrbgError (Crypto.fillBytes [])).run (ctx', dest) := by
  unfold tryGetRandom
  rw [run_bind_of_ok (run_onFst_of_ok h dest)]

/-- A draw succeeds when the calls of the generator do. -/
theorem run_tryGetRandom {ctx : CommandHandler D E} (hD : CanDraw ctx.drbg) {n : ℕ}
    (dest : List.Vector U8 n) :
    ∃ ctx' payload, tryGetRandom.run (ctx, dest) = .ok () (ctx', payload) ∧
      Drawn ctx dest ctx' payload := by
  obtain ⟨ctx₁, hreseed, hcan, hcalls⟩ := run_reseedIfRequired hD
  obtain ⟨drbg, payload, hfill⟩ := hcan dest
  have hrun : tryGetRandom.run (ctx, dest) = .ok () ({ ctx₁ with
      drbg := drbg
      calls := ctx₁.calls ++ [.fillBytes [] n payload.toList] }, payload) := by
    rw [run_tryGetRandom_eq_fillBytes hreseed]
    exact run_mapErr_of_ok (Crypto.run_fillBytes_of_ok hfill)
  refine ⟨_, payload, hrun, ⟨ctx₁.drbg, hfill⟩, ?_⟩
  have hlen : payload.toList.length = n := payload.toList_length
  rcases hcalls with hcalls | ⟨filled, hcalls⟩
  · refine ⟨_, .direct, ?_⟩
    simp [hcalls, hlen]
  · refine ⟨_, .reseeded filled, ?_⟩
    simp [hcalls, hlen]

theorem exists_dest {response : List U8} {n : ℕ} (h : 10 + n ≤ response.length) :
    ∃ dest : List.Vector U8 n, (response.drop 10).take n = dest.toList := by
  have hlen : ((response.drop 10).take n).length = n := by
    rw [List.length_take, List.length_drop]
    omega
  exact ⟨array _ hlen, rfl⟩

theorem exists_tryGetRandom {ctx : CommandHandler D E} (hD : CanDraw ctx.drbg)
    {response : List U8} {n : ℕ} (h : 10 + n ≤ response.length) :
    ∃ (ctx' : CommandHandler D E) (dest payload : List.Vector U8 n),
      (response.drop 10).take n = dest.toList ∧
      tryGetRandom.run (ctx, dest) = .ok () (ctx', payload) ∧ Drawn ctx dest ctx' payload := by
  obtain ⟨dest, hdest⟩ := exists_dest h
  obtain ⟨ctx', payload, hdraw, hdrawn⟩ := run_tryGetRandom hD dest
  exact ⟨ctx', dest, payload, hdest, hdraw, hdrawn⟩

theorem run_tryGetRandom_congr (hO : Overwrites D) {ctx : CommandHandler D E}
    (hD : CanDraw ctx.drbg) {n : ℕ} (dest dest' : List.Vector U8 n) :
    tryGetRandom.run (ctx, dest) = tryGetRandom.run (ctx, dest') := by
  obtain ⟨ctx₁, hreseed, hcan, -⟩ := run_reseedIfRequired hD
  obtain ⟨drbg, payload, hfill⟩ := hcan dest
  have hfill' := hO ctx₁.drbg drbg dest dest' payload hfill
  rw [run_tryGetRandom_eq_fillBytes hreseed, run_tryGetRandom_eq_fillBytes hreseed,
    run_mapErr_of_ok (Crypto.run_fillBytes_of_ok hfill),
    run_mapErr_of_ok (Crypto.run_fillBytes_of_ok hfill')]

theorem run_getRandomOrFailureMode_of_ok {n : ℕ} {ctx ctx' : CommandHandler D E}
    {dest payload : List.Vector U8 n}
    (h : tryGetRandom.run (ctx, dest) = .ok () (ctx', payload)) :
    getRandomOrFailureMode.run (ctx, dest) = .ok () (ctx', payload) := by
  change getRandomOrFailureMode (ctx, dest) = _
  simp only [getRandomOrFailureMode, h]

end CommandHandler

/-- The generator of the unit tests: it counts. -/
structure FakeDrbg where
  counter : U8
  deriving DecidableEq

namespace FakeDrbg

/-- The next `n` values of the counter. -/
def next (counter : U8) : ℕ → List U8
  | 0 => []
  | n + 1 => (counter + 1) :: next (counter + 1) n

theorem length_next (counter : U8) (n : ℕ) : (next counter n).length = n := by
  induction n generalizing counter with
  | zero => rfl
  | succ n ih => simp [next, ih]

instance : Drbg FakeDrbg where
  Entropy := U8
  entropyAsMut := ⟨0, fun seed => [seed], fun seed bytes => bytes.headD seed⟩
  reseed entropyInput _ := fun self => .ok () ⟨self.counter + entropyInput⟩
  fillBytes {n} _ := fun (self, _) =>
    .ok () (⟨self.counter + BitVec.ofNat 8 n⟩, ⟨next self.counter n, length_next _ _⟩)
  requiresReseeding self := (false, self)

theorem canDraw (self : FakeDrbg) : CanDraw self :=
  ⟨fun _ _ _ => ⟨_, _, rfl⟩, nofun⟩

theorem overwrites : Overwrites FakeDrbg := fun _ _ _ _ _ h => h

end FakeDrbg

/-- The entropy source of the unit tests: it numbers the bytes. -/
structure FakeEntropy where
  deriving DecidableEq

instance : EntropySource FakeEntropy where
  fillEntropy {n} self _ := (self, .ofFn fun idx : Fin n => BitVec.ofNat 8 idx)

/-- The context of the unit tests. -/
def testContext : TpmContext FakeDrbg FakeEntropy := ⟨⟨0⟩, ⟨⟩, []⟩

/-- A generator that asks for a new seed before every draw and repeats two bytes. -/
structure RepeatingDrbg where
  seed : U8
  deriving DecidableEq

namespace RepeatingDrbg

instance : Drbg RepeatingDrbg where
  Entropy := U8
  entropyAsMut := ⟨0xFF, fun seed => [seed], fun seed bytes => bytes.headD seed⟩
  reseed entropyInput _ := fun _ => .ok () ⟨entropyInput⟩
  fillBytes {n} _ := fun (self, _) =>
    .ok () (self, .ofFn fun idx : Fin n => if idx.val % 2 = 0 then self.seed else 0x40)
  requiresReseeding self := (true, self)

theorem canDraw (self : RepeatingDrbg) : CanDraw self :=
  ⟨nofun, fun _ _ => ⟨_, rfl, fun _ => ⟨_, _, rfl⟩⟩⟩

end RepeatingDrbg

def repeatingContext : TpmContext RepeatingDrbg FakeEntropy := ⟨⟨0⟩, ⟨⟩, []⟩

/-- The request of the unit tests, for twelve bytes. -/
def testRequest : List U8 := [0x80, 0x01, 0, 0, 0, 0x0C, 0, 0, 0x01, 0x7B, 0, 0x0C]

end TpmRs
