import TpmRs.Server.RandomSource

/-!
# The life of a server

A server is created with a new entropy source, from which the generator is seeded, and
then serves requests. Over its whole life the entropy source is read for nothing but
seeds: twice when the server is created, and once for every reseeding that the generator
asks for. Each seed is handed over as it was read, in order, and none of them twice.
-/

namespace TpmRs

open Library Library.Fallible

/-- What creating a generator takes besides the methods that a server calls later. -/
class DrbgInstantiate (D : Type) [Drbg D] where
  Nonce : Type
  nonceAsMut : AsMut Nonce
  instantiate (entropyInput : Drbg.Entropy D) (nonce : Nonce) (personalizationString : List U8) :
    Except DrbgError D

instance {D : Type} [Drbg D] [DrbgInstantiate D] : AsMut (DrbgInstantiate.Nonce D) :=
  DrbgInstantiate.nonceAsMut

section

variable {D E : Type} [Drbg D] [DrbgInstantiate D] [EntropySource E]

/-- `Crypto::new`, where `EntropySource::instantiate` has returned the source. -/
def Crypto.new (entropySource : E) : Except ServerError (Crypto D E) := do
  let (entropySource, filled) :=
    EntropySource.fillEntropy entropySource (CommandHandler.defaultSeed (Drbg.Entropy D))
  let entropyInput : Drbg.Entropy D := AsMut.setMut AsMut.default filled.toList
  let (entropySource, filled) :=
    EntropySource.fillEntropy entropySource (CommandHandler.defaultSeed (DrbgInstantiate.Nonce D))
  let nonce : DrbgInstantiate.Nonce D := AsMut.setMut AsMut.default filled.toList
  let drbg ← (DrbgInstantiate.instantiate entropyInput nonce []).mapError .ofDrbgError
  pure ⟨drbg, entropySource, []⟩

def CommandHandler.new (entropySource : E) : Except ServerError (CommandHandler D E) :=
  Crypto.new entropySource

def TpmContext.new (entropySource : E) : Except ServerError (TpmContext D E) :=
  CommandHandler.new entropySource

end

/-- A read of the entropy source: the destination before and after it. -/
abbrev Read := List U8 × List U8

/-- The source is read once for each of the reads, one after the other, and for nothing else. -/
inductive Yields {E : Type} [EntropySource E] : E → List Read → E → Prop
  | nil (entropy : E) : Yields entropy [] entropy
  | cons {entropy entropy' : E} {reads : List Read} {n : ℕ} (dest : List.Vector U8 n)
    (h : Yields (EntropySource.fillEntropy entropy dest).1 reads entropy') :
    Yields entropy
      ((dest.toList, (EntropySource.fillEntropy entropy dest).2.toList) :: reads) entropy'

theorem Yields.append {E : Type} [EntropySource E] {entropy entropy' entropy'' : E}
    {reads reads' : List Read} (h : Yields entropy reads entropy')
    (h' : Yields entropy' reads' entropy'') : Yields entropy (reads ++ reads') entropy'' := by
  induction h with
  | nil => exact h'
  | cons dest _ ih => exact .cons dest (ih h')

variable {D : Type} [Drbg D]

namespace Call

def asRead : Call D → Option Read
  | .fillEntropy dest filled => some (dest, filled)
  | _ => none

/-- The seed of a reseeding. -/
def asSeed : Call D → Option (Drbg.Entropy D)
  | .reseed entropyInput _ => some entropyInput
  | _ => none

/-- The generator asked to be reseeded. -/
def isDemand : Call D → Bool
  | .requiresReseeding answer => answer
  | _ => false

end Call

/-- The calls between two states of the entropy source read it as often as the generator asked
to be reseeded, and every read became the seed of a reseeding. -/
structure Accounted {E : Type} [EntropySource E] (entropy : E) (calls : List (Call D))
    (entropy' : E) : Prop where
  yields : Yields entropy (calls.filterMap Call.asRead) entropy'
  seeds : calls.filterMap Call.asSeed =
    (calls.filterMap Call.asRead).map fun read => AsMut.setMut AsMut.default read.2
  demands : calls.countP Call.isDemand = (calls.filterMap Call.asRead).length

variable {E : Type} [EntropySource E]

theorem Accounted.nil (entropy : E) : Accounted (D := D) entropy [] entropy :=
  ⟨.nil entropy, rfl, rfl⟩

theorem Accounted.append {entropy entropy' entropy'' : E} {calls calls' : List (Call D)}
    (h : Accounted entropy calls entropy') (h' : Accounted entropy' calls' entropy'') :
    Accounted entropy (calls ++ calls') entropy'' where
  yields := by
    rw [List.filterMap_append]
    exact h.yields.append h'.yields
  seeds := by rw [List.filterMap_append, List.filterMap_append, List.map_append, h.seeds, h'.seeds]
  demands := by
    rw [List.filterMap_append, List.countP_append, List.length_append, h.demands, h'.demands]

/-- From `ctx` to `ctx'` at most `n` reseedings happened, and all seeds are accounted for. -/
def Accounts (n : ℕ) (ctx ctx' : CommandHandler D E) : Prop :=
  ∃ calls, ctx'.calls = ctx.calls ++ calls ∧ Accounted ctx.entropy calls ctx'.entropy ∧
    calls.countP Call.isDemand ≤ n

namespace Accounts

variable {n : ℕ} {ctx ctx' ctx'' : CommandHandler D E}

theorem refl (ctx : CommandHandler D E) : Accounts 0 ctx ctx :=
  ⟨[], (List.append_nil _).symm, .nil _, Nat.le_refl 0⟩

theorem trans {m : ℕ} (h : Accounts n ctx ctx') (h' : Accounts m ctx' ctx'') :
    Accounts (n + m) ctx ctx'' := by
  obtain ⟨calls, hcalls, haccounted, hle⟩ := h
  obtain ⟨calls', hcalls', haccounted', hle'⟩ := h'
  refine ⟨calls ++ calls', ?_, haccounted.append haccounted', ?_⟩
  · rw [hcalls', hcalls, List.append_assoc]
  · rw [List.countP_append]
    exact Nat.add_le_add hle hle'

/-- The generator is reseeded only if it asks for it, with the seed that was just read. -/
theorem reseedIfRequired (h : CommandHandler.reseedIfRequired.run ctx = .ok () ctx') :
    Accounts 1 ctx ctx' := by
  cases hask : (Drbg.requiresReseeding ctx.drbg).1 with
  | false =>
    rw [CommandHandler.run_reseedIfRequired_of_not_required hask] at h
    cases h
    refine ⟨[.requiresReseeding false], ?_, ⟨.nil _, rfl, rfl⟩, Nat.zero_le 1⟩
    simp [CommandHandler.askedReseeding, hask]
  | true =>
    cases hreseed : (Drbg.reseed (freshSeed ctx.entropy) []).run
        (Drbg.requiresReseeding ctx.drbg).2 with
    | error e drbg =>
      exact absurd (returns_of_ok h) (CommandHandler.not_returns_reseedIfRequired hask hreseed)
    | ok u drbg =>
      rw [CommandHandler.run_reseedIfRequired_of_ok hask hreseed] at h
      cases h
      let seed := CommandHandler.defaultSeed (Drbg.Entropy D)
      refine ⟨[.requiresReseeding true,
        .fillEntropy seed.toList (EntropySource.fillEntropy ctx.entropy seed).2.toList,
        .reseed (freshSeed ctx.entropy) []], ?_, ⟨.cons seed (.nil _), rfl, rfl⟩, Nat.le_refl 1⟩
      simp [CommandHandler.seeded, CommandHandler.askedReseeding, hask, seed, freshSeed]

theorem fillBytes {len : ℕ} {dest payload : List.Vector U8 len}
    (h : (Crypto.fillBytes []).run (ctx, dest) = .ok () (ctx', payload)) : Accounts 0 ctx ctx' := by
  cases hfill : (Drbg.fillBytes []).run (ctx.drbg, dest) with
  | error e s =>
    rw [Crypto.run_fillBytes_of_error hfill] at h
    cases h
  | ok u s =>
    rw [Crypto.run_fillBytes_of_ok hfill] at h
    cases h
    exact ⟨[.fillBytes [] len s.2.toList], rfl, ⟨.nil _, rfl, rfl⟩, Nat.le_refl 0⟩

theorem tryGetRandom {len : ℕ} {dest payload : List.Vector U8 len}
    (h : CommandHandler.tryGetRandom.run (ctx, dest) = .ok () (ctx', payload)) :
    Accounts 1 ctx ctx' := by
  cases hreseed : CommandHandler.reseedIfRequired.run ctx with
  | error e ctx₁ =>
    have hret := (returns_of_ok h).of_bind
    exact absurd (returns_onFst_iff.mp hret) (not_returns_of_error hreseed)
  | ok u ctx₁ =>
    rw [CommandHandler.run_tryGetRandom_eq_fillBytes hreseed, run_mapErr_eq_ok_iff] at h
    exact (reseedIfRequired hreseed).trans (fillBytes h)

end Accounts

/-- A served request is rejected and changes nothing, or is answered after one draw. -/
theorem Input.run_serve_cases {i : Input} {ctx ctx' : TpmContext D E} {output : Output}
    (h : i.serve.run ctx = .ok output ctx') :
    ¬output.Succeeded ∧ ctx' = ctx ∨
      output.Succeeded ∧ ∃ (n : ℕ) (dest payload : List.Vector U8 n),
        CommandHandler.tryGetRandom.run (ctx, dest) = .ok () (ctx', payload) := by
  cases hdecision : decision i.request i.response.length with
  | error e =>
    rw [i.run_serve_of_error hdecision] at h
    cases h
    exact .inl ⟨not_succeeded_of_fillError _ e, rfl⟩
  | ok n =>
    obtain ⟨dest, hdest⟩ := CommandHandler.exists_dest (decision_eq_ok_iff.mp hdecision).2.2.2.2
    by_cases hdraw : Returns CommandHandler.tryGetRandom (ctx, dest)
    · obtain ⟨u, ⟨ctx'', payload⟩, hrun⟩ := hdraw
      rw [run_serve_of_draw hdecision hdest hrun] at h
      cases h
      refine .inr ⟨?_, n, dest, payload, hrun⟩
      rw [answer, payload.toList_length]
      exact succeeded_of_successHeader payload _
    · exact absurd (returns_of_ok h) (not_returns_serve hdecision hdest hdraw)

theorem Accounts.serve {i : Input} {ctx ctx' : TpmContext D E} {output : Output}
    (h : i.serve.run ctx = .ok output ctx') :
    Accounts (List.countP (·.Succeeded) [output]) ctx ctx' := by
  rcases i.run_serve_cases h with ⟨hfail, rfl⟩ | ⟨hsucc, n, dest, payload, hrun⟩
  · simpa [hfail] using Accounts.refl ctx'
  · simpa [hsucc] using Accounts.tryGetRandom hrun

theorem Accounts.serveAll {inputs : List Input} {ctx ctx' : TpmContext D E}
    {outputs : List Output} (h : (serveAll inputs).run ctx = .ok outputs ctx') :
    Accounts (outputs.countP (·.Succeeded)) ctx ctx' := by
  induction inputs generalizing ctx outputs with
  | nil =>
    cases h
    exact .refl _
  | cons input inputs ih =>
    obtain ⟨output, ctx₁, hserve, hrest⟩ := run_bind_eq_ok_iff.mp h
    obtain ⟨outputs', ctx₂, hrun, hpure⟩ := run_bind_eq_ok_iff.mp hrest
    cases hpure
    rw [← List.singleton_append, List.countP_append]
    exact (serve hserve).trans (ih hrun)

section

variable [DrbgInstantiate D]

theorem TpmContext.new_eq_ok {source : E} {ctx : TpmContext D E} (h : new source = .ok ctx) :
    ∃ entropyInput nonce : List U8,
      Yields source [(AsMut.asMut (AsMut.default : Drbg.Entropy D), entropyInput),
        (AsMut.asMut (AsMut.default : DrbgInstantiate.Nonce D), nonce)] ctx.entropy ∧
      DrbgInstantiate.instantiate (AsMut.setMut AsMut.default entropyInput)
        (AsMut.setMut AsMut.default nonce) [] = .ok ctx.drbg ∧ ctx.calls = [] := by
  let entropyInput := EntropySource.fillEntropy source
    (CommandHandler.defaultSeed (Drbg.Entropy D))
  let nonce := EntropySource.fillEntropy entropyInput.1
    (CommandHandler.defaultSeed (DrbgInstantiate.Nonce D))
  have hyields : Yields source [((CommandHandler.defaultSeed (Drbg.Entropy D)).toList,
      entropyInput.2.toList), ((CommandHandler.defaultSeed (DrbgInstantiate.Nonce D)).toList,
        nonce.2.toList)] nonce.1 :=
    .cons (CommandHandler.defaultSeed _) (.cons (CommandHandler.defaultSeed _) (.nil _))
  have hnew : new source = (DrbgInstantiate.instantiate (D := D) (AsMut.setMut AsMut.default
      entropyInput.2.toList) (AsMut.setMut AsMut.default nonce.2.toList) []).mapError
        ServerError.ofDrbgError >>= fun drbg => pure ⟨drbg, nonce.1, []⟩ := rfl
  rw [hnew] at h
  cases hdrbg : DrbgInstantiate.instantiate (D := D) (AsMut.setMut AsMut.default
      entropyInput.2.toList) (AsMut.setMut AsMut.default nonce.2.toList) [] with
  | error e =>
    rw [hdrbg] at h
    cases h
  | ok drbg =>
    rw [hdrbg] at h
    cases h
    exact ⟨_, _, hyields, hdrbg, rfl⟩

/-- From its creation on and whatever is requested of the server, the reads of the entropy source
are the two of the creation and one for each reseeding that the generator asked for, at most one
for each answered request, and each of them became a seed, in order. -/
theorem serveAll_seeds {source : E} {ctx₀ ctx : TpmContext D E} {inputs : List Input}
    {outputs : List Output} (hnew : TpmContext.new source = .ok ctx₀)
    (hrun : (serveAll inputs).run ctx₀ = .ok outputs ctx) :
    ∃ entropyInput nonce : List U8, ∃ reads : List Read,
      Yields source ((AsMut.asMut (AsMut.default : Drbg.Entropy D), entropyInput) ::
        (AsMut.asMut (AsMut.default : DrbgInstantiate.Nonce D), nonce) :: reads) ctx.entropy ∧
      DrbgInstantiate.instantiate (AsMut.setMut AsMut.default entropyInput)
        (AsMut.setMut AsMut.default nonce) [] = .ok ctx₀.drbg ∧
      ctx.calls.filterMap Call.asRead = reads ∧
      ctx.calls.filterMap Call.asSeed =
        reads.map (fun read => AsMut.setMut AsMut.default read.2) ∧
      ctx.calls.countP Call.isDemand = reads.length ∧
      reads.length ≤ outputs.countP (·.Succeeded) := by
  obtain ⟨entropyInput, nonce, hyields, hdrbg, hempty⟩ := TpmContext.new_eq_ok hnew
  obtain ⟨calls, hcalls, haccounted, hle⟩ := (Accounts.serveAll hrun)
  rw [hempty, List.nil_append] at hcalls
  subst hcalls
  exact ⟨entropyInput, nonce, _, hyields.append haccounted.yields, hdrbg, rfl, haccounted.seeds,
    haccounted.demands, haccounted.demands ▸ hle⟩

end

namespace RepeatingDrbg

instance : DrbgInstantiate RepeatingDrbg where
  Nonce := U8 × U8
  nonceAsMut := ⟨(0xFF, 0xFF), fun nonce => [nonce.1, nonce.2],
    fun nonce bytes => (bytes.headD nonce.1, bytes.tail.headD nonce.2)⟩
  instantiate entropyInput _ _ := .ok ⟨entropyInput⟩

theorem new_eq : TpmContext.new FakeEntropy.mk = .ok repeatingContext := rfl

end RepeatingDrbg

/-- Two requests that are answered, around one that is too short. -/
def threeRequests : List Input :=
  [.separate testRequest (List.replicate 22 0xFF), .separate [] (List.replicate 22 0xFF),
    .inPlace (testRequest ++ List.replicate 10 0xFF) 12]

theorem serveAll_seeds_threeRequests :
    ∃ outputs ctx, (serveAll threeRequests).run repeatingContext = .ok outputs ctx ∧
      outputs.countP (·.Succeeded) = 2 ∧
      ∃ entropyInput nonce : List U8, Yields FakeEntropy.mk [([0xFF], entropyInput),
        ([0xFF, 0xFF], nonce), ([0xFF], [0]), ([0xFF], [0])] ctx.entropy ∧
      ctx.calls.filterMap Call.asSeed = ([0, 0] : List U8) ∧
      ctx.calls.countP Call.isDemand = 2 := by
  have hrun : (serveAll threeRequests).run repeatingContext = .ok _ _ := rfl
  obtain ⟨entropyInput, nonce, reads, hyields, -, hreads, hseeds, hdemands, -⟩ :=
    serveAll_seeds RepeatingDrbg.new_eq hrun
  have htwo : reads = [([0xFF], [0]), ([0xFF], [0])] := hreads.symm
  subst htwo
  exact ⟨_, _, hrun, by decide, entropyInput, nonce, hyields, hseeds, hdemands⟩

end TpmRs
