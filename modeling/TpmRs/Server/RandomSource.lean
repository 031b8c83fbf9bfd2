import TpmRs.Library.Service
import TpmRs.Server.Failures

/-!
# The server as a source of random bytes

What a run does to the platform is a sequence of draws, one for each answered request.
The abstract source makes the draws on the generator and the entropy source alone; what
stands in the buffers afterwards is a matter of writing headers in front of the drawn
bytes. The server refines the source, also when a call of the generator fails.
-/

namespace TpmRs

open Library Library.Fallible Library.Slice

/-- The generator and the entropy source. -/
abbrev Platform (D E : Type) := D × E

variable {D E : Type} [Drbg D]

namespace Platform

/-- The next `n` bytes of the generator. -/
def emit (n : ℕ) (s : Platform D E) : Option (List U8 × Platform D E) :=
  match (Drbg.fillBytes []).run (s.1, (List.Vector.replicate n 0 : List.Vector U8 n)) with
  | .ok () (drbg, filled) => some (filled.toList, drbg, s.2)
  | .error _ _ => none

variable [EntropySource E]

/-- The generator is asked, and reseeded with fresh entropy if it has to be. -/
def ready (s : Platform D E) : Option (Platform D E) :=
  let (required, drbg) := Drbg.requiresReseeding s.1
  if required then
    match (Drbg.reseed (freshSeed s.2) []).run drbg with
    | .ok () drbg => some (drbg,
        (EntropySource.fillEntropy s.2 (CommandHandler.defaultSeed (Drbg.Entropy D))).1)
    | .error _ _ => none
  else some (drbg, s.2)

def draw (n : ℕ) (s : Platform D E) : Option (List U8 × Platform D E) := (ready s).bind (emit n)

/-- One draw after another; there is nothing after a failure. -/
def drawAll : List ℕ → Platform D E → Option (List (List U8) × Platform D E)
  | [], s => some ([], s)
  | n :: ns, s =>
    (draw n s).bind fun (payload, s) =>
      (drawAll ns s).map fun (payloads, s) => (payload :: payloads, s)

end Platform

/-- The platform of a server, without the record of calls. -/
def Crypto.platform (ctx : Crypto D E) : Platform D E := (ctx.drbg, ctx.entropy)

namespace Platform

variable {n : ℕ} {ctx ctx' : CommandHandler D E} {dest payload : List.Vector U8 n}

theorem emit_of_ok (hO : Overwrites D) {drbg : D}
    (h : (Drbg.fillBytes []).run (ctx.drbg, dest) = .ok () (drbg, payload)) :
    emit n ctx.platform = some (payload.toList, drbg, ctx.entropy) := by
  have hzeros := hO _ _ dest (List.Vector.replicate n 0) payload h
  simp only [emit, Crypto.platform, hzeros]

theorem emit_of_error (hO : Overwrites D) {e : Fault DrbgError} {s : D × List.Vector U8 n}
    (h : (Drbg.fillBytes []).run (ctx.drbg, dest) = .error e s) : emit n ctx.platform = none := by
  cases hzeros : (Drbg.fillBytes []).run
      (ctx.drbg, (List.Vector.replicate n 0 : List.Vector U8 n)) with
  | ok u t =>
    have hdest := hO _ _ _ dest t.2 hzeros
    rw [h] at hdest
    cases hdest
  | error e' t => simp only [emit, Crypto.platform, hzeros]

variable [EntropySource E]

/-- The source prepares the generator as the server does. -/
theorem ready_eq (ctx : CommandHandler D E) :
    ready ctx.platform =
      (observe Crypto.platform CommandHandler.reseedIfRequired ctx).map Prod.snd := by
  cases hask : (Drbg.requiresReseeding ctx.drbg).1 with
  | false =>
    rw [observe_of_ok (CommandHandler.run_reseedIfRequired_of_not_required hask)]
    simp [ready, Crypto.platform, hask, CommandHandler.askedReseeding]
  | true =>
    cases hreseed : (Drbg.reseed (freshSeed ctx.entropy) []).run
        (Drbg.requiresReseeding ctx.drbg).2 with
    | ok u drbg =>
      rw [observe_of_ok (CommandHandler.run_reseedIfRequired_of_ok hask hreseed)]
      simp [ready, Crypto.platform, hask, hreseed, CommandHandler.seeded,
        CommandHandler.askedReseeding]
    | error e drbg =>
      rw [observe_of_not_returns (CommandHandler.not_returns_reseedIfRequired hask hreseed)]
      simp [ready, Crypto.platform, hask, hreseed]

/-- The bytes that a draw of the server leaves in its destination are those of the source. -/
theorem draw_of_ok (hO : Overwrites D)
    (h : CommandHandler.tryGetRandom.run (ctx, dest) = .ok () (ctx', payload)) :
    draw n ctx.platform = some (payload.toList, ctx'.platform) := by
  cases hreseed : CommandHandler.reseedIfRequired.run ctx with
  | error e ctx₁ =>
    have hret := (returns_of_ok h).of_bind
    exact absurd (returns_onFst_iff.mp hret) (not_returns_of_error hreseed)
  | ok u ctx₁ =>
    rw [CommandHandler.run_tryGetRandom_eq_fillBytes hreseed, run_mapErr_eq_ok_iff] at h
    cases hfill : (Drbg.fillBytes []).run (ctx₁.drbg, dest) with
    | error e s =>
      rw [Crypto.run_fillBytes_of_error hfill] at h
      cases h
    | ok u s =>
      rw [Crypto.run_fillBytes_of_ok hfill] at h
      cases h
      rw [draw, ready_eq, observe_of_ok hreseed]
      exact emit_of_ok hO hfill

theorem draw_of_not_returns (hO : Overwrites D)
    (h : ¬Returns CommandHandler.tryGetRandom (ctx, dest)) : draw n ctx.platform = none := by
  cases hreseed : CommandHandler.reseedIfRequired.run ctx with
  | error e ctx₁ => rw [draw, ready_eq, observe_of_not_returns (not_returns_of_error hreseed)]; rfl
  | ok u ctx₁ =>
    rw [CommandHandler.returns_tryGetRandom_of_reseeded hreseed] at h
    obtain ⟨e, s, hfill⟩ := exists_error_of_not_returns h
    rw [draw, ready_eq, observe_of_ok hreseed]
    exact emit_of_error hO hfill

end Platform

/-- The output for an answered request whose drawn bytes are `payload`. -/
def Input.answer (self : Input) (payload : List U8) : Output :=
  ⟨10 + payload.length,
    successHeader payload.length ++ payload ++ self.response.drop (10 + payload.length)⟩

/-- The output for a rejected request. -/
def Input.refusal (self : Input) (e : TpmRcError) : Output :=
  ⟨(TpmContext.fillError self.response e).1, (TpmContext.fillError self.response e).2⟩

/-- The numbers of bytes that the answered requests ask for. -/
def requested (inputs : List Input) : List ℕ :=
  inputs.filterMap fun input => (decision input.request input.response.length).toOption

/-- The outputs when the answered requests are given the payloads in order. -/
def respondAll : List Input → List (List U8) → List Output
  | [], _ => []
  | input :: inputs, payloads =>
    match decision input.request input.response.length, payloads with
    | .ok _, payload :: payloads => input.answer payload :: respondAll inputs payloads
    | .ok _, [] => []
    | .error e, payloads => input.refusal e :: respondAll inputs payloads

section

variable [EntropySource E] {i : Input} {ctx ctx' : TpmContext D E} {n : ℕ}
  {dest payload : List.Vector U8 n}

theorem Input.run_serve_of_error {e : TpmRcError}
    (h : decision i.request i.response.length = .error e) (ctx : TpmContext D E) :
    i.serve.run ctx = .ok (i.refusal e) ctx :=
  run_serve_of_ok (execute_of_error ctx h)

theorem Input.run_serve_of_draw (h : decision i.request i.response.length = .ok n)
    (hdest : (i.response.drop 10).take n = dest.toList)
    (hdraw : CommandHandler.tryGetRandom.run (ctx, dest) = .ok () (ctx', payload)) :
    i.serve.run ctx = .ok (i.answer payload.toList) ctx' := by
  have hserve := run_serve_of_ok (execute_of_ok h hdest hdraw)
  rw [hserve, answer, payload.toList_length]

theorem Input.not_returns_serve (h : decision i.request i.response.length = .ok n)
    (hdest : (i.response.drop 10).take n = dest.toList)
    (hdraw : ¬Returns CommandHandler.tryGetRandom (ctx, dest)) : ¬Returns i.serve ctx := by
  rw [returns_serve_iff, not_not]
  exact (requestFails_iff h hdest).mpr
    (not_not.mp (mt CommandHandler.returns_tryGetRandom_iff.mpr hdraw))

theorem observe_serveAll_of_ok {output : Output} (h : i.serve.run ctx = .ok output ctx')
    (inputs : List Input) :
    observe Crypto.platform (serveAll (i :: inputs)) ctx =
      (observe Crypto.platform (serveAll inputs) ctx').map fun (outputs, s) =>
        (output :: outputs, s) := by
  cases hrest : (serveAll inputs).run ctx' with
  | ok outputs ctx'' =>
    rw [observe_of_ok hrest, Option.map_some]
    apply observe_of_ok
    rw [serveAll, run_bind_of_ok h, run_bind_of_ok hrest, EStateM.run_pure]
  | error e ctx'' =>
    rw [observe_of_not_returns (not_returns_of_error hrest), Option.map_none]
    apply observe_of_not_returns
    rw [serveAll, returns_bind_of_ok h]
    exact not_returns_of_error (run_bind_of_error hrest)

end

/-- A run of the server, over whatever requests and buffers, is the run of the source over the
numbers of bytes that its answered requests ask for, with headers in front of the payloads. The
one does not return exactly when the other does not. -/
theorem serveAll_refines [EntropySource E] (hO : Overwrites D) (inputs : List Input)
    (ctx : TpmContext D E) :
    observe Crypto.platform (serveAll inputs) ctx =
      (Platform.drawAll (requested inputs) ctx.platform).map fun (payloads, s) =>
        (respondAll inputs payloads, s) := by
  induction inputs generalizing ctx with
  | nil => rfl
  | cons input inputs ih =>
    cases h : decision input.request input.response.length with
    | error e =>
      have hrequested : requested (input :: inputs) = requested inputs := by
        simp [requested, h, Except.toOption]
      rw [observe_serveAll_of_ok (input.run_serve_of_error h ctx), ih, hrequested, Option.map_map]
      simp only [respondAll, h]
      rfl
    | ok n =>
      have hrequested : requested (input :: inputs) = n :: requested inputs := by
        simp [requested, h, Except.toOption]
      obtain ⟨dest, hdest⟩ := CommandHandler.exists_dest (decision_eq_ok_iff.mp h).2.2.2.2
      rw [hrequested, Platform.drawAll]
      by_cases hdraw : Returns CommandHandler.tryGetRandom (ctx, dest)
      · obtain ⟨u, ⟨ctx', payload⟩, hrun⟩ := hdraw
        rw [observe_serveAll_of_ok (Input.run_serve_of_draw h hdest hrun), ih,
          Platform.draw_of_ok hO hrun, Option.bind_some, Option.map_map, Option.map_map]
        simp only [respondAll, h]
        rfl
      · have hnot : ¬Returns (serveAll (input :: inputs)) ctx := fun hall =>
          Input.not_returns_serve h hdest hdraw hall.of_bind
        rw [observe_of_not_returns hnot, Platform.draw_of_not_returns hO hdraw]
        rfl

/-- Two answered requests with an empty one between them. -/
def testInputs : List Input :=
  [.separate testRequest (List.replicate 22 0xFF), .separate [] [],
    .inPlace (testRequest ++ List.replicate 10 0xFF) 12]

/-- The rejected request leaves no trace. -/
theorem serveAll_refines_testInputs :
    observe Crypto.platform (serveAll testInputs) testContext =
      (Platform.drawAll [12, 12] testContext.platform).map fun (payloads, s) =>
        (respondAll testInputs payloads, s) := by
  have hrequested : requested testInputs = [12, 12] := by decide
  rw [← hrequested]
  exact serveAll_refines FakeDrbg.overwrites testInputs testContext

end TpmRs
