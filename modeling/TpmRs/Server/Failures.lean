import TpmRs.Library.Runs
import TpmRs.Server.Runs

/-!
# Failures of the generator

A generator may refuse to be reseeded or to fill the response. The handler does not
return such a failure but aborts, so a request is survived exactly when the draw for it
succeeds, and a run exactly when every draw of it does.
-/

namespace TpmRs

open Library Library.Fallible Library.Slice

variable {D E : Type} [Drbg D] [EntropySource E]

/-- The entropy input of a reseeding. -/
def freshSeed (entropy : E) : Drbg.Entropy D :=
  let seed := CommandHandler.defaultSeed (Drbg.Entropy D)
  AsMut.setMut AsMut.default (EntropySource.fillEntropy entropy seed).2.toList

/-- A call of the generator for a draw over `dest` fails: the reseeding if one is required, or
the fill after it. -/
def DrawFails {n : ℕ} (ctx : CommandHandler D E) (dest : List.Vector U8 n) : Prop :=
  let (required, drbg) := Drbg.requiresReseeding ctx.drbg
  if required then
    match (Drbg.reseed (freshSeed ctx.entropy) []).run drbg with
    | .ok () drbg => ¬Returns (Drbg.fillBytes []) (drbg, dest)
    | .error _ _ => True
  else ¬Returns (Drbg.fillBytes []) (drbg, dest)

section

omit [EntropySource E]

namespace Crypto

variable {ctx : Crypto D E} {drbg' : D} {e : Fault DrbgError} {additionalInput : List U8}

theorem run_reseed_of_error {entropyInput : Drbg.Entropy D}
    (h : (Drbg.reseed entropyInput additionalInput).run ctx.drbg = .error e drbg') :
    (reseed entropyInput additionalInput).run ctx = .error e { ctx with
      drbg := drbg'
      calls := ctx.calls ++ [.reseed entropyInput additionalInput] } := by
  change reseed entropyInput additionalInput ctx = _
  simp only [reseed, h]

theorem run_fillBytes_of_error {n : ℕ} {dest filled : List.Vector U8 n}
    (h : (Drbg.fillBytes additionalInput).run (ctx.drbg, dest) = .error e (drbg', filled)) :
    (fillBytes additionalInput).run (ctx, dest) = .error e ({ ctx with
      drbg := drbg'
      calls := ctx.calls ++ [.fillBytes additionalInput n filled.toList] }, filled) := by
  change fillBytes additionalInput (ctx, dest) = _
  simp only [fillBytes, h]

theorem returns_fillBytes_iff (ctx : Crypto D E) {n : ℕ} (dest : List.Vector U8 n) :
    Returns (fillBytes additionalInput) (ctx, dest) ↔
      Returns (Drbg.fillBytes additionalInput) (ctx.drbg, dest) := by
  cases h : (Drbg.fillBytes additionalInput).run (ctx.drbg, dest) with
  | ok _ _ => exact iff_of_true (returns_of_ok (run_fillBytes_of_ok h)) (returns_of_ok h)
  | error _ _ =>
    exact iff_of_false (not_returns_of_error (run_fillBytes_of_error h)) (not_returns_of_error h)

end Crypto

end

namespace CommandHandler

variable {ctx : CommandHandler D E} {n : ℕ} {dest : List.Vector U8 n}

theorem run_reseedIfRequired_of_ok (hask : (Drbg.requiresReseeding ctx.drbg).1 = true) {drbg : D}
    (h : (Drbg.reseed (freshSeed ctx.entropy) []).run (Drbg.requiresReseeding ctx.drbg).2 =
      .ok () drbg) :
    reseedIfRequired.run ctx = .ok () { (seeded (askedReseeding ctx)).1 with
      drbg := drbg
      calls := (seeded (askedReseeding ctx)).1.calls ++ [.reseed (freshSeed ctx.entropy) []] } :=
  (run_reseedIfRequired_of_required hask).trans (run_mapErr_of_ok (Crypto.run_reseed_of_ok h))

theorem not_returns_reseedIfRequired (hask : (Drbg.requiresReseeding ctx.drbg).1 = true) {drbg : D}
    {e : Fault DrbgError}
    (h : (Drbg.reseed (freshSeed ctx.entropy) []).run (Drbg.requiresReseeding ctx.drbg).2 =
      .error e drbg) : ¬Returns reseedIfRequired ctx := by
  have herror : (Crypto.reseed (seeded (askedReseeding ctx)).2 []).run
      (seeded (askedReseeding ctx)).1 = .error e _ := Crypto.run_reseed_of_error h
  rw [returns_congr (run_reseedIfRequired_of_required hask), returns_mapErr_iff]
  exact not_returns_of_error herror

theorem returns_tryGetRandom_of_reseeded {ctx' : CommandHandler D E}
    (h : reseedIfRequired.run ctx = .ok () ctx') :
    Returns tryGetRandom (ctx, dest) ↔ Returns (Drbg.fillBytes []) (ctx'.drbg, dest) :=
  calc Returns tryGetRandom (ctx, dest)
      ↔ Returns (mapErr ServerError.ofDrbgError (Crypto.fillBytes [])) (ctx', dest) :=
        returns_congr (run_tryGetRandom_eq_fillBytes h dest)
    _ ↔ Returns (Crypto.fillBytes []) (ctx', dest) := returns_mapErr_iff
    _ ↔ Returns (Drbg.fillBytes []) (ctx'.drbg, dest) := Crypto.returns_fillBytes_iff ctx' dest

theorem returns_tryGetRandom_iff : Returns tryGetRandom (ctx, dest) ↔ ¬DrawFails ctx dest := by
  cases hask : (Drbg.requiresReseeding ctx.drbg).1 with
  | false =>
    rw [returns_tryGetRandom_of_reseeded (run_reseedIfRequired_of_not_required hask)]
    simp [DrawFails, hask, askedReseeding]
  | true =>
    cases hreseed : (Drbg.reseed (freshSeed ctx.entropy) []).run
        (Drbg.requiresReseeding ctx.drbg).2 with
    | ok u drbg =>
      rw [returns_tryGetRandom_of_reseeded (run_reseedIfRequired_of_ok hask hreseed)]
      simp [DrawFails, hask, hreseed]
    | error e drbg =>
      have hnot := not_returns_reseedIfRequired hask hreseed
      refine iff_of_false (fun h => hnot (returns_onFst_iff.mp h.of_bind)) (not_not.mpr ?_)
      simp [DrawFails, hask, hreseed]

theorem not_drawFails_of_canDraw (hD : CanDraw ctx.drbg) : ¬DrawFails ctx dest := by
  obtain ⟨ctx', payload, hrun, -⟩ := run_tryGetRandom hD dest
  exact returns_tryGetRandom_iff.mp (returns_of_ok hrun)

theorem run_getRandomOrFailureMode_of_error {e : Fault ServerError}
    {s : CommandHandler D E × List.Vector U8 n} (h : tryGetRandom.run (ctx, dest) = .error e s) :
    getRandomOrFailureMode.run (ctx, dest) = .error .panic s := by
  change getRandomOrFailureMode (ctx, dest) = _
  simp only [getRandomOrFailureMode, h]

end CommandHandler

/-- The draw for the request `q` over the bytes of the response `r`, if there is one, fails. -/
def RequestFails (q r : List U8) (ctx : TpmContext D E) : Prop :=
  ∃ (n : ℕ) (dest : List.Vector U8 n), decision q r.length = .ok n ∧
    (r.drop 10).take n = dest.toList ∧ DrawFails ctx dest

section

variable {q r : List U8} {ctx : TpmContext D E} {n : ℕ}

theorem requestFails_iff {dest : List.Vector U8 n} (h : decision q r.length = .ok n)
    (hdest : (r.drop 10).take n = dest.toList) : RequestFails q r ctx ↔ DrawFails ctx dest := by
  constructor
  · intro hfails
    rcases hfails with ⟨n', dest', h', hdest', hfails⟩
    rw [h, Except.ok.injEq] at h'
    subst h'
    obtain rfl : dest = dest' := List.Vector.eq _ _ (hdest.symm.trans hdest')
    exact hfails
  · intro hfails
    exact ⟨n, dest, h, hdest, hfails⟩

end

section

variable {B R : Type} [TpmReadBuffer R] [TpmBuffers B R] {b : B} {q : List U8}
  {ctx : TpmContext D E} {n o : ℕ} {dest : List.Vector U8 n}

theorem run_executeRequest_of_drawFails (hq : Reads b q)
    (h : decision q (TpmBuffers.getResponse b).length = .ok n)
    (hdest : ((TpmBuffers.getResponse b).drop 10).take n = dest.toList)
    (hfails : DrawFails ctx dest) :
    ∃ s, (TpmContext.executeRequest q.length).run
      (ctx, (⟨b, 0, 10⟩ : RequestResponseCursor B)) = .error .panic s := by
  obtain ⟨hsize, hcode, hparam, rfl, hcapacity⟩ := decision_eq_ok_iff.mp h
  obtain ⟨e, s, hdraw⟩ := exists_error_of_not_returns
    (mt CommandHandler.returns_tryGetRandom_iff.mp (not_not.mpr hfails))
  obtain ⟨s', hwrite⟩ := run_writeCallback_of_panic (o := 12) hcapacity hdest
    (CommandHandler.run_getRandomOrFailureMode_of_error hdraw)
  have hrun : CommandHandler.getRandom.run (ctx, (⟨b, 10, 10⟩ : RequestResponseCursor B)) =
      .error .panic s' := by
    rw [run_getRandom_of_le hq ctx hparam]
    exact run_mapErr_of_panic hwrite
  rw [run_executeRequest_of_size hq ctx hsize (by omega), TpmContext.dispatch,
    if_pos ((commandCode_eq_getRandom_iff q).mpr hcode)]
  exact ⟨s', run_bind_of_error hrun⟩

theorem TpmContext.run_executeCommand_of_requestFails (hq : Reads b q)
    (h : RequestFails q (TpmBuffers.getResponse b) ctx) :
    ∃ s, executeCommand.run (ctx, b) = .error .panic s := by
  rcases h with ⟨n, dest, h, hdest, hfails⟩
  obtain ⟨s, hrun⟩ := run_executeRequest_of_drawFails hq h hdest hfails
  refine ⟨(s.1, s.2.buffers), ?_⟩
  change executeCommand (ctx, b) = _
  simp only [executeCommand, hq.len_eq, hrun]

/-- A command is executed exactly when it is answered and its draw succeeds. -/
theorem TpmContext.returns_executeCommand_iff [LawfulTpmBuffers B] (hq : Reads b q) :
    Returns executeCommand (ctx, b) ↔ Answered q (TpmBuffers.getResponse b).length ∧
      ¬RequestFails q (TpmBuffers.getResponse b) ctx := by
  cases h : decision q (TpmBuffers.getResponse b).length with
  | error e =>
    exact iff_of_false (not_returns_of_error (run_executeCommand_of_error hq ctx h))
      fun hans => not_answered_of_decision h hans.1
  | ok n =>
    obtain ⟨dest, hdest⟩ := CommandHandler.exists_dest (decision_eq_ok_iff.mp h).2.2.2.2
    rw [requestFails_iff h hdest]
    by_cases hfails : DrawFails ctx dest
    · obtain ⟨s, hrun⟩ :=
        run_executeCommand_of_requestFails hq ((requestFails_iff h hdest).mpr hfails)
      exact iff_of_false (not_returns_of_error hrun) fun hans => hans.2 hfails
    · obtain ⟨u, ⟨ctx', payload⟩, hdraw⟩ := CommandHandler.returns_tryGetRandom_iff.mpr hfails
      exact iff_of_true (returns_of_ok (run_executeCommand_of_ok hq h hdest hdraw))
        ⟨answered_of_decision h, hfails⟩

end

namespace Input

/-- A call of the generator for the request fails. -/
def DrawFails (self : Input) (ctx : TpmContext D E) : Prop :=
  RequestFails self.request self.response ctx

/-- The call returns a count, and a failure of the generator shows in the response code. -/
def Survives (self : Input) (ctx : TpmContext D E) : Prop :=
  ∃ output ctx', self.serve.run ctx = .ok output ctx' ∧
    (self.DrawFails ctx → be output.response 6 4 ≠ 0)

variable {i : Input} {ctx : TpmContext D E}

theorem execute_of_drawFails (h : i.DrawFails ctx) : ∃ s, i.execute ctx = .error .panic s := by
  cases i with
  | separate q r =>
    obtain ⟨s, hrun⟩ :=
      TpmContext.run_executeCommand_of_requestFails (SeparateBuffers.reads q r) h
    refine ⟨(s.1, s.2.writer), ?_⟩
    change TpmContext.executeCommandSeparate q (ctx, r) = _
    simp only [TpmContext.executeCommandSeparate, hrun]
  | inPlace w m =>
    obtain ⟨s, hrun⟩ := TpmContext.run_executeCommand_of_requestFails (InOutBuffer.reads w m) h
    refine ⟨(s.1, s.2.buffer), ?_⟩
    change TpmContext.executeCommandInPlace m (ctx, w) = _
    simp only [TpmContext.executeCommandInPlace, hrun]

theorem not_drawFails_of_canDraw (hD : CanDraw ctx.drbg) : ¬i.DrawFails ctx := by
  intro h
  rcases h with ⟨n, dest, -, -, hfails⟩
  exact CommandHandler.not_drawFails_of_canDraw hD hfails

theorem returns_serve_iff : Returns i.serve ctx ↔ ¬i.DrawFails ctx := by
  by_cases hfails : i.DrawFails ctx
  · obtain ⟨s, hrun⟩ := execute_of_drawFails hfails
    have hserve : i.serve.run ctx = .error .panic s.1 := by
      change i.serve ctx = _
      simp only [serve, hrun]
    exact iff_of_false (not_returns_of_error hserve) (not_not.mpr hfails)
  · refine iff_of_true ?_ hfails
    cases h : decision i.request i.response.length with
    | error e => exact returns_of_ok (run_serve_of_ok (execute_of_error ctx h))
    | ok n =>
      obtain ⟨dest, hdest⟩ := CommandHandler.exists_dest (decision_eq_ok_iff.mp h).2.2.2.2
      obtain ⟨u, ⟨ctx', payload⟩, hdraw⟩ := CommandHandler.returns_tryGetRandom_iff.mpr
        (mt (requestFails_iff h hdest).mpr hfails)
      exact returns_of_ok (run_serve_of_ok (execute_of_ok h hdest hdraw))

theorem survives_iff : i.Survives ctx ↔ ¬i.DrawFails ctx := by
  constructor
  · intro h
    rcases h with ⟨output, ctx', hrun, -⟩
    exact returns_serve_iff.mp (returns_of_ok hrun)
  · intro h
    obtain ⟨output, ctx', hrun⟩ := returns_serve_iff.mpr h
    exact ⟨output, ctx', hrun, fun hfails => absurd hfails h⟩

end Input

theorem returns_serveAll_iff (inputs : List Input) (ctx : TpmContext D E) :
    Returns (serveAll inputs) ctx ↔
      AlongRun Input.serve (fun input ctx => Returns input.serve ctx) inputs ctx := by
  induction inputs generalizing ctx with
  | nil => exact iff_of_true ⟨[], ctx, rfl⟩ trivial
  | cons input inputs ih =>
    cases h : input.serve.run ctx with
    | error e ctx' =>
      exact iff_of_false (not_returns_of_error (run_bind_of_error h))
        fun hall => not_returns_of_error h hall.1
    | ok output ctx' =>
      rw [alongRun_cons_of_ok h, ← ih ctx', serveAll, returns_bind_of_ok h]
      constructor
      · intro hrest
        exact ⟨returns_of_ok h, hrest.of_bind⟩
      · intro hrest
        rcases hrest with ⟨-, outputs, ctx'', hrun⟩
        exact (returns_bind_of_ok hrun).mpr ⟨output :: outputs, ctx'', rfl⟩

/-- A run returns all its counts, with every failure of the generator in a response code,
exactly when no call of the generator fails in it. -/
theorem serveAll_survives_iff (inputs : List Input) (ctx : TpmContext D E) :
    (Returns (serveAll inputs) ctx ∧ AlongRun Input.serve Input.Survives inputs ctx) ↔
      AlongRun Input.serve (fun input ctx => ¬input.DrawFails ctx) inputs ctx := by
  rw [returns_serveAll_iff, ← alongRun_and]
  apply alongRun_congr
  intro input ctx
  rw [Input.returns_serve_iff, Input.survives_iff, and_self]

/-- A generator whose calls all fail. -/
structure FailingDrbg where
  required : Bool
  deriving DecidableEq

instance : Drbg FailingDrbg where
  Entropy := U8
  entropyAsMut := ⟨0, fun seed => [seed], fun seed bytes => bytes.headD seed⟩
  reseed _ _ := fail ⟨⟩
  fillBytes _ := fail ⟨⟩
  requiresReseeding self := (self.required, self)

/-- A context whose generator fails at the reseeding or at the fill. -/
def failingContext (required : Bool) : TpmContext FailingDrbg FakeEntropy := ⟨⟨required⟩, ⟨⟩, []⟩

/-- Either failure aborts either entry point. -/
theorem not_survives_failingContext :
    (∃ s, (Input.separate testRequest (List.replicate 22 0xFF)).execute (failingContext false) =
        .error .panic s) ∧
      ¬(Input.separate testRequest (List.replicate 22 0xFF)).Survives (failingContext false) ∧
    (∃ s, (Input.inPlace (testRequest ++ List.replicate 10 0xFF) 12).execute (failingContext true) =
        .error .panic s) ∧
      ¬(Input.inPlace (testRequest ++ List.replicate 10 0xFF) 12).Survives
        (failingContext true) := by
  have hfill : (Input.separate testRequest (List.replicate 22 0xFF)).DrawFails
      (failingContext false) :=
    ⟨12, List.Vector.replicate 12 0xFF, by decide, rfl, not_returns_of_error rfl⟩
  have hreseed : (Input.inPlace (testRequest ++ List.replicate 10 0xFF) 12).DrawFails
      (failingContext true) :=
    ⟨12, array ([0, 0x0C] ++ List.replicate 10 0xFF) rfl, by decide, rfl, trivial⟩
  exact ⟨Input.execute_of_drawFails hfill, mt Input.survives_iff.mp (not_not.mpr hfill),
    Input.execute_of_drawFails hreseed, mt Input.survives_iff.mp (not_not.mpr hreseed)⟩

end TpmRs
