import TpmRs.Server.Execution

/-!
# Runs of the server

A run serves any number of requests, in place or in separate buffers. The calls that it
makes to the generator and the entropy source are one block for each answered request, in
order, and the payload of an answered request is what the fill of its block produced.
-/

namespace TpmRs

open Library Library.Fallible Library.Slice

/-- The count that an entry point returns and the buffer that it leaves. -/
structure Output where
  count : ℕ
  response : List U8
  deriving DecidableEq

namespace Output

/-- The response code is the one of success. -/
def Succeeded (self : Output) : Prop :=
  10 ≤ self.count ∧ (self.response.drop 6).take 4 = Prim.u32.enc 0

instance (self : Output) : Decidable self.Succeeded := inferInstanceAs (Decidable (_ ∧ _))

/-- The parameters of the response. -/
def payload (self : Output) : List U8 := (self.response.take self.count).drop 10

end Output

variable {D E : Type} [Drbg D] [EntropySource E]

/-- One request. -/
def Input.serve (self : Input) : Fallible Empty (TpmContext D E) Output := fun ctx =>
  match self.execute ctx with
  | .ok count (ctx, response) => .ok ⟨count, response⟩ ctx
  | .error e (ctx, _) => .error e ctx

/-- One request after another. -/
def serveAll : List Input → Fallible Empty (TpmContext D E) (List Output)
  | [] => pure []
  | input :: inputs => do
    let output ← input.serve
    let outputs ← serveAll inputs
    pure (output :: outputs)

/-- The bytes that the generator produced in the calls. -/
def drbgOutput (calls : List (Call D)) : List U8 :=
  calls.flatMap fun
    | .fillBytes _ _ filled => filled
    | _ => []

/-- A request for as many random bytes as its response has, all from one block of calls. -/
structure AnsweredBy (exchange : Input × Output) (block : List (Call D)) : Prop where
  code : be exchange.1.request 6 4 = 0x17B
  requested : be exchange.1.request 10 2 = exchange.2.payload.length
  isBlock : IsBlock exchange.2.payload block

theorem drbgOutput_of_isBlock {payload : List U8} {block : List (Call D)}
    (h : IsBlock payload block) : drbgOutput block = payload := by
  cases h with
  | direct => simp [drbgOutput]
  | reseeded filled => simp [drbgOutput]

theorem drbgOutput_append (calls calls' : List (Call D)) :
    drbgOutput (calls ++ calls') = drbgOutput calls ++ drbgOutput calls' :=
  List.flatMap_append

omit [EntropySource E] in
theorem Input.run_serve_of_ok [EntropySource E] {input : Input} {ctx ctx' : TpmContext D E}
    {count : ℕ} {response : List U8} (h : input.execute ctx = .ok count (ctx', response)) :
    input.serve.run ctx = .ok ⟨count, response⟩ ctx' := by
  change input.serve ctx = _
  simp only [Input.serve, h]

theorem succeeded_of_successHeader {n : ℕ} (payload : List.Vector U8 n) (rest : List U8) :
    Output.Succeeded ⟨10 + n, successHeader n ++ payload.toList ++ rest⟩ := by
  refine ⟨Nat.le_add_right 10 n, ?_⟩
  simp only [successHeader, List.append_assoc]
  rw [← List.append_assoc (Prim.u16.enc 0x8001), List.drop_left' (length_tagAndSize _ _)]
  exact List.take_left' (Prim.length_enc _ _)

theorem payload_response {n : ℕ} (payload : List.Vector U8 n) (rest : List U8) :
    Output.payload ⟨10 + n, successHeader n ++ payload.toList ++ rest⟩ = payload.toList := by
  rw [Output.payload, take_response]
  exact List.drop_left' (length_successHeader n)

theorem not_succeeded_of_fillError (response : List U8) (e : TpmRcError) :
    ¬Output.Succeeded ⟨(TpmContext.fillError response e).1,
      (TpmContext.fillError response e).2⟩ := by
  intro h
  rcases h with ⟨hcount, hcode⟩
  by_cases hlen : 10 ≤ response.length
  · rw [TpmContext.fillError_of_le hlen] at hcode
    rw [TpmContext.take_drop_errorCode hlen] at hcode
    exact e.ne_zero (Prim.enc_injective _ hcode)
  · rw [TpmContext.fillError_of_lt (Nat.not_le.mp hlen)] at hcount
    simp only at hcount
    omega

theorem run_serve {ctx : TpmContext D E} (hD : CanDraw ctx.drbg) (input : Input) :
    ∃ output ctx', input.serve.run ctx = .ok output ctx' ∧
      (¬output.Succeeded ∧ ctx' = ctx ∨
        output.Succeeded ∧ ∃ block, AnsweredBy (input, output) block ∧
          ctx'.calls = ctx.calls ++ block) := by
  cases h : decision input.request input.response.length with
  | ok n =>
    obtain ⟨ctx', dest, payload, -, hdrawn, hrun⟩ := input.exists_execute_of_ok hD h
    obtain ⟨block, hblock, hcalls⟩ := hdrawn.calls
    obtain ⟨-, hcode, -, hrequested, -⟩ := decision_eq_ok_iff.mp h
    have hpayload := payload_response payload (input.response.drop (10 + n))
    refine ⟨_, ctx', Input.run_serve_of_ok hrun, .inr ⟨succeeded_of_successHeader payload _, block,
      ⟨hcode, ?_, ?_⟩, hcalls⟩⟩
    · rw [hpayload, payload.toList_length, hrequested]
    · rw [hpayload]
      exact hblock
  | error e =>
    exact ⟨_, ctx, Input.run_serve_of_ok (Input.execute_of_error ctx h),
      .inl ⟨not_succeeded_of_fillError _ e, rfl⟩⟩

/-- Over a run the calls are one block for each answered request, in order, and the
payloads of the answered requests are all that the generator produced. -/
theorem serveAll_calls (hD : ∀ drbg : D, CanDraw drbg) (inputs : List Input)
    (ctx : TpmContext D E) :
    ∃ outputs ctx' blocks, (serveAll inputs).run ctx = .ok outputs ctx' ∧
      outputs.length = inputs.length ∧
      List.Forall₂ AnsweredBy ((inputs.zip outputs).filter (·.2.Succeeded)) blocks ∧
      ctx'.calls = ctx.calls ++ blocks.flatten ∧
      drbgOutput ctx'.calls = drbgOutput ctx.calls ++
        (outputs.filter (·.Succeeded)).flatMap Output.payload := by
  induction inputs generalizing ctx with
  | nil => exact ⟨[], ctx, [], rfl, rfl, .nil, by simp, by simp⟩
  | cons input inputs ih =>
    obtain ⟨output, ctx₁, hserve, hstep⟩ := run_serve (hD ctx.drbg) input
    obtain ⟨outputs, ctx', blocks, hrun, hlen, hblocks, hcalls, houtput⟩ := ih ctx₁
    have hrunAll : (serveAll (input :: inputs)).run ctx = .ok (output :: outputs) ctx' := by
      rw [serveAll, run_bind_of_ok hserve, run_bind_of_ok hrun, EStateM.run_pure]
    rcases hstep with ⟨hfail, rfl⟩ | ⟨hsucc, block, hblock, hcall⟩
    · refine ⟨output :: outputs, ctx', blocks, hrunAll, by simp [hlen], ?_, hcalls, ?_⟩
      · simpa [hfail] using hblocks
      · simpa [hfail] using houtput
    · refine ⟨output :: outputs, ctx', block :: blocks, hrunAll, by simp [hlen], ?_, ?_, ?_⟩
      · rw [List.zip_cons_cons, List.filter_cons_of_pos (by simpa using hsucc)]
        exact .cons hblock hblocks
      · rw [hcalls, hcall, List.flatten_cons, List.append_assoc]
      · rw [List.filter_cons_of_pos (by simpa using hsucc), List.flatMap_cons, houtput, hcall,
          drbgOutput_append, drbgOutput_of_isBlock hblock.isBlock, List.append_assoc]

/-- Two answered requests with an empty one between them. -/
theorem serveAll_calls_testRequests :
    ∃ outputs ctx' blocks, (serveAll [.separate testRequest (List.replicate 22 0xFF),
        .separate [] [], .inPlace (testRequest ++ List.replicate 10 0xFF) 12]).run testContext =
        .ok outputs ctx' ∧
      outputs.length = 3 ∧
      List.Forall₂ AnsweredBy ((List.zip [.separate testRequest (List.replicate 22 0xFF),
        .separate [] [], .inPlace (testRequest ++ List.replicate 10 0xFF) 12] outputs).filter
          (·.2.Succeeded)) blocks ∧
      ctx'.calls = [] ++ blocks.flatten ∧
      drbgOutput ctx'.calls = (outputs.filter (·.Succeeded)).flatMap Output.payload :=
  serveAll_calls FakeDrbg.canDraw _ testContext

end TpmRs
