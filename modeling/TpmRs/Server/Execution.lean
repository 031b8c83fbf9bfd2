import TpmRs.Server.Decision

/-!
# The outcome of a request

Both entry points run the same code on their buffers and turn an error into its code at
the place of the response code. Their outcome is the one that `decision` prescribes.
-/

namespace TpmRs

open Library Library.Fallible Library.Slice

theorem length_tagAndSize (tag : U16) (size : U32) :
    (Prim.u16.enc tag ++ Prim.u32.enc size).length = 6 := by
  simp only [List.length_append, Prim.length_enc]
  rfl

theorem length_successHeader (n : ℕ) : (successHeader n).length = 10 := by
  simp only [successHeader, List.length_append, Prim.length_enc]
  rfl

theorem take_response {n : ℕ} (payload : List.Vector U8 n) (rest : List U8) :
    (successHeader n ++ payload.toList ++ rest).take (10 + n) =
      successHeader n ++ payload.toList := by
  apply List.take_left'
  rw [List.length_append, length_successHeader, payload.toList_length]

namespace TpmContext

theorem take_drop_errorCode {r : List U8} (h : 10 ≤ r.length) (e : TpmRcError) :
    ((r.take 6 ++ Prim.u32.enc e.get ++ r.drop 10).drop 6).take 4 = Prim.u32.enc e.get := by
  have h6 : (r.take 6).length = 6 := by
    rw [List.length_take]
    omega
  rw [List.append_assoc, List.drop_left' h6]
  exact List.take_left' (Prim.length_enc _ _)

theorem fillError_of_le {response : List U8} (h : 10 ≤ response.length) (error : TpmRcError) :
    fillError response error =
      (10, response.take 6 ++ Prim.u32.enc error.get ++ response.drop 10) := by
  have hlen : (Prim.u32.enc error.get).length = 4 := Prim.length_enc _ _
  unfold fillError
  rw [write_of_le (by omega)]
  simp only [putRange, hlen]

theorem fillError_of_lt {response : List U8} (h : response.length < 10) (error : TpmRcError) :
    fillError response error = (0, response) := by
  have hlen : (Prim.u32.enc error.get).length = 4 := Prim.length_enc _ _
  unfold fillError
  rw [write_of_lt (by omega)]

variable {D E B R : Type} [Drbg D] [EntropySource E]

section

variable [TpmReadBuffer R] [TpmBuffers B R] [LawfulTpmBuffers B] {b : B} {q : List U8}

theorem run_executeCommand_of_error (hq : Reads b q) (ctx : TpmContext D E) {e : TpmRcError}
    (h : decision q (TpmBuffers.getResponse b).length = .error e) :
    executeCommand.run (ctx, b) = .error (.err e) (ctx, b) := by
  obtain ⟨o, hrun⟩ := run_executeRequest_of_error hq ctx h
  change executeCommand (ctx, b) = _
  simp only [executeCommand, hq.len_eq, hrun]

theorem run_executeCommand_of_ok (hq : Reads b q) {ctx ctx' : TpmContext D E} {n : ℕ}
    {dest payload : List.Vector U8 n}
    (h : decision q (TpmBuffers.getResponse b).length = .ok n)
    (hdest : ((TpmBuffers.getResponse b).drop 10).take n = dest.toList)
    (hdraw : CommandHandler.tryGetRandom.run (ctx, dest) = .ok () (ctx', payload)) :
    executeCommand.run (ctx, b) = .ok (10 + n) (ctx', TpmBuffers.setResponse b
      (successHeader n ++ payload.toList ++ (TpmBuffers.getResponse b).drop (10 + n))) := by
  obtain ⟨o, hrun⟩ := run_executeRequest_of_ok hq h hdest hdraw
  change executeCommand (ctx, b) = _
  simp only [executeCommand, hq.len_eq, hrun]

end

end TpmContext

/-- A call of one of the entry points with its buffers. -/
inductive Input where
  | separate (request response : List U8)
  | inPlace (inOut : List U8) (requestSize : ℕ)
  deriving DecidableEq

namespace Input

/-- The request that the call processes. -/
def request : Input → List U8
  | .separate request _ => request
  | .inPlace inOut requestSize => inOut.take (min requestSize inOut.length)

/-- The buffer for the response, with its prior contents. -/
def response : Input → List U8
  | .separate _ response => response
  | .inPlace inOut _ => inOut

variable {D E : Type} [Drbg D] [EntropySource E]

def execute (self : Input) (ctx : TpmContext D E) :
    EStateM.Result (Fault Empty) (TpmContext D E × List U8) ℕ :=
  match self with
  | .separate request response => (TpmContext.executeCommandSeparate request).run (ctx, response)
  | .inPlace inOut requestSize => (TpmContext.executeCommandInPlace requestSize).run (ctx, inOut)

variable {i : Input} {ctx ctx' : TpmContext D E}

theorem execute_of_error (ctx : TpmContext D E) {e : TpmRcError}
    (h : decision i.request i.response.length = .error e) :
    i.execute ctx =
      .ok (TpmContext.fillError i.response e).1 (ctx, (TpmContext.fillError i.response e).2) := by
  cases i with
  | separate q r =>
    have hrun := TpmContext.run_executeCommand_of_error (SeparateBuffers.reads q r) ctx h
    change TpmContext.executeCommandSeparate q (ctx, r) = _
    simp only [TpmContext.executeCommandSeparate, hrun, response]
  | inPlace w m =>
    have hrun := TpmContext.run_executeCommand_of_error (InOutBuffer.reads w m) ctx h
    change TpmContext.executeCommandInPlace m (ctx, w) = _
    simp only [TpmContext.executeCommandInPlace, hrun, response]
    rfl

theorem execute_of_error_of_le (ctx : TpmContext D E) {e : TpmRcError}
    (hlen : 10 ≤ i.response.length) (h : decision i.request i.response.length = .error e) :
    i.execute ctx =
      .ok 10 (ctx, i.response.take 6 ++ Prim.u32.enc e.get ++ i.response.drop 10) := by
  rw [execute_of_error ctx h, TpmContext.fillError_of_le hlen]

theorem execute_of_ok {n : ℕ} {dest payload : List.Vector U8 n}
    (h : decision i.request i.response.length = .ok n)
    (hdest : (i.response.drop 10).take n = dest.toList)
    (hdraw : CommandHandler.tryGetRandom.run (ctx, dest) = .ok () (ctx', payload)) :
    i.execute ctx =
      .ok (10 + n) (ctx', successHeader n ++ payload.toList ++ i.response.drop (10 + n)) := by
  cases i with
  | separate q r =>
    have hrun := TpmContext.run_executeCommand_of_ok (SeparateBuffers.reads q r) h hdest hdraw
    change TpmContext.executeCommandSeparate q (ctx, r) = _
    simp only [TpmContext.executeCommandSeparate, hrun]
    rfl
  | inPlace w m =>
    have hrun := TpmContext.run_executeCommand_of_ok (InOutBuffer.reads w m) h hdest hdraw
    change TpmContext.executeCommandInPlace m (ctx, w) = _
    simp only [TpmContext.executeCommandInPlace, hrun]
    rfl

theorem exists_execute_of_ok (hD : CanDraw ctx.drbg) {n : ℕ}
    (h : decision i.request i.response.length = .ok n) :
    ∃ (ctx' : TpmContext D E) (dest payload : List.Vector U8 n),
      dest.toList = (i.response.drop 10).take n ∧ Drawn ctx dest ctx' payload ∧
      i.execute ctx =
        .ok (10 + n) (ctx', successHeader n ++ payload.toList ++ i.response.drop (10 + n)) := by
  obtain ⟨ctx', dest, payload, hdest, hdraw, hdrawn⟩ := CommandHandler.exists_tryGetRandom hD
    (decision_eq_ok_iff.mp h).2.2.2.2
  exact ⟨ctx', dest, payload, hdest.symm, hdrawn, execute_of_ok h hdest hdraw⟩

end Input

namespace TpmContext

variable {D E : Type} [Drbg D] [EntropySource E]

/-- The outcome that `decision` prescribes for the request `q` and the response buffer `r`.
On success one draw follows the header; on an error at most the error code is written. -/
def Outcome (q r : List U8) (ctx : TpmContext D E)
    (result : EStateM.Result (Fault Empty) (TpmContext D E × List U8) ℕ) : Prop :=
  match decision q r.length with
  | .ok n => ∃ (ctx' : TpmContext D E) (dest payload : List.Vector U8 n),
      dest.toList = (r.drop 10).take n ∧ Drawn ctx dest ctx' payload ∧
      result = .ok (10 + n) (ctx', successHeader n ++ payload.toList ++ r.drop (10 + n))
  | .error e =>
      if 10 ≤ r.length then
        result = .ok 10 (ctx, r.take 6 ++ Prim.u32.enc e.get ++ r.drop 10)
      else result = .ok 0 (ctx, r)

theorem outcome_execute {ctx : TpmContext D E} (hD : CanDraw ctx.drbg) (i : Input) :
    Outcome i.request i.response ctx (i.execute ctx) := by
  unfold Outcome
  cases h : decision i.request i.response.length with
  | ok n => exact i.exists_execute_of_ok hD h
  | error e =>
    by_cases hlen : 10 ≤ i.response.length
    · simp only [if_pos hlen, Input.execute_of_error_of_le ctx hlen h]
    · simp only [if_neg hlen, Input.execute_of_error ctx h, fillError_of_lt (Nat.not_le.mp hlen)]

/-- What both entry points do, for every request and every response buffer. -/
theorem executeCommand_outcome {ctx : TpmContext D E} (hD : CanDraw ctx.drbg) :
    (∀ request response, Outcome request response ctx
      ((executeCommandSeparate request).run (ctx, response))) ∧
    (∀ inOut requestSize, Outcome (inOut.take (min requestSize inOut.length)) inOut ctx
      ((executeCommandInPlace requestSize).run (ctx, inOut))) :=
  ⟨fun request response => outcome_execute hD (.separate request response),
    fun inOut requestSize => outcome_execute hD (.inPlace inOut requestSize)⟩

theorem executeCommand_outcome_testRequest :
    decision testRequest 22 = .ok 12 ∧
    Outcome testRequest (List.replicate 22 0xFF) testContext
      ((executeCommandSeparate testRequest).run (testContext, List.replicate 22 0xFF)) ∧
    Outcome testRequest (testRequest ++ List.replicate 10 0xFF) testContext
      ((executeCommandInPlace 12).run (testContext, testRequest ++ List.replicate 10 0xFF)) :=
  ⟨by decide, (executeCommand_outcome testContext.drbg.canDraw).1 _ _,
    (executeCommand_outcome testContext.drbg.canDraw).2 (testRequest ++ _) 12⟩

end TpmContext
end TpmRs
