import TpmRs.Server.Execution

/-!
# In place and in separate buffers

In place the response overwrites the request that it answers. This does not show: the
view of the request is clamped to its size, everything is read from it before the first
write, and all bytes of a successful response are written.
-/

namespace TpmRs

open Library Library.Fallible Library.Slice

namespace TpmContext

theorem fillError_count_congr {r r' : List U8} (h : r.length = r'.length) (e : TpmRcError) :
    (fillError r e).1 = (fillError r' e).1 := by
  by_cases hten : 10 ≤ r'.length
  · rw [fillError_of_le hten, fillError_of_le (hten.trans_eq h.symm)]
  · rw [fillError_of_lt (Nat.not_le.mp hten), fillError_of_lt (by omega)]

variable {D E B R : Type} [Drbg D] [EntropySource E]

/-- The command is executed without an error. -/
def Succeeds [TpmReadBuffer R] [TpmBuffers B R] (ctx : TpmContext D E) (b : B) : Prop :=
  ∃ size s, executeCommand.run (ctx, b) = .ok size s

theorem succeeds_iff [TpmReadBuffer R] [TpmBuffers B R] [LawfulTpmBuffers B] {b : B} {q : List U8}
    {ctx : TpmContext D E} (hD : CanDraw ctx.drbg) (hq : Reads b q) :
    Succeeds ctx b ↔ ∃ n, decision q (TpmBuffers.getResponse b).length = .ok n := by
  cases h : decision q (TpmBuffers.getResponse b).length with
  | ok n =>
    obtain ⟨ctx', dest, payload, hdest, hdraw, -⟩ :=
      CommandHandler.exists_tryGetRandom hD (decision_eq_ok_iff.mp h).2.2.2.2
    simp [Succeeds, run_executeCommand_of_ok hq h hdest hdraw]
  | error e => simp [Succeeds, run_executeCommand_of_error hq ctx h]

/-- In place and with a separate buffer of the same length, a request has the same count,
the same effect on the generator and the entropy source, and the same response. -/
theorem executeCommandInPlace_agrees (hO : Overwrites D) {ctx : TpmContext D E}
    (hD : CanDraw ctx.drbg) (w : List U8) (m : ℕ) (response : List U8)
    (hlen : response.length = w.length) :
    ∃ count ctx' w' response',
      (executeCommandInPlace m).run (ctx, w) = .ok count (ctx', w') ∧
      (executeCommandSeparate (w.take (min m w.length))).run (ctx, response) =
        .ok count (ctx', response') ∧
      (Succeeds ctx (InOutBuffer.new w m) ↔
        Succeeds ctx (SeparateBuffers.mk (w.take (min m w.length)) response)) ∧
      (Succeeds ctx (InOutBuffer.new w m) → w'.take count = response'.take count) ∧
      (¬Succeeds ctx (InOutBuffer.new w m) → 10 ≤ w.length →
        (w'.drop 6).take 4 = (response'.drop 6).take 4) := by
  have hsucc : Succeeds ctx (InOutBuffer.new w m) ↔
      ∃ n, decision (w.take (min m w.length)) w.length = .ok n :=
    succeeds_iff hD (InOutBuffer.reads w m)
  have hsucc' : Succeeds ctx (SeparateBuffers.mk (w.take (min m w.length)) response) ↔
      ∃ n, decision (w.take (min m w.length)) response.length = .ok n :=
    succeeds_iff hD (SeparateBuffers.reads _ response)
  rw [hsucc, hsucc', hlen]
  cases h : decision (w.take (min m w.length)) w.length with
  | ok n =>
    have hcapacity : 10 + n ≤ w.length := (decision_eq_ok_iff.mp h).2.2.2.2
    obtain ⟨ctx', dest, payload, hdest, hdraw, -⟩ :=
      CommandHandler.exists_tryGetRandom hD hcapacity
    obtain ⟨ctx'', dest', payload', hdest', hdraw', -⟩ :=
      CommandHandler.exists_tryGetRandom hD (hcapacity.trans_eq hlen.symm)
    have hsame := (CommandHandler.run_tryGetRandom_congr hO hD dest dest').symm.trans hdraw
    rw [hdraw', EStateM.Result.ok.injEq, Prod.mk.injEq] at hsame
    obtain ⟨-, rfl, rfl⟩ := hsame
    refine ⟨10 + n, ctx'', _, _, Input.execute_of_ok (i := .inPlace w m) h hdest hdraw,
      Input.execute_of_ok (i := .separate _ response) (hlen ▸ h) hdest' hdraw', Iff.rfl, ?_, ?_⟩
    · intro _
      rw [take_response, take_response]
    · intro hno
      exact absurd ⟨n, rfl⟩ hno
  | error e =>
    have hcount := fillError_count_congr hlen e
    refine ⟨(fillError w e).1, ctx, (fillError w e).2, (fillError response e).2,
      Input.execute_of_error (i := .inPlace w m) ctx h, ?_, Iff.rfl, ?_, ?_⟩
    · rw [← hcount]
      exact Input.execute_of_error (i := .separate _ response) ctx (hlen ▸ h)
    · intro h
      rcases h with ⟨n, hn⟩
      cases hn
    · intro _ hten
      rw [fillError_of_le hten, fillError_of_le (hten.trans_eq hlen.symm),
        take_drop_errorCode hten, take_drop_errorCode (hten.trans_eq hlen.symm)]

/-- The in-place unit test, whose response overwrites its request. -/
theorem executeCommandInPlace_agrees_testRequest :
    ∃ count ctx' w' response',
      (executeCommandInPlace 12).run (testContext, testRequest ++ List.replicate 10 0xFF) =
        .ok count (ctx', w') ∧
      (executeCommandSeparate testRequest).run (testContext, List.replicate 22 0xFF) =
        .ok count (ctx', response') ∧
      w'.take count = response'.take count := by
  obtain ⟨count, ctx', w', response', hw, hr, -, hbytes, -⟩ := executeCommandInPlace_agrees
    FakeDrbg.overwrites testContext.drbg.canDraw (testRequest ++ List.replicate 10 0xFF) 12
    (List.replicate 22 0xFF) (by decide)
  refine ⟨count, ctx', w', response', hw, hr, hbytes ?_⟩
  exact (succeeds_iff testContext.drbg.canDraw (InOutBuffer.reads _ 12)).mpr
    ⟨12, by decide⟩

end TpmContext
end TpmRs
