import TpmRs.Server.Execution

/-!
# The response header

A successful response starts with a complete header. An error writes the response code
alone, so the rest of the header of an error response is what the buffer held before.
-/

namespace TpmRs

open Library Library.Fallible Library.Slice

/-- The tag and the number of bytes, at the start of a response of `count` bytes. -/
def CompleteHeader (count : ℕ) (response : List U8) : Prop :=
  10 ≤ count ∧ response.take 2 = Prim.u16.enc 0x8001 ∧
    (response.drop 2).take 4 = Prim.u32.enc (BitVec.ofNat 32 count)

theorem completeHeader_iff {count : ℕ} {response : List U8} (h : 6 ≤ response.length) :
    CompleteHeader count response ↔ 10 ≤ count ∧
      response.take 6 = Prim.u16.enc 0x8001 ++ Prim.u32.enc (BitVec.ofNat 32 count) := by
  have hsplit : response.take (2 + 4) = response.take 2 ++ (response.drop 2).take 4 :=
    List.take_add
  have hlen : (response.take 2).length = (Prim.u16.enc 0x8001).length := by
    rw [List.length_take, Prim.length_enc]
    exact Nat.min_eq_left (by omega)
  unfold CompleteHeader
  rw [show 6 = 2 + 4 from rfl, hsplit]
  constructor
  · intro h
    rcases h with ⟨hcount, htag, hsize⟩
    exact ⟨hcount, by rw [htag, hsize]⟩
  · intro h
    rcases h with ⟨hcount, heq⟩
    exact ⟨hcount, List.append_inj heq hlen⟩

theorem completeHeader_successHeader (n : ℕ) (rest : List U8) :
    CompleteHeader (10 + n) (successHeader n ++ rest) := by
  apply (completeHeader_iff ?_).mpr
  · refine ⟨by omega, ?_⟩
    rw [successHeader, List.append_assoc]
    exact List.take_left' (length_tagAndSize _ _)
  · rw [List.length_append, length_successHeader]
    omega

/-- After an error the header is complete if it already was, for ten bytes. -/
theorem completeHeader_error_iff {response : List U8} (h : 10 ≤ response.length)
    (e : TpmRcError) :
    CompleteHeader 10 (response.take 6 ++ Prim.u32.enc e.get ++ response.drop 10) ↔
      response.take 6 = [0x80, 0x01, 0, 0, 0, 0x0A] := by
  have h6 : (response.take 6).length = 6 := by
    rw [List.length_take]
    omega
  have hten : Prim.u16.enc 0x8001 ++ Prim.u32.enc (BitVec.ofNat 32 10) =
      [0x80, 0x01, 0, 0, 0, 0x0A] := by decide
  rw [List.append_assoc, completeHeader_iff (by rw [List.length_append]; omega), hten,
    List.take_left' h6]
  simp

namespace TpmContext

variable {D E : Type} [Drbg D] [EntropySource E]

/-- The response has a complete header, and the same bytes whatever the buffer held. -/
def StandsAlone (ctx : TpmContext D E) (request response : List U8) : Prop :=
  ∃ count ctx' response',
    (executeCommandSeparate request).run (ctx, response) = .ok count (ctx', response') ∧
    CompleteHeader count response' ∧
    ∀ other : List U8, other.length = response.length → ∃ other',
      (executeCommandSeparate request).run (ctx, other) = .ok count (ctx', other') ∧
      other'.take count = response'.take count

/-- The response in the same buffer has a complete header. -/
def StandsAloneInPlace (ctx : TpmContext D E) (inOut : List U8) (requestSize : ℕ) : Prop :=
  ∃ count ctx' inOut',
    (executeCommandInPlace requestSize).run (ctx, inOut) = .ok count (ctx', inOut') ∧
    CompleteHeader count inOut'

theorem standsAlone_of_ok (hO : Overwrites D) {ctx : TpmContext D E} (hD : CanDraw ctx.drbg)
    {request response : List U8} {n : ℕ} (h : decision request response.length = .ok n) :
    StandsAlone ctx request response := by
  have hcapacity : 10 + n ≤ response.length := (decision_eq_ok_iff.mp h).2.2.2.2
  obtain ⟨ctx', dest, payload, hdest, hdraw, -⟩ :=
    CommandHandler.exists_tryGetRandom hD hcapacity
  refine ⟨10 + n, ctx', _, Input.execute_of_ok (i := .separate request response) h hdest hdraw, ?_,
    ?_⟩
  · rw [List.append_assoc]
    exact completeHeader_successHeader n _
  · intro other hlen
    obtain ⟨_, dest', _, hdest', -, -⟩ :=
      CommandHandler.exists_tryGetRandom hD (hcapacity.trans_eq hlen.symm)
    have hdraw' := (CommandHandler.run_tryGetRandom_congr hO hD dest' dest).trans hdraw
    refine ⟨_, Input.execute_of_ok (i := .separate request other) (hlen ▸ h) hdest' hdraw', ?_⟩
    rw [take_response, take_response]

/-- Over zeros an error leaves no tag. -/
theorem not_standsAlone_of_error (ctx : TpmContext D E) {request response : List U8}
    {e : TpmRcError} (hlen : 10 ≤ response.length)
    (h : decision request response.length = .error e) : ¬StandsAlone ctx request response := by
  intro h
  rcases h with ⟨count, ctx', response', -, ⟨hcount, htag, -⟩, hother⟩
  let zeros : List U8 := List.replicate response.length 0
  have hzeros : zeros.length = response.length := List.length_replicate
  have herr := Input.execute_of_error_of_le (i := .separate request zeros) ctx
    (hlen.trans_eq hzeros.symm) (hzeros.symm ▸ h)
  obtain ⟨other', hrun, hbytes⟩ := hother zeros hzeros
  have hother' : other' = zeros.take 6 ++ Prim.u32.enc e.get ++ zeros.drop 10 := by
    have hboth := hrun.symm.trans herr
    rw [EStateM.Result.ok.injEq, Prod.mk.injEq] at hboth
    exact hboth.2.2
  have hzeroTag : zeros.take 6 = [0, 0, 0, 0, 0, 0] := by
    rw [List.take_replicate, Nat.min_eq_left (by omega)]
    rfl
  have htake : other'.take 2 = response'.take 2 := by
    simpa only [List.take_take, Nat.min_eq_left (show 2 ≤ count by omega)] using
      congrArg (List.take 2) hbytes
  have htagBytes : Prim.u16.enc 0x8001 = [0x80, 0x01] := by decide
  rw [htag, htagBytes, hother', hzeroTag] at htake
  simp at htake

/-- Exactly the answered requests get a response that stands alone. In place an error
response is complete only over a buffer that already held its header. -/
theorem standsAlone_iff (hO : Overwrites D) {ctx : TpmContext D E} (hD : CanDraw ctx.drbg) :
    (∀ request response : List U8, 10 ≤ response.length →
      (StandsAlone ctx request response ↔ Answered request response.length)) ∧
    (∀ (inOut : List U8) (requestSize : ℕ), 10 ≤ inOut.length →
      (StandsAloneInPlace ctx inOut requestSize ↔
        Answered (inOut.take (min requestSize inOut.length)) inOut.length ∨
        inOut.take 6 = [0x80, 0x01, 0, 0, 0, 0x0A])) := by
  constructor
  · intro request response hlen
    cases h : decision request response.length with
    | ok n =>
      exact iff_of_true (standsAlone_of_ok hO hD h) (answered_of_decision h)
    | error e =>
      exact iff_of_false (not_standsAlone_of_error ctx hlen h) (not_answered_of_decision h)
  · intro inOut requestSize hlen
    cases h : decision (inOut.take (min requestSize inOut.length)) inOut.length with
    | ok n =>
      obtain ⟨ctx', dest, payload, -, -, hrun⟩ :=
        Input.exists_execute_of_ok (i := .inPlace inOut requestSize) hD h
      refine iff_of_true ⟨10 + n, ctx', _, hrun, ?_⟩ (.inl (answered_of_decision h))
      rw [List.append_assoc]
      exact completeHeader_successHeader n _
    | error e =>
      have herr := Input.execute_of_error_of_le (i := .inPlace inOut requestSize) ctx hlen h
      rw [or_iff_right (not_answered_of_decision h), ← completeHeader_error_iff hlen e]
      constructor
      · intro h
        rcases h with ⟨count, ctx', inOut', hrun, hheader⟩
        have hboth := hrun.symm.trans herr
        rw [EStateM.Result.ok.injEq, Prod.mk.injEq] at hboth
        obtain ⟨rfl, -, rfl⟩ := hboth
        exact hheader
      · intro hheader
        exact ⟨10, ctx, _, herr, hheader⟩

theorem standsAlone_testRequest :
    StandsAlone testContext testRequest (List.replicate 22 0xFF) ∧
    StandsAloneInPlace testContext (testRequest ++ List.replicate 10 0xFF) 12 := by
  have hboth := standsAlone_iff FakeDrbg.overwrites testContext.drbg.canDraw
  constructor
  · exact (hboth.1 testRequest (List.replicate 22 0xFF) (by decide)).mpr (by decide)
  · exact (hboth.2 (testRequest ++ List.replicate 10 0xFF) 12 (by decide)).mpr (.inl (by decide))

/-- An empty request over ten bytes `0xFF`. -/
theorem not_standsAlone_emptyRequest :
    (executeCommandSeparate []).run (testContext, List.replicate 10 0xFF) =
      .ok 10 (testContext, List.replicate 6 0xFF ++ [0, 0, 0x01, 0x42]) ∧
    ¬StandsAlone testContext [] (List.replicate 10 0xFF) :=
  ⟨Input.execute_of_error_of_le (i := .separate [] (List.replicate 10 0xFF)) testContext
    (by decide) (by decide : _ = Except.error TpmRcError.commandSize),
    not_standsAlone_of_error testContext (by decide)
      (by decide : _ = Except.error TpmRcError.commandSize)⟩

end TpmContext
end TpmRs
