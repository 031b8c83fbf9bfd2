import TpmRs.Client.Acceptance

/-!
# Responses that abort the client

The response is cut to the bytes from the end of the header to the size in the
header. The size is compared with the length of the buffer, but not with the length
of the header, so a successful response with a size below that aborts. No other
response does.
-/

namespace TpmRs

open Library Library.Fallible Library.Slice AuthorizationArea

theorem panicFree_readAuths {sessions : List SessionOps}
    (h : ∀ session ∈ sessions, ∀ auth, session.validate auth ≠ .error .panic) :
    PanicFree (readAuths sessions) := by
  induction sessions with
  | nil => exact .pure ()
  | cons session sessions ih =>
    have hread : PanicFree (liftRc (Marshalable.tryUnmarshal (α := TpmsAuthResponse))) :=
      TpmsAuthResponse.ty.decodes.panicFree.mapErr
    apply hread.bind
    intro auth
    exact (PanicFree.fromExcept (h session (by simp) auth)).bind fun _ =>
      ih fun s hs => h s (by simp [hs])

theorem panicFree_readParamSize (tag : TpmSt) : PanicFree (readParamSize tag) := by
  unfold readParamSize
  split_ifs
  · exact (Prim.u32.decodes.panicFree.mapErr).bind fun _ => .pure ()
  · exact .pure ()

section

variable {AA X Y Z : Type} [Session X] [Session Y] [Session Z] [AuthorizationArea AA X Y Z]
  {RespT RespHandles : Type} [Marshalable RespT] [Marshalable RespHandles]
  (hresp : PanicFree (Marshalable.tryUnmarshal (α := RespT)))
  (hrespHandles : PanicFree (Marshalable.tryUnmarshal (α := RespHandles)))
  {cmdSessions : AA}
  (hvalidate : ∀ session ∈ sessionList cmdSessions, ∀ auth, session.validate auth ≠ .error .panic)

include hresp hrespHandles hvalidate

theorem panicFree_readResponseBody (respHeader : RespHeader) :
    PanicFree (readResponseBody cmdSessions respHeader :
      Fallible TssError (List U8) (RespT × RespHandles)) := by
  have hleftover (x : RespT × RespHandles) : PanicFree (do
      let unmarsh ← get
      if unmarsh.isEmpty then pure x else fail (.ofTssTcs .tpmUnexpected) :
        Fallible TssError (List U8) (RespT × RespHandles)) := by
    intro b b' h
    cases b <;> cases h
  rw [readResponseBody, readResponseSessions_eq]
  exact hrespHandles.mapErr.bind fun _ => (panicFree_readParamSize _).bind fun _ =>
    hresp.mapErr.bind fun _ => (panicFree_readAuths hvalidate).bind fun _ => hleftover _

/-- A response aborts the client exactly when it reports success with a size that does
not cover the header. -/
theorem run_readResponse_eq_panic_iff {T : Type} (respBuffer : List.Vector U8 respBufferSize)
    (tpm tpm' : T) :
    (readResponse cmdSessions respBuffer : Fallible TssError T (RespT × RespHandles)).run tpm =
        .error .panic tpm' ↔
      tpm' = tpm ∧ (RespHeader.ofBytes respBuffer.toList).rc = 0 ∧
        (RespHeader.ofBytes respBuffer.toList).size.toNat < 10 := by
  by_cases hrc : (RespHeader.ofBytes respBuffer.toList).rc = 0
  · by_cases hlow : (RespHeader.ofBytes respBuffer.toList).size.toNat < 10
    · simp [run_readResponse_of_size_lt cmdSessions tpm rfl hrc hlow, hrc, hlow, eq_comm]
    · by_cases hhigh : respBufferSize < (RespHeader.ofBytes respBuffer.toList).size.toNat
      · simp [run_readResponse_of_size_gt cmdSessions tpm rfl hrc hhigh, hlow]
      · rw [run_readResponse_of_size_le cmdSessions tpm rfl hrc (Nat.not_lt.mp hlow)
          (Nat.not_lt.mp hhigh)]
        have hbody := ((panicFree_readResponseBody hresp hrespHandles hvalidate
          (RespHeader.ofBytes respBuffer.toList)).onLocal (τ := T)
          ((respBuffer.toList.take (RespHeader.ofBytes respBuffer.toList).size.toNat).drop 10)).bind
          fun p => .pure p.1
        exact iff_of_false (hbody tpm tpm') fun h => hlow h.2.2
  · rw [run_readResponse_of_rc_ne_zero cmdSessions tpm hrc]
    exact iff_of_false nofun fun h => hrc h.2.1

variable {CmdT Handles T : Type} [TpmCommand CmdT Handles RespT RespHandles]
  [Marshalable Handles] [Tpm T] {cmd : CmdT} {cmdHandles : Handles} {handles params : List U8}

/-- The client never aborts if and only if no successful transaction leaves a header that
reports success with a size below the length of the header. -/
theorem runCommandWithHandles_panicFree_iff (hcmd : Puts (Marshalable.tryMarshal cmd) params)
    (hhandles : Puts (Marshalable.tryMarshal cmdHandles) handles)
    (hauth : ∀ auth ∈ sessionAuths cmdSessions, TpmsAuthCommand.ty.WellFormed auth)
    (hfit : (frame (TpmCommand.cmdCode CmdT) handles (sessionAuths cmdSessions) params).length ≤
      cmdBufferSize)
    {tpm : T} (htransact : ∀ s, (Tpm.transact
      (frame (TpmCommand.cmdCode CmdT) handles (sessionAuths cmdSessions) params)).run
      (tpm, List.Vector.replicate respBufferSize 0) ≠ .error .panic s) :
    (∀ tpm', (runCommandWithHandles cmd cmdHandles cmdSessions).run tpm ≠ .error .panic tpm') ↔
      ∀ tpm' (respBuffer : List.Vector U8 respBufferSize), (Tpm.transact
        (frame (TpmCommand.cmdCode CmdT) handles (sessionAuths cmdSessions) params)).run
        (tpm, List.Vector.replicate respBufferSize 0) = .ok () (tpm', respBuffer) →
        (RespHeader.ofBytes respBuffer.toList).rc = 0 →
          10 ≤ (RespHeader.ofBytes respBuffer.toList).size.toNat := by
  simp only [run_runCommandWithHandles_of_puts hcmd hhandles hauth hfit]
  cases h : (Tpm.transact
      (frame (TpmCommand.cmdCode CmdT) handles (sessionAuths cmdSessions) params)).run
      (tpm, List.Vector.replicate respBufferSize 0) with
  | error e s =>
    obtain ⟨tpm', respBuffer⟩ := s
    rw [run_bind_of_error (Tpm.run_respond_of_error h)]
    apply iff_of_true _ nofun
    intro tpm'' heq
    rw [EStateM.Result.error.injEq] at heq
    exact htransact _ (heq.1 ▸ h)
  | ok _ s =>
    obtain ⟨tpm', respBuffer⟩ := s
    rw [run_bind_of_ok (Tpm.run_respond_of_ok h)]
    simp only [ne_eq, run_readResponse_eq_panic_iff hresp hrespHandles hvalidate]
    constructor
    · rintro hsafe _ _ ⟨rfl, rfl⟩ hrc
      exact Nat.not_lt.mp fun hlow => hsafe _ ⟨rfl, hrc, hlow⟩
    · rintro hsize _ ⟨rfl, hrc, hlow⟩
      exact absurd (hsize _ _ rfl hrc) (Nat.not_le.mpr hlow)

end

/-- A header whose size is larger than the response buffer. -/
def largeSize : FakeTpm := ⟨[0x80, 0x01, 0, 0, 0x10, 0x02, 0, 0, 0, 0]⟩

theorem runCommandWithHandles_panicFree_largeSize :
    (runCommandWithHandles policySession unboundSession twoBytePassword).run largeSize ≠
      .error .panic largeSize := by
  have hvalidate : ∀ session ∈ sessionList twoBytePassword, ∀ auth,
      session.validate auth ≠ .error .panic :=
    List.forall_mem_singleton.mpr twoBytePassword.validateAuthResponse_ne_panic
  refine (runCommandWithHandles_panicFree_iff StartAuthSessionResp.ty.decodes.panicFree
    TpmiShAuthSession.ty.decodes.panicFree hvalidate
    (StartAuthSessionCmd.ty.puts_tryMarshal wellFormed_policySession)
    (StartAuthSessionHandles.ty.puts_tryMarshal wellFormed_unboundSession)
    wellFormed_twoBytePassword (by decide) (fun s h => ?_)).mpr
    (fun tpm' respBuffer h hrc => ?_) largeSize
  · cases h
  · obtain ⟨rfl, rfl⟩ := Prod.mk.inj (EStateM.Result.ok.inj h).2
    decide

/-- A TPM that reports success without writing to the response buffer. -/
theorem not_runCommandWithHandles_panicFree :
    ¬∀ (tpm tpm' : FakeTpm) (cmd : GetRandomCmd),
      (runCommandWithHandles cmd () ()).run tpm ≠ .error .panic tpm' := by
  intro h
  apply h ⟨[]⟩ ⟨[]⟩ ⟨2⟩
  have hauth : ∀ auth ∈ sessionAuths (), TpmsAuthCommand.ty.WellFormed auth :=
    List.forall_mem_nil _
  rw [run_runCommandWithHandles_of_transact (GetRandomCmd.lawful _).puts lawful_unit.puts hauth
    (by decide) rfl]
  exact run_readResponse_of_size_lt () _ rfl (by decide) (by decide)

end TpmRs
