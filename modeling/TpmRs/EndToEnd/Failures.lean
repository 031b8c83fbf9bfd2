import TpmRs.Client.BaseCalls
import TpmRs.EndToEnd.GetRandom

/-!
# Commands that the server rejects

The size and the code that the client writes are the ones that the server reads, so
every command but the one that the server implements is rejected for its code, and a
request for more bytes than the response buffer has is rejected for lack of memory. The
client returns the code that the server left in the response.
-/

namespace TpmRs

open Library Library.Fallible Library.Slice

/-- A frame is a tag, its own length, the command code and the rest. -/
theorem exists_frame_eq (code : TpmCc) (handles : List U8) (auths : List TpmsAuthCommand)
    (params : List U8) :
    ∃ (tag : U16) (body : List U8), frame code handles auths params = Prim.u16.enc tag ++
      (Prim.u32.enc (BitVec.ofNat 32 (10 + body.length)) ++ (Prim.u32.enc code.val ++ body)) :=
  ⟨(if auths.isEmpty then TpmSt.noSessions else TpmSt.sessions).val,
    handles ++ authArea auths ++ params, by simp only [frame, List.append_assoc]⟩

/-- The server finds the size and the code of a frame where the client writes them. -/
theorem decision_frame_of_ne {code : TpmCc} (hcode : code ≠ .getRandom) {handles params : List U8}
    {auths : List TpmsAuthCommand} (h : (frame code handles auths params).length < 2 ^ 32)
    (capacity : ℕ) :
    decision (frame code handles auths params) capacity = .error .commandCode := by
  obtain ⟨tag, body, hframe⟩ := exists_frame_eq code handles auths params
  rw [hframe] at h ⊢
  generalize hsent : Prim.u16.enc tag ++ (Prim.u32.enc (BitVec.ofNat 32 (10 + body.length)) ++
    (Prim.u32.enc code.val ++ body)) = sent at h ⊢
  have hlen : sent.length = 10 + body.length := by
    simp only [← hsent, List.length_append, Prim.length_enc, Prim.size]
    omega
  have hsize : be sent 2 4 = sent.length := by
    have hbe := be_append .u32 (Prim.u16.enc tag) (Prim.u32.enc code.val ++ body)
      (BitVec.ofNat 32 (10 + body.length))
    rw [hsent, ← hlen, BitVec.toNat_ofNat, Nat.mod_eq_of_lt h, Prim.length_enc] at hbe
    exact hbe
  have hcodeBytes : be sent 6 4 = code.val.toNat := by
    have hbe := be_append .u32
      (Prim.u16.enc tag ++ Prim.u32.enc (BitVec.ofNat 32 (10 + body.length))) body code.val
    rw [List.append_assoc, hsent, length_tagAndSize] at hbe
    exact hbe
  have hne : be sent 6 4 ≠ 0x17B := by
    intro heq
    apply hcode
    rw [hcodeBytes] at heq
    exact congrArg TpmCc.mk (BitVec.eq_of_toNat_eq heq)
  unfold decision
  rw [if_neg (by omega), if_pos hne]

section

variable {AA X Y Z : Type} [Session X] [Session Y] [Session Z] [AuthorizationArea AA X Y Z]
  {CmdT Handles RespT RespHandles D E : Type} [TpmCommand CmdT Handles RespT RespHandles]
  [Marshalable Handles] [Marshalable RespT] [Marshalable RespHandles] [Drbg D] [EntropySource E]

theorem run_respond_readResponse_of_error (cmdSessions : AA) (ctx : TpmContext D E)
    {sent : List U8} {e : TpmRcError} (h : decision sent respBufferSize = .error e) :
    (Tpm.respond sent >>= fun respBuffer => (readResponse cmdSessions respBuffer :
        Fallible TssError (TpmContext D E) (RespT × RespHandles))).run ctx =
      .error (.err (.ofTpmRc e)) ctx := by
  obtain ⟨respBuffer, hrespond, hrc⟩ := run_respond_of_error ctx h
  have hne : (RespHeader.ofBytes respBuffer.toList).rc ≠ 0 := hrc ▸ e.ne_zero
  rw [run_bind_of_ok hrespond, run_readResponse_of_rc_ne_zero cmdSessions ctx hne]
  simp only [hrc, TssError.ofTpmRc]

end

/-- On success `m` wrote as many bytes as it reports at the front, and nothing else. -/
def WritesFront (m : MarshalM ℕ) : Prop :=
  ∀ buffer n buffer', m.run buffer = .ok n buffer' →
    ∃ bytes : List U8, bytes.length = n ∧ n ≤ buffer.length ∧ buffer' = bytes ++ buffer.drop n

theorem Ty.writesFront {α : Type} (t : Ty α) {v : α} (hv : t.WellFormed v) :
    WritesFront (t.tryMarshal v) := by
  intro buffer n buffer' h
  by_cases hlen : (t.enc v).length ≤ buffer.length
  · rw [t.puts_tryMarshal hv buffer hlen, EStateM.Result.ok.injEq] at h
    rcases h with ⟨rfl, rfl⟩
    exact ⟨t.enc v, rfl, hlen, rfl⟩
  · obtain ⟨_, hrun⟩ := t.run_tryMarshal_of_lt hv (Nat.not_le.mp hlen)
    rw [hrun] at h
    cases h

theorem WritesFront.run_advance {m : MarshalM ℕ} (h : WritesFront m) (front : List U8) {k n : ℕ}
    {buffer' : List U8} (hrun : m.run (List.replicate k 0) = .ok n buffer') :
    ∃ bytes : List U8, bytes.length = n ∧ n ≤ k ∧
      (advance front.length (liftRc m)).run (front ++ List.replicate k 0) =
        .ok (front ++ bytes).length (front ++ bytes ++ List.replicate (k - n) 0) := by
  obtain ⟨bytes, hlen, hle, rfl⟩ := h _ _ _ hrun
  have hm : (liftRc m).run ((front ++ List.replicate k 0).drop front.length) =
      .ok n (bytes ++ (List.replicate k 0).drop n) := by
    rw [List.drop_left]
    exact run_mapErr_of_ok hrun
  refine ⟨bytes, hlen, by simpa using hle, ?_⟩
  rw [run_advance_of_ok (by simp) hm, List.take_left, List.drop_replicate, List.length_append,
    hlen, List.append_assoc]

section

variable {AA X Y Z : Type} [Session X] [Session Y] [Session Z] [AuthorizationArea AA X Y Z]
  {CmdT Handles RespT RespHandles D E : Type} [TpmCommand CmdT Handles RespT RespHandles]
  [Marshalable Handles] {cmd : CmdT} {cmdHandles : Handles} {cmdSessions : AA}

theorem run_writeBeforeParams_of_writesFront (CmdT : Type)
    [TpmCommand CmdT Handles RespT RespHandles]
    (hhandles : WritesFront (Marshalable.tryMarshal cmdHandles))
    (hauth : ∀ auth ∈ sessionAuths cmdSessions, TpmsAuthCommand.ty.WellFormed auth)
    {h : ℕ} {handlesBuffer : List U8} (hle : h ≤ 12)
    (hrun : (Marshalable.tryMarshal cmdHandles).run (List.replicate (cmdBufferSize - 10) 0) =
      .ok h handlesBuffer) :
    ∃ front handles : List U8, front.length = 10 ∧ handles.length = h ∧
      (writeBeforeParams CmdT cmdHandles cmdSessions).run (List.replicate cmdBufferSize 0) =
        .ok (front ++ handles ++ authArea (sessionAuths cmdSessions)).length
          (front ++ handles ++ authArea (sessionAuths cmdSessions) ++ List.replicate
            (cmdBufferSize - (10 + h + (authArea (sessionAuths cmdSessions)).length)) 0) := by
  generalize hdef : CmdHeader.new (AuthorizationArea.isEmpty cmdSessions)
    (TpmCommand.cmdCode CmdT) = header
  have hlen : (CmdHeader.ty.enc header).length = 10 := header.length_enc
  have hheader : (liftRc (Marshalable.tryMarshal header)).run (List.replicate cmdBufferSize 0) =
      .ok (CmdHeader.ty.enc header).length
        (CmdHeader.ty.enc header ++ List.replicate (cmdBufferSize - 10) 0) := by
    rw [header.puts_tryMarshal _ (by rw [hlen, List.length_replicate]; decide), hlen,
      List.drop_replicate]
  obtain ⟨handles, hlenHandles, -, hstep⟩ := hhandles.run_advance (CmdHeader.ty.enc header) hrun
  have harea := length_authArea_le cmdSessions hauth
  have hroom : (authArea (sessionAuths cmdSessions)).length ≤
      (List.replicate (cmdBufferSize - 10 - h) (0 : U8)).length := by
    rw [List.length_replicate, cmdBufferSize]
    omega
  have hsessions : (advance (CmdHeader.ty.enc header ++ handles).length
      (writeCommandSessions cmdSessions)).run (CmdHeader.ty.enc header ++ handles ++
        List.replicate (cmdBufferSize - 10 - h) 0) = _ :=
    (puts_writeCommandSessions cmdSessions hauth).run_advance hroom
  rw [List.drop_replicate, Nat.sub_sub, Nat.sub_sub] at hsessions
  refine ⟨CmdHeader.ty.enc header, handles, hlen, hlenHandles, ?_⟩
  rw [writeBeforeParams, hdef, run_bind_of_ok hheader, run_bind_of_ok hstep, Nat.sub_sub, hsessions]

theorem run_writeCommand_of_writesFront (hcmd : WritesFront (Marshalable.tryMarshal cmd))
    (hhandles : WritesFront (Marshalable.tryMarshal cmdHandles))
    (hauth : ∀ auth ∈ sessionAuths cmdSessions, TpmsAuthCommand.ty.WellFormed auth)
    {h n : ℕ} {handlesBuffer paramsBuffer : List U8} (hle : h ≤ 12)
    (hrunHandles : (Marshalable.tryMarshal cmdHandles).run
      (List.replicate (cmdBufferSize - 10) 0) = .ok h handlesBuffer)
    (hrunParams : (Marshalable.tryMarshal cmd).run (List.replicate
      (cmdBufferSize - (10 + h + (authArea (sessionAuths cmdSessions)).length)) 0) =
      .ok n paramsBuffer) :
    ∃ handles params rest : List U8,
      (frame (TpmCommand.cmdCode CmdT) handles (sessionAuths cmdSessions) params).length ≤
        cmdBufferSize ∧
      (writeCommand cmd cmdHandles cmdSessions).run (List.replicate cmdBufferSize 0) =
        .ok (frame (TpmCommand.cmdCode CmdT) handles (sessionAuths cmdSessions) params).length
          (frame (TpmCommand.cmdCode CmdT) handles (sessionAuths cmdSessions) params ++ rest) := by
  have harea := length_authArea_le cmdSessions hauth
  obtain ⟨front, handles, hlenFront, hlenHandles, hbefore⟩ :=
    run_writeBeforeParams_of_writesFront CmdT hhandles hauth hle hrunHandles
  obtain ⟨params, hlenParams, hleParams, hstep⟩ :=
    hcmd.run_advance (front ++ handles ++ authArea (sessionAuths cmdSessions)) hrunParams
  generalize hbody : handles ++ authArea (sessionAuths cmdSessions) ++ params = body
  have hrun := (run_bind_of_ok (f := fun written =>
    advance written (liftRc (Marshalable.tryMarshal cmd))) hbefore).trans hstep
  have hsplit : front ++ handles ++ authArea (sessionAuths cmdSessions) ++ params =
      front ++ body := by
    rw [← hbody]
    simp only [List.append_assoc]
  rw [hsplit, List.append_assoc front body, List.length_append, hlenFront] at hrun
  have hoverwrite (header : CmdHeader) (rest : List U8) :
      (liftRc (Marshalable.tryMarshal header)).run (front ++ rest) =
        .ok (CmdHeader.ty.enc header).length (CmdHeader.ty.enc header ++ rest) :=
    header.puts_tryMarshal.run_overwrite (hlenFront.trans header.length_enc.symm)
  have hlenBody : body.length = h + (authArea (sessionAuths cmdSessions)).length + n := by
    rw [← hbody, List.length_append, List.length_append, hlenHandles, hlenParams]
  refine ⟨handles, params, List.replicate
    (cmdBufferSize - (10 + h + (authArea (sessionAuths cmdSessions)).length) - n) 0, ?_, ?_⟩
  · rw [length_frame, hbody, hlenBody]
    rw [cmdBufferSize] at hleParams ⊢
    omega
  · rw [writeCommand_eq, run_bind_of_ok hrun, updateSize, run_bind_of_ok (hoverwrite _ _),
      EStateM.run_pure, length_frame, frame_eq, hbody, List.append_assoc]

section

variable [Marshalable RespT] [Marshalable RespHandles] [Drbg D] [EntropySource E]

/-- Every command but the implemented one is rejected for its code, and a request for
random bytes that the response buffer cannot hold for lack of memory; in both cases the
server is left as it was. -/
theorem runCommand_rejected (CmdT AA : Type) [TpmCommand CmdT Handles RespT RespHandles]
    [AuthorizationArea AA X Y Z] (ctx : TpmContext D E) :
    (∀ (cmd : CmdT) (cmdHandles : Handles) (cmdSessions : AA),
      TpmCommand.cmdCode CmdT ≠ .getRandom →
      WritesFront (Marshalable.tryMarshal cmd) → WritesFront (Marshalable.tryMarshal cmdHandles) →
      (∀ auth ∈ sessionAuths cmdSessions, TpmsAuthCommand.ty.WellFormed auth) →
      ∀ (h n : ℕ) (handlesBuffer paramsBuffer : List U8), h ≤ 12 →
        (Marshalable.tryMarshal cmdHandles).run (List.replicate (cmdBufferSize - 10) 0) =
          .ok h handlesBuffer →
        (Marshalable.tryMarshal cmd).run (List.replicate
          (cmdBufferSize - (10 + h + (authArea (sessionAuths cmdSessions)).length)) 0) =
          .ok n paramsBuffer →
        (runCommandWithHandles cmd cmdHandles cmdSessions).run ctx =
          .error (.err ⟨0x143, by decide⟩) ctx) ∧
    ∀ n : U16, 4096 < 10 + n.toNat →
      (runCommand (⟨n⟩ : GetRandomCmd)).run ctx = .error (.err ⟨0x904, by decide⟩) ctx := by
  constructor
  · intro cmd cmdHandles cmdSessions hcode hcmd hhandles hauth h n _ _ hle hrunHandles hrunParams
    obtain ⟨handles, params, rest, hlen, hwrite⟩ :=
      run_writeCommand_of_writesFront hcmd hhandles hauth hle hrunHandles hrunParams
    rw [run_runCommandWithHandles_of_writeCommand hwrite]
    apply run_respond_readResponse_of_error (e := .commandCode)
    apply decision_frame_of_ne hcode
    rw [cmdBufferSize] at hlen
    omega
  · intro n hn
    obtain ⟨respBuffer, hrespond, hrc⟩ :=
      run_respond_of_error ctx (decision_getRandomFrame_of_lt (n := n) hn)
    have hne : (RespHeader.ofBytes respBuffer.toList).rc ≠ 0 := hrc ▸ TpmRcError.memory.ne_zero
    rw [run_runCommand_getRandom hrespond,
      run_bind_of_error (run_readResponse_of_rc_ne_zero () ctx hne)]
    simp only [hrc]
    rfl

end
end

theorem runCommand_rejected_policySession :
    (runCommandWithHandles policySession unboundSession twoBytePassword).run testContext =
      .error (.err ⟨0x143, by decide⟩) testContext ∧
    (runCommand (⟨4087⟩ : GetRandomCmd)).run testContext =
      .error (.err ⟨0x904, by decide⟩) testContext := by
  have hcmd : (StartAuthSessionCmd.ty.enc policySession).length = 11 := by decide
  have hhandles : (StartAuthSessionHandles.ty.enc unboundSession).length = 8 := by decide
  have harea : (authArea (sessionAuths twoBytePassword)).length = 15 := by decide
  have h := runCommand_rejected StartAuthSessionCmd PasswordSession testContext
  refine ⟨h.1 policySession unboundSession twoBytePassword (by decide)
    (StartAuthSessionCmd.ty.writesFront wellFormed_policySession)
    (StartAuthSessionHandles.ty.writesFront wellFormed_unboundSession) wellFormed_twoBytePassword
    _ _ _ _ (hhandles.trans_le (by decide))
    (StartAuthSessionHandles.ty.puts_tryMarshal wellFormed_unboundSession _ ?_)
    (StartAuthSessionCmd.ty.puts_tryMarshal wellFormed_policySession _ ?_), h.2 4087 (by decide)⟩
  · rw [hhandles, List.length_replicate]
    decide
  · rw [hcmd, hhandles, harea, List.length_replicate]
    decide

end TpmRs
