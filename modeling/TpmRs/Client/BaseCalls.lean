import TpmRs.Client.Calls

/-!
# The calls of the type library

The commands of the type library fit in the command buffer, and their responses in the
response buffer, whatever their parameters, their handles and their at most three sessions
hold. So each of them is sent, and the client returns every response that a TPM can encode
with authorizations that the sessions accept.
-/

namespace TpmRs

open Library Library.Fallible AuthorizationArea

instance : Derived Unit := ⟨.unit, rfl, rfl⟩
instance : Derived StartupCmd := ⟨StartupCmd.ty, rfl, rfl⟩
instance : Derived GetRandomCmd := ⟨GetRandomCmd.ty, rfl, rfl⟩
instance : Derived GetRandomResp := ⟨GetRandomResp.ty, rfl, rfl⟩
instance : Derived StartAuthSessionCmd := ⟨StartAuthSessionCmd.ty, rfl, rfl⟩
instance : Derived StartAuthSessionHandles := ⟨StartAuthSessionHandles.ty, rfl, rfl⟩
instance : Derived StartAuthSessionResp := ⟨StartAuthSessionResp.ty, rfl, rfl⟩
instance : Derived TpmiShAuthSession := ⟨TpmiShAuthSession.ty, rfl, rfl⟩
instance : Derived CreatePrimaryCmd := ⟨CreatePrimaryCmd.ty, rfl, rfl⟩
instance : Derived TpmiRhHierarchy := ⟨TpmiRhHierarchy.ty, rfl, rfl⟩
instance : Derived CreatePrimaryResp := ⟨CreatePrimaryResp.ty, rfl, rfl⟩
instance : Derived TpmHandle := ⟨TpmHandle.ty, rfl, rfl⟩
instance : Derived PcrReadCmd := ⟨PcrReadCmd.ty, rfl, rfl⟩
instance : Derived PcrReadResp := ⟨PcrReadResp.ty, rfl, rfl⟩
instance : Derived GetCapabilityCmd := ⟨GetCapabilityCmd.ty, rfl, rfl⟩
instance : Derived GetCapabilityResp := ⟨GetCapabilityResp.ty, rfl, rfl⟩

/-- The sizes in memory leave room for the headers and for three authorizations. -/
class FitsBuffers (CmdT : Type) {Handles RespT RespHandles : Type}
    [TpmCommand CmdT Handles RespT RespHandles] [Marshalable Handles] [Marshalable RespT]
    [Marshalable RespHandles] [Derived CmdT] [Derived Handles] [Derived RespT]
    [Derived RespHandles] : Prop where
  cmd_le : 10 + (4 + 3 * 137) + (Derived.ty : Ty Handles).sizeOf + (Derived.ty : Ty CmdT).sizeOf ≤
    cmdBufferSize
  resp_le : 10 + 4 + (Derived.ty : Ty RespHandles).sizeOf + (Derived.ty : Ty RespT).sizeOf +
    3 * TpmsAuthResponse.ty.sizeOf ≤ respBufferSize

instance : FitsBuffers StartupCmd := ⟨by decide, by decide⟩
instance : FitsBuffers GetRandomCmd := ⟨by decide, by decide⟩
instance : FitsBuffers StartAuthSessionCmd := ⟨by decide, by decide⟩
instance : FitsBuffers CreatePrimaryCmd := ⟨by decide, by decide⟩
instance : FitsBuffers PcrReadCmd := ⟨by decide, by decide⟩
instance : FitsBuffers GetCapabilityCmd := ⟨by decide, by decide⟩

section

variable {AA X Y Z CmdT Handles RespT RespHandles : Type} [Session X] [Session Y] [Session Z]
  [AuthorizationArea AA X Y Z] [TpmCommand CmdT Handles RespT RespHandles] [Marshalable Handles]
  [Marshalable RespT] [Marshalable RespHandles] [Derived CmdT] [Derived Handles] [Derived RespT]
  [Derived RespHandles]

theorem length_frame_le_of_fits [fits : FitsBuffers CmdT] {cmd : CmdT} {cmdHandles : Handles}
    {cmdSessions : AA} (hcmd : Derived.ty.WellFormed cmd)
    (hhandles : Derived.ty.WellFormed cmdHandles)
    (hauth : ∀ auth ∈ sessionAuths cmdSessions, TpmsAuthCommand.ty.WellFormed auth) :
    (frame (TpmCommand.cmdCode CmdT) (Derived.ty.enc cmdHandles) (sessionAuths cmdSessions)
      (Derived.ty.enc cmd)).length ≤ cmdBufferSize := by
  have hroom := fits.cmd_le
  have harea := length_authArea_le cmdSessions hauth
  have hparams := Derived.ty.length_enc_le cmd hcmd
  have hheader := Derived.ty.length_enc_le cmdHandles hhandles
  rw [length_frame, List.length_append, List.length_append]
  omega

/-- The call of a command that fits. -/
def TpmCall.ofFits [FitsBuffers CmdT] (cmd : CmdT) (cmdHandles : Handles) (cmdSessions : AA)
    (hcmd : Derived.ty.WellFormed cmd) (hhandles : Derived.ty.WellFormed cmdHandles)
    (hauth : ∀ auth ∈ sessionAuths cmdSessions, TpmsAuthCommand.ty.WellFormed auth) : TpmCall where
  cmd := cmd
  cmdHandles := cmdHandles
  cmdSessions := cmdSessions
  wellFormed_cmd := hcmd
  wellFormed_cmdHandles := hhandles
  wellFormed_auths := hauth
  length_le := length_frame_le_of_fits hcmd hhandles hauth

end

/-- The bytes of a response without padding: the tag announces the size of the parameters
exactly if there are authorizations. -/
def responseFrame (respHandles params : List U8) (auths : List TpmsAuthResponse) : List U8 :=
  let tag := if auths.isEmpty then TpmSt.noSessions else TpmSt.sessions
  let paramSize := if auths.isEmpty then [] else Prim.u32.enc (BitVec.ofNat 32 params.length)
  let body := respHandles ++ paramSize ++ params ++ auths.flatMap TpmsAuthResponse.ty.enc
  RespHeader.ty.enc ⟨tag, BitVec.ofNat 32 (10 + body.length), 0⟩ ++ body

theorem length_responseFrame_le (respHandles params : List U8) {auths : List TpmsAuthResponse}
    (hauths : ∀ auth ∈ auths, TpmsAuthResponse.ty.WellFormed auth) (hcount : auths.length ≤ 3) :
    (responseFrame respHandles params auths).length ≤
      10 + 4 + respHandles.length + params.length + 3 * TpmsAuthResponse.ty.sizeOf := by
  have hbytes := length_flatMap_le TpmsAuthResponse.ty.enc auths fun auth hauth =>
    TpmsAuthResponse.ty.length_enc_le auth (hauths auth hauth)
  have hmul := Nat.mul_le_mul_right TpmsAuthResponse.ty.sizeOf hcount
  have hsize : (if auths.isEmpty then []
      else Prim.u32.enc (BitVec.ofNat 32 params.length)).length ≤ 4 := by
    split_ifs
    · exact Nat.zero_le 4
    · exact (Prim.length_enc .u32 _).le
  unfold responseFrame
  simp only [List.length_append, RespHeader.length_enc]
  omega

theorem forall_wellFormed_of_validates {sessions : List SessionOps} {auths : List TpmsAuthResponse}
    (h : List.Forall₂ SessionOps.Validates sessions auths) :
    ∀ auth ∈ auths, TpmsAuthResponse.ty.WellFormed auth := by
  induction h with
  | nil => exact List.forall_mem_nil _
  | cons hhead htail ih => exact List.forall_mem_cons.mpr ⟨hhead.1, ih⟩

section

variable {AA X Y Z CmdT Handles RespT RespHandles : Type} [Session X] [Session Y] [Session Z]
  [AuthorizationArea AA X Y Z] [TpmCommand CmdT Handles RespT RespHandles] [Marshalable Handles]
  [Marshalable RespT] [Marshalable RespHandles] [Derived CmdT] [Derived Handles] [Derived RespT]
  [Derived RespHandles]

/-- A response with its padding is an answer. -/
theorem TpmCall.answers_responseFrame (c : TpmCall) {resp : c.RespT} {respHandles : c.RespHandles}
    {auths : List TpmsAuthResponse} (hresp : Derived.ty.WellFormed resp)
    (hrespHandles : Derived.ty.WellFormed respHandles)
    (hauths : List.Forall₂ SessionOps.Validates (sessionList c.cmdSessions) auths)
    (rest : List U8) :
    c.Answers (responseFrame (Derived.ty.enc respHandles) (Derived.ty.enc resp) auths ++ rest)
      (.ok (resp, respHandles)) := by
  refine .ok hresp hrespHandles ?_ hauths (List.append_assoc _ _ _)
  cases auths.isEmpty with
  | true => simp [TpmSt.noSessions, TpmSt.sessions]
  | false => simp [Prim.size]

theorem FakeTpm.run_transact_of_le (tpm : FakeTpm) (h : tpm.response.length ≤ respBufferSize)
    (command : List U8) :
    ∃ respBuffer : List.Vector U8 respBufferSize,
      (Tpm.transact command).run (tpm, List.Vector.replicate respBufferSize 0) =
        .ok () (tpm, respBuffer) ∧
      ∃ rest, respBuffer.toList = tpm.response ++ rest :=
  ⟨_, rfl, _, congrArg (· ++ _) (List.take_of_length_le h)⟩

/-- Whatever a command of the type library holds, it is sent as one frame, and whatever its
response holds, the client returns it when the sessions accept the authorizations. -/
theorem runCommandWithHandles_responseFrame [fits : FitsBuffers CmdT] {cmd : CmdT}
    {cmdHandles : Handles} {cmdSessions : AA} {resp : RespT} {respHandles : RespHandles}
    {auths : List TpmsAuthResponse} (hcmd : Derived.ty.WellFormed cmd)
    (hhandles : Derived.ty.WellFormed cmdHandles)
    (hauth : ∀ auth ∈ sessionAuths cmdSessions, TpmsAuthCommand.ty.WellFormed auth)
    (hresp : Derived.ty.WellFormed resp) (hrespHandles : Derived.ty.WellFormed respHandles)
    (hauths : List.Forall₂ SessionOps.Validates (sessionList cmdSessions) auths)
    (commands : List (List U8)) :
    let tpm : FakeTpm := ⟨responseFrame (Derived.ty.enc respHandles) (Derived.ty.enc resp) auths⟩
    (runCommandWithHandles cmd cmdHandles cmdSessions).run (⟨tpm, commands⟩ : Recorder FakeTpm) =
      .ok (resp, respHandles) ⟨tpm, commands ++ [frame (TpmCommand.cmdCode CmdT)
        (Derived.ty.enc cmdHandles) (sessionAuths cmdSessions) (Derived.ty.enc cmd)]⟩ := by
  intro tpm
  let c := TpmCall.ofFits cmd cmdHandles cmdSessions hcmd hhandles hauth
  have hlen : tpm.response.length ≤ respBufferSize := by
    have hbound := length_responseFrame_le (Derived.ty.enc respHandles) (Derived.ty.enc resp)
      (forall_wellFormed_of_validates hauths)
      (hauths.length_eq ▸ length_sessionList_le cmdSessions)
    have hroom := fits.resp_le
    have hparams := Derived.ty.length_enc_le resp hresp
    have hheader := Derived.ty.length_enc_le respHandles hrespHandles
    exact hbound.trans (by omega)
  obtain ⟨respBuffer, htransact, rest, hrest⟩ := tpm.run_transact_of_le hlen c.sent
  have hanswers : c.Answers respBuffer.toList (.ok (resp, respHandles)) :=
    hrest ▸ c.answers_responseFrame hresp hrespHandles hauths rest
  exact (c.run_eq (Recorder.run_transact_of_ok htransact commands)).trans
    (c.run_readResponse_of_answers hanswers)

end

theorem GetRandomCmd.wellFormed (cmd : GetRandomCmd) : ty.WellFormed cmd := ⟨trivial, trivial⟩

theorem wellFormed_unit : Ty.unit.WellFormed () := trivial

theorem runCommandWithHandles_responseFrame_policySession :
    (runCommandWithHandles policySession unboundSession twoBytePassword).run
      (⟨⟨sessionStarted⟩, []⟩ : Recorder FakeTpm) =
      .ok (⟨twoRandomBytes⟩, ⟨0x03000000⟩) ⟨⟨sessionStarted⟩, [startSession]⟩ := by
  have hresp : StartAuthSessionResp.ty.WellFormed ⟨twoRandomBytes⟩ :=
    ⟨wellFormed_twoRandomBytes.1, trivial⟩
  have hrespHandles : TpmiShAuthSession.ty.WellFormed ⟨0x03000000⟩ := Ty.wellFormed_newtype _ _ _
  have hresponse : sessionStarted = responseFrame (TpmiShAuthSession.ty.enc ⟨0x03000000⟩)
      (StartAuthSessionResp.ty.enc ⟨twoRandomBytes⟩) [passwordAuth] := by decide
  have hframe : frame .startAuthSession (StartAuthSessionHandles.ty.enc unboundSession)
      (sessionAuths twoBytePassword) (StartAuthSessionCmd.ty.enc policySession) = startSession := by
    decide
  rw [← hframe, hresponse]
  exact runCommandWithHandles_responseFrame wellFormed_policySession wellFormed_unboundSession
    wellFormed_twoBytePassword hresp hrespHandles validates_twoBytePassword []

end TpmRs
