import TpmRs.Base.CommandSet
import TpmRs.Client.Acceptance
import TpmRs.Library.Runs

/-!
# Calls

A command with its handles and its sessions, taken as one call on a TPM, and what it means
for the bytes of a response to answer it. An answer is what the client returns.
-/

namespace TpmRs

open Library Library.Fallible AuthorizationArea

/-- The implementation of `Marshalable` is the one that a description stands for. -/
class Derived (α : Type) [Marshalable α] where
  ty : Ty α
  tryMarshal_eq : Marshalable.tryMarshal = ty.tryMarshal
  tryUnmarshal_eq : Marshalable.tryUnmarshal = ty.tryUnmarshal

namespace Derived

variable {α : Type} [Marshalable α] [Derived α]

theorem puts {v : α} (h : ty.WellFormed v) : Puts (Marshalable.tryMarshal v) (ty.enc v) := by
  rw [tryMarshal_eq]
  exact ty.puts_tryMarshal h

theorem accepts : Accepts (Marshalable.tryUnmarshal (α := α)) ty.WellFormed ty.enc := by
  rw [tryUnmarshal_eq]
  exact ty.decodes.run_eq_ok_iff

end Derived

theorem Recorder.run_transact_of_ok {T : Type} [Tpm T] {tpm tpm' : T} {n : ℕ} {command : List U8}
    {response written : List.Vector U8 n}
    (h : (Tpm.transact command).run (tpm, response) = .ok () (tpm', written))
    (commands : List (List U8)) :
    (Tpm.transact command).run ((⟨tpm, commands⟩ : Recorder T), response) =
      .ok () (⟨tpm', commands ++ [command]⟩, written) := by
  rw [Recorder.run_transact, h]

/-- A well-formed command whose frame fits in the command buffer. -/
structure TpmCall where
  {AA X Y Z CmdT Handles RespT RespHandles : Type}
  [sessionX : Session X]
  [sessionY : Session Y]
  [sessionZ : Session Z]
  [authorizationArea : AuthorizationArea AA X Y Z]
  [command : TpmCommand CmdT Handles RespT RespHandles]
  [marshalHandles : Marshalable Handles]
  [marshalResp : Marshalable RespT]
  [marshalRespHandles : Marshalable RespHandles]
  [derivedCmd : Derived CmdT]
  [derivedHandles : Derived Handles]
  [derivedResp : Derived RespT]
  [derivedRespHandles : Derived RespHandles]
  cmd : CmdT
  cmdHandles : Handles
  cmdSessions : AA
  wellFormed_cmd : Derived.ty.WellFormed cmd
  wellFormed_cmdHandles : Derived.ty.WellFormed cmdHandles
  wellFormed_auths : ∀ auth ∈ sessionAuths cmdSessions, TpmsAuthCommand.ty.WellFormed auth
  length_le : (frame (TpmCommand.cmdCode CmdT) (Derived.ty.enc cmdHandles)
    (sessionAuths cmdSessions) (Derived.ty.enc cmd)).length ≤ cmdBufferSize

namespace TpmCall

attribute [instance] sessionX sessionY sessionZ authorizationArea command marshalHandles
  marshalResp marshalRespHandles derivedCmd derivedHandles derivedResp derivedRespHandles

variable (c : TpmCall)

/-- The bytes of the call. -/
def sent : List U8 :=
  frame (TpmCommand.cmdCode c.CmdT) (Derived.ty.enc c.cmdHandles) (sessionAuths c.cmdSessions)
    (Derived.ty.enc c.cmd)

abbrev Result : Type := Except TssError (c.RespT × c.RespHandles)

/-- `run_command_with_handles`, with its errors as values. -/
def run (T : Type) [Tpm T] : Fallible Empty T c.Result :=
  attempt (runCommandWithHandles c.cmd c.cmdHandles c.cmdSessions)

/-- The bytes after the header of a response. -/
def respBody (resp : c.RespT) (respHandles : c.RespHandles) (paramSize : List U8)
    (auths : List TpmsAuthResponse) : List U8 :=
  Derived.ty.enc respHandles ++ paramSize ++ Derived.ty.enc resp ++
    auths.flatMap TpmsAuthResponse.ty.enc

/-- The bytes that a TPM may give back for a result: an error code in the header, or the
encoding of the response with an authorization for every session of the command. -/
inductive Answers (b : List U8) : c.Result → Prop
  | error {e : TssError} (h : (RespHeader.ofBytes b).rc = e.get) : Answers b (.error e)
  | ok {tag : TpmSt} {resp : c.RespT} {respHandles : c.RespHandles} {paramSize rest : List U8}
    {auths : List TpmsAuthResponse} (hresp : Derived.ty.WellFormed resp)
    (hrespHandles : Derived.ty.WellFormed respHandles)
    (hlen : paramSize.length = if tag = .sessions then 4 else 0)
    (hauths : List.Forall₂ SessionOps.Validates (sessionList c.cmdSessions) auths)
    (h : b = RespHeader.ty.enc ⟨tag, BitVec.ofNat 32
        (10 + (c.respBody resp respHandles paramSize auths).length), 0⟩ ++
      (c.respBody resp respHandles paramSize auths ++ rest)) : Answers b (.ok (resp, respHandles))

theorem run_eq_respond {T : Type} [Tpm T] (tpm : T) :
    (runCommandWithHandles c.cmd c.cmdHandles c.cmdSessions).run tpm =
      (Tpm.respond c.sent >>= readResponse c.cmdSessions).run tpm :=
  run_runCommandWithHandles_of_puts (Derived.puts c.wellFormed_cmd)
    (Derived.puts c.wellFormed_cmdHandles) c.wellFormed_auths c.length_le tpm

variable {c} {T : Type} [Tpm T] {tpm tpm' : T} {respBuffer : List.Vector U8 respBufferSize}
  {result : c.Result}

theorem run_eq (htransact : (Tpm.transact c.sent).run
      (tpm, List.Vector.replicate respBufferSize 0) = .ok () (tpm', respBuffer)) :
    (runCommandWithHandles c.cmd c.cmdHandles c.cmdSessions).run tpm =
      (readResponse c.cmdSessions respBuffer).run tpm' :=
  (c.run_eq_respond tpm).trans (run_bind_of_ok (Tpm.run_respond_of_ok htransact))

omit [Tpm T] in
theorem run_readResponse_of_answers {resp : c.RespT} {respHandles : c.RespHandles}
    (h : c.Answers respBuffer.toList (.ok (resp, respHandles))) :
    (readResponse c.cmdSessions respBuffer).run tpm = .ok (resp, respHandles) tpm := by
  cases h with
  | @ok tag _ _ paramSize rest auths hresp hrespHandles hlen hauths hb =>
    generalize hbody : c.respBody resp respHandles paramSize auths = body at hb
    generalize hheader : RespHeader.mk tag (BitVec.ofNat 32 (10 + body.length)) 0 = header at hb
    have hlength : 10 + body.length + rest.length = respBufferSize := by
      rw [← respBuffer.toList_length, hb, List.length_append, List.length_append,
        RespHeader.length_enc, Nat.add_assoc]
    have hsize : header.size.toNat = 10 + body.length := by
      rw [← hheader, BitVec.toNat_ofNat, Nat.mod_eq_of_lt]
      simp only [respBufferSize] at hlength
      omega
    have hfront : (respBuffer.toList.take (10 + body.length)).drop 10 = body := by
      rw [hb, ← List.append_assoc, List.take_left', List.drop_left' (RespHeader.length_enc _)]
      rw [List.length_append, RespHeader.length_enc]
    rw [run_readResponse_eq_ok_iff c.cmdSessions (hb ▸ RespHeader.ofBytes_append header _), hsize,
      hfront, exists_isFramed_iff Derived.accepts Derived.accepts]
    have htag : header.tag = tag := by rw [← hheader]
    refine ⟨by rw [← hheader], by omega, by omega, rfl, paramSize, auths, hresp, hrespHandles,
      htag ▸ hlen, hauths, hbody.symm⟩

theorem run_of_answers (htransact : (Tpm.transact c.sent).run
      (tpm, List.Vector.replicate respBufferSize 0) = .ok () (tpm', respBuffer))
    (h : c.Answers respBuffer.toList result) : (c.run T).run tpm = .ok result tpm' := by
  have hrun := run_eq htransact
  cases result with
  | error e =>
    cases h with
    | error hrc =>
      have hne : (RespHeader.ofBytes respBuffer.toList).rc ≠ 0 := hrc ▸ e.ne_zero
      rw [run_readResponse_of_rc_ne_zero c.cmdSessions tpm' hne] at hrun
      simp only [hrc] at hrun
      exact run_attempt_of_err hrun
  | ok p => exact run_attempt_of_ok (hrun.trans (run_readResponse_of_answers h))

end TpmCall

end TpmRs
