import TpmRs.Client.BaseCalls
import TpmRs.EndToEnd.Failures
import TpmRs.Library.Service
import TpmRs.Marshalable.Tpm2bStruct
import TpmRs.Server.RandomSource

/-!
# Programs that use the server

A program makes any number of calls on the server through the client, and may decide on
each from the results of the earlier ones. Client, frames, server and buffers together
behave as an ideal service over the platform: a request for random bytes without sessions
draws them and is given what they are as a container; a command with another code, under any
sessions, is refused and draws nothing. Requests for random bytes under sessions are no part
of the service.
-/

namespace TpmRs

open Library Library.Fallible AuthorizationArea

/-- What the client makes of the drawn bytes: a container, if they are a size and as many bytes
as it says. -/
def readRandom (bytes : List U8) : Except TssError (GetRandomResp × Unit) :=
  let size := be bytes 0 2
  if bytes.length < 2 + size ∨ TpmtHa.unionSize < size then .error (.ofTpmRc .memory)
  else if 2 + size < bytes.length then .error (.ofTssTcs .tpmUnexpected)
  else
    match Tpm2b.fromBytes TpmtHa.unionSize (bytes.drop 2) with
    | .ok randomBytes => .ok (⟨randomBytes⟩, ())
    | .error e => .error (.ofTpmRc e)

theorem GetRandomCmd.wellFormed_mk (n : U16) : ty.WellFormed ⟨n⟩ := wellFormed ⟨n⟩

theorem wellFormed_noAuths : ∀ auth ∈ sessionAuths (), TpmsAuthCommand.ty.WellFormed auth :=
  List.forall_mem_nil _

/-- A request for `n` random bytes without sessions. -/
def randomCall (n : U16) : TpmCall :=
  .ofFits (⟨n⟩ : GetRandomCmd) () () (GetRandomCmd.wellFormed_mk n) wellFormed_unit
    wellFormed_noAuths

theorem sent_randomCall (n : U16) : (randomCall n).sent = getRandomFrame n := by
  have hparams : GetRandomCmd.ty.enc ⟨n⟩ = Prim.u16.enc n := by
    simp [GetRandomCmd.ty, Ty.enc, Ty.chunks, NamedFields.chunks]
  exact congrArg (frame .getRandom [] []) hparams

theorem Tpm2b.run_tryUnmarshal_of_be {cap : ℕ} {b : List U8}
    (h : b.length < 2 + be b 0 2 ∨ cap < be b 0 2) :
    ∃ b', (tryUnmarshal cap).run b = .error (.err .memory) b' := by
  by_cases hlen : 2 ≤ b.length
  · have hrest : (b.drop 2).length < (BitVec.ofNat 16 (be b 0 2)).toNat ∨
        cap < (BitVec.ofNat 16 (be b 0 2)).toNat := by
      rw [toNat_be_two, List.length_drop]
      omega
    obtain ⟨b', hrun⟩ := run_tryUnmarshal_of_lt hrest
    have hsize : Prim.u16.enc (BitVec.ofNat 16 (be b 0 2)) = b.take 2 := enc_be .u16 b 0 2 rfl hlen
    rw [hsize, List.take_append_drop] at hrun
    exact ⟨b', hrun⟩
  · have hshort : (ByteArray.tryUnmarshal Prim.u16.size).run b = .error (.err .memory) b :=
      ByteArray.run_tryUnmarshal_of_lt (Nat.not_le.mp hlen)
    have hsize : Prim.u16.tryUnmarshal.run b = .error (.err .memory) b :=
      run_bind_of_error hshort
    exact ⟨b, run_bind_of_error hsize⟩

theorem Tpm2b.run_tryUnmarshal_of_not_be {cap : ℕ} {b : List U8}
    (h : ¬(b.length < 2 + be b 0 2 ∨ cap < be b 0 2)) :
    ∃ self, fromBytes cap ((b.drop 2).take (be b 0 2)) = .ok self ∧
      (tryUnmarshal cap).run b = .ok self (b.drop (2 + be b 0 2)) := by
  have hsize : Prim.u16.enc (BitVec.ofNat 16 (be b 0 2)) = b.take 2 :=
    enc_be .u16 b 0 2 rfl (by omega)
  have hlen : ((b.drop 2).take (be b 0 2)).length = be b 0 2 := by
    rw [List.length_take, List.length_drop]
    omega
  have hbound := toNat_be_two b 0 ▸ (BitVec.ofNat 16 (be b 0 2)).isLt
  obtain ⟨self, hself⟩ := exists_fromBytes_iff.mpr
    (show ((b.drop 2).take (be b 0 2)).length ≤ min (2 ^ 16 - 1) cap by omega)
  have hrun := run_tryUnmarshal_of_fromBytes hself (b.drop (2 + be b 0 2))
  rw [hlen, hsize, ← List.drop_drop, List.append_assoc, List.take_append_drop,
    List.take_append_drop, List.drop_drop] at hrun
  exact ⟨self, hself, hrun⟩

theorem tryUnmarshal_getRandomResp :
    (Marshalable.tryUnmarshal : UnmarshalM GetRandomResp) = (do
      let randomBytes ← Tpm2b.tryUnmarshal TpmtHa.unionSize
      pure ⟨randomBytes⟩) := by
  change GetRandomResp.ty.tryUnmarshal = _
  simp only [GetRandomResp.ty, Ty.tryUnmarshal, NamedFields.unmarshal, bind_assoc, pure_bind]
  rfl

theorem run_leftover {α : Type} (e : TssError) (x : α) (b : List U8) :
    (do
      let unmarsh ← get
      if unmarsh.isEmpty then pure x else fail e : Fallible TssError (List U8) α).run b =
      if b = [] then .ok x b else .error (.err e) b := by
  cases b <;> rfl

section

variable {header : RespHeader} (htag : header.tag ≠ .sessions)

include htag

/-- Without sessions the client reads a container and nothing more. -/
theorem readResponseBody_getRandom :
    (readResponseBody () header : Fallible TssError (List U8) (GetRandomResp × Unit)) = (do
      let randomBytes ← liftRc (Tpm2b.tryUnmarshal TpmtHa.unionSize)
      let unmarsh ← get
      if unmarsh.isEmpty then pure (⟨randomBytes⟩, ()) else fail (.ofTssTcs .tpmUnexpected)) := by
  have hhandles : (liftRc Marshalable.tryUnmarshal : Fallible TssError (List U8) Unit) =
      pure () := by
    change liftRc Ty.unit.tryUnmarshal = _
    rw [Ty.tryUnmarshal]
    rfl
  have hparams : (liftRc Marshalable.tryUnmarshal : Fallible TssError (List U8) GetRandomResp) =
      (do
        let randomBytes ← liftRc (Tpm2b.tryUnmarshal TpmtHa.unionSize)
        pure ⟨randomBytes⟩) := by
    rw [tryUnmarshal_getRandomResp, liftRc, mapErr_bind]
    rfl
  unfold readResponseBody
  rw [readResponseSessions_eq, readParamSize, if_neg htag, hhandles, hparams]
  simp only [pure_bind, bind_assoc]
  rfl

theorem run_readResponseBody_of_ok {bytes r : List U8} {randomBytes : Tpm2bDigest}
    (h : (Tpm2b.tryUnmarshal TpmtHa.unionSize).run bytes = .ok randomBytes r) :
    (readResponseBody () header).run bytes =
      if r = [] then .ok ((⟨randomBytes⟩, ()) : GetRandomResp × Unit) r
      else .error (.err (.ofTssTcs .tpmUnexpected)) r := by
  have hlift : (liftRc (Tpm2b.tryUnmarshal TpmtHa.unionSize)).run bytes = .ok randomBytes r :=
    run_mapErr_of_ok h
  rw [readResponseBody_getRandom htag, run_bind_of_ok hlift, run_leftover]

theorem run_readResponseBody_of_err {bytes r : List U8} {e : TpmRcError}
    (h : (Tpm2b.tryUnmarshal TpmtHa.unionSize).run bytes = .error (.err e) r) :
    (readResponseBody () header : Fallible TssError (List U8) (GetRandomResp × Unit)).run bytes =
      .error (.err (.ofTpmRc e)) r := by
  have hlift : (liftRc (Tpm2b.tryUnmarshal TpmtHa.unionSize)).run bytes =
      .error (.err (.ofTpmRc e)) r := run_mapErr_of_err h
  rw [readResponseBody_getRandom htag, run_bind_of_error hlift]

/-- The parameters of a response are taken for a container. -/
theorem run_readResponseBody_getRandom {σ : Type} (bytes : List U8) (s : σ) :
    (attempt (onLocal bytes (readResponseBody () header) >>= fun p => pure p.1)).run s =
      .ok (readRandom bytes) s := by
  unfold readRandom
  simp only
  split_ifs with hshort hlong
  · obtain ⟨r, hread⟩ := Tpm2b.run_tryUnmarshal_of_be hshort
    have hbody := run_readResponseBody_of_err htag hread
    exact run_attempt_of_err (run_bind_of_error (run_onLocal_of_error hbody s))
  · obtain ⟨self, -, hread⟩ := Tpm2b.run_tryUnmarshal_of_not_be hshort
    have hrest : bytes.drop (2 + be bytes 0 2) ≠ [] := by
      rw [← List.length_pos_iff, List.length_drop]
      omega
    have hbody := run_readResponseBody_of_ok htag hread
    rw [if_neg hrest] at hbody
    exact run_attempt_of_err (run_bind_of_error (run_onLocal_of_error hbody s))
  · obtain ⟨self, hself, hread⟩ := Tpm2b.run_tryUnmarshal_of_not_be hshort
    have hall : (bytes.drop 2).take (be bytes 0 2) = bytes.drop 2 := by
      apply List.take_of_length_le
      rw [List.length_drop]
      omega
    have hbody := run_readResponseBody_of_ok htag hread
    rw [if_pos (List.drop_of_length_le (by omega))] at hbody
    rw [hall] at hself
    rw [hself]
    exact run_attempt_of_ok (run_bind_of_ok (run_onLocal_of_ok hbody s))

end

variable {D E : Type} [Drbg D] [EntropySource E]

theorem TpmCall.run_of_rejected (c : TpmCall) (ctx : TpmContext D E) {e : TpmRcError}
    (h : decision c.sent respBufferSize = .error e) :
    (c.run (TpmContext D E)).run ctx = .ok (.error (.ofTpmRc e)) ctx :=
  run_attempt_of_err ((c.run_eq_respond ctx).trans
    (run_respond_readResponse_of_error c.cmdSessions ctx h))

theorem run_randomCall_of_draw {ctx ctx' : TpmContext D E} {n : U16}
    {payload : List.Vector U8 n.toNat} (h : 10 + n.toNat ≤ respBufferSize)
    (hdraw : CommandHandler.tryGetRandom.run (ctx, List.Vector.replicate n.toNat (0 : U8)) =
      .ok () (ctx', payload)) :
    ((randomCall n).run (TpmContext D E)).run ctx = .ok (readRandom payload.toList) ctx' := by
  obtain ⟨respBuffer, hrespond, hbytes⟩ := run_respond_of_draw h hdraw
  have hheader : RespHeader.ofBytes respBuffer.toList = randomHeader n.toNat := by
    rw [hbytes, RespHeader.ofBytes_append]
  have hsize := toNat_size_randomHeader h
  have hread : (readResponse () respBuffer : Fallible TssError (TpmContext D E)
      (GetRandomResp × Unit)).run ctx' = _ :=
    run_readResponse_of_size_le () ctx' hheader rfl (hsize ▸ Nat.le_add_right 10 _) (hsize ▸ h)
  rw [hsize, params_of_randomHeader payload.toList_length hbytes] at hread
  have hcall := (randomCall n).run_eq_respond ctx
  rw [sent_randomCall, run_bind_of_ok hrespond] at hcall
  exact (run_attempt_congr (hcall.trans hread)).trans
    (run_readResponseBody_getRandom (tag_randomHeader _) payload.toList ctx')

theorem not_returns_randomCall {ctx : TpmContext D E} {n : U16}
    (h : 10 + n.toNat ≤ respBufferSize)
    (hdraw : ¬Returns CommandHandler.tryGetRandom
      (ctx, (List.Vector.replicate n.toNat 0 : List.Vector U8 n.toNat))) :
    ¬Returns ((randomCall n).run (TpmContext D E)) ctx := by
  obtain ⟨s, hrun⟩ := Input.execute_of_drawFails
    (i := .separate (getRandomFrame n) (List.replicate respBufferSize 0))
    ((requestFails_iff (decision_getRandomFrame_of_le h) (take_drop_zeros h)).mpr
      (not_not.mp (mt CommandHandler.returns_tryGetRandom_iff.mpr hdraw)))
  have htransact : (Tpm.transact (getRandomFrame n)).run
      (ctx, (List.Vector.replicate respBufferSize 0 : List.Vector U8 respBufferSize)) =
      .error .panic (s.1, List.Vector.replicate respBufferSize 0) := run_transact_of_panic hrun
  have hcall := (randomCall n).run_eq_respond ctx
  rw [sent_randomCall, run_bind_of_error (Tpm.run_respond_of_error htransact)] at hcall
  exact not_returns_of_error (run_attempt_of_panic hcall)

/-- The requests for random bytes without sessions, and other commands. -/
def serverCall {κ : Type} (other : κ → TpmCall) : U16 ⊕ κ → TpmCall
  | .inl n => randomCall n
  | .inr k => other k

/-- What the platform does for a call. Nothing is answered if it fails. -/
def randomService {κ : Type} (other : κ → TpmCall) :
    (i : U16 ⊕ κ) → Platform D E → Option ((serverCall other i).Result × Platform D E)
  | .inl n, s =>
    if respBufferSize < 10 + n.toNat then some (.error (.ofTpmRc .memory), s)
    else (s.draw n.toNat).map fun (payload, s) => (readRandom payload, s)
  | .inr _, s => some (.error (.ofTpmRc .commandCode), s)

/-- Every program of requests for random bytes without sessions and of commands with other codes,
whatever it makes of the results of its earlier calls, sees of client, frames, server and buffers
together exactly the service: the platform makes the draws that the program asks for and no
others, in order, and the program ends as the service does. -/
theorem observe_program (hO : Overwrites D) {κ α : Type} {other : κ → TpmCall}
    (hother : ∀ k, TpmCommand.cmdCode (other k).CmdT ≠ .getRandom)
    (program : Client (U16 ⊕ κ) (fun i => (serverCall other i).Result) α) (ctx : TpmContext D E) :
    observe Crypto.platform
      (program.run fun i => (serverCall other i).run (TpmContext D E)) ctx =
      program.evalPartial (randomService other) ctx.platform := by
  apply Client.observe_run
  rintro (n | k) ctx
  · by_cases h : respBufferSize < 10 + n.toNat
    · have hdecision := decision_getRandomFrame_of_lt h
      rw [← sent_randomCall] at hdecision
      rw [randomService, if_pos h]
      exact observe_of_ok ((randomCall n).run_of_rejected ctx hdecision)
    · have hle := Nat.not_lt.mp h
      rw [randomService, if_neg h]
      by_cases hdraw : Returns CommandHandler.tryGetRandom
          (ctx, (List.Vector.replicate n.toNat 0 : List.Vector U8 n.toNat))
      · obtain ⟨u, ⟨ctx', payload⟩, hrun⟩ := hdraw
        rw [Platform.draw_of_ok hO hrun]
        exact observe_of_ok (run_randomCall_of_draw hle hrun)
      · rw [Platform.draw_of_not_returns hO hdraw]
        exact observe_of_not_returns (not_returns_randomCall hle hdraw)
  · have hlen := (other k).length_le
    rw [cmdBufferSize] at hlen
    exact observe_of_ok ((other k).run_of_rejected ctx
      (decision_frame_of_ne (hother k) (hlen.trans_lt (by decide)) respBufferSize))

theorem StartupCmd.wellFormed_clear : ty.WellFormed ⟨.clear⟩ :=
  ⟨Ty.wellFormed_newtype _ _ _, trivial⟩

/-- The command to start up, which the server does not implement. -/
def startupCall : TpmCall :=
  .ofFits (⟨.clear⟩ : StartupCmd) () () StartupCmd.wellFormed_clear wellFormed_unit
    wellFormed_noAuths

/-- Starts up, asks for twelve bytes, and for more if there are none. -/
def startAndAsk :
    Client (U16 ⊕ Unit) (fun i => (serverCall (fun _ => startupCall) i).Result) Bool :=
  .call (.inr ()) fun _ => .call (.inl 12) fun
    | .ok _ => .done true
    | .error _ => .call (.inl 66) fun
      | .ok _ => .done true
      | .error _ => .done false

theorem observe_program_startAndAsk :
    observe Crypto.platform (startAndAsk.run fun i =>
      (serverCall (fun _ => startupCall) i).run (TpmContext FakeDrbg FakeEntropy)) testContext =
      some (false, ⟨78⟩, ⟨⟩) :=
  observe_program FakeDrbg.overwrites (fun _ => by decide) startAndAsk testContext

end TpmRs
