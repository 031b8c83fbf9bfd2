import TpmRs.Client.RunCommand
import TpmRs.Marshalable.ShortBuffer

/-!
# Command framing

The bytes that reach the TPM. The header is written first with a zero size and
overwritten once the length is known, and so is the size of the authorization area;
the frame below is what is left in the buffer.
-/

namespace TpmRs

open Library Library.Fallible Library.Slice AuthorizationArea

/-- `m` writes `bytes` where they fit and returns an error where they do not. -/
structure Lawful (m : MarshalM ℕ) (bytes : List U8) : Prop where
  puts : Puts m bytes
  short : ∀ buffer : List U8, buffer.length < bytes.length →
    ∃ e buffer', m.run buffer = .error (.err e) buffer'

/-- A derived marshaler is lawful where it writes no contents of a container. -/
theorem Ty.lawful {α : Type} (t : Ty α) {v : α} (hv : t.WellFormed v)
    (hchecked : ∀ c ∈ t.chunks v, c.checked = true) : Lawful (t.tryMarshal v) (t.enc v) := by
  refine ⟨t.puts_tryMarshal hv, fun buffer h => ?_⟩
  have hin : t.inPayload v buffer.length = false := by
    have hmem : true ∉ (t.chunks v).flatMap fun c => List.replicate c.bytes.length !c.checked := by
      simp only [List.mem_flatMap, List.mem_replicate, not_exists, not_and]
      intro c hc
      simp [hchecked c hc]
    simp only [inPayload, decide_eq_false_iff_not]
    exact fun hget => hmem (List.mem_of_getElem? hget)
  obtain ⟨buffer', hrun⟩ := t.run_tryMarshal_of_lt hv h
  exact ⟨.memory, buffer', by rw [hrun, hin]; rfl⟩

theorem GetRandomCmd.lawful (cmd : GetRandomCmd) :
    Lawful (Marshalable.tryMarshal cmd) (Prim.u16.enc cmd.bytesRequested) := by
  have henc : ty.enc cmd = Prim.u16.enc cmd.bytesRequested := by
    simp [ty, Ty.enc, Ty.chunks, NamedFields.chunks]
  rw [← henc]
  exact ty.lawful (by simp [ty, Ty.WellFormed, NamedFields.WellFormed])
    (by simp [ty, Ty.chunks, NamedFields.chunks])

theorem lawful_unit : Lawful (Marshalable.tryMarshal ()) [] :=
  Ty.unit.lawful trivial (by simp [Ty.chunks])

/-- The size of the authorizations and the authorizations, or nothing. -/
def authArea (auths : List TpmsAuthCommand) : List U8 :=
  let bytes := auths.flatMap TpmsAuthCommand.ty.enc
  if auths.isEmpty then [] else Prim.u32.enc (BitVec.ofNat 32 bytes.length) ++ bytes

/-- A command as the TPM receives it. -/
def frame (code : TpmCc) (handles : List U8) (auths : List TpmsAuthCommand) (params : List U8) :
    List U8 :=
  let tag := if auths.isEmpty then TpmSt.noSessions else TpmSt.sessions
  let body := handles ++ authArea auths ++ params
  Prim.u16.enc tag.val ++ Prim.u32.enc (BitVec.ofNat 32 (10 + body.length)) ++
    Prim.u32.enc code.val ++ body

theorem puts_liftRc {m : MarshalM ℕ} {bytes : List U8} (h : Puts m bytes) :
    Puts (liftRc m) bytes :=
  h.mapErr

theorem CmdHeader.enc_eq (v : CmdHeader) :
    ty.enc v = Prim.u16.enc v.tag.val ++ Prim.u32.enc v.size ++ Prim.u32.enc v.code.val := by
  simp [ty, fields, Ty.enc, Ty.chunks, NamedFields.chunks, TpmiStCommandTag.ty, TpmCc.ty]

theorem CmdHeader.puts_tryMarshal (v : CmdHeader) :
    Puts (liftRc (Marshalable.tryMarshal v)) (ty.enc v) := by
  have hwf : ty.WellFormed v :=
    ⟨Ty.wellFormed_newtype _ _ _, trivial, Ty.wellFormed_newtype _ _ _, trivial⟩
  exact puts_liftRc (ty.puts_tryMarshal hwf)

theorem CmdHeader.length_enc (v : CmdHeader) : (ty.enc v).length = 10 := by
  simp [enc_eq, Prim.size]

/-- The authorizations one after another from an index on. -/
def writeAuths : List TpmsAuthCommand → ℕ → Fallible TssError (List U8) ℕ
  | [], authOffset => pure authOffset
  | auth :: auths, authOffset => do
    let authOffset ← advance authOffset (liftRc (Marshalable.tryMarshal auth))
    writeAuths auths authOffset

theorem run_writeAuths {auths : List TpmsAuthCommand}
    (h : ∀ auth ∈ auths, TpmsAuthCommand.ty.WellFormed auth) (front rest : List U8)
    (hrest : (auths.flatMap TpmsAuthCommand.ty.enc).length ≤ rest.length) :
    (writeAuths auths front.length).run (front ++ rest) =
      .ok (front ++ auths.flatMap TpmsAuthCommand.ty.enc).length
        (front ++ auths.flatMap TpmsAuthCommand.ty.enc ++
          rest.drop (auths.flatMap TpmsAuthCommand.ty.enc).length) := by
  induction auths generalizing front rest with
  | nil => simp [writeAuths]
  | cons auth auths ih =>
    have hputs : Puts (liftRc (Marshalable.tryMarshal auth)) (TpmsAuthCommand.ty.enc auth) :=
      puts_liftRc (TpmsAuthCommand.ty.puts_tryMarshal (h auth (by simp)))
    rw [List.flatMap_cons, List.length_append] at hrest
    rw [writeAuths, run_bind_of_ok (hputs.run_advance (by omega)),
      ih (fun a ha => h a (by simp [ha])) _ _ (by rw [List.length_drop]; omega)]
    simp only [List.flatMap_cons, List.append_assoc, List.length_append, List.drop_drop]

section

variable {AA X Y Z : Type} [Session X] [Session Y] [Session Z] [AuthorizationArea AA X Y Z]

/-- The authorizations of the sessions in use. -/
def sessionAuths (sessions : AA) : List TpmsAuthCommand :=
  (sessionList sessions).map SessionOps.authCommand

/-- The early returns for missing sessions amount to a loop over the sessions in use. -/
theorem writeCommandSessions_eq (sessions : AA) :
    writeCommandSessions sessions =
      if (sessionAuths sessions).isEmpty then pure 0
      else writeAuths (sessionAuths sessions) 4 >>= marshalAuthSize := by
  rcases h : decomposeRef sessions with ⟨_ | s1, _ | s2, _ | s3⟩ <;>
    simp [writeCommandSessions, isEmpty, sessionAuths, sessionList, h, writeAuths, SessionOps.of]

theorem puts_marshalSize (n : ℕ) :
    Puts (liftRc (Prim.u32.tryMarshal (BitVec.ofNat 32 n))) (Prim.u32.enc (BitVec.ofNat 32 n)) := by
  have h := (Ty.prim .u32).puts_tryMarshal (v := BitVec.ofNat 32 n) trivial
  simp only [Ty.enc, Ty.chunks, Chunk.flat_cons, Chunk.flat_nil, List.append_nil] at h
  exact puts_liftRc h

theorem puts_writeCommandSessions (sessions : AA)
    (h : ∀ auth ∈ sessionAuths sessions, TpmsAuthCommand.ty.WellFormed auth) :
    Puts (writeCommandSessions sessions) (authArea (sessionAuths sessions)) := by
  rw [writeCommandSessions_eq, authArea]
  generalize sessionAuths sessions = auths at h ⊢
  cases auths.isEmpty with
  | true => exact fun buffer _ => by simp
  | false =>
    generalize hbytes : auths.flatMap TpmsAuthCommand.ty.enc = bytes
    have hsize : (Prim.u32.enc (BitVec.ofNat 32 bytes.length)).length = 4 := Prim.length_enc _ _
    apply puts_of_hole
    · intro buffer hb
      rw [List.length_append, hsize] at hb
      have hfront : (buffer.take 4).length = 4 := by simp; omega
      have hrun := run_writeAuths h (buffer.take 4) (buffer.drop 4)
        (by rw [hbytes, List.length_drop]; omega)
      rw [List.take_append_drop, hfront, hbytes, List.length_append, hfront,
        List.drop_drop] at hrun
      exact ⟨buffer.take 4, hfront.trans hsize.symm, by rw [List.length_append, hsize, hrun]⟩
    · intro hole rest hhole
      have hdiff : (Prim.u32.enc (BitVec.ofNat 32 bytes.length) ++ bytes).length - 4 =
          bytes.length := by
        rw [List.length_append, hsize]
        omega
      rw [marshalAuthSize, hdiff,
        run_bind_of_ok ((puts_marshalSize bytes.length).run_overwrite hhole), EStateM.run_pure]

variable {CmdT Handles RespT RespHandles : Type} [TpmCommand CmdT Handles RespT RespHandles]
  [Marshalable Handles]

/-- The header, the handles and the authorization area, with the size still zero. -/
def writeBeforeParams (CmdT : Type) [TpmCommand CmdT Handles RespT RespHandles]
    (cmdHandles : Handles) (cmdSessions : AA) : Fallible TssError (List U8) ℕ := do
  let cmdHeader := CmdHeader.new (isEmpty cmdSessions) (TpmCommand.cmdCode CmdT)
  let written ← liftRc (Marshalable.tryMarshal cmdHeader)
  let written ← advance written (liftRc (Marshalable.tryMarshal cmdHandles))
  advance written (writeCommandSessions cmdSessions)

/-- Overwrite the header once the length is known. -/
def updateSize (cmdHeader : CmdHeader) (written : ℕ) : Fallible TssError (List U8) ℕ := do
  let _ ← liftRc (Marshalable.tryMarshal { cmdHeader with size := BitVec.ofNat 32 written })
  pure written

theorem writeCommand_eq (cmd : CmdT) (cmdHandles : Handles) (cmdSessions : AA) :
    writeCommand cmd cmdHandles cmdSessions =
      (writeBeforeParams CmdT cmdHandles cmdSessions >>= fun written =>
        advance written (liftRc (Marshalable.tryMarshal cmd))) >>=
      updateSize (CmdHeader.new (isEmpty cmdSessions) (TpmCommand.cmdCode CmdT)) := by
  simp only [writeCommand, writeBeforeParams, bind_assoc]
  rfl

variable {cmd : CmdT} {cmdHandles : Handles} {cmdSessions : AA} {handles params : List U8}

theorem puts_writeBeforeParams (CmdT : Type) [TpmCommand CmdT Handles RespT RespHandles]
    (hhandles : Puts (Marshalable.tryMarshal cmdHandles) handles)
    (hauth : ∀ auth ∈ sessionAuths cmdSessions, TpmsAuthCommand.ty.WellFormed auth) :
    Puts (writeBeforeParams CmdT cmdHandles cmdSessions)
      (CmdHeader.ty.enc (CmdHeader.new (isEmpty cmdSessions) (TpmCommand.cmdCode CmdT)) ++
        handles ++ authArea (sessionAuths cmdSessions)) := by
  have h := ((CmdHeader.puts_tryMarshal (CmdHeader.new (isEmpty cmdSessions)
    (TpmCommand.cmdCode CmdT))).seq (puts_liftRc hhandles)).seq
    (puts_writeCommandSessions cmdSessions hauth)
  simpa only [writeBeforeParams, bind_assoc] using h

theorem frame_eq (code : TpmCc) :
    frame code handles (sessionAuths cmdSessions) params =
      CmdHeader.ty.enc { CmdHeader.new (isEmpty cmdSessions) code with
        size := BitVec.ofNat 32
          (10 + (handles ++ authArea (sessionAuths cmdSessions) ++ params).length) } ++
      (handles ++ authArea (sessionAuths cmdSessions) ++ params) := by
  rw [frame, CmdHeader.enc_eq, isEmpty_eq]
  have hempty : (sessionAuths cmdSessions).isEmpty = (sessionList cmdSessions).isEmpty := by
    simp [sessionAuths]
  rw [hempty]
  cases (sessionList cmdSessions).isEmpty <;> rfl

theorem length_frame (code : TpmCc) :
    (frame code handles (sessionAuths cmdSessions) params).length =
      10 + (handles ++ authArea (sessionAuths cmdSessions) ++ params).length := by
  rw [frame_eq, List.length_append, CmdHeader.length_enc]

theorem puts_writeCommand (hcmd : Puts (Marshalable.tryMarshal cmd) params)
    (hhandles : Puts (Marshalable.tryMarshal cmdHandles) handles)
    (hauth : ∀ auth ∈ sessionAuths cmdSessions, TpmsAuthCommand.ty.WellFormed auth) :
    Puts (writeCommand cmd cmdHandles cmdSessions)
      (frame (TpmCommand.cmdCode CmdT) handles (sessionAuths cmdSessions) params) := by
  have hputs := (puts_writeBeforeParams CmdT hhandles hauth).seq
    (puts_liftRc hcmd)
  rw [writeCommand_eq, frame_eq]
  apply puts_of_hole
  · intro buffer hb
    refine ⟨CmdHeader.ty.enc (CmdHeader.new (isEmpty cmdSessions) (TpmCommand.cmdCode CmdT)),
      by simp only [CmdHeader.length_enc], ?_⟩
    have hlen := CmdHeader.length_enc
      (CmdHeader.new (isEmpty cmdSessions) (TpmCommand.cmdCode CmdT))
    rw [List.length_append, CmdHeader.length_enc] at hb ⊢
    have hrun := hputs buffer (by
      simp only [List.append_assoc, List.length_append, hlen] at hb ⊢
      omega)
    simp only [List.append_assoc, List.length_append, hlen] at hrun ⊢
    exact hrun
  · intro hole rest hhole
    rw [updateSize, List.length_append, CmdHeader.length_enc,
      run_bind_of_ok ((CmdHeader.puts_tryMarshal _).run_overwrite hhole), EStateM.run_pure]

theorem run_writeCommand_of_lt (hcmd : Lawful (Marshalable.tryMarshal cmd) params)
    (hhandles : Lawful (Marshalable.tryMarshal cmdHandles) handles)
    (hauth : ∀ auth ∈ sessionAuths cmdSessions, TpmsAuthCommand.ty.WellFormed auth)
    (buffer : List U8)
    (hpre : 10 + (handles ++ authArea (sessionAuths cmdSessions)).length ≤ buffer.length)
    (hlt : buffer.length < 10 + (handles ++ authArea (sessionAuths cmdSessions) ++ params).length) :
    ∃ e buffer' buffer'',
      (Marshalable.tryMarshal cmd).run
        (buffer.drop (10 + (handles ++ authArea (sessionAuths cmdSessions)).length)) =
        .error (.err e) buffer' ∧
      (writeCommand cmd cmdHandles cmdSessions).run buffer =
        .error (.err (.ofTpmRc e)) buffer'' := by
  have hbefore := puts_writeBeforeParams CmdT hhandles.puts hauth buffer
  have hlen := CmdHeader.length_enc (CmdHeader.new (isEmpty cmdSessions) (TpmCommand.cmdCode CmdT))
  rw [List.append_assoc] at hbefore
  generalize hdef : CmdHeader.ty.enc (CmdHeader.new (isEmpty cmdSessions)
    (TpmCommand.cmdCode CmdT)) ++ (handles ++ authArea (sessionAuths cmdSessions)) = front
    at hbefore
  have hfront : front.length = 10 + (handles ++ authArea (sessionAuths cmdSessions)).length := by
    rw [← hdef, List.length_append, hlen]
  rw [← hfront] at hpre ⊢
  rw [List.length_append, ← Nat.add_assoc, ← hfront] at hlt
  obtain ⟨e, buffer', hrun⟩ := hcmd.short (buffer.drop front.length)
    (by rw [List.length_drop]; omega)
  have hdrop : (front ++ buffer.drop front.length).drop front.length =
      buffer.drop front.length := List.drop_left
  have hparams : (liftRc (Marshalable.tryMarshal cmd)).run
      ((front ++ buffer.drop front.length).drop front.length) =
      .error (.err (.ofTpmRc e)) buffer' := by
    rw [hdrop]
    exact run_mapErr_of_err hrun
  have hcut := run_advance_of_error (by simp) hparams
  exact ⟨e, buffer', _, hrun, by
    rw [writeCommand_eq, run_bind_of_error ((run_bind_of_ok (hbefore hpre)).trans hcut)]⟩

variable {T : Type} [Marshalable RespT] [Marshalable RespHandles] [Tpm T]

/-- What was written is sent, and the rest is up to the response. -/
theorem run_runCommandWithHandles_of_writeCommand {sent rest : List U8}
    (hwrite : (writeCommand cmd cmdHandles cmdSessions).run (List.replicate cmdBufferSize 0) =
      .ok sent.length (sent ++ rest)) (tpm : T) :
    (runCommandWithHandles cmd cmdHandles cmdSessions).run tpm =
      (Tpm.respond sent >>= readResponse cmdSessions).run tpm := by
  rw [runCommandWithHandles, run_bind_of_ok (run_onLocal_of_ok hwrite tpm)]
  simp only [sliceTo_of_le (List.length_append ▸ Nat.le_add_right _ _), List.take_left, pure_bind]

theorem run_runCommandWithHandles_of_puts (hcmd : Puts (Marshalable.tryMarshal cmd) params)
    (hhandles : Puts (Marshalable.tryMarshal cmdHandles) handles)
    (hauth : ∀ auth ∈ sessionAuths cmdSessions, TpmsAuthCommand.ty.WellFormed auth)
    (hfit : (frame (TpmCommand.cmdCode CmdT) handles (sessionAuths cmdSessions) params).length ≤
      cmdBufferSize) (tpm : T) :
    (runCommandWithHandles cmd cmdHandles cmdSessions).run tpm =
      (Tpm.respond (frame (TpmCommand.cmdCode CmdT) handles (sessionAuths cmdSessions) params) >>=
        readResponse cmdSessions).run tpm :=
  run_runCommandWithHandles_of_writeCommand
    (puts_writeCommand hcmd hhandles hauth _ (by simpa using hfit)) tpm

end

/-- A TPM that keeps every command it is sent. -/
structure Recorder (T : Type) where
  tpm : T
  commands : List (List U8)

instance {T : Type} [Tpm T] : Tpm (Recorder T) where
  transact command := fun (self, response) =>
    match (Tpm.transact command).run (self.tpm, response) with
    | .ok () (tpm, response) => .ok () (⟨tpm, self.commands ++ [command]⟩, response)
    | .error e (tpm, response) => .error e (⟨tpm, self.commands ++ [command]⟩, response)

theorem Recorder.run_transact {T : Type} [Tpm T] {n : ℕ} (self : Recorder T) (command : List U8)
    (response : List.Vector U8 n) :
    (Tpm.transact command).run (self, response) =
      match (Tpm.transact command).run (self.tpm, response) with
      | .ok () (tpm, response) => .ok () (⟨tpm, self.commands ++ [command]⟩, response)
      | .error e (tpm, response) => .error e (⟨tpm, self.commands ++ [command]⟩, response) :=
  rfl

theorem Recorder.commands_respond {T : Type} [Tpm T] (self : Recorder T) (command : List U8) :
    (finalState ((Tpm.respond command).run self)).commands = self.commands ++ [command] := by
  have hrun := self.run_transact command (List.Vector.replicate respBufferSize 0)
  cases h : (Tpm.transact command).run (self.tpm, List.Vector.replicate respBufferSize 0) with
  | ok _ s =>
    rw [h] at hrun
    rw [Tpm.run_respond_of_ok hrun, finalState]
  | error e s =>
    rw [h] at hrun
    rw [Tpm.run_respond_of_error hrun, finalState]

section

variable {AA X Y Z : Type} [Session X] [Session Y] [Session Z] [AuthorizationArea AA X Y Z]
  {CmdT Handles RespT RespHandles T : Type} [TpmCommand CmdT Handles RespT RespHandles]
  [Marshalable Handles] [Marshalable RespT] [Marshalable RespHandles] [Tpm T]

theorem keepsState_readResponse {σ : Type} (cmdSessions : AA)
    (respBuffer : List.Vector U8 respBufferSize) :
    KeepsState
      (readResponse cmdSessions respBuffer : Fallible TssError σ (RespT × RespHandles)) := by
  refine .bind (.bind (.onLocal _ _) ?_) ?_
  · intro header
    rcases header with ⟨respHeader, unmarsh⟩
    cases h : TssError.tryFrom respHeader.rc with
    | none => simpa only [h] using .pure _
    | some error => simpa only [h] using .fail error
  · intro header
    rcases header with ⟨respHeader, read⟩
    by_cases h : respHeader.size.toNat > respBuffer.length
    · simpa only [h, if_true] using .fail _
    · simp only [h, if_false]
      refine .bind ?_ fun unmarsh => .bind (.onLocal _ _) fun _ => .pure _
      unfold sliceRange
      split_ifs
      · exact .pure _
      · exact .abort

theorem run_runCommandWithHandles_of_lt {cmd : CmdT} {cmdHandles : Handles} {cmdSessions : AA}
    {handles params : List U8} (hcmd : Lawful (Marshalable.tryMarshal cmd) params)
    (hhandles : Lawful (Marshalable.tryMarshal cmdHandles) handles)
    (hauth : ∀ auth ∈ sessionAuths cmdSessions, TpmsAuthCommand.ty.WellFormed auth)
    (hpre : 10 + (handles ++ authArea (sessionAuths cmdSessions)).length ≤ cmdBufferSize)
    (hlt : cmdBufferSize <
      (frame (TpmCommand.cmdCode CmdT) handles (sessionAuths cmdSessions) params).length)
    (tpm : T) :
    ∃ e buffer',
      (Marshalable.tryMarshal cmd).run
        (List.replicate
          (cmdBufferSize - (10 + (handles ++ authArea (sessionAuths cmdSessions)).length)) 0) =
        .error (.err e) buffer' ∧
      (runCommandWithHandles cmd cmdHandles cmdSessions).run tpm =
        .error (.err (.ofTpmRc e)) tpm := by
  rw [length_frame] at hlt
  obtain ⟨e, buffer', buffer'', hparams, hwrite⟩ := run_writeCommand_of_lt hcmd hhandles hauth
    (List.replicate cmdBufferSize 0) (by simpa using hpre) (by simpa using hlt)
  rw [List.drop_replicate] at hparams
  refine ⟨e, buffer', hparams, ?_⟩
  rw [runCommandWithHandles, run_bind_of_error (run_onLocal_of_error hwrite tpm)]

/-- The authorization area is bounded because there are at most three sessions. -/
theorem length_authArea_le (cmdSessions : AA)
    (hauth : ∀ auth ∈ sessionAuths cmdSessions, TpmsAuthCommand.ty.WellFormed auth) :
    (authArea (sessionAuths cmdSessions)).length ≤ 4 + 3 * 137 := by
  have hcount : (sessionAuths cmdSessions).length ≤ 3 := by
    simpa [sessionAuths] using length_sessionList_le cmdSessions
  generalize sessionAuths cmdSessions = auths at hauth hcount
  have hbytes : (auths.flatMap TpmsAuthCommand.ty.enc).length ≤ auths.length * 137 := by
    clear hcount
    induction auths with
    | nil => simp
    | cons auth auths ih =>
      have hauth₀ := TpmsAuthCommand.length_enc_le (hauth auth (by simp))
      have hauths := ih fun a ha => hauth a (by simp [ha])
      simp only [List.flatMap_cons, List.length_append, List.length_cons]
      omega
  unfold authArea
  split_ifs
  · simp
  · simp only [List.length_append, Prim.length_enc, Prim.size]
    omega

/-- The TPM is sent exactly one command, its frame, or none when the parameters do not
fit, in which case their marshaling error is the result. -/
theorem runCommandWithHandles_framing {cmd : CmdT} {cmdHandles : Handles} {cmdSessions : AA}
    {handles params : List U8} (hcmd : Lawful (Marshalable.tryMarshal cmd) params)
    (hhandles : Lawful (Marshalable.tryMarshal cmdHandles) handles) (hlen : handles.length ≤ 12)
    (hauth : ∀ auth ∈ sessionAuths cmdSessions, TpmsAuthCommand.ty.WellFormed auth)
    (recorder : Recorder T) :
    let sent := frame (TpmCommand.cmdCode CmdT) handles (sessionAuths cmdSessions) params
    let result := (runCommandWithHandles cmd cmdHandles cmdSessions).run recorder
    (sent.length ≤ cmdBufferSize →
      (finalState result).commands = recorder.commands ++ [sent]) ∧
    (cmdBufferSize < sent.length → ∃ e buffer',
      (Marshalable.tryMarshal cmd).run
        (List.replicate (cmdBufferSize - (sent.length - params.length)) 0) =
        .error (.err e) buffer' ∧
      result = .error (.err (.ofTpmRc e)) recorder) := by
  intro sent result
  refine ⟨fun hfit => ?_, fun hlt => ?_⟩
  · have hresult : result = (Tpm.respond sent >>= readResponse cmdSessions).run recorder :=
      run_runCommandWithHandles_of_puts hcmd.puts hhandles.puts hauth hfit recorder
    have hsent := recorder.commands_respond sent
    cases hrun : (Tpm.respond sent).run recorder with
    | ok respBuffer recorder' =>
      rw [hrun] at hsent
      rw [hresult, run_bind_of_ok hrun, keepsState_readResponse cmdSessions respBuffer recorder']
      exact hsent
    | error e recorder' =>
      rw [hrun] at hsent
      rw [hresult, run_bind_of_error hrun]
      exact hsent
  · have harea := length_authArea_le cmdSessions hauth
    have hsent : sent.length - params.length =
        10 + (handles ++ authArea (sessionAuths cmdSessions)).length := by
      simp only [sent, length_frame, List.length_append]
      omega
    have hpre : 10 + (handles ++ authArea (sessionAuths cmdSessions)).length ≤ cmdBufferSize := by
      simp only [List.length_append, cmdBufferSize]
      omega
    rw [hsent]
    exact run_runCommandWithHandles_of_lt hcmd hhandles hauth hpre hlt recorder

end

/-- A password of two bytes. -/
def twoBytePassword : PasswordSession where
  auth := { size := 2, buffer := array ([0x0A, 0x0B] ++ List.replicate 62 0) rfl }

theorem wellFormed_twoBytePassword :
    ∀ auth ∈ sessionAuths twoBytePassword, TpmsAuthCommand.ty.WellFormed auth :=
  List.forall_mem_singleton.mpr (PasswordSession.wellFormed_getAuthCommand (by decide))

theorem runCommandWithHandles_framing_twoBytePassword :
    (finalState ((runCommandWithHandles (⟨12⟩ : GetRandomCmd) () twoBytePassword).run
      (⟨⟨[]⟩, []⟩ : Recorder FakeTpm))).commands =
      [[0x80, 0x02, 0, 0, 0, 27, 0, 0, 0x01, 0x7B, 0, 0, 0, 11,
        0x40, 0, 0, 0x09, 0, 0, 0, 0, 2, 0x0A, 0x0B, 0, 12]] := by
  have h := (runCommandWithHandles_framing (GetRandomCmd.lawful ⟨12⟩) lawful_unit (by decide)
    wellFormed_twoBytePassword (⟨⟨[]⟩, []⟩ : Recorder FakeTpm)).1 (by decide)
  exact h.trans (by decide)

end TpmRs
