import TpmRs.Client.Acceptance

/-!
# The framing of responses

Where the parameters of a response end and its authorizations begin. The client finds
the boundary by decoding: after the handles comes a size if the tag is the one for
sessions, then the parameters, then one authorization for each session that the command
carried. Neither the tag nor the size is compared with what was decoded.
-/

namespace TpmRs

open Library Library.Fallible Library.Slice AuthorizationArea

section

variable {AA X Y Z : Type} [Session X] [Session Y] [Session Z] [AuthorizationArea AA X Y Z]
  {RespT RespHandles : Type} [Marshalable RespT] [Marshalable RespHandles]

variable {CmdT Handles T : Type} [TpmCommand CmdT Handles RespT RespHandles]
  [Marshalable Handles] [Tpm T] {cmd : CmdT} {cmdHandles : Handles} {cmdSessions : AA}

/-- An accepted response is its header, the handles, a size exactly if the tag is the one for
sessions, the parameters, and one validated authorization for each session of the command,
whatever the tag; nothing is left over. -/
theorem runCommandWithHandles_isFramed {tpm tpm' : T} {resp : RespT} {respHandles : RespHandles}
    (h : (runCommandWithHandles cmd cmdHandles cmdSessions).run tpm =
      .ok (resp, respHandles) tpm') :
    ∃ (command : List U8) (respBuffer : List.Vector U8 respBufferSize) (paramSize rest : List U8)
      (auths : List TpmsAuthResponse),
      let header := RespHeader.ofBytes respBuffer.toList
      (Tpm.respond command).run tpm = .ok respBuffer tpm' ∧
      header.rc = 0 ∧ 10 ≤ header.size.toNat ∧ header.size.toNat ≤ respBufferSize ∧
      IsFramed (sessionList cmdSessions) header.tag
        ((respBuffer.toList.take header.size.toNat).drop 10) respHandles paramSize rest resp auths ∧
      (paramSize ≠ [] ↔ header.tag = .sessions) ∧
      (auths ≠ [] ↔ isEmpty cmdSessions = false) := by
  rw [runCommandWithHandles, run_bind_eq_ok_iff] at h
  rcases h with ⟨⟨written, cmdBuffer⟩, tpm₁, hwrite, h⟩
  rw [run_bind_eq_ok_iff] at h
  rcases h with ⟨command, tpm₂, hcommand, h⟩
  rw [run_bind_eq_ok_iff] at h
  rcases h with ⟨respBuffer, tpm₃, hrespond, hread⟩
  obtain rfl := (KeepsState.onLocal _ _).eq_of_ok hwrite
  obtain rfl := (keepsState_sliceTo _ _).eq_of_ok hcommand
  obtain ⟨hrc, hlow, hhigh, rfl, paramSize, rest, auths, hframed⟩ :=
    (run_readResponse_eq_ok_iff cmdSessions rfl resp respHandles tpm₃ tpm').mp hread
  refine ⟨command, respBuffer, paramSize, rest, auths, hrespond, hrc, hlow, hhigh, hframed, ?_, ?_⟩
  · have hlen := hframed.length_paramSize
    by_cases htag : (RespHeader.ofBytes respBuffer.toList).tag = .sessions
    · rw [if_pos htag] at hlen
      exact iff_of_true (List.ne_nil_of_length_pos (by omega)) htag
    · rw [if_neg htag] at hlen
      exact iff_of_false (not_not.mpr (List.length_eq_zero_iff.mp hlen)) htag
  · have hlen := hframed.validates.length_eq
    rw [isEmpty_eq, List.isEmpty_eq_false_iff, ← List.length_pos_iff, ← List.length_pos_iff, hlen]

end

/-- Any tag and any size of the parameters, in front of two random bytes and the authorization
for the one session of the command. -/
theorem run_getRandom_twoBytePassword (paramSize : List U8) {tpm : FakeTpm}
    {respBuffer : List.Vector U8 respBufferSize}
    (htransact : ∀ command, (Tpm.transact command).run
      (tpm, List.Vector.replicate respBufferSize 0) = .ok () (tpm, respBuffer))
    {header : RespHeader} (hheader : RespHeader.ofBytes respBuffer.toList = header)
    (hrc : header.rc = 0) (hlow : 10 ≤ header.size.toNat)
    (hhigh : header.size.toNat ≤ respBufferSize)
    (hlen : paramSize.length = if header.tag = .sessions then 4 else 0)
    (hbody : (respBuffer.toList.take header.size.toNat).drop 10 = paramSize ++
      (GetRandomResp.ty.enc ⟨twoRandomBytes⟩ ++ TpmsAuthResponse.ty.enc passwordAuth)) :
    (runCommandWithHandles (⟨2⟩ : GetRandomCmd) () twoBytePassword).run tpm =
      .ok (⟨twoRandomBytes⟩, ()) tpm := by
  rw [run_runCommandWithHandles_of_transact (GetRandomCmd.lawful ⟨2⟩).puts lawful_unit.puts
    wellFormed_twoBytePassword (by decide) (htransact _)]
  apply (run_readResponse_eq_ok_iff _ hheader _ _ _ _).mpr
  refine ⟨hrc, hlow, hhigh, rfl, paramSize, _, [passwordAuth],
    ⟨(Ty.unit.decodes.run_eq_ok_iff _ _ _).mpr ⟨trivial, hbody⟩, hlen,
      (GetRandomResp.ty.decodes.run_eq_ok_iff _ _ _).mpr ⟨wellFormed_twoRandomBytes, ?_⟩,
      validates_twoBytePassword⟩⟩
  rw [List.flatMap_cons, List.flatMap_nil, List.append_nil]

/-- The response to a command without sessions, with an authorization at its end. -/
def untaggedWithAuth : List U8 :=
  [0x80, 0x01, 0, 0, 0, 19, 0, 0, 0, 0, 0, 2, 0xAA, 0xBB, 0, 0, 1, 0, 0]

/-- A response whose four bytes of parameters are announced as nine. -/
def misstatedParamSize : List U8 :=
  [0x80, 0x02, 0, 0, 0, 23, 0, 0, 0, 0, 0, 0, 0, 9, 0, 2, 0xAA, 0xBB, 0, 0, 1, 0, 0]

theorem runCommandWithHandles_accepts_untaggedWithAuth :
    (runCommandWithHandles (⟨2⟩ : GetRandomCmd) () twoBytePassword).run
      (⟨untaggedWithAuth⟩ : FakeTpm) = .ok (⟨twoRandomBytes⟩, ()) ⟨untaggedWithAuth⟩ :=
  run_getRandom_twoBytePassword [] (fun _ => rfl) rfl (by decide) (by decide) (by decide)
    (by decide) (by decide)

theorem runCommandWithHandles_accepts_misstatedParamSize :
    (runCommandWithHandles (⟨2⟩ : GetRandomCmd) () twoBytePassword).run
      (⟨misstatedParamSize⟩ : FakeTpm) = .ok (⟨twoRandomBytes⟩, ()) ⟨misstatedParamSize⟩ :=
  run_getRandom_twoBytePassword [0, 0, 0, 9] (fun _ => rfl) rfl (by decide) (by decide) (by decide)
    (by decide) (by decide)

/-- A command with a session accepts a response without the tag for sessions, and one whose
size of the parameters is wrong. -/
theorem runCommandWithHandles_accepts_misframed :
    ((runCommandWithHandles (⟨2⟩ : GetRandomCmd) () twoBytePassword).run
        (⟨untaggedWithAuth⟩ : FakeTpm) = .ok (⟨twoRandomBytes⟩, ()) ⟨untaggedWithAuth⟩ ∧
      (RespHeader.ofBytes untaggedWithAuth).tag ≠ .sessions ∧ isEmpty twoBytePassword = false) ∧
    (runCommandWithHandles (⟨2⟩ : GetRandomCmd) () twoBytePassword).run
        (⟨misstatedParamSize⟩ : FakeTpm) = .ok (⟨twoRandomBytes⟩, ()) ⟨misstatedParamSize⟩ ∧
      (RespHeader.ofBytes misstatedParamSize).tag = .sessions ∧
      BigEndian.ofBe ((misstatedParamSize.drop 10).take 4) ≠
        (GetRandomResp.ty.enc ⟨twoRandomBytes⟩).length :=
  ⟨⟨runCommandWithHandles_accepts_untaggedWithAuth, by decide, rfl⟩,
    runCommandWithHandles_accepts_misstatedParamSize, by decide, by decide⟩

theorem runCommandWithHandles_isFramed_untaggedWithAuth :
    ∃ (command : List U8) (respBuffer : List.Vector U8 respBufferSize) (paramSize rest : List U8)
      (auths : List TpmsAuthResponse),
      let header := RespHeader.ofBytes respBuffer.toList
      (Tpm.respond command).run (⟨untaggedWithAuth⟩ : FakeTpm) =
        .ok respBuffer ⟨untaggedWithAuth⟩ ∧
      header.rc = 0 ∧ 10 ≤ header.size.toNat ∧ header.size.toNat ≤ respBufferSize ∧
      IsFramed (sessionList twoBytePassword) header.tag
        ((respBuffer.toList.take header.size.toNat).drop 10) () paramSize rest
        (⟨twoRandomBytes⟩ : GetRandomResp) auths ∧
      (paramSize ≠ [] ↔ header.tag = .sessions) ∧
      (auths ≠ [] ↔ isEmpty twoBytePassword = false) :=
  runCommandWithHandles_isFramed runCommandWithHandles_accepts_untaggedWithAuth

end TpmRs
