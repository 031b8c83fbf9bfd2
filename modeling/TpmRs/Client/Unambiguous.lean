import TpmRs.Client.BaseCalls

/-!
# Frames are unambiguous

The encodings of one type are prefix-free, because decoding is exact. A frame therefore
says which command was sent, with which handles, authorizations and parameters: two
requests with the same frame are the same request, although the number of authorizations
and the lengths of the handles and the parameters are nowhere in the frame.
-/

namespace TpmRs

open Library Library.Fallible AuthorizationArea

section

variable {α : Type} (t : Ty α)

/-- No encoding of a well-formed value is a proper prefix of another. -/
theorem Ty.enc_append_inj {v v' : α} {r r' : List U8} (h : t.WellFormed v) (h' : t.WellFormed v')
    (heq : t.enc v ++ r = t.enc v' ++ r') : v = v' ∧ r = r' := by
  have hrun := (t.decodes.run_eq_ok_iff (t.enc v ++ r) v r).mpr ⟨h, rfl⟩
  have hrun' := (t.decodes.run_eq_ok_iff (t.enc v ++ r) v' r').mpr ⟨h', heq⟩
  rw [hrun, EStateM.Result.ok.injEq] at hrun'
  exact hrun'

/-- A sequence of encodings, none of which is empty, determines the values. -/
theorem Ty.flatMap_enc_inj (hne : ∀ v, t.enc v ≠ []) {vs vs' : List α}
    (h : ∀ v ∈ vs, t.WellFormed v) (h' : ∀ v ∈ vs', t.WellFormed v)
    (heq : vs.flatMap t.enc = vs'.flatMap t.enc) : vs = vs' := by
  induction vs generalizing vs' with
  | nil =>
    cases vs' with
    | nil => rfl
    | cons v' vs' =>
      rw [List.flatMap_nil, List.flatMap_cons, eq_comm, List.append_eq_nil_iff] at heq
      exact absurd heq.1 (hne v')
  | cons v vs ih =>
    cases vs' with
    | nil =>
      rw [List.flatMap_nil, List.flatMap_cons, List.append_eq_nil_iff] at heq
      exact absurd heq.1 (hne v)
    | cons v' vs' =>
      rw [List.flatMap_cons, List.flatMap_cons] at heq
      obtain ⟨rfl, hrest⟩ :=
        t.enc_append_inj (h v List.mem_cons_self) (h' v' List.mem_cons_self) heq
      rw [ih (fun w hw => h w (List.mem_cons_of_mem _ hw))
        (fun w hw => h' w (List.mem_cons_of_mem _ hw)) hrest]

end

theorem TpmsAuthCommand.enc_ne_nil (auth : TpmsAuthCommand) : ty.enc auth ≠ [] := by
  intro hnil
  have hlen := congrArg List.length hnil
  simp [ty, fields, Ty.enc, Ty.chunks, NamedFields.chunks, TpmiShAuthSession.ty, Prim.size] at hlen

/-- The size of the area separates the authorizations from the parameters. -/
theorem authArea_append_inj {auths auths' : List TpmsAuthCommand} {r r' : List U8}
    (h : ∀ auth ∈ auths, TpmsAuthCommand.ty.WellFormed auth)
    (h' : ∀ auth ∈ auths', TpmsAuthCommand.ty.WellFormed auth)
    (hlen : (authArea auths).length < 2 ^ 32) (hlen' : (authArea auths').length < 2 ^ 32)
    (hempty : auths.isEmpty = auths'.isEmpty)
    (heq : authArea auths ++ r = authArea auths' ++ r') : auths = auths' ∧ r = r' := by
  unfold authArea at heq hlen hlen'
  rw [← hempty] at heq hlen'
  cases hnil : auths.isEmpty with
  | true =>
    have hauths := List.isEmpty_iff.mp hnil
    have hauths' := List.isEmpty_iff.mp (hempty.symm.trans hnil)
    rw [hnil] at heq
    exact ⟨hauths.trans hauths'.symm, heq⟩
  | false =>
    simp only [hnil, Bool.false_eq_true, if_false, List.length_append, Prim.length_enc,
      List.append_assoc] at heq hlen hlen'
    generalize hbytes : auths.flatMap TpmsAuthCommand.ty.enc = bytes at heq hlen
    generalize hbytes' : auths'.flatMap TpmsAuthCommand.ty.enc = bytes' at heq hlen'
    obtain ⟨hsize, hrest⟩ := List.append_inj heq (by simp)
    have hsize' := congrArg BitVec.toNat (Prim.u32.enc_injective hsize)
    simp only [BitVec.toNat_ofNat, Nat.mod_eq_of_lt, show bytes.length < 2 ^ 32 by omega,
      show bytes'.length < 2 ^ 32 by omega] at hsize'
    obtain ⟨rfl, hr⟩ := List.append_inj hrest hsize'
    exact ⟨TpmsAuthCommand.ty.flatMap_enc_inj TpmsAuthCommand.enc_ne_nil h h'
      (hbytes.trans hbytes'.symm), hr⟩

/-- The header says whether there are authorizations, and what the command is. -/
theorem frame_inj {code code' : TpmCc} {handles handles' params params' : List U8}
    {auths auths' : List TpmsAuthCommand}
    (h : frame code handles auths params = frame code' handles' auths' params') :
    auths.isEmpty = auths'.isEmpty ∧ code = code' ∧
      handles ++ authArea auths ++ params = handles' ++ authArea auths' ++ params' := by
  unfold frame at h
  simp only [List.append_assoc (Prim.u16.enc _), List.append_assoc (Prim.u32.enc _)] at h
  obtain ⟨htag, h⟩ := List.append_inj h (by simp)
  obtain ⟨-, h⟩ := List.append_inj h (by simp)
  obtain ⟨hcode, hbody⟩ := List.append_inj h (by simp)
  refine ⟨?_, congrArg TpmCc.mk (Prim.u32.enc_injective hcode), hbody⟩
  have htag' := Prim.u16.enc_injective htag
  cases hempty : auths.isEmpty <;> cases hempty' : auths'.isEmpty
  · rfl
  · rw [hempty, hempty'] at htag'
    exact absurd htag' (by decide)
  · rw [hempty, hempty'] at htag'
    exact absurd htag' (by decide)
  · rfl

theorem length_authArea_lt {code : TpmCc} {handles params : List U8} {auths : List TpmsAuthCommand}
    (h : (frame code handles auths params).length ≤ cmdBufferSize) :
    (authArea auths).length < 2 ^ 32 := by
  unfold frame at h
  simp only [List.length_append, cmdBufferSize] at h
  omega

section

variable {AA X Y Z AA' X' Y' Z' Handles RespT RespHandles : Type} [Session X] [Session Y]
  [Session Z] [AuthorizationArea AA X Y Z] [Session X'] [Session Y'] [Session Z']
  [AuthorizationArea AA' X' Y' Z'] [Marshalable Handles] [Derived Handles]

/-- Requests for one command have the same frame only if they are the same, whatever kinds of
sessions authorize them, and no request for another command has that frame. -/
theorem frame_eq_iff (CmdT : Type) [TpmCommand CmdT Handles RespT RespHandles] [Derived CmdT]
    {cmd cmd' : CmdT} {cmdHandles cmdHandles' : Handles} {sessions : AA}
    {sessions' : AA'} (hcmd : Derived.ty.WellFormed cmd) (hcmd' : Derived.ty.WellFormed cmd')
    (hhandles : Derived.ty.WellFormed cmdHandles) (hhandles' : Derived.ty.WellFormed cmdHandles')
    (hauth : ∀ auth ∈ sessionAuths sessions, TpmsAuthCommand.ty.WellFormed auth)
    (hauth' : ∀ auth ∈ sessionAuths sessions', TpmsAuthCommand.ty.WellFormed auth)
    {sent : List U8} (hfit : sent.length ≤ cmdBufferSize)
    (hsent : frame (TpmCommand.cmdCode CmdT) (Derived.ty.enc cmdHandles) (sessionAuths sessions)
      (Derived.ty.enc cmd) = sent) :
    (frame (TpmCommand.cmdCode CmdT) (Derived.ty.enc cmdHandles') (sessionAuths sessions')
        (Derived.ty.enc cmd') = sent ↔
      cmdHandles' = cmdHandles ∧ sessionAuths sessions' = sessionAuths sessions ∧ cmd' = cmd) ∧
    ∀ (code : TpmCc) (handles params : List U8) (auths : List TpmsAuthCommand),
      code ≠ TpmCommand.cmdCode CmdT → frame code handles auths params ≠ sent := by
  subst hsent
  refine ⟨⟨fun h => ?_, ?_⟩, fun code handles params auths hne h => hne (frame_inj h).2.1⟩
  · obtain ⟨hempty, -, hbody⟩ := frame_inj h
    simp only [List.append_assoc] at hbody
    obtain ⟨hh, hrest⟩ := Derived.ty.enc_append_inj hhandles' hhandles hbody
    obtain ⟨ha, hparams⟩ := authArea_append_inj hauth' hauth (length_authArea_lt (h ▸ hfit))
      (length_authArea_lt hfit) hempty hrest
    have hparams' : Derived.ty.enc cmd' ++ [] = Derived.ty.enc cmd ++ [] := by
      rw [List.append_nil, List.append_nil, hparams]
    exact ⟨hh, ha, (Derived.ty.enc_append_inj hcmd' hcmd hparams').1⟩
  · rintro ⟨rfl, hauths, rfl⟩
    rw [hauths]

end

theorem frame_eq_iff_twoBytePassword :
    (frame .getRandom (Ty.unit.enc ()) (sessionAuths ()) (GetRandomCmd.ty.enc ⟨12⟩) =
        frame .getRandom (Ty.unit.enc ()) (sessionAuths twoBytePassword)
          (GetRandomCmd.ty.enc ⟨12⟩) ↔
      () = () ∧ sessionAuths () = sessionAuths twoBytePassword ∧
        (⟨12⟩ : GetRandomCmd) = ⟨12⟩) ∧
    ∀ (code : TpmCc) (handles params : List U8) (auths : List TpmsAuthCommand),
      code ≠ .getRandom → frame code handles auths params ≠
        frame .getRandom (Ty.unit.enc ()) (sessionAuths twoBytePassword)
          (GetRandomCmd.ty.enc ⟨12⟩) :=
  frame_eq_iff GetRandomCmd (GetRandomCmd.wellFormed ⟨12⟩) (GetRandomCmd.wellFormed ⟨12⟩)
    wellFormed_unit wellFormed_unit wellFormed_twoBytePassword (List.forall_mem_nil _) (by decide)
    rfl

end TpmRs
