import TpmRs.Base.CommandSet
import TpmRs.Client.Framing

/-!
# Response acceptance

What a response must consist of for the client to return a value. The header is
followed by the response handles, by the size of the parameters if the tag announces
sessions, by the parameters and by one validated authorization for every session of
the command, and nothing may be left.
-/

namespace TpmRs

open Library Library.Fallible Library.Slice AuthorizationArea

/-- The header at the front of a response. -/
def RespHeader.ofBytes (b : List U8) : RespHeader where
  tag := ⟨BitVec.ofNat 16 (BigEndian.ofBe (b.take 2))⟩
  size := BitVec.ofNat 32 (BigEndian.ofBe ((b.drop 2).take 4))
  rc := BitVec.ofNat 32 (BigEndian.ofBe ((b.drop 6).take 4))

theorem RespHeader.enc_eq (v : RespHeader) :
    ty.enc v = Prim.u16.enc v.tag.val ++ (Prim.u32.enc v.size ++ Prim.u32.enc v.rc) := by
  simp [ty, fields, Ty.enc, Ty.chunks, NamedFields.chunks, TpmSt.ty]

theorem RespHeader.wellFormed (v : RespHeader) : ty.WellFormed v :=
  ⟨Ty.wellFormed_newtype _ _ _, trivial, trivial, trivial⟩

theorem RespHeader.run_tryUnmarshal {b : List U8} (h : 10 ≤ b.length) :
    ty.tryUnmarshal.run b = .ok (ofBytes b) (b.drop 10) := by
  have htag : Prim.u16.enc (ofBytes b).tag.val = b.take 2 :=
    Prim.enc_ofNat_ofBe .u16 (by simp; omega)
  have hsize : Prim.u32.enc (ofBytes b).size = (b.drop 2).take 4 :=
    Prim.enc_ofNat_ofBe .u32 (by simp; omega)
  have hrc : Prim.u32.enc (ofBytes b).rc = (b.drop 6).take 4 :=
    Prim.enc_ofNat_ofBe .u32 (by simp; omega)
  apply (ty.decodes.run_eq_ok_iff _ _ _).mpr
  refine ⟨wellFormed _, ?_⟩
  have h6 : (b.drop 2).drop 4 = b.drop 6 := List.drop_drop
  have h10 : (b.drop 6).drop 4 = b.drop 10 := List.drop_drop
  calc b = b.take 2 ++ ((b.drop 2).take 4 ++ ((b.drop 6).take 4 ++ b.drop 10)) := by
        rw [← h10, List.take_append_drop, ← h6, List.take_append_drop, List.take_append_drop]
    _ = ty.enc (ofBytes b) ++ b.drop 10 := by
        rw [enc_eq, htag, hsize, hrc]
        simp only [List.append_assoc]

theorem RespHeader.length_enc (v : RespHeader) : (ty.enc v).length = 10 := by
  simp only [enc_eq, List.length_append, Prim.length_enc]
  rfl

theorem RespHeader.ofBytes_append (v : RespHeader) (rest : List U8) :
    ofBytes (ty.enc v ++ rest) = v := by
  have hlen : 10 ≤ (ty.enc v ++ rest).length := by
    rw [List.length_append, length_enc]
    omega
  have hrun := (ty.decodes.run_eq_ok_iff _ v rest).mpr ⟨wellFormed v, rfl⟩
  rw [run_tryUnmarshal hlen, EStateM.Result.ok.injEq] at hrun
  exact hrun.1

section

variable {σ : Type} {b : List U8} (h : 10 ≤ b.length) (s : σ)

include h

theorem run_readResponseHeader_of_rc_ne_zero (hrc : (RespHeader.ofBytes b).rc ≠ 0) :
    (readResponseHeader b).run s = .error (.err ⟨(RespHeader.ofBytes b).rc, hrc⟩) s := by
  have hread : (liftRc (Marshalable.tryUnmarshal (α := RespHeader))).run b =
      .ok (RespHeader.ofBytes b) (b.drop 10) := run_mapErr_of_ok (RespHeader.run_tryUnmarshal h)
  rw [readResponseHeader, run_bind_of_ok (run_onLocal_of_ok hread s)]
  simp only [TssError.tryFrom_of_ne_zero hrc, run_fail]

theorem run_readResponseHeader_of_rc_eq_zero (hrc : (RespHeader.ofBytes b).rc = 0) :
    (readResponseHeader b).run s = .ok (RespHeader.ofBytes b, 10) s := by
  have hread : (liftRc (Marshalable.tryUnmarshal (α := RespHeader))).run b =
      .ok (RespHeader.ofBytes b) (b.drop 10) := run_mapErr_of_ok (RespHeader.run_tryUnmarshal h)
  have hlen : b.length - (b.drop 10).length = 10 := by
    rw [List.length_drop]
    omega
  rw [readResponseHeader, run_bind_of_ok (run_onLocal_of_ok hread s)]
  simp only [hrc, TssError.tryFrom_zero, hlen, EStateM.run_pure]

end

theorem run_liftRc_eq_ok_iff {σ α : Type} {x : Fallible TpmRcError σ α} {s s' : σ} {a : α} :
    (liftRc x).run s = .ok a s' ↔ x.run s = .ok a s' := run_mapErr_eq_ok_iff

theorem accepts_liftRc {α : Type} {d : UnmarshalM α} {wf : α → Prop} {enc : α → List U8}
    (h : Accepts d wf enc) : Accepts (liftRc d) wf enc :=
  fun b v r => run_liftRc_eq_ok_iff.trans (h b v r)

/-- One response authorization after another, each validated as it is read. -/
def readAuths : List SessionOps → Fallible TssError (List U8) Unit
  | [] => pure ()
  | session :: sessions => do
    let auth ← liftRc Marshalable.tryUnmarshal
    fromExcept (session.validate auth)
    readAuths sessions

/-- A well-formed authorization that the session accepts. -/
def SessionOps.Validates (session : SessionOps) (auth : TpmsAuthResponse) : Prop :=
  TpmsAuthResponse.ty.WellFormed auth ∧ session.validate auth = .ok ()

theorem accepts_readAuths (sessions : List SessionOps) (b r : List U8) :
    (readAuths sessions).run b = .ok () r ↔ ∃ auths,
      List.Forall₂ SessionOps.Validates sessions auths ∧
        b = auths.flatMap TpmsAuthResponse.ty.enc ++ r := by
  induction sessions generalizing b with
  | nil => simp [readAuths]
  | cons session sessions ih =>
    have hauth := accepts_liftRc TpmsAuthResponse.ty.decodes.run_eq_ok_iff
    have hstep : (readAuths (session :: sessions)).run b = .ok () r ↔ ∃ auth b',
        (TpmsAuthResponse.ty.WellFormed auth ∧ b = TpmsAuthResponse.ty.enc auth ++ b') ∧
        session.validate auth = .ok () ∧ (readAuths sessions).run b' = .ok () r := by
      rw [readAuths, run_bind_eq_ok_iff]
      refine exists_congr fun auth => exists_congr fun b' => and_congr (hauth b auth b') ?_
      simp only [run_seq_eq_ok_iff, run_fromExcept_eq_ok_iff]
      exact ⟨fun ⟨_, ⟨hval, rfl⟩, hrest⟩ => ⟨hval, hrest⟩,
        fun ⟨hval, hrest⟩ => ⟨b', ⟨hval, rfl⟩, hrest⟩⟩
    rw [hstep]
    simp only [ih]
    constructor
    · intro h
      rcases h with ⟨auth, b', ⟨hwf, rfl⟩, hval, auths, hauths, rfl⟩
      exact ⟨auth :: auths, .cons ⟨hwf, hval⟩ hauths, by simp⟩
    · intro h
      rcases h with ⟨_ | ⟨auth, auths⟩, hauths, rfl⟩
      · cases hauths
      · cases hauths with
        | cons hhead htail =>
          exact ⟨auth, _, ⟨hhead.1, by simp⟩, hhead.2, auths, htail, rfl⟩

theorem run_readParamSize_eq_ok_iff (tag : TpmSt) (b r : List U8) :
    (readParamSize tag).run b = .ok () r ↔ ∃ paramSize : List U8,
      paramSize.length = (if tag = .sessions then 4 else 0) ∧ b = paramSize ++ r := by
  by_cases htag : tag = .sessions
  · simp only [readParamSize, htag, if_true, run_bind_eq_ok_iff, EStateM.run_pure,
      EStateM.Result.ok.injEq, true_and, accepts_liftRc Prim.u32.decodes.run_eq_ok_iff _ _ _]
    constructor
    · intro h
      rcases h with ⟨v, _, rfl, rfl⟩
      exact ⟨Prim.u32.enc v, Prim.length_enc _ _, rfl⟩
    · intro h
      rcases h with ⟨paramSize, hlen, rfl⟩
      exact ⟨_, r, by rw [Prim.enc_ofNat_ofBe .u32 hlen], rfl⟩
  · simp [readParamSize, htag]

theorem run_leftover_eq_ok_iff {α : Type} (e : TssError) (x y : α) (b r : List U8) :
    (do
      let unmarsh ← get
      if unmarsh.isEmpty then pure x else fail e : Fallible TssError (List U8) α).run b =
      .ok y r ↔ b = [] ∧ r = [] ∧ x = y := by
  cases b with
  | nil =>
    constructor
    · intro h
      cases h
      exact ⟨rfl, rfl, rfl⟩
    · intro h
      rcases h with ⟨-, rfl, rfl⟩
      rfl
  | cons _ _ => simp

section

variable {AA X Y Z : Type} [Session X] [Session Y] [Session Z] [AuthorizationArea AA X Y Z]

/-- The early returns for missing sessions amount to a loop over the sessions in use. -/
theorem readResponseSessions_eq (sessions : AA) :
    readResponseSessions sessions = readAuths (sessionList sessions) := by
  rcases h : decomposeRef sessions with ⟨_ | s1, _ | s2, _ | s3⟩ <;>
    simp [readResponseSessions, sessionList, h, readAuths, SessionOps.of]

variable {RespT RespHandles : Type} [Marshalable RespT] [Marshalable RespHandles]
  {wf : RespT → Prop} {enc : RespT → List U8}
  {wfHandles : RespHandles → Prop} {encHandles : RespHandles → List U8}

/-- The areas that the client finds in the bytes `b` after the header: the handles, the size of
the parameters if the tag announces one, the parameters, and an authorization that it
validates for each session. -/
structure IsFramed (sessions : List SessionOps) (tag : TpmSt) (b : List U8)
    (respHandles : RespHandles) (paramSize rest : List U8) (resp : RespT)
    (auths : List TpmsAuthResponse) : Prop where
  handles_eq : Marshalable.tryUnmarshal.run b = .ok respHandles (paramSize ++ rest)
  length_paramSize : paramSize.length = if tag = .sessions then 4 else 0
  params_eq : Marshalable.tryUnmarshal.run rest = .ok resp (auths.flatMap TpmsAuthResponse.ty.enc)
  validates : List.Forall₂ SessionOps.Validates sessions auths

theorem run_readResponseBody_eq_ok_iff (sessions : AA) (respHeader : RespHeader)
    (b r : List U8) (resp : RespT) (respHandles : RespHandles) :
    (readResponseBody sessions respHeader).run b = .ok (resp, respHandles) r ↔ r = [] ∧
      ∃ paramSize rest auths, IsFramed (sessionList sessions) respHeader.tag b respHandles
        paramSize rest resp auths := by
  simp only [readResponseBody, readResponseSessions_eq, run_bind_eq_ok_iff (x := liftRc _),
    run_seq_eq_ok_iff, run_liftRc_eq_ok_iff, run_readParamSize_eq_ok_iff, accepts_readAuths,
    run_leftover_eq_ok_iff, Prod.mk.injEq]
  constructor
  · intro h
    rcases h with ⟨_, _, hhandles, rest, ⟨paramSize, hlen, rfl⟩, _, _, hresp, _,
      ⟨auths, hauths, rfl⟩, rfl, rfl, rfl, rfl⟩
    rw [List.append_nil] at hresp
    exact ⟨rfl, paramSize, rest, auths, hhandles, hlen, hresp, hauths⟩
  · intro h
    rcases h with ⟨rfl, paramSize, rest, auths, hframed⟩
    refine ⟨_, _, hframed.handles_eq, rest, ⟨paramSize, hframed.length_paramSize, rfl⟩, _, _,
      hframed.params_eq, [], ⟨auths, hframed.validates, ?_⟩, rfl, rfl, rfl, rfl⟩
    rw [List.append_nil]

theorem exists_isFramed_iff (hresp : Accepts (Marshalable.tryUnmarshal (α := RespT)) wf enc)
    (hrespHandles : Accepts (Marshalable.tryUnmarshal (α := RespHandles)) wfHandles encHandles)
    {sessions : List SessionOps} {tag : TpmSt} {b : List U8} {respHandles : RespHandles}
    {resp : RespT} :
    (∃ paramSize rest auths, IsFramed sessions tag b respHandles paramSize rest resp auths) ↔
      ∃ paramSize auths, wf resp ∧ wfHandles respHandles ∧
        paramSize.length = (if tag = .sessions then 4 else 0) ∧
        List.Forall₂ SessionOps.Validates sessions auths ∧
        b = encHandles respHandles ++ paramSize ++ enc resp ++
          auths.flatMap TpmsAuthResponse.ty.enc := by
  refine exists_congr fun paramSize => ?_
  constructor
  · intro h
    rcases h with ⟨rest, auths, hframed⟩
    obtain ⟨hh, rfl⟩ := (hrespHandles _ _ _).mp hframed.handles_eq
    obtain ⟨hr, rfl⟩ := (hresp _ _ _).mp hframed.params_eq
    exact ⟨auths, hr, hh, hframed.length_paramSize, hframed.validates,
      by simp only [List.append_assoc]⟩
  · intro h
    rcases h with ⟨auths, hr, hh, hlen, hauths, rfl⟩
    refine ⟨enc resp ++ auths.flatMap TpmsAuthResponse.ty.enc, auths,
      (hrespHandles _ _ _).mpr ⟨hh, ?_⟩, hlen, (hresp _ _ _).mpr ⟨hr, rfl⟩, hauths⟩
    simp only [List.append_assoc]

theorem ten_le_length (respBuffer : List.Vector U8 respBufferSize) :
    10 ≤ respBuffer.toList.length := by
  rw [List.Vector.toList_length]
  decide

section

variable {σ : Type} (sessions : AA) {respBuffer : List.Vector U8 respBufferSize} (s : σ)

theorem run_readResponse_of_rc_ne_zero (hrc : (RespHeader.ofBytes respBuffer.toList).rc ≠ 0) :
    (readResponse sessions respBuffer : Fallible TssError σ (RespT × RespHandles)).run s =
      .error (.err ⟨(RespHeader.ofBytes respBuffer.toList).rc, hrc⟩) s := by
  rw [readResponse, run_bind_of_error
    (run_readResponseHeader_of_rc_ne_zero (ten_le_length respBuffer) s hrc)]

section

variable {header : RespHeader} (hheader : RespHeader.ofBytes respBuffer.toList = header)
  (hrc : header.rc = 0)

include hheader hrc

theorem run_readResponse_of_rc_eq_zero :
    (readResponse sessions respBuffer : Fallible TssError σ (RespT × RespHandles)).run s =
      (if header.size.toNat > respBufferSize then fail (.ofTssTcs .outOfMemory)
      else do
        let unmarsh ← sliceRange respBuffer.toList 10 header.size.toNat
        let (resp, _) ← onLocal unmarsh (readResponseBody sessions header)
        pure resp : Fallible TssError σ (RespT × RespHandles)).run s := by
  subst hheader
  rw [readResponse, run_bind_of_ok
    (run_readResponseHeader_of_rc_eq_zero (ten_le_length respBuffer) s hrc)]

theorem run_readResponse_of_size_gt (hsize : respBufferSize < header.size.toNat) :
    (readResponse sessions respBuffer : Fallible TssError σ (RespT × RespHandles)).run s =
      .error (.err (.ofTssTcs .outOfMemory)) s := by
  rw [run_readResponse_of_rc_eq_zero sessions s hheader hrc, if_pos hsize, run_fail]

/-- The bytes from the end of the header to the size are no range. -/
theorem run_readResponse_of_size_lt (hsize : header.size.toNat < 10) :
    (readResponse sessions respBuffer : Fallible TssError σ (RespT × RespHandles)).run s =
      .error .panic s := by
  have hhigh : ¬header.size.toNat > respBufferSize := by
    simp only [respBufferSize]
    omega
  rw [run_readResponse_of_rc_eq_zero sessions s hheader hrc, if_neg hhigh, sliceRange_of_lt hsize,
    run_bind_of_error (run_abort s)]

theorem run_readResponse_of_size_le (hlow : 10 ≤ header.size.toNat)
    (hhigh : header.size.toNat ≤ respBufferSize) :
    (readResponse sessions respBuffer : Fallible TssError σ (RespT × RespHandles)).run s =
      (onLocal ((respBuffer.toList.take header.size.toNat).drop 10)
        (readResponseBody sessions header) >>= fun p => pure p.1).run s := by
  rw [run_readResponse_of_rc_eq_zero sessions s hheader hrc, if_neg (Nat.not_lt.mpr hhigh),
    sliceRange_of_le hlow (hhigh.trans_eq respBuffer.toList_length.symm), pure_bind]

end
end

theorem run_readResponse_eq_ok_iff {σ : Type} (sessions : AA)
    {respBuffer : List.Vector U8 respBufferSize} {header : RespHeader}
    (hheader : RespHeader.ofBytes respBuffer.toList = header) (resp : RespT)
    (respHandles : RespHandles) (s s' : σ) :
    (readResponse sessions respBuffer).run s = .ok (resp, respHandles) s' ↔
      header.rc = 0 ∧ 10 ≤ header.size.toNat ∧ header.size.toNat ≤ respBufferSize ∧ s' = s ∧
        ∃ paramSize rest auths, IsFramed (sessionList sessions) header.tag
          ((respBuffer.toList.take header.size.toNat).drop 10) respHandles paramSize rest resp
          auths := by
  by_cases hrc : header.rc = 0
  · by_cases hlow : 10 ≤ header.size.toNat
    · by_cases hhigh : header.size.toNat ≤ respBufferSize
      · rw [run_readResponse_of_size_le sessions s hheader hrc hlow hhigh]
        simp only [run_bind_eq_ok_iff, Prod.exists, run_onLocal_eq_ok_iff, EStateM.run_pure,
          EStateM.Result.ok.injEq, run_readResponseBody_eq_ok_iff, Prod.mk.injEq]
        constructor
        · intro h
          rcases h with ⟨_, _, _, _, ⟨⟨-, hframed⟩, rfl⟩, ⟨rfl, rfl⟩, rfl⟩
          exact ⟨hrc, hlow, hhigh, rfl, hframed⟩
        · intro h
          rcases h with ⟨-, -, -, rfl, hframed⟩
          exact ⟨_, _, _, _, ⟨⟨rfl, hframed⟩, rfl⟩, ⟨rfl, rfl⟩, rfl⟩
      · rw [run_readResponse_of_size_gt sessions s hheader hrc (Nat.not_le.mp hhigh)]
        simp [hhigh]
    · rw [run_readResponse_of_size_lt sessions s hheader hrc (Nat.not_le.mp hlow)]
      simp [hlow]
  · subst hheader
    rw [run_readResponse_of_rc_ne_zero sessions s hrc]
    exact iff_of_false nofun fun h => hrc h.1

variable {CmdT Handles T : Type} [TpmCommand CmdT Handles RespT RespHandles]
  [Marshalable Handles] [Tpm T] {cmd : CmdT} {cmdHandles : Handles} {cmdSessions : AA}
  {handles params : List U8}

theorem run_runCommandWithHandles_of_transact
    (hcmd : Puts (Marshalable.tryMarshal cmd) params)
    (hhandles : Puts (Marshalable.tryMarshal cmdHandles) handles)
    (hauth : ∀ auth ∈ sessionAuths cmdSessions, TpmsAuthCommand.ty.WellFormed auth)
    (hfit : (frame (TpmCommand.cmdCode CmdT) handles (sessionAuths cmdSessions) params).length ≤
      cmdBufferSize) {tpm tpm' : T} {respBuffer : List.Vector U8 respBufferSize}
    (htransact : (Tpm.transact
      (frame (TpmCommand.cmdCode CmdT) handles (sessionAuths cmdSessions) params)).run
      (tpm, List.Vector.replicate respBufferSize 0) = .ok () (tpm', respBuffer)) :
    (runCommandWithHandles cmd cmdHandles cmdSessions).run tpm =
      (readResponse cmdSessions respBuffer).run tpm' := by
  rw [run_runCommandWithHandles_of_puts hcmd hhandles hauth hfit,
    run_bind_of_ok (Tpm.run_respond_of_ok htransact)]

/-- An error code is the result; otherwise exactly the responses of the right form, with
one validated authorization for each session, are accepted. -/
theorem runCommandWithHandles_accepts_iff (hcmd : Puts (Marshalable.tryMarshal cmd) params)
    (hhandles : Puts (Marshalable.tryMarshal cmdHandles) handles)
    (hauth : ∀ auth ∈ sessionAuths cmdSessions, TpmsAuthCommand.ty.WellFormed auth)
    (hfit : (frame (TpmCommand.cmdCode CmdT) handles (sessionAuths cmdSessions) params).length ≤
      cmdBufferSize)
    (hresp : Accepts (Marshalable.tryUnmarshal (α := RespT)) wf enc)
    (hrespHandles : Accepts (Marshalable.tryUnmarshal (α := RespHandles)) wfHandles encHandles)
    {tpm tpm' : T} {respBuffer : List.Vector U8 respBufferSize}
    (htransact : (Tpm.transact
      (frame (TpmCommand.cmdCode CmdT) handles (sessionAuths cmdSessions) params)).run
      (tpm, List.Vector.replicate respBufferSize 0) = .ok () (tpm', respBuffer)) :
    let header := RespHeader.ofBytes respBuffer.toList
    let result := (runCommandWithHandles cmd cmdHandles cmdSessions).run tpm
    (∀ hrc : header.rc ≠ 0, result = .error (.err ⟨header.rc, hrc⟩) tpm') ∧
    (header.rc = 0 → 10 ≤ header.size.toNat → header.size.toNat ≤ respBufferSize →
      ∀ resp respHandles tpm'', result = .ok (resp, respHandles) tpm'' ↔ tpm'' = tpm' ∧
        ∃ paramSize auths, wf resp ∧ wfHandles respHandles ∧
          paramSize.length = (if header.tag = .sessions then 4 else 0) ∧
          List.Forall₂ SessionOps.Validates (sessionList cmdSessions) auths ∧
          (respBuffer.toList.take header.size.toNat).drop 10 =
            encHandles respHandles ++ paramSize ++ enc resp ++
              auths.flatMap TpmsAuthResponse.ty.enc) := by
  intro header result
  have hresult : result = (readResponse cmdSessions respBuffer).run tpm' :=
    run_runCommandWithHandles_of_transact hcmd hhandles hauth hfit htransact
  have hheader : RespHeader.ofBytes respBuffer.toList = header := rfl
  refine ⟨fun hrc => ?_, fun hrc hlow hhigh resp respHandles tpm'' => ?_⟩
  · rw [hresult, run_readResponse_of_rc_ne_zero]
  · rw [hresult, run_readResponse_eq_ok_iff _ hheader, exists_isFramed_iff hresp hrespHandles]
    constructor
    · intro h
      exact h.2.2.2
    · intro h
      exact ⟨hrc, hlow, hhigh, h⟩

end

def twoRandomBytes : Tpm2bDigest where
  size := 2
  buffer := array ([0xAA, 0xBB] ++ List.replicate 62 0) rfl

theorem wellFormed_twoRandomBytes : GetRandomResp.ty.WellFormed ⟨twoRandomBytes⟩ := by
  refine ⟨?_, trivial⟩
  change twoRandomBytes.WellFormed
  decide

/-- The authorization that a password session accepts. -/
def passwordAuth : TpmsAuthResponse := ⟨.default, ⟨1⟩, .default⟩

theorem validates_twoBytePassword :
    List.Forall₂ SessionOps.Validates (sessionList twoBytePassword) [passwordAuth] := by
  refine .cons ⟨?_, by decide⟩ .nil
  exact ⟨Tpm2b.wellFormed_default, Ty.wellFormed_newtype _ _ _, Tpm2b.wellFormed_default, trivial⟩

/-- The start of a policy session with a nonce of two bytes and without a salt. -/
def policySession : StartAuthSessionCmd where
  nonceCaller := twoRandomBytes
  encryptedSalt := .default
  sessionType := ⟨1⟩
  symmetric := .null ⟨⟩ ⟨⟩
  authHash := ⟨TpmAlgId.sha256.val⟩

theorem wellFormed_policySession : StartAuthSessionCmd.ty.WellFormed policySession :=
  ⟨wellFormed_twoRandomBytes.1, Tpm2b.wellFormed_default, Ty.wellFormed_newtype _ _ _,
    ⟨trivial, trivial, trivial⟩, Ty.wellFormed_newtype _ _ _, trivial⟩

/-- Neither a key nor an entity that the session is bound to. -/
def unboundSession : StartAuthSessionHandles := ⟨⟨0x40000007⟩, ⟨0x40000007⟩⟩

theorem wellFormed_unboundSession : StartAuthSessionHandles.ty.WellFormed unboundSession :=
  ⟨Ty.wellFormed_newtype _ _ _, Ty.wellFormed_newtype _ _ _, trivial⟩

/-- The command of a policy session under a password. -/
def startSession : List U8 :=
  [0x80, 0x02, 0, 0, 0, 44, 0, 0, 0x01, 0x76, 0x40, 0, 0, 0x07, 0x40, 0, 0, 0x07,
    0, 0, 0, 11, 0x40, 0, 0, 0x09, 0, 0, 0, 0, 2, 0x0A, 0x0B,
    0, 2, 0xAA, 0xBB, 0, 0, 1, 0, 0x10, 0, 0x0B]

/-- The response with the handle of the session, a nonce and the authorization for the
password. -/
def sessionStarted : List U8 :=
  [0x80, 0x02, 0, 0, 0, 27, 0, 0, 0, 0, 0x03, 0, 0, 0, 0, 0, 0, 4, 0, 2, 0xAA, 0xBB, 0, 0, 1, 0, 0]

theorem runCommandWithHandles_accepts_sessionStarted :
    (runCommandWithHandles policySession unboundSession twoBytePassword).run
      (⟨sessionStarted⟩ : FakeTpm) =
      .ok (⟨twoRandomBytes⟩, ⟨0x03000000⟩) ⟨sessionStarted⟩ := by
  refine ((runCommandWithHandles_accepts_iff
    (StartAuthSessionCmd.ty.puts_tryMarshal wellFormed_policySession)
    (StartAuthSessionHandles.ty.puts_tryMarshal wellFormed_unboundSession)
    wellFormed_twoBytePassword (by decide) StartAuthSessionResp.ty.decodes.run_eq_ok_iff
    TpmiShAuthSession.ty.decodes.run_eq_ok_iff rfl).2 ?_ ?_ ?_ _ _ _).mpr
      ⟨rfl, [0, 0, 0, 4], [passwordAuth], ⟨wellFormed_twoRandomBytes.1, trivial⟩,
        Ty.wellFormed_newtype _ _ _, ?_, validates_twoBytePassword, ?_⟩
  · decide
  · decide
  · decide
  · decide
  · decide

end TpmRs
