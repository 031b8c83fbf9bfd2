import TpmRs.Client.Acceptance
import TpmRs.Server.Execution

/-!
# The client against the server

The server is a TPM for the client. The client asks for random bytes with the request
that the server understands, and takes the parameters of the response for a TPM2B
container, while the server writes the bytes without a size in front of them.
-/

namespace TpmRs

open Library Library.Fallible Library.Slice

variable {D E : Type} [Drbg D] [EntropySource E]

instance : Tpm (TpmContext D E) where
  transact {n} command := fun (self, response) =>
    match (TpmContext.executeCommandSeparate command).run (self, response.toList) with
    | .ok _ (self, written) =>
      -- writes never change the length of the buffer
      if h : written.length = n then .ok () (self, array written h)
      else .error .panic (self, response)
    | .error .panic (self, _) => .error .panic (self, response)

theorem run_transact_of_ok {ctx ctx' : TpmContext D E} {n count : ℕ} {command : List U8}
    {response written : List.Vector U8 n}
    (h : (TpmContext.executeCommandSeparate command).run (ctx, response.toList) =
      .ok count (ctx', written.toList)) :
    (Tpm.transact command).run (ctx, response) = .ok () (ctx', written) := by
  change Tpm.transact command (ctx, response) = _
  simp only [Tpm.transact, h]
  rw [dif_pos written.toList_length]
  rfl

theorem run_transact_of_panic {ctx : TpmContext D E} {n : ℕ} {command : List U8}
    {response : List.Vector U8 n} {s : TpmContext D E × List U8}
    (h : (TpmContext.executeCommandSeparate command).run (ctx, response.toList) =
      .error .panic s) :
    (Tpm.transact command).run (ctx, response) = .error .panic (s.1, response) := by
  change Tpm.transact command (ctx, response) = _
  simp only [Tpm.transact, h]

/-- The next `n` bytes of the generator's output. -/
def nextBytes (ctx : TpmContext D E) (n : ℕ) : List U8 :=
  match CommandHandler.tryGetRandom.run (ctx, (List.Vector.replicate n 0 : List.Vector U8 n)) with
  | .ok () (_, payload) => payload.toList
  | .error _ (_, payload) => payload.toList

theorem length_nextBytes (ctx : TpmContext D E) (n : ℕ) : (nextBytes ctx n).length = n := by
  unfold nextBytes
  split <;> exact List.Vector.toList_length _

/-- The client's request for `n` bytes. -/
def getRandomFrame (n : U16) : List U8 := frame .getRandom [] [] (Prim.u16.enc n)

theorem getRandomFrame_eq (n : U16) : getRandomFrame n =
    [0x80, 0x01, 0, 0, 0, 0x0C, 0, 0, 0x01, 0x7B] ++ (Prim.u16.enc n ++ []) := by
  have hlen : (Prim.u16.enc n).length = 2 := Prim.length_enc _ _
  have hheader : Prim.u16.enc TpmSt.noSessions.val ++ (Prim.u32.enc 12 ++
      Prim.u32.enc TpmCc.getRandom.val) = [0x80, 0x01, 0, 0, 0, 0x0C, 0, 0, 0x01, 0x7B] := by
    decide
  rw [← hheader]
  simp [getRandomFrame, frame, authArea, hlen]

/-- The server understands the client's request. -/
theorem decision_getRandomFrame (n : U16) (capacity : ℕ) :
    decision (getRandomFrame n) capacity =
      if capacity < 10 + n.toNat then .error .memory else .ok n.toNat := by
  have hlen : (getRandomFrame n).length = 12 := by
    rw [getRandomFrame_eq, List.append_nil, List.length_append, Prim.length_enc]
    rfl
  have hsize : be (getRandomFrame n) 2 4 = 12 :=
    (congrArg (fun q => be q 2 4) (getRandomFrame_eq n)).trans
      (be_append .u32 [0x80, 0x01] _ 12)
  have hcode : be (getRandomFrame n) 6 4 = 0x17B :=
    (congrArg (fun q => be q 6 4) (getRandomFrame_eq n)).trans
      (be_append .u32 [0x80, 0x01, 0, 0, 0, 0x0C] _ 0x17B)
  have hparam : be (getRandomFrame n) 10 2 = n.toNat :=
    (congrArg (fun q => be q 10 2) (getRandomFrame_eq n)).trans (be_append .u16 _ [] n)
  simp [decision, hlen, hsize, hcode, hparam]

theorem run_runCommand_getRandom {ctx ctx' : TpmContext D E} {n : U16}
    {respBuffer : List.Vector U8 respBufferSize}
    (h : (Tpm.respond (getRandomFrame n)).run ctx = .ok respBuffer ctx') :
    (runCommand (⟨n⟩ : GetRandomCmd)).run ctx =
      (readResponse () respBuffer >>= fun p : GetRandomResp × Unit => pure p.1).run ctx' := by
  have hfit : (frame (TpmCommand.cmdCode GetRandomCmd) [] (sessionAuths ())
      (Prim.u16.enc n)).length ≤ cmdBufferSize := by
    change (getRandomFrame n).length ≤ cmdBufferSize
    rw [getRandomFrame_eq, List.append_nil, List.length_append, Prim.length_enc]
    decide
  have hauth : ∀ auth ∈ sessionAuths (), TpmsAuthCommand.ty.WellFormed auth := by
    intro auth hmem
    cases hmem
  have hrun : (runCommandWithHandles (⟨n⟩ : GetRandomCmd) () ()).run ctx =
      (Tpm.respond (getRandomFrame n) >>= readResponse ()).run ctx :=
    run_runCommandWithHandles_of_puts (GetRandomCmd.lawful ⟨n⟩).puts lawful_unit.puts hauth hfit
      ctx
  rw [run_bind_of_ok h] at hrun
  unfold runCommand
  rw [EStateM.run_bind, EStateM.run_bind, ← hrun]

theorem run_respond_of_execute {ctx ctx' : TpmContext D E} {command : List U8} {count : ℕ}
    {written : List.Vector U8 respBufferSize}
    (h : (Input.separate command (List.replicate respBufferSize 0)).execute ctx =
      .ok count (ctx', written.toList)) :
    (Tpm.respond command).run ctx = .ok written ctx' :=
  Tpm.run_respond_of_ok (run_transact_of_ok h)

theorem run_respond_of_error (ctx : TpmContext D E) {command : List U8} {e : TpmRcError}
    (h : decision command respBufferSize = .error e) :
    ∃ respBuffer, (Tpm.respond command).run ctx = .ok respBuffer ctx ∧
      (RespHeader.ofBytes respBuffer.toList).rc = e.get := by
  let zeros : List U8 := List.replicate respBufferSize 0
  let written := zeros.take 6 ++ Prim.u32.enc e.get ++ zeros.drop 10
  have hzeros : zeros.length = respBufferSize := List.length_replicate
  have hrun := Input.execute_of_error_of_le (i := .separate command zeros) ctx
    (hzeros ▸ by decide) (hzeros.symm ▸ h)
  have hwritten : written.length = respBufferSize := by
    simp only [written, List.length_append, List.length_take, List.length_drop, Prim.length_enc,
      hzeros]
    rfl
  have hsix : zeros.take 6 = Prim.u16.enc 0 ++ Prim.u32.enc 0 := by
    rw [List.take_replicate]
    decide
  refine ⟨array written hwritten, run_respond_of_execute hrun, ?_⟩
  have hheader : written = RespHeader.ty.enc ⟨⟨0⟩, 0, e.get⟩ ++ zeros.drop 10 := by
    simp only [written, hsix, RespHeader.enc_eq, List.append_assoc]
  rw [toList_array, hheader, RespHeader.ofBytes_append]

theorem decision_getRandomFrame_of_lt {n : U16} (h : respBufferSize < 10 + n.toNat) :
    decision (getRandomFrame n) respBufferSize = .error .memory := by
  rw [decision_getRandomFrame, if_pos h]

/-- The header of the server's response with `n` bytes. -/
def randomHeader (n : ℕ) : RespHeader := ⟨.noSessions, BitVec.ofNat 32 (10 + n), 0⟩

section

variable {n : U16} (h : 10 + n.toNat ≤ respBufferSize)

include h

theorem decision_getRandomFrame_of_le :
    decision (getRandomFrame n) (List.replicate respBufferSize (0 : U8)).length =
      .ok n.toNat := by
  rw [decision_getRandomFrame, List.length_replicate, if_neg (Nat.not_lt.mpr h)]

theorem take_drop_zeros :
    ((List.replicate respBufferSize (0 : U8)).drop 10).take n.toNat =
      (List.Vector.replicate n.toNat (0 : U8)).toList := by
  rw [List.drop_replicate, List.take_replicate, Nat.min_eq_left (by omega)]
  rfl

end

theorem run_respond_of_draw {ctx ctx' : TpmContext D E} {n : U16}
    {payload : List.Vector U8 n.toNat} (h : 10 + n.toNat ≤ respBufferSize)
    (hdraw : CommandHandler.tryGetRandom.run (ctx, List.Vector.replicate n.toNat (0 : U8)) =
      .ok () (ctx', payload)) :
    ∃ respBuffer, (Tpm.respond (getRandomFrame n)).run ctx = .ok respBuffer ctx' ∧
      respBuffer.toList = RespHeader.ty.enc (randomHeader n.toNat) ++
        (payload.toList ++ List.replicate (respBufferSize - (10 + n.toNat)) 0) := by
  let zeros : List U8 := List.replicate respBufferSize 0
  have hrun := Input.execute_of_ok (i := .separate (getRandomFrame n) zeros)
    (decision_getRandomFrame_of_le h) (take_drop_zeros h) hdraw
  have hrest : zeros.drop (10 + n.toNat) = List.replicate (respBufferSize - (10 + n.toNat)) 0 :=
    List.drop_replicate
  have hwritten : (successHeader n.toNat ++ payload.toList ++ zeros.drop (10 + n.toNat)).length =
      respBufferSize := by
    rw [hrest, List.length_append, List.length_append, length_successHeader, payload.toList_length,
      List.length_replicate]
    omega
  refine ⟨array _ hwritten, run_respond_of_execute hrun, ?_⟩
  rw [toList_array, hrest, RespHeader.enc_eq, successHeader]
  simp only [List.append_assoc]
  rfl

theorem run_respond_of_le {ctx : TpmContext D E} (hD : CanDraw ctx.drbg) {n : U16}
    (h : 10 + n.toNat ≤ respBufferSize) :
    ∃ respBuffer ctx', (Tpm.respond (getRandomFrame n)).run ctx = .ok respBuffer ctx' ∧
      respBuffer.toList = RespHeader.ty.enc (randomHeader n.toNat) ++
        (nextBytes ctx n.toNat ++ List.replicate (respBufferSize - (10 + n.toNat)) 0) := by
  obtain ⟨ctx', payload, hdraw, -⟩ := CommandHandler.run_tryGetRandom hD
    (List.Vector.replicate n.toNat (0 : U8))
  have hnext : nextBytes ctx n.toNat = payload.toList := by
    simp only [nextBytes, hdraw]
  obtain ⟨respBuffer, hrun, hbytes⟩ := run_respond_of_draw h hdraw
  exact ⟨respBuffer, ctx', hrun, hnext ▸ hbytes⟩

theorem GetRandomResp.wellFormed_iff (resp : GetRandomResp) :
    ty.WellFormed resp ↔ resp.randomBytes.WellFormed := by
  simp [ty, Ty.WellFormed, NamedFields.WellFormed]

theorem GetRandomResp.enc_eq (resp : GetRandomResp) : ty.enc resp = resp.randomBytes.enc := by
  simp [ty, Ty.enc, Ty.chunks, NamedFields.chunks]

/-- Without sessions the parameters are all that follows the header. -/
theorem exists_isFramed_getRandom_iff {tag : TpmSt} (htag : tag ≠ .sessions) {b : List U8}
    {resp : GetRandomResp} :
    (∃ paramSize rest auths, IsFramed [] tag b () paramSize rest resp auths) ↔
      resp.randomBytes.WellFormed ∧ b = resp.randomBytes.enc := by
  rw [exists_isFramed_iff GetRandomResp.ty.decodes.run_eq_ok_iff Ty.unit.decodes.run_eq_ok_iff,
    if_neg htag]
  simp only [GetRandomResp.wellFormed_iff, GetRandomResp.enc_eq]
  constructor
  · intro h
    rcases h with ⟨paramSize, auths, hwf, -, hlen, hauths, hb⟩
    cases hauths
    obtain rfl := List.eq_nil_of_length_eq_zero hlen
    exact ⟨hwf, by simpa [Ty.enc, Ty.chunks] using hb⟩
  · intro h
    rcases h with ⟨hwf, hb⟩
    exact ⟨[], [], hwf, trivial, rfl, .nil, by simpa [Ty.enc, Ty.chunks] using hb⟩

theorem toNat_size_randomHeader {n : ℕ} (h : 10 + n ≤ respBufferSize) :
    (randomHeader n).size.toNat = 10 + n := by
  simp only [respBufferSize] at h
  rw [randomHeader, BitVec.toNat_ofNat]
  omega

theorem params_of_randomHeader {n : ℕ} {bytes rest b : List U8} (hbytes : bytes.length = n)
    (h : b = RespHeader.ty.enc (randomHeader n) ++ (bytes ++ rest)) :
    (b.take (10 + n)).drop 10 = bytes := by
  rw [h, ← List.append_assoc, List.take_left', List.drop_left' (RespHeader.length_enc _)]
  rw [List.length_append, RespHeader.length_enc, hbytes]

theorem tag_randomHeader (n : ℕ) : (randomHeader n).tag ≠ .sessions := by
  change TpmSt.noSessions ≠ .sessions
  decide

theorem run_readResponse_random {σ : Type} {n : U16} (h : 10 + n.toNat ≤ respBufferSize)
    {bytes rest : List U8} (hbytes : bytes.length = n.toNat)
    {respBuffer : List.Vector U8 respBufferSize}
    (hresp : respBuffer.toList = RespHeader.ty.enc (randomHeader n.toNat) ++ (bytes ++ rest))
    (s s' : σ) (resp : GetRandomResp) :
    (readResponse () respBuffer).run s = .ok (resp, ()) s' ↔
      s = s' ∧ resp.randomBytes.WellFormed ∧ bytes = resp.randomBytes.enc := by
  have hheader : RespHeader.ofBytes respBuffer.toList = randomHeader n.toNat := by
    rw [hresp, RespHeader.ofBytes_append]
  have hparams := params_of_randomHeader hbytes hresp
  have hsessions : AuthorizationArea.sessionList () = [] := rfl
  rw [run_readResponse_eq_ok_iff () hheader, toNat_size_randomHeader h, hparams, hsessions,
    exists_isFramed_getRandom_iff (tag_randomHeader _)]
  constructor
  · intro haccept
    exact ⟨haccept.2.2.2.1.symm, haccept.2.2.2.2⟩
  · intro haccept
    exact ⟨rfl, by omega, h, haccept.1.symm, haccept.2⟩

/-- The client accepts exactly the drawn bytes that are a TPM2B container. -/
theorem run_runCommand_eq_ok_iff {ctx : TpmContext D E} (hD : CanDraw ctx.drbg) (n : U16)
    (resp : GetRandomResp) :
    (∃ ctx', (runCommand (⟨n⟩ : GetRandomCmd)).run ctx = .ok resp ctx') ↔
      10 + n.toNat ≤ respBufferSize ∧ resp.randomBytes.WellFormed ∧
        nextBytes ctx n.toNat = resp.randomBytes.enc := by
  by_cases h : 10 + n.toNat ≤ respBufferSize
  · obtain ⟨respBuffer, ctx', hrespond, hbytes⟩ := run_respond_of_le hD h
    have hread := run_readResponse_random h (length_nextBytes ctx _) hbytes ctx'
    simp only [run_runCommand_getRandom hrespond, run_bind_eq_ok_iff (x := readResponse _ _),
      Prod.exists, EStateM.run_pure, EStateM.Result.ok.injEq]
    constructor
    · intro h
      rcases h with ⟨ctx'', resp', _, _, hrun, rfl, rfl⟩
      exact ⟨h, ((hread _ _).mp hrun).2⟩
    · intro h
      rcases h with ⟨-, haccept⟩
      exact ⟨ctx', resp, (), ctx', (hread _ _).mpr ⟨rfl, haccept⟩, rfl, rfl⟩
  · obtain ⟨respBuffer, hrespond, hrc⟩ :=
      run_respond_of_error ctx (decision_getRandomFrame_of_lt (Nat.not_le.mp h))
    have hne : (RespHeader.ofBytes respBuffer.toList).rc ≠ 0 := by
      rw [hrc]
      exact TpmRcError.memory.ne_zero
    apply iff_of_false _ fun hright => h hright.1
    intro hleft
    rcases hleft with ⟨ctx', hrun⟩
    rw [run_runCommand_getRandom hrespond,
      run_bind_of_error (run_readResponse_of_rc_ne_zero () ctx hne)] at hrun
    cases hrun

/-- The response holds the next `min n 64` bytes of the generator. -/
def ReturnsNextBytes (ctx : TpmContext D E) (n : U16) : Prop :=
  ∃ resp ctx', (runCommand (⟨n⟩ : GetRandomCmd)).run ctx = .ok resp ctx' ∧
    (resp.randomBytes.getBuffer : Fallible Empty Unit (List U8)).run () =
      .ok (nextBytes ctx (min n.toNat TpmtHa.unionSize)) ()

theorem returnsNextBytes_iff_exists {ctx : TpmContext D E} (hD : CanDraw ctx.drbg) (n : U16) :
    ReturnsNextBytes ctx n ↔ 10 + n.toNat ≤ respBufferSize ∧ ∃ digest : Tpm2bDigest,
      digest.WellFormed ∧ nextBytes ctx n.toNat = digest.enc ∧
        digest.payload = nextBytes ctx (min n.toNat TpmtHa.unionSize) := by
  constructor
  · intro h
    rcases h with ⟨resp, ctx', hrun, hbytes⟩
    obtain ⟨hfit, hwf, henc⟩ := (run_runCommand_eq_ok_iff hD n resp).mp ⟨ctx', hrun⟩
    rw [Tpm2b.run_getBuffer hwf, EStateM.Result.ok.injEq] at hbytes
    exact ⟨hfit, resp.randomBytes, hwf, henc, hbytes.1⟩
  · intro h
    rcases h with ⟨hfit, digest, hwf, henc, hpayload⟩
    obtain ⟨ctx', hrun⟩ := (run_runCommand_eq_ok_iff hD n ⟨digest⟩).mpr ⟨hfit, hwf, henc⟩
    exact ⟨⟨digest⟩, ctx', hrun, by rw [Tpm2b.run_getBuffer hwf, hpayload]⟩

/-- The first two drawn bytes are taken for the size. -/
theorem toNat_eq_of_returnsNextBytes {ctx : TpmContext D E} (hD : CanDraw ctx.drbg) {n : U16}
    (h : ReturnsNextBytes ctx n) : n.toNat = 66 := by
  obtain ⟨-, digest, hwf, henc, hpayload⟩ := (returnsNextBytes_iff_exists hD n).mp h
  have hall := congrArg List.length henc
  have hsize := congrArg List.length hpayload
  rw [Tpm2b.enc, List.length_append, Prim.length_enc, length_nextBytes] at hall
  rw [length_nextBytes] at hsize
  have hunion : TpmtHa.unionSize = 64 := rfl
  have htwo : Prim.u16.size = 2 := rfl
  omega

/-- Exactly a request for 66 bytes, where the generator's output starts with the size of
the other 64 and continues as its output of 64 bytes does, is met. -/
theorem returnsNextBytes_iff {ctx : TpmContext D E} (hD : CanDraw ctx.drbg) (n : U16) :
    ReturnsNextBytes ctx n ↔
      n = 66 ∧ nextBytes ctx 66 = [0x00, 0x40] ++ nextBytes ctx 64 := by
  have hprefix : Prim.u16.enc 64 = [0x00, 0x40] := by decide
  have hmin : min (66 : U16).toNat TpmtHa.unionSize = 64 := by decide
  constructor
  · intro h
    obtain rfl : n = 66 := BitVec.eq_of_toNat_eq (toNat_eq_of_returnsNextBytes hD h)
    obtain ⟨-, digest, hwf, henc, hpayload⟩ := (returnsNextBytes_iff_exists hD 66).mp h
    rw [hmin] at hpayload
    have hsize : digest.size = 64 := by
      apply BitVec.eq_of_toNat_eq
      rw [← Tpm2b.length_payload hwf, hpayload, length_nextBytes]
      rfl
    rw [Tpm2b.enc, hpayload, hsize, hprefix] at henc
    exact ⟨rfl, henc⟩
  · intro h
    rcases h with ⟨rfl, hbytes⟩
    let digest : Tpm2bDigest := ⟨64, array (nextBytes ctx 64) (length_nextBytes ctx 64)⟩
    have hpayload : digest.payload = nextBytes ctx 64 :=
      List.take_of_length_le (length_nextBytes ctx 64).le
    have hdrop : (nextBytes ctx 64).drop 64 = [] :=
      List.drop_of_length_le (length_nextBytes ctx 64).le
    have henc : nextBytes ctx 66 = digest.enc := by
      rw [Tpm2b.enc, hpayload, hprefix, hbytes]
    apply (returnsNextBytes_iff_exists hD 66).mpr
    exact ⟨by decide, digest, ⟨Nat.le_refl 64, hdrop⟩, henc, hmin ▸ hpayload⟩

/-- The generator repeats the bytes `0x00, 0x40`, which are the size 64. -/
theorem returnsNextBytes_repeatingDrbg :
    ReturnsNextBytes repeatingContext 66 ∧ ¬ReturnsNextBytes repeatingContext 12 := by
  have hiff := returnsNextBytes_iff repeatingContext.drbg.canDraw
  refine ⟨(hiff 66).mpr ⟨rfl, by decide⟩, fun h => ?_⟩
  exact absurd ((hiff 12).mp h).1 (by decide)

/-- The twelve bytes of the unit test start with `0x01, 0x02`, which is no size. -/
theorem not_returnsNextBytes_twelve : ¬ReturnsNextBytes testContext 12 := by
  intro h
  exact absurd (toNat_eq_of_returnsNextBytes testContext.drbg.canDraw h) (by decide)

end TpmRs
