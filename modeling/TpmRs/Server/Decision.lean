import TpmRs.Server.Draw

/-!
# How a request is decided

Whether a request is answered, and with which error it is rejected otherwise, depends
on the bytes of the request and on the room for the response alone. Everything that is
read from the request is read before anything is written, and after the first write no
further write can fail, so a rejected request has no effect but its error code.
-/

namespace TpmRs

open Library Library.Fallible Library.Slice

/-- The big-endian number in the `n` bytes from `offset` on. -/
def be (q : List U8) (offset n : ℕ) : ℕ := BigEndian.ofBe ((q.drop offset).take n)

theorem be_lt (q : List U8) (offset n : ℕ) : be q offset n < 256 ^ n := by
  have hlen : ((q.drop offset).take n).length ≤ n := List.length_take_le _ _
  exact (BigEndian.ofBe_lt _).trans_le (Nat.pow_le_pow_right (by omega) hlen)

theorem toNat_be {w n : ℕ} (h : 256 ^ n = 2 ^ w) (q : List U8) (offset : ℕ) :
    (BitVec.ofNat w (be q offset n)).toNat = be q offset n := by
  have hlt := be_lt q offset n
  rw [BitVec.toNat_ofNat]
  exact Nat.mod_eq_of_lt (h ▸ hlt)

@[simp] theorem toNat_be_two (q : List U8) (offset : ℕ) :
    (BitVec.ofNat 16 (be q offset 2)).toNat = be q offset 2 := toNat_be rfl q offset

@[simp] theorem toNat_be_four (q : List U8) (offset : ℕ) :
    (BitVec.ofNat 32 (be q offset 4)).toNat = be q offset 4 := toNat_be rfl q offset

theorem be_append (p : Prim) (front back : List U8) (v : BitVec p.bits) :
    be (front ++ (p.enc v ++ back)) front.length p.size = v.toNat := by
  have hv : v.toNat < 256 ^ p.size := p.pow_size ▸ v.isLt
  rw [be, List.drop_left, List.take_left' (p.length_enc v), Prim.enc,
    BigEndian.ofBe_toBe_of_lt hv]

/-- The bytes of a number are those that it was read from. -/
theorem enc_be (p : Prim) (q : List U8) (offset n : ℕ) (hn : p.size = n)
    (h : offset + n ≤ q.length) :
    p.enc (BitVec.ofNat p.bits (be q offset n)) = (q.drop offset).take n := by
  apply p.enc_ofNat_ofBe
  rw [List.length_take, List.length_drop, hn]
  omega

theorem commandCode_eq_getRandom_iff (q : List U8) :
    (⟨BitVec.ofNat 32 (be q 6 4)⟩ : TpmCc) = .getRandom ↔ be q 6 4 = 0x17B := by
  constructor
  · intro h
    have hval : BitVec.ofNat 32 (be q 6 4) = 0x17B := congrArg TpmCc.val h
    rw [← toNat_be_four, hval]
    rfl
  · intro h
    rw [h]
    rfl

/-- The outcome for the request `q` and a response of `capacity` bytes: an error, or the
number of random bytes to return. -/
def decision (q : List U8) (capacity : ℕ) : Except TpmRcError ℕ :=
  if q.length < 6 ∨ be q 2 4 ≠ q.length ∨ q.length < 10 then .error .commandSize
  else if be q 6 4 ≠ 0x17B then .error .commandCode
  else if q.length < 12 then .error .commandSize
  else if capacity < 10 + be q 10 2 then .error .memory
  else .ok (be q 10 2)

theorem decision_eq_ok_iff {q : List U8} {capacity n : ℕ} :
    decision q capacity = .ok n ↔ be q 2 4 = q.length ∧ be q 6 4 = 0x17B ∧ 12 ≤ q.length ∧
      be q 10 2 = n ∧ 10 + n ≤ capacity := by
  unfold decision
  split_ifs with hsize hcode hparam hcapacity
  · simp
    omega
  · simp [hcode]
  · simp
    omega
  · simp
    omega
  · simp
    omega

/-- The requests that are answered in a response of `capacity` bytes. -/
def Answered (q : List U8) (capacity : ℕ) : Prop :=
  be q 2 4 = q.length ∧ be q 6 4 = 0x17B ∧ 12 ≤ q.length ∧ 10 + be q 10 2 ≤ capacity

instance (q : List U8) (capacity : ℕ) : Decidable (Answered q capacity) :=
  inferInstanceAs (Decidable (_ ∧ _))

theorem answered_iff {q : List U8} {capacity : ℕ} :
    Answered q capacity ↔ decision q capacity = .ok (be q 10 2) := by
  rw [decision_eq_ok_iff]
  simp [Answered]

theorem answered_of_decision {q : List U8} {capacity n : ℕ} (h : decision q capacity = .ok n) :
    Answered q capacity := by
  obtain ⟨hsize, hcode, hlen, rfl, hcapacity⟩ := decision_eq_ok_iff.mp h
  exact ⟨hsize, hcode, hlen, hcapacity⟩

theorem not_answered_of_decision {q : List U8} {capacity : ℕ} {e : TpmRcError}
    (h : decision q capacity = .error e) : ¬Answered q capacity := by
  rw [answered_iff, h]
  simp

/-- The header of a successful response with `n` parameter bytes. -/
def successHeader (n : ℕ) : List U8 :=
  Prim.u16.enc 0x8001 ++ Prim.u32.enc (BitVec.ofNat 32 (10 + n)) ++ Prim.u32.enc 0

theorem readInto_list (q : List U8) (offset n : ℕ) :
    TpmReadBuffer.readInto q offset n =
      if offset + n ≤ q.length then .ok ((q.drop offset).take n) else .error ⟨⟩ := by
  by_cases h : offset + n ≤ q.length
  · simp only [TpmReadBuffer.readInto, getRange_of_le h, if_pos h]
  · simp only [TpmReadBuffer.readInto, getRange_of_lt (Nat.not_le.mp h), if_neg h]

/-- The request that the buffers give access to. -/
structure Reads {B R : Type} [TpmReadBuffer R] [TpmBuffers B R] (b : B) (q : List U8) : Prop where
  len_eq : TpmReadBuffer.len (TpmBuffers.getRequest b) = q.length
  readInto_eq : ∀ offset n, TpmReadBuffer.readInto (TpmBuffers.getRequest b) offset n =
    TpmReadBuffer.readInto q offset n

theorem SeparateBuffers.reads (request response : List U8) :
    Reads (SeparateBuffers.mk request response) request :=
  ⟨rfl, fun _ _ => rfl⟩

theorem InOutBuffer.reads (w : List U8) (m : ℕ) :
    Reads (InOutBuffer.new w m) (w.take (min m w.length)) := by
  constructor
  · change min m w.length = _
    simp
  · intro offset n
    change (if min m w.length < offset + n then _ else TpmReadBuffer.readInto w offset n) = _
    have hlen : (w.take (min m w.length)).length = min m w.length := by simp
    rw [readInto_list, readInto_list, hlen]
    by_cases h : offset + n ≤ min m w.length
    · have hw : offset + n ≤ w.length := h.trans (Nat.min_le_right _ _)
      have hview : ((w.take (min m w.length)).drop offset).take n = (w.drop offset).take n := by
        rw [List.drop_take, List.take_take, Nat.min_eq_left (by omega)]
      rw [if_neg (Nat.not_lt.mpr h), if_pos hw, if_pos h, hview]
    · rw [if_pos (Nat.not_le.mp h), if_neg h]

/-- Writing the response back behaves as on a variable. -/
class LawfulTpmBuffers (B : Type) {R : Type} [TpmBuffers B R] : Prop where
  getResponse_setResponse : ∀ (b : B) (r : List U8),
    TpmBuffers.getResponse (TpmBuffers.setResponse b r) = r
  setResponse_setResponse : ∀ (b : B) (r r' : List U8),
    TpmBuffers.setResponse (TpmBuffers.setResponse b r) r' = TpmBuffers.setResponse b r'
  setResponse_getResponse : ∀ b : B,
    TpmBuffers.setResponse b (TpmBuffers.getResponse b) = b

instance : LawfulTpmBuffers SeparateBuffers := ⟨fun _ _ => rfl, fun _ _ _ => rfl, fun _ => rfl⟩

instance : LawfulTpmBuffers InOutBuffer := ⟨fun _ _ => rfl, fun _ _ _ => rfl, fun _ => rfl⟩

/-- The order of the writes does not show in the response. -/
theorem putRange_header (r payload : List U8) (h : 10 + payload.length ≤ r.length) :
    putRange (putRange (putRange (putRange r 10 payload) 0 (Prim.u16.enc 0x8001)) 2
      (Prim.u32.enc (BitVec.ofNat 32 (10 + payload.length)))) 6 (Prim.u32.enc 0) =
      successHeader payload.length ++ payload ++ r.drop (10 + payload.length) := by
  have htag : (Prim.u16.enc 0x8001).length = 2 := Prim.length_enc _ _
  have hsize (v : U32) : (Prim.u32.enc v).length = 4 := Prim.length_enc _ _
  obtain ⟨tag, size, rc, hhead, ht, hs, hr⟩ : ∃ tag size rc : List U8,
      r.take 10 = tag ++ size ++ rc ∧ tag.length = 2 ∧ size.length = 4 ∧ rc.length = 4 := by
    refine ⟨r.take 2, (r.drop 2).take 4, (r.drop 6).take 4, ?_, ?_, ?_, ?_⟩
    · have h6 : r.take (2 + 4) = r.take 2 ++ (r.drop 2).take 4 := List.take_add
      have h10 : r.take (6 + 4) = r.take 6 ++ (r.drop 6).take 4 := List.take_add
      rw [← h6, ← h10]
    · simp; omega
    · simp; omega
    · simp; omega
  have hpayload : putRange r 10 payload =
      tag ++ size ++ rc ++ payload ++ r.drop (10 + payload.length) := by
    unfold putRange
    rw [hhead]
  have hputTag := putRange_append [] tag
    (size ++ rc ++ payload ++ r.drop (10 + payload.length)) (Prim.u16.enc 0x8001) (by omega)
  have hputSize (v : U32) := putRange_append (Prim.u16.enc 0x8001) size
    (rc ++ payload ++ r.drop (10 + payload.length)) (Prim.u32.enc v) (by simp [hsize, hs])
  have hputRc (v : U32) := putRange_append (Prim.u16.enc 0x8001 ++ Prim.u32.enc v) rc
    (payload ++ r.drop (10 + payload.length)) (Prim.u32.enc 0) (by simp [hsize, hr])
  simp only [List.nil_append, List.length_nil, List.length_append, htag, hsize, List.append_assoc,
    Nat.reduceAdd] at hputTag hputSize hputRc
  simp only [hpayload, successHeader, List.append_assoc, hputTag, hputSize, hputRc]

section

variable {ε D E B R : Type} [Drbg D] [TpmReadBuffer R] [TpmBuffers B R] {b : B} {q : List U8}

theorem run_okOr_of_some {σ α : Type} {x : Fallible ε σ (Option α)} {s s' : σ} {a : α} (e : ε)
    (h : x.run s = .ok (some a) s') : (okOr e x).run s = .ok a s' := by
  rw [okOr, run_bind_of_ok h, EStateM.run_pure]

theorem run_okOr_of_none {σ α : Type} {x : Fallible ε σ (Option α)} {s s' : σ} (e : ε)
    (h : x.run s = .ok none s') : (okOr e x).run s = .error (.err e) s' := by
  rw [okOr, run_bind_of_ok h, run_fail]

variable (hq : Reads b q) (ctx : CommandHandler D E) (o p : ℕ)

include hq

theorem run_readBe_some (i : Prim) (h : o + i.size ≤ q.length) :
    (RequestThenResponse.readBe i : ServerM ε D E B _).run (ctx, ⟨b, o, p⟩) =
      .ok (some (BitVec.ofNat i.bits (be q o i.size))) (ctx, ⟨b, o + i.size, p⟩) := by
  have hread : TpmReadBuffer.readBe i (TpmBuffers.getRequest b) o =
      .ok (BitVec.ofNat i.bits (be q o i.size)) := by
    unfold TpmReadBuffer.readBe
    rw [hq.readInto_eq, readInto_list, if_pos h]
    rfl
  change RequestThenResponse.readBe i _ = _
  simp only [RequestThenResponse.readBe, hread]

theorem run_readBe_none (i : Prim) (h : q.length < o + i.size) :
    (RequestThenResponse.readBe i : ServerM ε D E B _).run (ctx, ⟨b, o, p⟩) =
      .ok none (ctx, ⟨b, o, p⟩) := by
  have hread : TpmReadBuffer.readBe i (TpmBuffers.getRequest b) o = .error ⟨⟩ := by
    unfold TpmReadBuffer.readBe
    rw [hq.readInto_eq, readInto_list, if_neg (Nat.not_le.mpr h)]
    rfl
  change RequestThenResponse.readBe i _ = _
  simp only [RequestThenResponse.readBe, hread]

theorem run_readBe_of_le (i : Prim) (n : ℕ) (hn : i.size = n) (e : ε) (h : o + n ≤ q.length) :
    (okOr e (RequestThenResponse.readBe i)).run (ctx, (⟨b, o, p⟩ : RequestResponseCursor B)) =
      .ok (BitVec.ofNat i.bits (be q o n)) (ctx, ⟨b, o + n, p⟩) := by
  subst hn
  exact run_okOr_of_some e (run_readBe_some hq ctx o p i h)

theorem run_readBe_of_lt (i : Prim) (n : ℕ) (hn : i.size = n) (e : ε) (h : q.length < o + n) :
    (okOr e (RequestThenResponse.readBe i)).run (ctx, (⟨b, o, p⟩ : RequestResponseCursor B)) =
      .error (.err e) (ctx, ⟨b, o, p⟩) := by
  subst hn
  exact run_okOr_of_none e (run_readBe_none hq ctx o p i h)

variable [EntropySource E]

theorem run_executeRequest_of_bad_size
    (h : q.length < 6 ∨ be q 2 4 ≠ q.length ∨ q.length < 10) :
    ∃ o, (TpmContext.executeRequest q.length).run (ctx, (⟨b, 0, 10⟩ : RequestResponseCursor B)) =
      .error (.err .commandSize) (ctx, ⟨b, o, 10⟩) := by
  unfold TpmContext.executeRequest
  by_cases h2 : 2 ≤ q.length
  · rw [run_bind_of_ok (run_readBe_of_le hq ctx 0 10 .u16 2 rfl _ h2)]
    by_cases h6 : 6 ≤ q.length
    · rw [run_bind_of_ok (run_readBe_of_le hq ctx 2 10 .u32 4 rfl _ h6), toNat_be_four]
      by_cases hne : be q 2 4 ≠ q.length
      · exact ⟨6, by rw [if_pos hne, run_fail]⟩
      · have h10 : q.length < 10 := by omega
        rw [if_neg hne]
        exact ⟨6, run_bind_of_error (run_readBe_of_lt hq ctx 6 10 .u32 4 rfl _ h10)⟩
    · exact ⟨2, run_bind_of_error (run_readBe_of_lt hq ctx 2 10 .u32 4 rfl _ (Nat.not_le.mp h6))⟩
  · exact ⟨0, run_bind_of_error (run_readBe_of_lt hq ctx 0 10 .u16 2 rfl _ (Nat.not_le.mp h2))⟩

theorem run_executeRequest_of_size (hsize : be q 2 4 = q.length) (hlen : 10 ≤ q.length) :
    (TpmContext.executeRequest q.length).run (ctx, (⟨b, 0, 10⟩ : RequestResponseCursor B)) =
      (TpmContext.dispatch ⟨BitVec.ofNat 32 (be q 6 4)⟩ >>= fun _ => TpmContext.writeHeader).run
        (ctx, ⟨b, 10, 10⟩) := by
  unfold TpmContext.executeRequest
  rw [run_bind_of_ok (run_readBe_of_le hq ctx 0 10 .u16 2 rfl _ (by omega)),
    run_bind_of_ok (run_readBe_of_le hq ctx 2 10 .u32 4 rfl _ (by omega)), toNat_be_four,
    if_neg (not_not.mpr hsize), run_bind_of_ok (run_readBe_of_le hq ctx 6 10 .u32 4 rfl _ hlen)]

theorem run_getRandom_of_short (h : q.length < 12) :
    CommandHandler.getRandom.run (ctx, (⟨b, 10, 10⟩ : RequestResponseCursor B)) =
      .error (.err .commandSize) (ctx, ⟨b, 10, 10⟩) := by
  unfold CommandHandler.getRandom
  rw [run_bind_of_error (run_readBe_of_lt hq ctx 10 10 .u16 2 rfl _ h)]

theorem run_getRandom_of_le (h : 12 ≤ q.length) :
    CommandHandler.getRandom.run (ctx, (⟨b, 10, 10⟩ : RequestResponseCursor B)) =
      (mapErr (fun _ => TpmRcError.memory) (Response.writeCallback (be q 10 2)
        CommandHandler.getRandomOrFailureMode)).run (ctx, ⟨b, 12, 10⟩) := by
  unfold CommandHandler.getRandom
  rw [run_bind_of_ok (run_readBe_of_le hq ctx 10 10 .u16 2 rfl _ h), toNat_be_two]

end

section

variable {D E B R : Type} [Drbg D] [TpmBuffers B R] {b : B} {ctx ctx' : CommandHandler D E}
  {o p n : ℕ}

theorem run_writeCallback_of_lt [LawfulTpmBuffers B]
    {callback : Fallible Empty (CommandHandler D E × List.Vector U8 n) Unit}
    (h : (TpmBuffers.getResponse b).length < p + n) :
    (Response.writeCallback n callback).run (ctx, (⟨b, o, p⟩ : RequestResponseCursor B)) =
      .error (.err ⟨⟩) (ctx, ⟨b, o, p⟩) := by
  have hwrite : (TpmWriteBuffer.writeCallback p n callback).run
      (ctx, TpmBuffers.getResponse b) = .error (.err ⟨⟩) (ctx, TpmBuffers.getResponse b) := by
    change TpmWriteBuffer.writeCallback p n callback _ = _
    unfold TpmWriteBuffer.writeCallback
    simp only [dif_neg (Nat.not_le.mpr h)]
  change Response.writeCallback n callback _ = _
  unfold Response.writeCallback
  simp only [hwrite, LawfulTpmBuffers.setResponse_getResponse]

theorem run_writeCallback_of_le
    {callback : Fallible Empty (CommandHandler D E × List.Vector U8 n) Unit}
    {dest payload : List.Vector U8 n} (h : p + n ≤ (TpmBuffers.getResponse b).length)
    (hdest : ((TpmBuffers.getResponse b).drop p).take n = dest.toList)
    (hcallback : callback.run (ctx, dest) = .ok () (ctx', payload)) :
    (Response.writeCallback n callback).run (ctx, (⟨b, o, p⟩ : RequestResponseCursor B)) =
      .ok () (ctx', ⟨TpmBuffers.setResponse b
        (putRange (TpmBuffers.getResponse b) p payload.toList), o, p + n⟩) := by
  have hwrite : (TpmWriteBuffer.writeCallback p n callback).run (ctx, TpmBuffers.getResponse b) =
      .ok () (ctx', putRange (TpmBuffers.getResponse b) p payload.toList) := by
    change TpmWriteBuffer.writeCallback p n callback _ = _
    unfold TpmWriteBuffer.writeCallback
    simp only [dif_pos h, array_eq_iff.mpr hdest, hcallback]
  change Response.writeCallback n callback _ = _
  unfold Response.writeCallback
  simp only [hwrite]

theorem run_writeCallback_of_panic
    {callback : Fallible Empty (CommandHandler D E × List.Vector U8 n) Unit}
    {dest : List.Vector U8 n} {s : CommandHandler D E × List.Vector U8 n}
    (h : p + n ≤ (TpmBuffers.getResponse b).length)
    (hdest : ((TpmBuffers.getResponse b).drop p).take n = dest.toList)
    (hcallback : callback.run (ctx, dest) = .error .panic s) :
    ∃ s', (Response.writeCallback n callback).run (ctx, (⟨b, o, p⟩ : RequestResponseCursor B)) =
      .error .panic s' := by
  have hwrite : (TpmWriteBuffer.writeCallback p n callback).run (ctx, TpmBuffers.getResponse b) =
      .error .panic (s.1, putRange (TpmBuffers.getResponse b) p s.2.toList) := by
    change TpmWriteBuffer.writeCallback p n callback _ = _
    unfold TpmWriteBuffer.writeCallback
    simp only [dif_pos h, array_eq_iff.mpr hdest, hcallback]
  refine ⟨(s.1, ⟨TpmBuffers.setResponse b (putRange (TpmBuffers.getResponse b) p s.2.toList),
    o, p⟩), ?_⟩
  change Response.writeCallback n callback _ = _
  unfold Response.writeCallback
  simp only [hwrite]

theorem write_of_le {r data : List U8} (h : o + data.length ≤ r.length) :
    TpmWriteBuffer.write r o data = .ok (putRange r o data) := by
  simp only [TpmWriteBuffer.write, getRange_of_le h]

theorem write_of_lt {r data : List U8} (h : r.length < o + data.length) :
    TpmWriteBuffer.write r o data = .error ⟨⟩ := by
  simp only [TpmWriteBuffer.write, getRange_of_lt h]

theorem run_write_of_le {w : ℕ} {data : List U8}
    (h : w + data.length ≤ (TpmBuffers.getResponse b).length) :
    (RequestResponseCursor.write w data).run (ctx, (⟨b, o, p⟩ : RequestResponseCursor B)) =
      .ok () (ctx, ⟨TpmBuffers.setResponse b (putRange (TpmBuffers.getResponse b) w data),
        o, p⟩) := by
  change RequestResponseCursor.write w data _ = _
  unfold RequestResponseCursor.write
  simp only [write_of_le h]

variable [LawfulTpmBuffers B]

theorem run_writeHeader (h : 10 ≤ (TpmBuffers.getResponse b).length) :
    TpmContext.writeHeader.run (ctx, (⟨b, o, p⟩ : RequestResponseCursor B)) =
      .ok p (ctx, ⟨TpmBuffers.setResponse b
        (putRange (putRange (putRange (TpmBuffers.getResponse b) 0 (Prim.u16.enc 0x8001)) 2
          (Prim.u32.enc (BitVec.ofNat 32 p))) 6 (Prim.u32.enc 0)), o, p⟩) := by
  have htag : (Prim.u16.enc 0x8001).length = 2 := Prim.length_enc _ _
  have hword (v : U32) : (Prim.u32.enc v).length = 4 := Prim.length_enc _ _
  have hlast : RequestResponseCursor.lastResponseByteWritten.run
      (ctx, (⟨b, o, p⟩ : RequestResponseCursor B)) = .ok p (ctx, ⟨b, o, p⟩) :=
    (rfl : (_ : EStateM.Result (Fault TpmRcError) _ _) = _)
  unfold TpmContext.writeHeader
  rw [run_bind_of_ok hlast, run_bind_of_ok (run_mapErr_of_ok (run_write_of_le (by omega))),
    run_bind_of_ok (run_mapErr_of_ok (run_write_of_le ?_)),
    run_bind_of_ok (run_mapErr_of_ok (run_write_of_le ?_)), EStateM.run_pure]
  · simp only [LawfulTpmBuffers.getResponse_setResponse, LawfulTpmBuffers.setResponse_setResponse]
  · simp only [LawfulTpmBuffers.getResponse_setResponse, LawfulTpmBuffers.setResponse_setResponse]
    rw [length_putRange, length_putRange, hword]
    · exact h
    · omega
    · rw [length_putRange (by omega), hword]
      omega
  · rw [LawfulTpmBuffers.getResponse_setResponse, length_putRange (by omega), hword]
    omega

end

section

variable {D E B R : Type} [Drbg D] [EntropySource E] [TpmReadBuffer R] [TpmBuffers B R]
  [LawfulTpmBuffers B] {b : B} {q : List U8} (hq : Reads b q)

include hq

/-- A request that is not answered is rejected before anything is drawn or written. -/
theorem run_executeRequest_of_error (ctx : TpmContext D E) {e : TpmRcError}
    (h : decision q (TpmBuffers.getResponse b).length = .error e) :
    ∃ o, (TpmContext.executeRequest q.length).run (ctx, (⟨b, 0, 10⟩ : RequestResponseCursor B)) =
      .error (.err e) (ctx, ⟨b, o, 10⟩) := by
  unfold decision at h
  split_ifs at h with hsize hcode hparam hcapacity
  · cases h
    exact run_executeRequest_of_bad_size hq ctx hsize
  · cases h
    rw [run_executeRequest_of_size hq ctx (by omega) (by omega), TpmContext.dispatch,
      if_neg (mt (commandCode_eq_getRandom_iff q).mp hcode)]
    exact ⟨10, rfl⟩
  · cases h
    rw [run_executeRequest_of_size hq ctx (by omega) (by omega), TpmContext.dispatch,
      if_pos ((commandCode_eq_getRandom_iff q).mpr (not_not.mp hcode))]
    exact ⟨10, run_bind_of_error (run_getRandom_of_short hq ctx hparam)⟩
  · cases h
    have hrun : CommandHandler.getRandom.run (ctx, (⟨b, 10, 10⟩ : RequestResponseCursor B)) =
        .error (.err .memory) (ctx, ⟨b, 12, 10⟩) := by
      rw [run_getRandom_of_le hq ctx (Nat.not_lt.mp hparam)]
      exact run_mapErr_of_err (run_writeCallback_of_lt hcapacity)
    rw [run_executeRequest_of_size hq ctx (by omega) (by omega), TpmContext.dispatch,
      if_pos ((commandCode_eq_getRandom_iff q).mpr (not_not.mp hcode))]
    exact ⟨12, run_bind_of_error hrun⟩

/-- An answered request is drawn for once and written over the response. -/
theorem run_executeRequest_of_ok {ctx ctx' : TpmContext D E} {n : ℕ}
    {dest payload : List.Vector U8 n}
    (h : decision q (TpmBuffers.getResponse b).length = .ok n)
    (hdest : ((TpmBuffers.getResponse b).drop 10).take n = dest.toList)
    (hdraw : CommandHandler.tryGetRandom.run (ctx, dest) = .ok () (ctx', payload)) :
    ∃ o, (TpmContext.executeRequest q.length).run (ctx, (⟨b, 0, 10⟩ : RequestResponseCursor B)) =
      .ok (10 + n) (ctx', ⟨TpmBuffers.setResponse b (successHeader n ++ payload.toList ++
        (TpmBuffers.getResponse b).drop (10 + n)), o, 10 + n⟩) := by
  obtain ⟨hsize, hcode, hparam, rfl, hcapacity⟩ := decision_eq_ok_iff.mp h
  have hlen : payload.toList.length = be q 10 2 := payload.toList_length
  have hrun : CommandHandler.getRandom.run (ctx, (⟨b, 10, 10⟩ : RequestResponseCursor B)) =
      .ok () (ctx', ⟨TpmBuffers.setResponse b
        (putRange (TpmBuffers.getResponse b) 10 payload.toList), 12, 10 + be q 10 2⟩) := by
    rw [run_getRandom_of_le hq ctx hparam]
    exact run_mapErr_of_ok (run_writeCallback_of_le hcapacity hdest
      (CommandHandler.run_getRandomOrFailureMode_of_ok hdraw))
  have hput := putRange_header (TpmBuffers.getResponse b) payload.toList (by omega)
  rw [hlen] at hput
  rw [run_executeRequest_of_size hq ctx hsize (by omega), TpmContext.dispatch,
    if_pos ((commandCode_eq_getRandom_iff q).mpr hcode), run_bind_of_ok hrun, run_writeHeader]
  · rw [LawfulTpmBuffers.getResponse_setResponse, LawfulTpmBuffers.setResponse_setResponse, hput]
    exact ⟨12, rfl⟩
  · rw [LawfulTpmBuffers.getResponse_setResponse, length_putRange (by omega)]
    omega

end
end TpmRs
