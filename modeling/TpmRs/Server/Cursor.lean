import TpmRs.Library.Runs
import TpmRs.Server.Decision

/-!
# The cursor over request and response

The cursor is a sequential reader of the request, followed by a sequential writer of the
response. An operation that does not fit has no effect, so the position after any
sequence of operations is that of what was read or written. When request and response
share a buffer, everything is read before anything is written.
-/

namespace TpmRs

open Library Library.Fallible Library.Slice

/-- A read of the request. -/
inductive ReadOp where
  | beU16
  | beU32
  deriving DecidableEq

@[reducible] def ReadOp.prim : ReadOp → Prim
  | beU16 => .u16
  | beU32 => .u32

/-- A write to the response. -/
inductive WriteOp (D E : Type) [Drbg D] where
  | write (data : List U8)
  | writeCallback (size : ℕ)
      (callback : Fallible Empty (CommandHandler D E × List.Vector U8 size) Unit)

variable {ε D E B R : Type} [Drbg D] [TpmBuffers B R]

/-- A sequence of reads and the values that they return. -/
def RequestThenResponse.readAll [TpmReadBuffer R] :
    List ReadOp → ServerM ε D E B (List (Option ℕ))
  | [] => pure []
  | op :: ops => do
    let value ← readBe op.prim
    let values ← readAll ops
    pure (value.map BitVec.toNat :: values)

namespace WriteOp

def run : WriteOp D E → ServerM WriteOutOfBounds D E B Unit
  | write data => Response.write data
  | writeCallback size callback => Response.writeCallback size callback

def size : WriteOp D E → ℕ
  | write data => data.length
  | writeCallback size _ => size

/-- What the operation does to its part of the response. -/
def fill : (op : WriteOp D E) → Fallible Empty (CommandHandler D E × List.Vector U8 op.size) Unit
  | write data => fun (handler, _) => .ok () (handler, array data rfl)
  | writeCallback _ callback => callback

end WriteOp

/-- All reads, `into_response`, all writes and `last_response_byte_written`. -/
def session [TpmReadBuffer R] (reads : List ReadOp) (writes : List (WriteOp D E)) :
    ServerM Empty D E B (List (Option ℕ) × List (Except WriteOutOfBounds Unit) × ℕ) := do
  let values ← RequestThenResponse.readAll reads
  let results ← attemptAll WriteOp.run writes
  let last ← RequestResponseCursor.lastResponseByteWritten
  pure (values, results, last)

/-- The next `n` of the bytes that are left, in big endian, if there are as many. -/
def readNext (rest : List U8) (n : ℕ) : Option ℕ × List U8 :=
  if n ≤ rest.length then (some (BigEndian.ofBe (rest.take n)), rest.drop n) else (none, rest)

/-- The sequential reader: the values, and the bytes that are left. -/
def readSequence : List U8 → List ReadOp → List (Option ℕ) × List U8
  | rest, [] => ([], rest)
  | rest, op :: ops =>
    let next := readNext rest op.prim.size
    let others := readSequence next.2 ops
    (next.1 :: others.1, others.2)

/-- The sequential writer: `Writes response p handler ops results bytes handler'` when the
operations, starting at `p`, have these results, write these bytes and leave this handler. -/
inductive Writes (response : List U8) : ℕ → CommandHandler D E → List (WriteOp D E) →
    List (Except WriteOutOfBounds Unit) → List U8 → CommandHandler D E → Prop
  | nil {p : ℕ} {handler : CommandHandler D E} : Writes response p handler [] [] [] handler
  | fits {p : ℕ} {handler handler' handler'' : CommandHandler D E} {op : WriteOp D E}
      {ops : List (WriteOp D E)} {results : List (Except WriteOutOfBounds Unit)}
      {bytes : List U8} {slot filled : List.Vector U8 op.size}
      (room : p + op.size ≤ response.length)
      (hslot : (response.drop p).take op.size = slot.toList)
      (fill : op.fill.run (handler, slot) = .ok () (handler', filled))
      (rest : Writes response (p + op.size) handler' ops results bytes handler'') :
      Writes response p handler (op :: ops) (.ok () :: results) (filled.toList ++ bytes) handler''
  -- the operation is not run
  | full {p : ℕ} {handler handler' : CommandHandler D E} {op : WriteOp D E}
      {ops : List (WriteOp D E)} {results : List (Except WriteOutOfBounds Unit)}
      {bytes : List U8} (noRoom : response.length < p + op.size)
      (rest : Writes response p handler ops results bytes handler') :
      Writes response p handler (op :: ops) (.error ⟨⟩ :: results) bytes handler'

section reads

variable [TpmReadBuffer R] {b : B} {q : List U8} (hq : Reads b q) (handler : CommandHandler D E)
  (p : ℕ)
include hq

/-- Reading at an offset is reading the bytes that are left there. -/
theorem run_readAll {o : ℕ} (ho : o ≤ q.length) (ops : List ReadOp) :
    ∃ o', (RequestThenResponse.readAll ops : ServerM ε D E B _).run (handler, ⟨b, o, p⟩) =
        .ok (readSequence (q.drop o) ops).1 (handler, ⟨b, o', p⟩) ∧
      q.drop o' = (readSequence (q.drop o) ops).2 ∧ o' ≤ q.length := by
  induction ops generalizing o with
  | nil => exact ⟨o, rfl, rfl, ho⟩
  | cons op ops ih =>
    unfold RequestThenResponse.readAll readSequence readNext
    by_cases h : o + op.prim.size ≤ q.length
    · have hrest : op.prim.size ≤ (q.drop o).length := by
        rw [List.length_drop]
        omega
      obtain ⟨o', hrun, hdrop, hle⟩ := ih h
      rw [run_bind_of_ok (run_readBe_some hq handler o p op.prim h), run_bind_of_ok hrun,
        EStateM.run_pure, if_pos hrest, List.drop_drop, Option.map_some,
        toNat_be op.prim.pow_size]
      exact ⟨o', rfl, hdrop, hle⟩
    · have hrest : ¬ op.prim.size ≤ (q.drop o).length := by
        rw [List.length_drop]
        omega
      obtain ⟨o', hrun, hdrop, hle⟩ := ih ho
      rw [run_bind_of_ok (run_readBe_none hq handler o p op.prim (Nat.not_le.mp h)),
        run_bind_of_ok hrun, EStateM.run_pure, if_neg hrest]
      exact ⟨o', rfl, hdrop, hle⟩

end reads

section writes

variable {b : B} {handler handler' : CommandHandler D E} {o p : ℕ} {op : WriteOp D E}

theorem run_responseWrite_of_le {data : List U8}
    (h : p + data.length ≤ (TpmBuffers.getResponse b).length) :
    (Response.write data).run (handler, (⟨b, o, p⟩ : RequestResponseCursor B)) = .ok () (handler,
      ⟨TpmBuffers.setResponse b (putRange (TpmBuffers.getResponse b) p data), o,
        p + data.length⟩) := by
  change Response.write data _ = _
  unfold Response.write
  simp only [write_of_le h]

theorem run_responseWrite_of_lt {data : List U8}
    (h : (TpmBuffers.getResponse b).length < p + data.length) :
    (Response.write data).run (handler, (⟨b, o, p⟩ : RequestResponseCursor B)) =
      .error (.err ⟨⟩) (handler, ⟨b, o, p⟩) := by
  change Response.write data _ = _
  unfold Response.write
  simp only [write_of_lt h]

namespace WriteOp

theorem run_of_fits {slot filled : List.Vector U8 op.size}
    (room : p + op.size ≤ (TpmBuffers.getResponse b).length)
    (hslot : ((TpmBuffers.getResponse b).drop p).take op.size = slot.toList)
    (hfill : op.fill.run (handler, slot) = .ok () (handler', filled)) :
    op.run.run (handler, (⟨b, o, p⟩ : RequestResponseCursor B)) = .ok () (handler',
      ⟨TpmBuffers.setResponse b (putRange (TpmBuffers.getResponse b) p filled.toList), o,
        p + op.size⟩) := by
  cases op with
  | write data =>
    cases hfill
    exact run_responseWrite_of_le room
  | writeCallback size callback => exact run_writeCallback_of_le room hslot hfill

theorem run_of_full [LawfulTpmBuffers B]
    (noRoom : (TpmBuffers.getResponse b).length < p + op.size) :
    op.run.run (handler, (⟨b, o, p⟩ : RequestResponseCursor B)) =
      .error (.err ⟨⟩) (handler, ⟨b, o, p⟩) := by
  cases op with
  | write data =>
    exact run_responseWrite_of_lt noRoom
  | writeCallback size callback => exact run_writeCallback_of_lt noRoom

theorem run_of_panic {slot : List.Vector U8 op.size}
    {s : CommandHandler D E × List.Vector U8 op.size}
    (room : p + op.size ≤ (TpmBuffers.getResponse b).length)
    (hslot : ((TpmBuffers.getResponse b).drop p).take op.size = slot.toList)
    (hfill : op.fill.run (handler, slot) = .error .panic s) :
    ∃ s', op.run.run (handler, (⟨b, o, p⟩ : RequestResponseCursor B)) = .error .panic s' := by
  cases op with
  | write data => cases hfill
  | writeCallback size callback => exact run_writeCallback_of_panic room hslot hfill

end WriteOp

theorem Writes.congr {response response' : List U8} {ops : List (WriteOp D E)}
    {results : List (Except WriteOutOfBounds Unit)} {bytes : List U8}
    (h : Writes response p handler ops results bytes handler')
    (hlen : response.length = response'.length) (hdrop : response.drop p = response'.drop p) :
    Writes response' p handler ops results bytes handler' := by
  induction h with
  | nil => exact .nil
  | fits room hslot fill rest ih =>
    refine .fits (hlen ▸ room) (hdrop ▸ hslot) fill (ih ?_)
    rw [← List.drop_drop, hdrop, List.drop_drop]
  | full noRoom rest ih => exact .full (hlen ▸ noRoom) (ih hdrop)

theorem Writes.length_le {response : List U8} {ops : List (WriteOp D E)}
    {results : List (Except WriteOutOfBounds Unit)} {bytes : List U8}
    (h : Writes response p handler ops results bytes handler') (hbytes : bytes ≠ []) :
    p + bytes.length ≤ response.length := by
  induction h with
  | nil => exact absurd rfl hbytes
  | @fits p _ _ _ op _ _ bytes _ filled room _ _ _ ih =>
    rw [List.length_append, filled.toList_length, ← Nat.add_assoc]
    by_cases h : bytes = []
    · rw [h]
      exact room
    · exact ih h
  | full _ _ ih => exact ih hbytes

/-- Somewhere in the sequence a callback that fits aborts. -/
def CallbackAborts (response : List U8) (p : ℕ) (handler : CommandHandler D E)
    (ops : List (WriteOp D E)) : Prop :=
  ∃ front op back results bytes handler', ∃ slot : List.Vector U8 (WriteOp.size op),
    ops = front ++ op :: back ∧ Writes response p handler front results bytes handler' ∧
      p + bytes.length + op.size ≤ response.length ∧
      (response.drop (p + bytes.length)).take op.size = slot.toList ∧
      ∃ s, op.fill.run (handler', slot) = .error .panic s

/-- What a sequence of writes leaves: the bytes of the sequential writer, or a callback that
aborts. -/
def WritesEnd (b : B) (o p : ℕ) (handler : CommandHandler D E) (ops : List (WriteOp D E)) :
    EStateM.Result (Fault Empty) (CommandHandler D E × RequestResponseCursor B)
      (List (Except WriteOutOfBounds Unit)) → Prop
  | .ok results (handler', cursor) => ∃ bytes,
      Writes (TpmBuffers.getResponse b) p handler ops results bytes handler' ∧
      cursor = ⟨TpmBuffers.setResponse b (putRange (TpmBuffers.getResponse b) p bytes), o,
        p + bytes.length⟩
  | .error _ _ => CallbackAborts (TpmBuffers.getResponse b) p handler ops

theorem CallbackAborts.full {response : List U8} {ops : List (WriteOp D E)}
    (h : CallbackAborts response p handler ops) (noRoom : response.length < p + op.size) :
    CallbackAborts response p handler (op :: ops) := by
  obtain ⟨front, op', back, results, bytes, handler', slot, rfl, hfront, h⟩ := h
  exact ⟨op :: front, op', back, _, bytes, handler', slot, rfl, .full noRoom hfront, h⟩

theorem CallbackAborts.congr {response response' : List U8} {ops : List (WriteOp D E)}
    (h : CallbackAborts response p handler ops) (hlen : response.length = response'.length)
    (hdrop : response.drop p = response'.drop p) : CallbackAborts response' p handler ops := by
  obtain ⟨front, op, back, results, bytes, handler', slot, hops, hfront, room, hslot, habort⟩ := h
  refine ⟨front, op, back, results, bytes, handler', slot, hops, hfront.congr hlen hdrop,
    hlen ▸ room, ?_, habort⟩
  rwa [← List.drop_drop, ← hdrop, List.drop_drop]

theorem CallbackAborts.fits {response : List U8} {ops : List (WriteOp D E)}
    {slot filled : List.Vector U8 op.size} (room : p + op.size ≤ response.length)
    (hslot : (response.drop p).take op.size = slot.toList)
    (hfill : op.fill.run (handler, slot) = .ok () (handler', filled))
    (h : CallbackAborts response (p + op.size) handler' ops) :
    CallbackAborts response p handler (op :: ops) := by
  obtain ⟨front, op', back, results, bytes, handler'', slot', rfl, hfront, room', hslot',
    habort⟩ := h
  have hlen : p + (filled.toList ++ bytes).length = p + op.size + bytes.length := by
    rw [List.length_append, filled.toList_length, Nat.add_assoc]
  refine ⟨op :: front, op', back, _, filled.toList ++ bytes, handler'', slot', rfl,
    .fits room hslot hfill hfront, ?_, ?_, habort⟩
  · rwa [hlen]
  · rwa [hlen]

theorem WritesEnd.full {ops : List (WriteOp D E)} {result}
    (h : WritesEnd b o p handler ops result)
    (noRoom : (TpmBuffers.getResponse b).length < p + op.size) :
    WritesEnd b o p handler (op :: ops) (consResult (.error ⟨⟩) result) := by
  cases result with
  | ok results s =>
    obtain ⟨bytes, hwrites, hcursor⟩ := h
    exact ⟨bytes, .full noRoom hwrites, hcursor⟩
  | error e s => exact CallbackAborts.full h noRoom

theorem WritesEnd.fits [LawfulTpmBuffers B] {ops : List (WriteOp D E)} {result}
    {slot filled : List.Vector U8 op.size}
    (room : p + op.size ≤ (TpmBuffers.getResponse b).length)
    (hslot : ((TpmBuffers.getResponse b).drop p).take op.size = slot.toList)
    (hfill : op.fill.run (handler, slot) = .ok () (handler', filled))
    (h : WritesEnd (TpmBuffers.setResponse b (putRange (TpmBuffers.getResponse b) p filled.toList))
      o (p + op.size) handler' ops result) :
    WritesEnd b o p handler (op :: ops) (consResult (.ok ()) result) := by
  have hsize : filled.toList.length = op.size := filled.toList_length
  have room' : p + filled.toList.length ≤ (TpmBuffers.getResponse b).length := by
    rwa [hsize]
  have hlen := length_putRange room'
  have hdrop := drop_putRange room'
  rw [hsize] at hdrop
  cases result with
  | ok results s =>
    obtain ⟨handler'', cursor⟩ := s
    obtain ⟨bytes, hwrites, rfl⟩ := h
    rw [LawfulTpmBuffers.getResponse_setResponse] at hwrites
    refine ⟨filled.toList ++ bytes, .fits room hslot hfill (hwrites.congr hlen hdrop), ?_⟩
    have hput := putRange_putRange room' bytes
    rw [hsize] at hput
    rw [LawfulTpmBuffers.getResponse_setResponse, LawfulTpmBuffers.setResponse_setResponse, hput,
      List.length_append, hsize, Nat.add_assoc]
  | error e s =>
    have h' : CallbackAborts _ (p + op.size) handler' ops := h
    rw [LawfulTpmBuffers.getResponse_setResponse] at h'
    exact CallbackAborts.fits room hslot hfill (h'.congr hlen hdrop)

/-- Any sequence of writes is a sequence of the sequential writer. -/
theorem run_attemptAll_writes [LawfulTpmBuffers B] (b : B) (o p : ℕ) (handler : CommandHandler D E)
    (ops : List (WriteOp D E)) :
    WritesEnd b o p handler ops ((attemptAll WriteOp.run ops).run (handler, ⟨b, o, p⟩)) := by
  induction ops generalizing b p handler with
  | nil =>
    refine ⟨[], .nil, ?_⟩
    rw [putRange_nil, LawfulTpmBuffers.setResponse_getResponse]
    rfl
  | cons op ops ih =>
    by_cases room : p + op.size ≤ (TpmBuffers.getResponse b).length
    · obtain ⟨slot, hslot⟩ : ∃ slot : List.Vector U8 op.size,
          ((TpmBuffers.getResponse b).drop p).take op.size = slot.toList :=
        ⟨array _ (by rw [List.length_take, List.length_drop]; omega), rfl⟩
      cases hfill : op.fill.run (handler, slot) with
      | ok u s =>
        rw [run_attemptAll_cons (run_attempt_of_ok (WriteOp.run_of_fits room hslot hfill))]
        exact (ih _ _ _).fits room hslot hfill
      | error e s =>
        cases e with
        | err e => cases e
        | panic =>
          obtain ⟨s', hrun⟩ := WriteOp.run_of_panic (o := o) room hslot hfill
          have hall : (attemptAll WriteOp.run (op :: ops)).run (handler, ⟨b, o, p⟩) =
              .error .panic s' := run_bind_of_error (run_attempt_of_panic hrun)
          rw [hall]
          exact ⟨[], op, ops, [], [], handler, slot, rfl, .nil, room, hslot, s, hfill⟩
    · have noRoom := Nat.not_le.mp room
      rw [run_attemptAll_cons (run_attempt_of_err (WriteOp.run_of_full noRoom))]
      exact (ih b p handler).full noRoom

end writes

/-- How a session over the request `q` ends that starts to write at `p`. -/
def SessionEnd (b : B) (q : List U8) (p : ℕ) (handler : CommandHandler D E) (reads : List ReadOp)
    (writes : List (WriteOp D E)) :
    EStateM.Result (Fault Empty) (CommandHandler D E × RequestResponseCursor B)
      (List (Option ℕ) × List (Except WriteOutOfBounds Unit) × ℕ) → Prop
  | .ok (values, results, last) (handler', cursor) =>
    values = (readSequence q reads).1 ∧
      cursor.requestOffset ≤ q.length ∧
      q.drop cursor.requestOffset = (readSequence q reads).2 ∧
      ∃ bytes, Writes (TpmBuffers.getResponse b) p handler writes results bytes handler' ∧
        last = p + bytes.length ∧
        cursor.buffers = TpmBuffers.setResponse b (putRange (TpmBuffers.getResponse b) p bytes) ∧
        (bytes ≠ [] → last ≤ (TpmBuffers.getResponse b).length)
  | .error _ _ => CallbackAborts (TpmBuffers.getResponse b) p handler writes

theorem run_session [TpmReadBuffer R] [LawfulTpmBuffers B] {b : B} {q : List U8} (hq : Reads b q)
    (p : ℕ) (handler : CommandHandler D E) (reads : List ReadOp) (writes : List (WriteOp D E)) :
    SessionEnd b q p handler reads writes
      ((session reads writes).run (handler, RequestResponseCursor.new b p)) := by
  obtain ⟨o, hreads, hdrop, hle⟩ := run_readAll hq handler p (Nat.zero_le _) reads
  have hwrites := run_attemptAll_writes b o p handler writes
  unfold session RequestResponseCursor.new
  rw [run_bind_of_ok hreads]
  cases hrun : (attemptAll WriteOp.run writes).run (handler, ⟨b, o, p⟩) with
  | ok results s =>
    rw [hrun] at hwrites
    obtain ⟨handler', cursor⟩ := s
    obtain ⟨bytes, hbytes, rfl⟩ := hwrites
    rw [run_bind_of_ok hrun]
    exact ⟨rfl, hle, hdrop, bytes, hbytes, rfl, rfl, hbytes.length_le⟩
  | error e s =>
    rw [hrun] at hwrites
    rw [run_bind_of_error hrun]
    exact hwrites

/-- Over either kind of buffers the cursor reads the request in sequence and then writes the
response in sequence. -/
theorem cursor_sequential (p : ℕ) (handler : CommandHandler D E) (reads : List ReadOp)
    (writes : List (WriteOp D E)) :
    (∀ request response, SessionEnd (SeparateBuffers.mk request response) request p handler reads
      writes ((session reads writes).run
        (handler, RequestResponseCursor.new (SeparateBuffers.mk request response) p))) ∧
    ∀ buffer requestSize, SessionEnd (InOutBuffer.new buffer requestSize)
      (buffer.take (min requestSize buffer.length)) p handler reads writes
      ((session reads writes).run
        (handler, RequestResponseCursor.new (InOutBuffer.new buffer requestSize) p)) :=
  ⟨fun request response => run_session (SeparateBuffers.reads request response) p handler reads
      writes,
    fun buffer requestSize => run_session (InOutBuffer.reads buffer requestSize) p handler reads
      writes⟩

end TpmRs
