import TpmRs.Library.Slice

/-!
# Sequential writers

A writer places chunks one after another at the front of a buffer. A checked chunk
reports an error when it does not fit; an unchecked one aborts. What a writer
leaves behind is determined by the length of the buffer alone: either all chunks
fit and are followed by the old bytes, or the first chunk that does not fit decides
the outcome.
-/

namespace TpmRs.Library

open Fallible Slice

variable {ε α β : Type}

/-- `written += m(&mut buffer[written..])?`. -/
def advance (written : ℕ) (m : Fallible ε (List α) ℕ) : Fallible ε (List α) ℕ := do
  let n ← onSuffix written m
  pure (written + n)

section

variable {w k n : ℕ} {buffer rest : List α} {m m' : Fallible ε (List α) ℕ} {e : Fault ε}

theorem run_advance_of_ok (hw : w ≤ buffer.length) (h : m.run (buffer.drop w) = .ok n rest) :
    (advance w m).run buffer = .ok (w + n) (buffer.take w ++ rest) := by
  rw [advance, run_bind_of_ok (run_onSuffix_of_ok hw h)]
  rfl

theorem run_advance_of_error (hw : w ≤ buffer.length)
    (h : m.run (buffer.drop w) = .error e rest) :
    (advance w m).run buffer = .error e (buffer.take w ++ rest) := by
  rw [advance, run_bind_of_error (run_onSuffix_of_error hw h)]

theorem run_advance_of_lt (hw : buffer.length < w) :
    (advance w m).run buffer = .error .panic buffer := by
  rw [advance, run_bind_of_error (run_onSuffix_of_lt hw)]

theorem run_advance_of_run_eq (hw : w ≤ buffer.length)
    (h : m.run (buffer.drop w) = m'.run rest) :
    (advance w m).run buffer = (advance w m').run (buffer.take w ++ rest) := by
  have hlen : (buffer.take w).length = w := by simp [hw]
  have hw' : w ≤ (buffer.take w ++ rest).length := by simp [hlen]
  have hdrop : (buffer.take w ++ rest).drop w = rest := List.drop_left' hlen
  have htake : (buffer.take w ++ rest).take w = buffer.take w := List.take_left' hlen
  cases hr : m'.run rest with
  | ok n rest' =>
    rw [run_advance_of_ok hw (h.trans hr), run_advance_of_ok hw' (hdrop.symm ▸ hr), htake]
  | error e rest' =>
    rw [run_advance_of_error hw (h.trans hr), run_advance_of_error hw' (hdrop.symm ▸ hr), htake]

theorem run_advance_advance (hw : w ≤ buffer.length) (m : Fallible ε (List α) ℕ) :
    (advance w (advance k m)).run buffer = (advance (w + k) m).run buffer := by
  by_cases hk : k ≤ (buffer.drop w).length
  · have hwk : w + k ≤ buffer.length := by simp at hk; omega
    have hdrop : (buffer.drop w).drop k = buffer.drop (w + k) := by rw [List.drop_drop]
    cases hm : m.run (buffer.drop (w + k)) with
    | ok n rest =>
      rw [run_advance_of_ok hw (run_advance_of_ok hk (hdrop ▸ hm)), run_advance_of_ok hwk hm,
        ← List.append_assoc, ← List.take_add, Nat.add_assoc]
    | error e rest =>
      rw [run_advance_of_error hw (run_advance_of_error hk (hdrop ▸ hm)),
        run_advance_of_error hwk hm, ← List.append_assoc, ← List.take_add]
  · have hwk : buffer.length < w + k := by simp at hk; omega
    rw [run_advance_of_error hw (run_advance_of_lt (Nat.not_le.mp hk)), run_advance_of_lt hwk,
      List.take_append_drop]

end

/-- `m` puts exactly `bytes` at the front of every buffer that has room for them. -/
def Puts (m : Fallible ε (List α) ℕ) (bytes : List α) : Prop :=
  ∀ buffer : List α, bytes.length ≤ buffer.length →
    m.run buffer = .ok bytes.length (bytes ++ buffer.drop bytes.length)

section

variable {ε' : Type} {m m' : Fallible ε (List α) ℕ} {bytes bytes' front rest : List α}

theorem Puts.mapErr {g : ε → ε'} (h : Puts m bytes) : Puts (mapErr g m) bytes :=
  fun buffer hb => run_mapErr_of_ok (h buffer hb)

theorem Puts.run_advance (h : Puts m bytes) (hrest : bytes.length ≤ rest.length) :
    (advance front.length m).run (front ++ rest) =
      .ok (front ++ bytes).length (front ++ bytes ++ rest.drop bytes.length) := by
  have hw : front.length ≤ (front ++ rest).length := by simp
  have hdrop : (front ++ rest).drop front.length = rest := List.drop_left
  have hm : m.run ((front ++ rest).drop front.length) =
      .ok bytes.length (bytes ++ rest.drop bytes.length) := by rw [hdrop, h rest hrest]
  rw [run_advance_of_ok hw hm, List.take_left, List.length_append, List.append_assoc]

theorem Puts.seq (h : Puts m bytes) (h' : Puts m' bytes') :
    Puts (do let written ← m; advance written m') (bytes ++ bytes') := by
  intro buffer hb
  rw [List.length_append] at hb
  rw [run_bind_of_ok (h buffer (by omega)), h'.run_advance (by simp; omega)]
  simp

/-- A writer that leaves a hole at the front for a size known only afterwards. -/
theorem puts_of_hole {size : List α} {fill : ℕ → Fallible ε (List α) ℕ}
    (hm : ∀ buffer : List α, (size ++ bytes).length ≤ buffer.length →
      ∃ hole : List α, hole.length = size.length ∧ m.run buffer =
        .ok (size ++ bytes).length (hole ++ bytes ++ buffer.drop (size ++ bytes).length))
    (hfill : ∀ hole rest : List α, hole.length = size.length →
      (fill (size ++ bytes).length).run (hole ++ rest) =
        .ok (size ++ bytes).length (size ++ rest)) :
    Puts (m >>= fill) (size ++ bytes) := by
  intro buffer hb
  obtain ⟨hole, hlen, hrun⟩ := hm buffer hb
  rw [run_bind_of_ok hrun, List.append_assoc, hfill hole _ hlen, List.append_assoc]

theorem Puts.run_overwrite (h : Puts m bytes) (hlen : front.length = bytes.length) :
    m.run (front ++ rest) = .ok bytes.length (bytes ++ rest) := by
  rw [h _ (by simp [hlen]), ← hlen, List.drop_left]

end

structure Chunk (α : Type) where
  bytes : List α
  checked : Bool

namespace Chunk

/-- What all the chunks together put into the buffer. -/
def flat (cs : List (Chunk α)) : List α := cs.flatMap bytes

@[simp] theorem flat_nil : flat ([] : List (Chunk α)) = [] := rfl

@[simp] theorem flat_cons (c : Chunk α) (cs : List (Chunk α)) :
    flat (c :: cs) = c.bytes ++ flat cs := by simp [flat]

@[simp] theorem flat_append (cs ds : List (Chunk α)) : flat (cs ++ ds) = flat cs ++ flat ds := by
  simp [flat]

@[simp] theorem flat_flatMap {β : Type} (f : β → List (Chunk α)) (xs : List β) :
    flat (xs.flatMap f) = xs.flatMap fun x => flat (f x) := by
  simp [flat, List.flatMap_assoc]

/-- Write one chunk at the front. -/
def write (full : ε) (c : Chunk α) : Fallible ε (List α) ℕ := fun buffer =>
  if c.bytes.length ≤ buffer.length then
    .ok c.bytes.length (c.bytes ++ buffer.drop c.bytes.length)
  else .error (if c.checked then .err full else .panic) buffer

/-- Write the chunks in order, the first of them at index `written`. -/
def writeAll (full : ε) : List (Chunk α) → ℕ → Fallible ε (List α) ℕ
  | [], written => pure written
  | c :: cs, written => do
    let written ← advance written (c.write full)
    writeAll full cs written

theorem run_write_of_le (full : ε) {c : Chunk α} {buffer : List α}
    (h : c.bytes.length ≤ buffer.length) :
    (c.write full).run buffer =
      .ok c.bytes.length (c.bytes ++ buffer.drop c.bytes.length) := by
  change c.write full buffer = _
  simp [write, h]

theorem run_write_of_lt (full : ε) {c : Chunk α} {buffer : List α}
    (h : buffer.length < c.bytes.length) :
    (c.write full).run buffer = .error (if c.checked then .err full else .panic) buffer := by
  change c.write full buffer = _
  simp [write, Nat.not_le.mpr h]

theorem run_advance_write_of_le (full : ε) {c : Chunk α} {buffer : List α} {w : ℕ}
    (h : w + c.bytes.length ≤ buffer.length) :
    (advance w (c.write full)).run buffer = .ok (w + c.bytes.length)
      (buffer.take w ++ c.bytes ++ buffer.drop (w + c.bytes.length)) := by
  have hw : w ≤ buffer.length := by omega
  have hc : c.bytes.length ≤ (buffer.drop w).length := by simp; omega
  rw [advance, run_bind_of_ok (run_onSuffix_of_ok hw (run_write_of_le full hc)),
    List.drop_drop, List.append_assoc]
  rfl

theorem run_advance_write_of_lt (full : ε) {c : Chunk α} {buffer : List α} {w : ℕ}
    (hw : w ≤ buffer.length) (h : buffer.length < w + c.bytes.length) :
    (advance w (c.write full)).run buffer =
      .error (if c.checked then .err full else .panic) buffer := by
  have hc : (buffer.drop w).length < c.bytes.length := by simp; omega
  rw [advance, run_bind_of_error (run_onSuffix_of_error hw (run_write_of_lt full hc)),
    List.take_append_drop]

theorem writeAll_append (full : ε) (cs ds : List (Chunk α)) (w : ℕ) :
    writeAll full (cs ++ ds) w = writeAll full cs w >>= writeAll full ds := by
  induction cs generalizing w with
  | nil => simp [writeAll]
  | cons c cs ih => simp [writeAll, ih]

theorem run_writeAll_of_le (full : ε) (cs : List (Chunk α)) {buffer : List α} {w : ℕ}
    (h : w + (flat cs).length ≤ buffer.length) :
    (writeAll full cs w).run buffer = .ok (w + (flat cs).length)
      (buffer.take w ++ flat cs ++ buffer.drop (w + (flat cs).length)) := by
  induction cs generalizing buffer w with
  | nil => simp [writeAll]
  | cons c cs ih =>
    simp only [flat_cons, List.length_append] at h
    have hc : w + c.bytes.length ≤ buffer.length := by omega
    have hpre : (buffer.take w ++ c.bytes).length = w + c.bytes.length := by
      simp; omega
    have hrest : w + c.bytes.length + (flat cs).length ≤
        (buffer.take w ++ c.bytes ++ buffer.drop (w + c.bytes.length)).length := by
      rw [List.length_append, hpre, List.length_drop]
      omega
    have hnil : (buffer.take w ++ c.bytes).drop (w + c.bytes.length + (flat cs).length) = [] :=
      List.drop_eq_nil_of_le (by omega)
    rw [writeAll, run_bind_of_ok (run_advance_write_of_le full hc), ih hrest,
      List.take_left' hpre, List.drop_append, hpre, hnil]
    simp [List.drop_drop, Nat.add_assoc]

theorem writeAll_singleton (full : ε) (c : Chunk α) : writeAll full [c] 0 = c.write full := by
  funext buffer
  change (writeAll full [c] 0).run buffer = (c.write full).run buffer
  by_cases h : c.bytes.length ≤ buffer.length
  · rw [writeAll, run_bind_of_ok (run_advance_write_of_le full (by omega)), run_write_of_le full h]
    simp [writeAll]
  · have hlt : buffer.length < c.bytes.length := Nat.not_le.mp h
    rw [writeAll, run_bind_of_error (run_advance_write_of_lt full (Nat.zero_le _) (by omega)),
      run_write_of_lt full hlt]

/-- The chunk in which `room` entries run out. -/
def cutAt : List (Chunk α) → ℕ → Option (Chunk α)
  | [], _ => none
  | c :: cs, room =>
    if c.bytes.length ≤ room then cutAt cs (room - c.bytes.length) else some c

theorem cutAt_isSome (cs : List (Chunk α)) {room : ℕ} (h : room < (flat cs).length) :
    ∃ c, cutAt cs room = some c := by
  induction cs generalizing room with
  | nil => simp at h
  | cons c cs ih =>
    by_cases hc : c.bytes.length ≤ room
    · have hroom : room - c.bytes.length < (flat cs).length := by simp at h; omega
      obtain ⟨d, hd⟩ := ih hroom
      exact ⟨d, by simp [cutAt, hc, hd]⟩
    · exact ⟨c, by simp [cutAt, hc]⟩

/-- The sequence does not fit: the chunk that is cut decides how the writer stops. -/
theorem run_writeAll_of_cut (full : ε) (cs : List (Chunk α)) {buffer : List α} {w : ℕ}
    {c : Chunk α} (hw : w ≤ buffer.length) (h : cutAt cs (buffer.length - w) = some c) :
    ∃ buffer', (writeAll full cs w).run buffer =
      .error (if c.checked then .err full else .panic) buffer' := by
  induction cs generalizing buffer w with
  | nil => simp [cutAt] at h
  | cons d cs ih =>
    by_cases hd : d.bytes.length ≤ buffer.length - w
    · have hfit : w + d.bytes.length ≤ buffer.length := by omega
      have hlen : (buffer.take w ++ d.bytes ++ buffer.drop (w + d.bytes.length)).length =
          buffer.length := by
        simp; omega
      rw [cutAt, if_pos hd, Nat.sub_sub, ← hlen] at h
      obtain ⟨buffer', hb⟩ := ih (hlen ▸ hfit) h
      exact ⟨buffer', by rw [writeAll, run_bind_of_ok (run_advance_write_of_le full hfit), hb]⟩
    · rw [cutAt, if_neg hd, Option.some.injEq] at h
      subst h
      exact ⟨buffer, by
        rw [writeAll, run_bind_of_error (run_advance_write_of_lt full hw (by omega))]⟩

/-- A writer that returns stays inside the buffer. -/
theorem writeAll_bound (full : ε) (cs : List (Chunk α)) {buffer buffer' : List α} {w w' : ℕ}
    (hw : w ≤ buffer.length) (h : (writeAll full cs w).run buffer = .ok w' buffer') :
    w' ≤ buffer'.length := by
  by_cases hfit : w + (flat cs).length ≤ buffer.length
  · rw [run_writeAll_of_le full cs hfit] at h
    obtain ⟨rfl, rfl⟩ : w + (flat cs).length = w' ∧ _ = buffer' := by simpa using h
    simp
    omega
  · have hroom : buffer.length - w < (flat cs).length := by omega
    obtain ⟨c, hc⟩ := cutAt_isSome cs hroom
    obtain ⟨b, hb⟩ := run_writeAll_of_cut full cs hw hc
    simp [hb] at h

/-- A writer started inside a suffix is the same writer started at that index. -/
theorem run_advance_writeAll (full : ε) (cs : List (Chunk α)) {buffer : List α} {w : ℕ}
    (hw : w ≤ buffer.length) (k : ℕ) :
    (advance w (writeAll full cs k)).run buffer = (writeAll full cs (w + k)).run buffer := by
  induction cs generalizing buffer k with
  | nil => exact run_advance_of_ok hw rfl |>.trans (by rw [List.take_append_drop]; rfl)
  | cons c cs ih =>
    cases h : (advance k (c.write full)).run (buffer.drop w) with
    | error e rest =>
      have h' : (advance (w + k) (c.write full)).run buffer = .error e (buffer.take w ++ rest) :=
        (run_advance_advance hw _).symm.trans (run_advance_of_error hw h)
      rw [writeAll, writeAll, run_bind_of_error h',
        run_advance_of_error hw (run_bind_of_error h)]
    | ok n rest =>
      have h' : (advance (w + k) (c.write full)).run buffer = .ok (w + n) (buffer.take w ++ rest) :=
        (run_advance_advance hw _).symm.trans (run_advance_of_ok hw h)
      rw [writeAll, writeAll, run_bind_of_ok h', ← ih (by simp [hw]) n]
      exact run_advance_of_run_eq hw (run_bind_of_ok h)

/-- From any index inside the buffer, `k` continues exactly as the writer of `cs` does. -/
def Writes (full : ε) (k : ℕ → Fallible ε (List α) ℕ) (cs : List (Chunk α)) : Prop :=
  ∀ (w : ℕ) (buffer : List α), w ≤ buffer.length →
    (k w).run buffer = (writeAll full cs w).run buffer

theorem Writes.pure (full : ε) : Writes full (pure : ℕ → Fallible ε (List α) ℕ) [] :=
  fun _ _ _ => rfl

theorem Writes.advance {full : ε} {m : Fallible ε (List α) ℕ} {cs : List (Chunk α)}
    (h : m = writeAll full cs 0) : Writes full (fun w => advance w m) cs := by
  intro w buffer hw
  rw [h, run_advance_writeAll full cs hw 0, Nat.add_zero]

theorem Writes.bind {full : ε} {k l : ℕ → Fallible ε (List α) ℕ} {cs ds : List (Chunk α)}
    (hk : Writes full k cs) (hl : Writes full l ds) :
    Writes full (fun w => k w >>= l) (cs ++ ds) := by
  intro w buffer hw
  rw [writeAll_append]
  cases h : (writeAll full cs w).run buffer with
  | error e buffer' => rw [run_bind_of_error ((hk w buffer hw).trans h), run_bind_of_error h]
  | ok w' buffer' =>
    rw [run_bind_of_ok ((hk w buffer hw).trans h), run_bind_of_ok h]
    exact hl w' buffer' (writeAll_bound full cs hw h)

theorem Writes.eq_writeAll {full : ε} {k : ℕ → Fallible ε (List α) ℕ} {cs : List (Chunk α)}
    (h : Writes full k cs) : k 0 = writeAll full cs 0 :=
  funext fun buffer => h 0 buffer (Nat.zero_le _)

end Chunk
end TpmRs.Library
