import TpmRs.Marshalable.Encoding

/-!
# The derived codecs are exact

The marshaler of a well-formed value is the writer of its chunks, and the
unmarshaler is an exact decoder of the encoding. Both are inductions over the
description of the type, one case for each generator.
-/

namespace TpmRs

open Library Library.Fallible Library.Slice

theorem writes_marshalEntries {α : Type} {tryMarshal : α → MarshalM ℕ}
    {chunks : α → List (Chunk U8)} (xs : List α) {n : ℕ} (hn : n ≤ xs.length)
    (h : ∀ x ∈ xs.take n, tryMarshal x = Chunk.writeAll .memory (chunks x) 0) :
    Chunk.Writes .memory (marshalEntries tryMarshal xs n) ((xs.take n).flatMap chunks) := by
  induction xs generalizing n with
  | nil =>
    obtain rfl : n = 0 := by simpa using hn
    exact Chunk.Writes.pure _
  | cons x xs ih =>
    cases n with
    | zero => exact Chunk.Writes.pure _
    | succ n =>
      have hx := h x (by simp)
      have hrest := ih (n := n) (by simpa using hn) fun y hy => h y (by simp [hy])
      exact (Chunk.Writes.advance hx).bind hrest

/-- A nonempty array and its first entry. -/
def consEquiv (α : Type) (m : ℕ) : List.Vector α (m + 1) ≃ α × List.Vector α m where
  toFun xs := (xs.head, xs.tail)
  invFun p := p.1 ::ᵥ p.2
  left_inv xs := by simp
  right_inv p := by simp

theorem toList_replicate {α : Type} (m : ℕ) (x : α) :
    (List.Vector.replicate m x).toList = List.replicate m x := rfl

theorem Ty.enc_eq {α : Type} (t : Ty α) : t.enc = fun v => Chunk.flat (t.chunks v) := rfl

theorem decodes_unmarshalEntries {α : Type} {d : UnmarshalM α} {wf : α → Prop}
    {enc : α → List U8} (h : Decodes d wf enc) {m : ℕ} (n : ℕ) (entries : List.Vector α m) :
    Decodes (unmarshalEntries d n entries)
      (fun xs => (∀ x ∈ xs.toList.take n, wf x) ∧ xs.toList.drop n = entries.toList.drop n)
      (fun xs => (xs.toList.take n).flatMap enc) := by
  induction m generalizing n with
  | zero =>
    apply (Decodes.pure entries).congr
    · intro xs
      obtain rfl : xs = entries := Subsingleton.elim _ _
      simp
    · intro xs
      simp
  | succ m ih =>
    cases n with
    | zero =>
      refine (Decodes.pure entries).congr (fun xs => ?_) fun xs => by simp
      simpa using ⟨fun hxs => hxs ▸ rfl, List.Vector.eq xs entries⟩
    | succ n =>
      have hstep := (h.seq fun _ => ih n entries.tail).map (consEquiv α m)
      simp only [bind_assoc, pure_bind] at hstep
      apply hstep.congr
      · intro xs
        obtain ⟨x, xs, rfl⟩ := xs.exists_eq_cons
        obtain ⟨y, ys, rfl⟩ := entries.exists_eq_cons
        simp [consEquiv, and_assoc]
      · intro xs
        obtain ⟨x, xs, rfl⟩ := xs.exists_eq_cons
        simp [consEquiv]

mutual

theorem Ty.tryMarshal_eq_writeAll : {α : Type} → (t : Ty α) → (v : α) → t.WellFormed v →
    t.tryMarshal v = Chunk.writeAll .memory (t.chunks v) 0
  | _, .prim p, v, _ => p.tryMarshal_eq_writeAll v
  | _, .unit, _, _ => rfl
  | _, .byteArray _, v, _ => ByteArray.tryMarshal_eq_writeAll v
  | _, .tpm2bSimple _, v, h => Tpm2b.tryMarshal_eq_writeAll (show v.WellFormed from h).size_le
  | _, .namedStruct e fields, v, h => (fields.writes_marshal _ (e v) h).eq_writeAll
  | _, .tupleStruct e fields, v, h => (fields.writes_marshal (e v) h).eq_writeAll
  | _, .unitStruct _, _, _ => rfl
  | _, .enum (p := p) e variants, v, h => by
    have hsel := p.tryMarshal_eq_writeAll (variants.discriminant (e v))
    have hvar := variants.tryMarshalVariant_eq_writeAll (e v) h
    exact ((Chunk.Writes.advance hsel).bind (Chunk.Writes.advance hvar)).eq_writeAll
  | _, .selectorApart (p := p) e before after variants, v, h => by
    simp only [Ty.WellFormed] at h
    obtain ⟨hb, ha, hv⟩ := h
    have hbefore := before.writes_marshal (e v).1 hb
    have hsel := p.tryMarshal_eq_writeAll (variants.discriminant (e v).2.2)
    have hafter := after.writes_marshal (e v).2.1 ha
    have hvar := variants.tryMarshalVariant_eq_writeAll (e v).2.2 hv
    exact (hbefore.bind ((Chunk.Writes.advance hsel).bind
      (hafter.bind (Chunk.Writes.advance hvar)))).eq_writeAll

theorem NamedFields.writes_marshal : {n : ℕ} → {β : Type} → (fields : NamedFields n β) →
    (lengths : Fin n → ℕ) → (v : β) → fields.WellFormed lengths v →
    Chunk.Writes .memory (fields.marshal lengths v) (fields.chunks lengths v)
  | _, _, .nil, _, _, _ => Chunk.Writes.pure _
  | _, _, .field ty rest, lengths, (v, vs), h => by
    simp only [NamedFields.WellFormed] at h
    obtain ⟨hv, hvs⟩ := h
    exact (Chunk.Writes.advance (ty.tryMarshal_eq_writeAll v hv)).bind
      (rest.writes_marshal lengths vs hvs)
  | _, _, .length p _ rest, lengths, (v, vs), h =>
    (Chunk.Writes.advance (p.tryMarshal_eq_writeAll v)).bind (rest.writes_marshal _ vs h)
  | _, _, .array entryType _ maxSize rest, lengths, (xs, vs), h => by
    simp only [NamedFields.WellFormed] at h
    obtain ⟨hxs, hvs⟩ := h
    have hentries := writes_marshalEntries (n := maxSize) xs.toList (by simp) fun x hx =>
      entryType.tryMarshal_eq_writeAll x (hxs x (List.mem_of_mem_take hx))
    exact hentries.bind (rest.writes_marshal lengths vs hvs)
  | _, _, .lengthArray length entryType _ maxSize rest, lengths, (xs, vs), h => by
    simp only [NamedFields.WellFormed] at h
    obtain ⟨hlen, hxs, -, hvs⟩ := h
    have hentries := writes_marshalEntries xs.toList (by simpa using hlen) fun x hx =>
      entryType.tryMarshal_eq_writeAll x (hxs x hx)
    exact hentries.bind (rest.writes_marshal lengths vs hvs)

theorem TupleFields.writes_marshal : {β : Type} → (fields : TupleFields β) → (v : β) →
    fields.WellFormed v → Chunk.Writes .memory (fields.marshal v) (fields.chunks v)
  | _, .nil, _, _ => Chunk.Writes.pure _
  | _, .cons ty rest, (v, vs), h => by
    simp only [TupleFields.WellFormed] at h
    obtain ⟨hv, hvs⟩ := h
    exact (Chunk.Writes.advance (ty.tryMarshal_eq_writeAll v hv)).bind (rest.writes_marshal vs hvs)

theorem Variants.tryMarshalVariant_eq_writeAll : {p : Prim} → {selectors : List (BitVec p.bits)} →
    {β : Type} → (variants : Variants p selectors β) → (v : β) → variants.WellFormed v →
    variants.tryMarshalVariant v = Chunk.writeAll .memory (variants.chunks v) 0
  | _, _, _, .cons _ _ fields _, .inl v, h => (fields.writes_marshal v h).eq_writeAll
  | _, _, _, .cons _ _ _ rest, .inr v, h => rest.tryMarshalVariant_eq_writeAll v h

end

theorem Variants.discriminant_mem : {p : Prim} → {selectors : List (BitVec p.bits)} → {β : Type} →
    (variants : Variants p selectors β) → (v : β) → variants.discriminant v ∈ selectors
  | _, _, _, .cons _ _ _ _, .inl _ => by simp [Variants.discriminant]
  | _, _, _, .cons _ _ _ rest, .inr v => by
    simpa [Variants.discriminant] using Or.inr (rest.discriminant_mem v)

mutual

/-- The unmarshaler is an exact decoder of the encoding. -/
theorem Ty.decodes : {α : Type} → (t : Ty α) → Decodes t.tryUnmarshal t.WellFormed t.enc
  | _, .prim p => p.decodes.congr (by simp [Ty.WellFormed]) (by simp [Ty.enc, Ty.chunks])
  | _, .unit => (Decodes.pure ()).congr (by simp [Ty.WellFormed]) (by simp [Ty.enc, Ty.chunks])
  | _, .byteArray m =>
    (ByteArray.decodes m).congr (by simp [Ty.WellFormed]) (by simp [Ty.enc, Ty.chunks])
  | _, .tpm2bSimple cap =>
    (Tpm2b.decodes cap).congr (by simp [Ty.WellFormed]) (by simp [Ty.enc, Ty.chunks])
  | _, .namedStruct e fields =>
    ((fields.decodes Fin.elim0).map e).congr (by simp [Ty.WellFormed])
      (by simp [Ty.enc, Ty.chunks])
  | _, .tupleStruct e fields =>
    (fields.decodes.map e).congr (by simp [Ty.WellFormed]) (by simp [Ty.enc, Ty.chunks])
  | _, .unitStruct e =>
    (Decodes.pure (e.symm ())).congr (fun v => by simp [Ty.WellFormed, Equiv.eq_symm_apply])
      (by simp [Ty.enc, Ty.chunks])
  | _, .enum (p := p) e variants => by
    have h := (p.decodes.seq variants.decodes).image (fun q : _ × _ => e.symm q.2)
      (Ty.enum e variants).WellFormed (Ty.enum e variants).enc ?_ ?_
    · simp only [bind_assoc, pure_bind] at h
      exact h
    · intro v
      simp [Ty.WellFormed, Equiv.symm_apply_eq]
    · rintro ⟨selector, v⟩ ⟨-, -, hsel⟩
      obtain rfl : variants.discriminant v = selector := hsel
      simp [Ty.enc, Ty.chunks]
  | _, .selectorApart (p := p) e before after variants => by
    have h := (before.decodes.seq fun _ => p.decodes.seq fun selector =>
      after.decodes.seq fun _ => variants.decodes selector).image
      (fun q : _ × _ × _ × _ => e.symm (q.1, q.2.2.1, q.2.2.2))
      (Ty.selectorApart e before after variants).WellFormed
      (Ty.selectorApart e before after variants).enc ?_ ?_
    · simp only [bind_assoc, pure_bind] at h
      exact h
    · intro v
      rw [Ty.WellFormed]
      constructor
      · intro h
        rcases h with ⟨hb, ha, hv⟩
        exact ⟨((e v).1, variants.discriminant (e v).2.2, (e v).2.1, (e v).2.2),
          ⟨hb, trivial, ha, hv, rfl⟩, by simp⟩
      · intro h
        rcases h with ⟨⟨b, selector, a, w⟩, ⟨hb, -, ha, hw, -⟩, rfl⟩
        simpa using ⟨hb, ha, hw⟩
    · rintro ⟨b, selector, a, v⟩ ⟨-, -, -, -, hsel⟩
      obtain rfl : variants.discriminant v = selector := hsel
      simp [Ty.enc, Ty.chunks]

theorem NamedFields.decodes : {n : ℕ} → {β : Type} → (fields : NamedFields n β) →
    (lengths : Fin n → ℕ) → Decodes (fields.unmarshal lengths) (fields.WellFormed lengths)
      (fun v => Chunk.flat (fields.chunks lengths v))
  | _, _, .nil, _ =>
    (Decodes.pure ()).congr (by simp [NamedFields.WellFormed]) (by simp [NamedFields.chunks])
  | _, _, .field ty rest, lengths =>
    (ty.decodes.seq fun _ => rest.decodes lengths).congr (by simp [NamedFields.WellFormed])
      (by simp [NamedFields.chunks, Ty.enc])
  | _, _, .length p _ rest, lengths =>
    (p.decodes.seq fun v => rest.decodes (Fin.cons v.toNat lengths)).congr
      (by simp [NamedFields.WellFormed]) (by simp [NamedFields.chunks])
  | _, _, .array entryType default maxSize rest, lengths => by
    have hentries := decodes_unmarshalEntries entryType.decodes maxSize
      (List.Vector.replicate maxSize default)
    apply (hentries.seq fun _ => rest.decodes lengths).congr
    · intro v
      rcases v with ⟨xs, vs⟩
      have htake : xs.toList.take maxSize = xs.toList := List.take_of_length_le (by simp)
      simp [NamedFields.WellFormed, htake, toList_replicate]
    · intro v
      rcases v with ⟨xs, vs⟩
      simp [NamedFields.chunks, Ty.enc_eq]
  | _, _, .lengthArray length entryType default maxSize rest, lengths => by
    have hentries := decodes_unmarshalEntries entryType.decodes (lengths length)
      (List.Vector.replicate maxSize default)
    apply ((hentries.seq fun _ => rest.decodes lengths).guard (lengths length > maxSize)
      .size).congr
    · intro v
      rcases v with ⟨xs, vs⟩
      simp [NamedFields.WellFormed, and_assoc, toList_replicate]
    · intro v
      rcases v with ⟨xs, vs⟩
      simp [NamedFields.chunks, Ty.enc_eq]

theorem TupleFields.decodes : {β : Type} → (fields : TupleFields β) →
    Decodes fields.unmarshal fields.WellFormed (fun v => Chunk.flat (fields.chunks v))
  | _, .nil =>
    (Decodes.pure ()).congr (by simp [TupleFields.WellFormed]) (by simp [TupleFields.chunks])
  | _, .cons ty rest =>
    (ty.decodes.seq fun _ => rest.decodes).congr (by simp [TupleFields.WellFormed])
      (by simp [TupleFields.chunks, Ty.enc])

theorem Variants.decodes : {p : Prim} → {selectors : List (BitVec p.bits)} → {β : Type} →
    (variants : Variants p selectors β) → (selector : BitVec p.bits) →
    Decodes (variants.tryUnmarshalVariant selector)
      (fun v => variants.WellFormed v ∧ variants.discriminant v = selector)
      (fun v => Chunk.flat (variants.chunks v))
  | _, _, _, .nil, _ => (Decodes.fail _ fun _ => []).congr (by simp) (by simp)
  | _, _, _, .cons selector' fresh fields rest, selector => by
    by_cases hsel : selector = selector'
    · subst hsel
      have h := fields.decodes.image Sum.inl
        (fun v => (Variants.cons selector fresh fields rest).WellFormed v ∧
          (Variants.cons selector fresh fields rest).discriminant v = selector)
        (fun v => Chunk.flat ((Variants.cons selector fresh fields rest).chunks v)) ?_ ?_
      · simpa [Variants.tryUnmarshalVariant] using h
      · rintro (v | v)
        · simp [Variants.WellFormed, Variants.discriminant]
        · have hne : rest.discriminant v ≠ selector := fun h => fresh (h ▸ rest.discriminant_mem v)
          simp [Variants.discriminant, hne]
      · simp [Variants.chunks]
    · have h := (rest.decodes selector).image Sum.inr
        (fun v => (Variants.cons selector' fresh fields rest).WellFormed v ∧
          (Variants.cons selector' fresh fields rest).discriminant v = selector)
        (fun v => Chunk.flat ((Variants.cons selector' fresh fields rest).chunks v)) ?_ ?_
      · simpa [Variants.tryUnmarshalVariant, hsel] using h
      · rintro (v | v)
        · simp [Variants.discriminant, Ne.symm hsel]
        · simp [Variants.WellFormed, Variants.discriminant]
      · simp [Variants.chunks]

end

/-- Into a buffer with room for it the marshaler writes the encoding and nothing else. -/
theorem Ty.puts_tryMarshal {α : Type} (t : Ty α) {v : α} (hv : t.WellFormed v) :
    Puts (t.tryMarshal v) (t.enc v) := by
  intro buffer h
  rw [Ty.enc] at h ⊢
  rw [t.tryMarshal_eq_writeAll v hv, Chunk.run_writeAll_of_le _ _ (by simpa using h)]
  simp

/-- Decoding never panics and accepts exactly the encodings of well-formed values, and
encoding does not depend on what the buffer held. -/
theorem Ty.codec_exact {α : Type} (t : Ty α) :
    (∀ b s, t.tryUnmarshal.run b ≠ .error .panic s) ∧
      (∀ b v r, t.tryUnmarshal.run b = .ok v r ↔ t.WellFormed v ∧ b = t.enc v ++ r) ∧
      ∀ v, t.WellFormed v → ∀ buffer : List U8, (t.enc v).length ≤ buffer.length →
        (t.tryMarshal v).run buffer =
          .ok (t.enc v).length (t.enc v ++ buffer.drop (t.enc v).length) :=
  ⟨t.decodes.panicFree, t.decodes.run_eq_ok_iff, fun _ hv => t.puts_tryMarshal hv⟩

theorem Ty.codec_exact_two_bytes :
    (Ty.prim .u16).tryUnmarshal.run [0x01, 0x02, 0x03] = .ok 0x0102 [0x03] :=
  ((Ty.prim .u16).codec_exact.2.1 _ 0x0102 _).mpr ⟨trivial, by decide⟩

end TpmRs
