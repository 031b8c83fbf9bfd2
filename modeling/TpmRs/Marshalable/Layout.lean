import TpmRs.Library.ReprC
import TpmRs.Marshalable.Encoding

/-!
# Sizes in memory

The layout of a described type under the C rules, `size_of` in particular. Every struct
of the type library is `repr(C)` or transparent and every enum `repr(C, p)`, a tag in
front of the union of its variants; a primitive is aligned to its size. The encoding of a
well-formed value leaves the padding and the unused entries out, so it is never longer
than the value in memory.
-/

namespace TpmRs

open Library

def Prim.layout (p : Prim) : Layout := .scalar p.size (by cases p <;> decide)

/-- A `u16` and an array of bytes. -/
def Tpm2b.layout (cap : ℕ) : Layout := .struct [Prim.u16.layout, .array Prim.u8.layout cap]

mutual

def Ty.layout : {α : Type} → Ty α → Layout
  | _, .prim p => p.layout
  | _, .unit => .struct []
  | _, .byteArray m => .array Prim.u8.layout m
  | _, .tpm2bSimple maxBufferSize => Tpm2b.layout maxBufferSize
  | _, .namedStruct _ fields => .struct fields.layouts
  | _, .tupleStruct _ fields => .struct fields.layouts
  | _, .unitStruct _ => .struct []
  | _, .enum (p := p) _ variants => .taggedUnion p.layout variants.layouts
  | _, .selectorApart (p := p) _ before after variants =>
    .struct (before.layouts ++ after.layouts ++ [.taggedUnion p.layout variants.layouts])

def NamedFields.layouts : {n : ℕ} → {β : Type} → NamedFields n β → List Layout
  | _, _, .nil => []
  | _, _, .field ty rest => ty.layout :: rest.layouts
  | _, _, .length p _ rest => p.layout :: rest.layouts
  | _, _, .array entryType _ maxSize rest => .array entryType.layout maxSize :: rest.layouts
  | _, _, .lengthArray _ entryType _ maxSize rest =>
    .array entryType.layout maxSize :: rest.layouts

def TupleFields.layouts : {β : Type} → TupleFields β → List Layout
  | _, .nil => []
  | _, .cons ty rest => ty.layout :: rest.layouts

def Variants.layouts : {p : Prim} → {selectors : List (BitVec p.bits)} → {β : Type} →
    Variants p selectors β → List Layout
  | _, _, _, .nil => []
  | _, _, _, .cons _ _ fields rest => .struct fields.layouts :: rest.layouts

end

/-- `size_of`. -/
def Ty.sizeOf {α : Type} (t : Ty α) : ℕ := t.layout.size

theorem Tpm2b.length_enc_le {cap : ℕ} {self : Tpm2b cap} (h : self.WellFormed) :
    self.enc.length ≤ (Tpm2b.layout cap).size := by
  have hstruct := Layout.sum_size_le_size_struct [Prim.u16.layout, .array Prim.u8.layout cap]
  have hcap := h.size_le
  simp only [List.map_cons, List.map_nil, List.sum_cons, List.sum_nil, Prim.layout, Layout.scalar,
    Layout.array, Prim.size] at hstruct
  rw [Tpm2b.enc, List.length_append, Prim.length_enc, Tpm2b.length_payload h, Tpm2b.layout]
  exact le_trans (by simp only [Prim.size]; omega) hstruct

theorem length_flatMap_le {α β : Type} (f : α → List β) {m : ℕ} (xs : List α)
    (h : ∀ x ∈ xs, (f x).length ≤ m) : (xs.flatMap f).length ≤ xs.length * m := by
  induction xs with
  | nil => simp
  | cons x xs ih =>
    have hx := h x (by simp)
    have hxs := ih fun y hy => h y (by simp [hy])
    simp only [List.flatMap_cons, List.length_append, List.length_cons, Nat.succ_mul]
    omega

mutual

/-- The encoding of a well-formed value is not longer than the value in memory. -/
theorem Ty.length_enc_le : {α : Type} → (t : Ty α) → (v : α) → t.WellFormed v →
    (t.enc v).length ≤ t.sizeOf
  | _, .prim p, v, _ => by
    simp [Ty.enc, Ty.chunks, Ty.sizeOf, Ty.layout, Prim.layout, Layout.scalar]
  | _, .unit, _, _ => by simp [Ty.enc, Ty.chunks]
  | _, .byteArray m, v, _ => by
    simp [Ty.enc, Ty.chunks, Ty.sizeOf, Ty.layout, Layout.array, Prim.layout, Layout.scalar]
  | _, .tpm2bSimple cap, v, h => by
    simpa [Ty.enc, Ty.chunks, Ty.sizeOf, Ty.layout] using Tpm2b.length_enc_le h
  | _, .namedStruct e fields, v, h =>
    (fields.length_enc_le Fin.elim0 (e v) h).trans (Layout.sum_size_le_size_struct _)
  | _, .tupleStruct e fields, v, h =>
    (fields.length_enc_le (e v) h).trans (Layout.sum_size_le_size_struct _)
  | _, .unitStruct _, _, _ => by simp [Ty.enc, Ty.chunks]
  | _, .enum (p := p) e variants, v, h => by
    have hvariant := variants.length_enc_le (e v) h
    have hunion := Layout.add_maxSize_le_size_taggedUnion p.layout variants.layouts
    have htag : p.layout.size = p.size := rfl
    simp only [Ty.enc, Ty.chunks, Chunk.flat_cons, List.length_append, Prim.length_enc, Ty.sizeOf,
      Ty.layout]
    omega
  | _, .selectorApart (p := p) e before after variants, v, h => by
    simp only [Ty.WellFormed] at h
    obtain ⟨hb, ha, hv⟩ := h
    have hbefore := before.length_enc_le (e v).1 hb
    have hafter := after.length_enc_le (e v).2.1 ha
    have hvariant := variants.length_enc_le (e v).2.2 hv
    have hstruct := Layout.sum_add_maxSize_le_size_struct before.layouts after.layouts p.layout
      variants.layouts
    have htag : p.layout.size = p.size := rfl
    simp only [Ty.enc, Ty.chunks, Chunk.flat_append, Chunk.flat_cons, List.length_append,
      Prim.length_enc, Ty.sizeOf, Ty.layout]
    omega

theorem NamedFields.length_enc_le : {n : ℕ} → {β : Type} → (fields : NamedFields n β) →
    (lengths : Fin n → ℕ) → (v : β) → fields.WellFormed lengths v →
    (Chunk.flat (fields.chunks lengths v)).length ≤ (fields.layouts.map Layout.size).sum
  | _, _, .nil, _, _, _ => by simp [NamedFields.chunks]
  | _, _, .field ty rest, lengths, (v, vs), h => by
    simp only [NamedFields.WellFormed] at h
    have hv := ty.length_enc_le v h.1
    have hvs := rest.length_enc_le lengths vs h.2
    simp only [Ty.enc, Ty.sizeOf] at hv
    simp only [NamedFields.chunks, Chunk.flat_append, List.length_append, NamedFields.layouts,
      List.map_cons, List.sum_cons]
    omega
  | _, _, .length p _ rest, lengths, (v, vs), h => by
    have hvs := rest.length_enc_le _ vs h
    have hv : p.layout.size = p.size := rfl
    simp only [NamedFields.chunks, Chunk.flat_cons, List.length_append, Prim.length_enc,
      NamedFields.layouts, List.map_cons, List.sum_cons]
    omega
  | _, _, .array entryType _ maxSize rest, lengths, (xs, vs), h => by
    simp only [NamedFields.WellFormed] at h
    have hvs := rest.length_enc_le lengths vs h.2
    have hxs := length_flatMap_le entryType.enc (xs.toList.take maxSize) fun x hx =>
      entryType.length_enc_le x (h.1 x (List.mem_of_mem_take hx))
    have hcount : (xs.toList.take maxSize).length = maxSize := by simp
    rw [hcount] at hxs
    simp only [NamedFields.chunks, Chunk.flat_append, Chunk.flat_flatMap, List.length_append,
      NamedFields.layouts, List.map_cons, List.sum_cons, Layout.array]
    exact Nat.add_le_add hxs hvs
  | _, _, .lengthArray length entryType _ maxSize rest, lengths, (xs, vs), h => by
    simp only [NamedFields.WellFormed] at h
    have hvs := rest.length_enc_le lengths vs h.2.2.2
    have hxs := length_flatMap_le entryType.enc (xs.toList.take (lengths length)) fun x hx =>
      entryType.length_enc_le x (h.2.1 x hx)
    have hcount : (xs.toList.take (lengths length)).length ≤ maxSize := by simp
    simp only [NamedFields.chunks, Chunk.flat_append, Chunk.flat_flatMap, List.length_append,
      NamedFields.layouts, List.map_cons, List.sum_cons, Layout.array]
    exact Nat.add_le_add (hxs.trans (Nat.mul_le_mul_right _ hcount)) hvs

theorem TupleFields.length_enc_le : {β : Type} → (fields : TupleFields β) → (v : β) →
    fields.WellFormed v →
    (Chunk.flat (fields.chunks v)).length ≤ (fields.layouts.map Layout.size).sum
  | _, .nil, _, _ => by simp [TupleFields.chunks]
  | _, .cons ty rest, (v, vs), h => by
    simp only [TupleFields.WellFormed] at h
    have hv := ty.length_enc_le v h.1
    have hvs := rest.length_enc_le vs h.2
    simp only [Ty.enc, Ty.sizeOf] at hv
    simp only [TupleFields.chunks, Chunk.flat_append, List.length_append, TupleFields.layouts,
      List.map_cons, List.sum_cons]
    omega

theorem Variants.length_enc_le : {p : Prim} → {selectors : List (BitVec p.bits)} → {β : Type} →
    (variants : Variants p selectors β) → (v : β) → variants.WellFormed v →
    (Chunk.flat (variants.chunks v)).length ≤ Layout.maxSize variants.layouts
  | _, _, _, .cons _ _ fields _, .inl v, h =>
    ((fields.length_enc_le v h).trans (Layout.sum_size_le_size_struct _)).trans (le_max_left _ _)
  | _, _, _, .cons _ _ _ rest, .inr v, h => (rest.length_enc_le v h).trans (le_max_right _ _)

end

end TpmRs
