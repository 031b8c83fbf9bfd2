import TpmRs.Marshalable.Derive

/-!
# The wire format

Which values are well-formed and what their one encoding is, by recursion over the
description of the type and independently of the marshalers. An encoding is given
as the chunks in which it is written, so that its bytes and the places at which a
short buffer is noticed are one definition.
-/

namespace TpmRs

open Library

mutual

/-- Length fields are within the arrays they govern, array entries past the length are
the entry type's default, containers are well-formed, and so are all nested values. -/
def Ty.WellFormed : {α : Type} → Ty α → α → Prop
  | _, .prim _, _ => True
  | _, .unit, _ => True
  | _, .byteArray _, _ => True
  | _, .tpm2bSimple _, v => v.WellFormed
  | _, .namedStruct e fields, v => fields.WellFormed Fin.elim0 (e v)
  | _, .tupleStruct e fields, v => fields.WellFormed (e v)
  | _, .unitStruct _, _ => True
  | _, .enum e variants, v => variants.WellFormed (e v)
  | _, .selectorApart e before after variants, v =>
    before.WellFormed (e v).1 ∧ after.WellFormed (e v).2.1 ∧ variants.WellFormed (e v).2.2

def NamedFields.WellFormed : {n : ℕ} → {β : Type} → NamedFields n β → (Fin n → ℕ) → β → Prop
  | _, _, .nil, _, _ => True
  | _, _, .field ty rest, lengths, (v, vs) => ty.WellFormed v ∧ rest.WellFormed lengths vs
  | _, _, .length _ _ rest, lengths, (v, vs) => rest.WellFormed (Fin.cons v.toNat lengths) vs
  | _, _, .array entryType _ _ rest, lengths, (xs, vs) =>
    (∀ x ∈ xs.toList, entryType.WellFormed x) ∧ rest.WellFormed lengths vs
  | _, _, .lengthArray length entryType default maxSize rest, lengths, (xs, vs) =>
    lengths length ≤ maxSize ∧
      (∀ x ∈ xs.toList.take (lengths length), entryType.WellFormed x) ∧
      xs.toList.drop (lengths length) = (List.replicate maxSize default).drop (lengths length) ∧
      rest.WellFormed lengths vs

def TupleFields.WellFormed : {β : Type} → TupleFields β → β → Prop
  | _, .nil, _ => True
  | _, .cons ty rest, (v, vs) => ty.WellFormed v ∧ rest.WellFormed vs

def Variants.WellFormed : {p : Prim} → {selectors : List (BitVec p.bits)} → {β : Type} →
    Variants p selectors β → β → Prop
  | _, _, _, .cons _ _ fields _, .inl v => fields.WellFormed v
  | _, _, _, .cons _ _ _ rest, .inr v => rest.WellFormed v

end

mutual

/-- The chunks of the encoding, in the order in which they are written. -/
def Ty.chunks : {α : Type} → Ty α → α → List (Chunk U8)
  | _, .prim p, v => [⟨p.enc v, true⟩]
  | _, .unit, _ => []
  | _, .byteArray _, v => [⟨v.toList, true⟩]
  | _, .tpm2bSimple _, v => v.chunks
  | _, .namedStruct e fields, v => fields.chunks Fin.elim0 (e v)
  | _, .tupleStruct e fields, v => fields.chunks (e v)
  | _, .unitStruct _, _ => []
  | _, .enum (p := p) e variants, v =>
    ⟨p.enc (variants.discriminant (e v)), true⟩ :: variants.chunks (e v)
  | _, .selectorApart (p := p) e before after variants, v =>
    before.chunks (e v).1 ++ ⟨p.enc (variants.discriminant (e v).2.2), true⟩ ::
      (after.chunks (e v).2.1 ++ variants.chunks (e v).2.2)

def NamedFields.chunks : {n : ℕ} → {β : Type} → NamedFields n β → (Fin n → ℕ) → β →
    List (Chunk U8)
  | _, _, .nil, _, _ => []
  | _, _, .field ty rest, lengths, (v, vs) => ty.chunks v ++ rest.chunks lengths vs
  | _, _, .length p _ rest, lengths, (v, vs) =>
    ⟨p.enc v, true⟩ :: rest.chunks (Fin.cons v.toNat lengths) vs
  | _, _, .array entryType _ maxSize rest, lengths, (xs, vs) =>
    (xs.toList.take maxSize).flatMap entryType.chunks ++ rest.chunks lengths vs
  | _, _, .lengthArray length entryType _ _ rest, lengths, (xs, vs) =>
    (xs.toList.take (lengths length)).flatMap entryType.chunks ++ rest.chunks lengths vs

def TupleFields.chunks : {β : Type} → TupleFields β → β → List (Chunk U8)
  | _, .nil, _ => []
  | _, .cons ty rest, (v, vs) => ty.chunks v ++ rest.chunks vs

def Variants.chunks : {p : Prim} → {selectors : List (BitVec p.bits)} → {β : Type} →
    Variants p selectors β → β → List (Chunk U8)
  | _, _, _, .cons _ _ fields _, .inl v => fields.chunks v
  | _, _, _, .cons _ _ _ rest, .inr v => rest.chunks v

end

variable {α : Type}

/-- The encoding of a value. -/
def Ty.enc (t : Ty α) (v : α) : List U8 := Chunk.flat (t.chunks v)

/-- Whether byte `i` of the encoding belongs to the contents of a TPM2B container. -/
def Ty.inPayload (t : Ty α) (v : α) (i : ℕ) : Bool :=
  ((t.chunks v).flatMap fun c => List.replicate c.bytes.length !c.checked)[i]? = some true

end TpmRs
