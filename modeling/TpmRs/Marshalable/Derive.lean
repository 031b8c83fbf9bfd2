import TpmRs.Marshalable.Tpm2b

/-!
# The derived codecs

A description `Ty α` says how the Rust type modelled by `α` gets its `Marshalable`
implementation, and `tryMarshal` and `tryUnmarshal` are the code that results: the
marshal and the unmarshal generators of `derive(Marshalable)` are separate functions
over the same description. A type is related to the tuple of its fields, or to the
sum of its variants, by a bijection, so that a description can be given for any
structure or enumeration of the source. The last constructor describes the three
implementations written by hand, whose selector is not next to the variant.
-/

namespace TpmRs

open Library Library.Fallible Library.Slice

mutual

/-- How a type gets its `Marshalable` implementation. -/
inductive Ty : Type → Type 1
  | prim (p : Prim) : Ty (BitVec p.bits)
  | unit : Ty Unit
  | byteArray (m : ℕ) : Ty (List.Vector U8 m)
  | tpm2bSimple (maxBufferSize : ℕ) : Ty (Tpm2b maxBufferSize)
  | namedStruct {α β : Type} (e : α ≃ β) (fields : NamedFields 0 β) : Ty α
  | tupleStruct {α β : Type} (e : α ≃ β) (fields : TupleFields β) : Ty α
  | unitStruct {α : Type} (e : α ≃ Unit) : Ty α
  | enum {α β : Type} {p : Prim} {selectors : List (BitVec p.bits)} (e : α ≃ β)
      (variants : Variants p selectors β) : Ty α
  | selectorApart {α β γ δ : Type} {p : Prim} {selectors : List (BitVec p.bits)}
      (e : α ≃ β × γ × δ) (before : TupleFields β) (after : TupleFields γ)
      (variants : Variants p selectors δ) : Ty α

/-- Named fields after `n` integer fields that a length attribute can name; index `0`
is the last of them. Such a field is unsigned and no wider than `usize`. -/
inductive NamedFields : ℕ → Type → Type 1
  | nil {n : ℕ} : NamedFields n Unit
  | field {n : ℕ} {α β : Type} (ty : Ty α) (rest : NamedFields n β) : NamedFields n (α × β)
  | length {n : ℕ} {β : Type} (p : Prim) (unsigned : p.unsigned = true)
      (rest : NamedFields (n + 1) β) : NamedFields n (BitVec p.bits × β)
  | array {n : ℕ} {α β : Type} (entryType : Ty α) (default : α) (maxSize : ℕ)
      (rest : NamedFields n β) : NamedFields n (List.Vector α maxSize × β)
  | lengthArray {n : ℕ} {α β : Type} (length : Fin n) (entryType : Ty α) (default : α)
      (maxSize : ℕ) (rest : NamedFields n β) : NamedFields n (List.Vector α maxSize × β)

/-- The fields of a tuple struct or of an enum variant. -/
inductive TupleFields : Type → Type 1
  | nil : TupleFields Unit
  | cons {α β : Type} (ty : Ty α) (rest : TupleFields β) : TupleFields (α × β)

/-- The variants of an enum with distinct selectors of the primitive type `p`. -/
inductive Variants : (p : Prim) → List (BitVec p.bits) → Type → Type 1
  | nil {p : Prim} : Variants p [] Empty
  | cons {p : Prim} {selectors : List (BitVec p.bits)} {α β : Type} (selector : BitVec p.bits)
      (fresh : selector ∉ selectors) (fields : TupleFields α) (rest : Variants p selectors β) :
      Variants p (selector :: selectors) (α ⊕ β)

end

/-- `for i in 0..n { written += self.entries[i].try_marshal(&mut buffer[written..])?; }` -/
def marshalEntries {α : Type} (tryMarshal : α → MarshalM ℕ) : List α → ℕ → ℕ → MarshalM ℕ
  | _, 0, written => pure written
  -- the index is past the end of the array
  | [], _ + 1, _ => abort
  | x :: xs, n + 1, written => do
    let written ← advance written (tryMarshal x)
    marshalEntries tryMarshal xs n written

/-- `for i in entries.iter_mut().take(n) { *i = try_unmarshal(buffer)?; }` -/
def unmarshalEntries {α : Type} (tryUnmarshal : UnmarshalM α) :
    {m : ℕ} → ℕ → List.Vector α m → UnmarshalM (List.Vector α m)
  | 0, _, entries => pure entries
  | _ + 1, 0, entries => pure entries
  | _ + 1, n + 1, entries => do
    let x ← tryUnmarshal
    let xs ← unmarshalEntries tryUnmarshal n entries.tail
    pure (x ::ᵥ xs)

/-- The selector of the variant that a value is in. -/
def Variants.discriminant : {p : Prim} → {selectors : List (BitVec p.bits)} → {β : Type} →
    Variants p selectors β → β → BitVec p.bits
  | _, _, _, .cons selector _ _ _, .inl _ => selector
  | _, _, _, .cons _ _ _ rest, .inr v => rest.discriminant v

mutual

def Ty.tryMarshal : {α : Type} → Ty α → α → MarshalM ℕ
  | _, .prim p, self => p.tryMarshal self
  | _, .unit, _ => pure 0
  | _, .byteArray _, self => ByteArray.tryMarshal self
  | _, .tpm2bSimple _, self => self.tryMarshal
  | _, .namedStruct e fields, self => fields.marshal Fin.elim0 (e self) 0
  | _, .tupleStruct e fields, self => fields.marshal (e self) 0
  | _, .unitStruct _, _ => pure 0
  | _, .enum (p := p) e variants, self => do
    let written ← advance 0 (p.tryMarshal (variants.discriminant (e self)))
    advance written (variants.tryMarshalVariant (e self))
  | _, .selectorApart (p := p) e before after variants, self => do
    let written ← before.marshal (e self).1 0
    let written ← advance written (p.tryMarshal (variants.discriminant (e self).2.2))
    let written ← after.marshal (e self).2.1 written
    advance written (variants.tryMarshalVariant (e self).2.2)

/-- `get_named_fields_marshal`; `lengths` holds the values of the integer fields seen. -/
def NamedFields.marshal : {n : ℕ} → {β : Type} → NamedFields n β → (Fin n → ℕ) → β → ℕ →
    MarshalM ℕ
  | _, _, .nil, _, _, written => pure written
  | _, _, .field ty rest, lengths, (v, vs), written => do
    let written ← advance written (ty.tryMarshal v)
    rest.marshal lengths vs written
  | _, _, .length p _ rest, lengths, (v, vs), written => do
    let written ← advance written (p.tryMarshal v)
    rest.marshal (Fin.cons v.toNat lengths) vs written
  | _, _, .array entryType _ maxSize rest, lengths, (xs, vs), written => do
    let written ← marshalEntries entryType.tryMarshal xs.toList maxSize written
    rest.marshal lengths vs written
  | _, _, .lengthArray length entryType _ _ rest, lengths, (xs, vs), written => do
    let written ← marshalEntries entryType.tryMarshal xs.toList (lengths length) written
    rest.marshal lengths vs written

def TupleFields.marshal : {β : Type} → TupleFields β → β → ℕ → MarshalM ℕ
  | _, .nil, _, written => pure written
  | _, .cons ty rest, (v, vs), written => do
    let written ← advance written (ty.tryMarshal v)
    rest.marshal vs written

def Variants.tryMarshalVariant : {p : Prim} → {selectors : List (BitVec p.bits)} → {β : Type} →
    Variants p selectors β → β → MarshalM ℕ
  | _, _, _, .cons _ _ fields _, .inl v => fields.marshal v 0
  | _, _, _, .cons _ _ _ rest, .inr v => rest.tryMarshalVariant v

end

mutual

def Ty.tryUnmarshal : {α : Type} → Ty α → UnmarshalM α
  | _, .prim p => p.tryUnmarshal
  | _, .unit => pure ()
  | _, .byteArray m => ByteArray.tryUnmarshal m
  | _, .tpm2bSimple maxBufferSize => Tpm2b.tryUnmarshal maxBufferSize
  | _, .namedStruct e fields => do
    let fields ← fields.unmarshal Fin.elim0
    pure (e.symm fields)
  | _, .tupleStruct e fields => do
    let fields ← fields.unmarshal
    pure (e.symm fields)
  | _, .unitStruct e => pure (e.symm ())
  | _, .enum (p := p) e variants => do
    let selector ← p.tryUnmarshal
    let v ← variants.tryUnmarshalVariant selector
    pure (e.symm v)
  | _, .selectorApart (p := p) e before after variants => do
    let before ← before.unmarshal
    let selector ← p.tryUnmarshal
    let after ← after.unmarshal
    let v ← variants.tryUnmarshalVariant selector
    pure (e.symm (before, after, v))

/-- `get_named_fields_unmarshal`. -/
def NamedFields.unmarshal : {n : ℕ} → {β : Type} → NamedFields n β → (Fin n → ℕ) → UnmarshalM β
  | _, _, .nil, _ => pure ()
  | _, _, .field ty rest, lengths => do
    let v ← ty.tryUnmarshal
    let vs ← rest.unmarshal lengths
    pure (v, vs)
  | _, _, .length p _ rest, lengths => do
    let v ← p.tryUnmarshal
    let vs ← rest.unmarshal (Fin.cons v.toNat lengths)
    pure (v, vs)
  | _, _, .array entryType default maxSize rest, lengths => do
    let xs ← unmarshalEntries entryType.tryUnmarshal maxSize (.replicate maxSize default)
    let vs ← rest.unmarshal lengths
    pure (xs, vs)
  | _, _, .lengthArray length entryType default maxSize rest, lengths =>
    if lengths length > maxSize then fail .size
    else do
      let xs ← unmarshalEntries entryType.tryUnmarshal (lengths length) (.replicate maxSize default)
      let vs ← rest.unmarshal lengths
      pure (xs, vs)

def TupleFields.unmarshal : {β : Type} → TupleFields β → UnmarshalM β
  | _, .nil => pure ()
  | _, .cons ty rest => do
    let v ← ty.tryUnmarshal
    let vs ← rest.unmarshal
    pure (v, vs)

/-- The first variant whose selector matches is decoded. -/
def Variants.tryUnmarshalVariant : {p : Prim} → {selectors : List (BitVec p.bits)} → {β : Type} →
    Variants p selectors β → BitVec p.bits → UnmarshalM β
  | _, _, _, .nil, _ => fail .selector
  | _, _, _, .cons selector' _ fields rest, selector =>
    if selector = selector' then do
      let v ← fields.unmarshal
      pure (.inl v)
    else do
      let v ← rest.tryUnmarshalVariant selector
      pure (.inr v)

end

/-- The `Marshalable` trait. -/
class Marshalable (α : Type) where
  tryUnmarshal : UnmarshalM α
  tryMarshal : α → MarshalM ℕ

/-- The implementation that a description stands for. -/
@[reducible] def Ty.marshalable {α : Type} (t : Ty α) : Marshalable α where
  tryUnmarshal := t.tryUnmarshal
  tryMarshal := t.tryMarshal

instance : Marshalable Unit := Ty.unit.marshalable

end TpmRs
