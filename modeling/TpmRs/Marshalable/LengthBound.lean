import TpmRs.Library.Room
import TpmRs.Marshalable.Exact
import TpmRs.Marshalable.Layout

/-!
# The bound on length fields

The decoder rejects a length field that is larger than the array it governs. The encoder
does not look: its loop runs past the end of the array and aborts. With room in the
buffer there is no other way for it to fail, since the containers, whose fields are
private, are in bounds.
-/

namespace TpmRs

open Library Library.Fallible

mutual

/-- Every nested container satisfies `container` and every nested length field and the
size of its array are related by `bound`, in the unused entries of an array as well. -/
def Ty.Everywhere (container : (cap : ℕ) → Tpm2b cap → Prop) (bound : ℕ → ℕ → Prop) :
    {α : Type} → Ty α → α → Prop
  | _, .prim _, _ => True
  | _, .unit, _ => True
  | _, .byteArray _, _ => True
  | _, .tpm2bSimple cap, v => container cap v
  | _, .namedStruct e fields, v => fields.Everywhere container bound Fin.elim0 (e v)
  | _, .tupleStruct e fields, v => fields.Everywhere container bound (e v)
  | _, .unitStruct _, _ => True
  | _, .enum e variants, v => variants.Everywhere container bound (e v)
  | _, .selectorApart e before after variants, v =>
    before.Everywhere container bound (e v).1 ∧ after.Everywhere container bound (e v).2.1 ∧
      variants.Everywhere container bound (e v).2.2

def NamedFields.Everywhere (container : (cap : ℕ) → Tpm2b cap → Prop) (bound : ℕ → ℕ → Prop) :
    {n : ℕ} → {β : Type} → NamedFields n β → (Fin n → ℕ) → β → Prop
  | _, _, .nil, _, _ => True
  | _, _, .field ty rest, lengths, (v, vs) =>
    ty.Everywhere container bound v ∧ rest.Everywhere container bound lengths vs
  | _, _, .length _ _ rest, lengths, (v, vs) =>
    rest.Everywhere container bound (Fin.cons v.toNat lengths) vs
  | _, _, .array entryType _ _ rest, lengths, (xs, vs) =>
    (∀ x ∈ xs.toList, entryType.Everywhere container bound x) ∧
      rest.Everywhere container bound lengths vs
  | _, _, .lengthArray length entryType _ maxSize rest, lengths, (xs, vs) =>
    bound (lengths length) maxSize ∧ (∀ x ∈ xs.toList, entryType.Everywhere container bound x) ∧
      rest.Everywhere container bound lengths vs

def TupleFields.Everywhere (container : (cap : ℕ) → Tpm2b cap → Prop) (bound : ℕ → ℕ → Prop) :
    {β : Type} → TupleFields β → β → Prop
  | _, .nil, _ => True
  | _, .cons ty rest, (v, vs) =>
    ty.Everywhere container bound v ∧ rest.Everywhere container bound vs

def Variants.Everywhere (container : (cap : ℕ) → Tpm2b cap → Prop) (bound : ℕ → ℕ → Prop) :
    {p : Prim} → {selectors : List (BitVec p.bits)} → {β : Type} → Variants p selectors β → β → Prop
  | _, _, _, .cons _ _ fields _, .inl v => fields.Everywhere container bound v
  | _, _, _, .cons _ _ _ rest, .inr v => rest.Everywhere container bound v

end

/-- The nested containers are what their constructors make. -/
abbrev Ty.ContainersWellFormed {α : Type} : Ty α → α → Prop :=
  Ty.Everywhere (fun _ v => v.WellFormed) fun _ _ => True

/-- No length field exceeds the capacity of its array. -/
abbrev Ty.LengthsInBounds {α : Type} : Ty α → α → Prop :=
  Ty.Everywhere (fun _ _ => True) fun length maxSize => length ≤ maxSize

theorem settlesFrom_marshalEntries {α : Type} {tryMarshal : α → MarshalM ℕ} {ok : α → Prop}
    {size : ℕ} (xs : List α) (n : ℕ) (h : ∀ x ∈ xs, Settles (ok x) size (tryMarshal x)) :
    SettlesFrom (n ≤ xs.length ∧ ∀ x ∈ xs, ok x) (xs.length * size)
      (marshalEntries tryMarshal xs n) := by
  induction xs generalizing n with
  | nil =>
    cases n with
    | zero => exact SettlesFrom.pure.mono id (Nat.zero_le _)
    | succ n => exact .abort (by simp)
  | cons x xs ih =>
    cases n with
    | zero => exact SettlesFrom.pure.mono id (Nat.zero_le _)
    | succ n =>
      have hx := (h x (by simp)).advance
      have hxs := ih n fun y hy => h y (by simp [hy])
      apply (hx.bind hxs).mono
      · intro hok
        exact ⟨hok.2 x (by simp), by simpa using hok.1, fun y hy => hok.2 y (by simp [hy])⟩
      · rw [List.length_cons, Nat.succ_mul, Nat.add_comm]

theorem Ty.settles_of_wellFormed {α : Type} (t : Ty α) {v : α} (h : t.WellFormed v) {ok : Prop} :
    Settles ok t.sizeOf (t.tryMarshal v) := by
  rw [t.tryMarshal_eq_writeAll v h]
  exact Chunk.settles_writeAll _ _ (t.length_enc_le v h)

mutual

/-- With room for the value in memory the marshaler returns, or aborts over a length field. -/
theorem Ty.settles_tryMarshal : {α : Type} → (t : Ty α) → (v : α) → t.ContainersWellFormed v →
    Settles (t.LengthsInBounds v) t.sizeOf (t.tryMarshal v)
  | _, .prim p, v, _ => Ty.settles_of_wellFormed (.prim p) trivial
  | _, .unit, v, _ => Ty.settles_of_wellFormed .unit trivial
  | _, .byteArray m, v, _ => Ty.settles_of_wellFormed (.byteArray m) trivial
  | _, .tpm2bSimple cap, v, h => Ty.settles_of_wellFormed (.tpm2bSimple cap) h
  | _, .namedStruct e fields, v, h =>
    (fields.settlesFrom_marshal Fin.elim0 (e v) h).settles.mono id
      (Layout.sum_size_le_size_struct _)
  | _, .tupleStruct e fields, v, h =>
    (fields.settlesFrom_marshal (e v) h).settles.mono id (Layout.sum_size_le_size_struct _)
  | _, .unitStruct e, v, _ => Ty.settles_of_wellFormed (.unitStruct e) trivial
  | _, .enum (p := p) e variants, v, h => by
    have hsel : Settles True p.layout.size (p.tryMarshal (variants.discriminant (e v))) :=
      Ty.settles_of_wellFormed (.prim p) trivial
    have hvar := variants.settles_tryMarshalVariant (e v) h
    have hunion := Layout.add_maxSize_le_size_taggedUnion p.layout variants.layouts
    exact (hsel.advance.bind hvar.advance).settles.mono (fun hok => ⟨trivial, hok⟩) hunion
  | _, .selectorApart (p := p) e before after variants, v, h => by
    simp only [Ty.ContainersWellFormed, Ty.Everywhere] at h
    obtain ⟨hb, ha, hv⟩ := h
    have hbefore := before.settlesFrom_marshal (e v).1 hb
    have hsel : Settles True p.layout.size (p.tryMarshal (variants.discriminant (e v).2.2)) :=
      Ty.settles_of_wellFormed (.prim p) trivial
    have hafter := after.settlesFrom_marshal (e v).2.1 ha
    have hvar := variants.settles_tryMarshalVariant (e v).2.2 hv
    apply (hbefore.bind (hsel.advance.bind (hafter.bind hvar.advance))).settles.mono
    · intro hok
      simp only [Ty.LengthsInBounds, Ty.Everywhere] at hok
      exact ⟨hok.1, trivial, hok.2.1, hok.2.2⟩
    · exact Layout.sum_add_maxSize_le_size_struct _ _ _ _

theorem NamedFields.settlesFrom_marshal : {n : ℕ} → {β : Type} → (fields : NamedFields n β) →
    (lengths : Fin n → ℕ) → (v : β) →
    fields.Everywhere (fun _ v => v.WellFormed) (fun _ _ => True) lengths v →
    SettlesFrom (fields.Everywhere (fun _ _ => True) (fun length maxSize => length ≤ maxSize)
      lengths v) (fields.layouts.map Layout.size).sum (fields.marshal lengths v)
  | _, _, .nil, _, _, _ => SettlesFrom.pure
  | _, _, .field ty rest, lengths, (v, vs), h => by
    simp only [NamedFields.Everywhere] at h ⊢
    exact (ty.settles_tryMarshal v h.1).advance.bind (rest.settlesFrom_marshal lengths vs h.2)
  | _, _, .length p _ rest, lengths, (v, vs), h => by
    have hv : Settles True p.layout.size (p.tryMarshal v) :=
      Ty.settles_of_wellFormed (.prim p) trivial
    have hboth := hv.advance.bind (rest.settlesFrom_marshal _ vs h)
    exact hboth.mono (fun hok => ⟨trivial, hok⟩) le_rfl
  | _, _, .array entryType _ maxSize rest, lengths, (xs, vs), h => by
    simp only [NamedFields.Everywhere] at h ⊢
    have hxs := settlesFrom_marshalEntries xs.toList maxSize fun x hx =>
      entryType.settles_tryMarshal x (h.1 x hx)
    have hvs := rest.settlesFrom_marshal lengths vs h.2
    apply (hxs.bind hvs).mono
    · intro hok
      exact ⟨⟨by simp, hok.1⟩, hok.2⟩
    · simp [NamedFields.layouts, Layout.array, Ty.sizeOf]
  | _, _, .lengthArray length entryType _ maxSize rest, lengths, (xs, vs), h => by
    simp only [NamedFields.Everywhere] at h ⊢
    have hxs := settlesFrom_marshalEntries xs.toList (lengths length) fun x hx =>
      entryType.settles_tryMarshal x (h.2.1 x hx)
    have hvs := rest.settlesFrom_marshal lengths vs h.2.2
    apply (hxs.bind hvs).mono
    · intro hok
      exact ⟨⟨by simpa using hok.1, hok.2.1⟩, hok.2.2⟩
    · simp [NamedFields.layouts, Layout.array, Ty.sizeOf]

theorem TupleFields.settlesFrom_marshal : {β : Type} → (fields : TupleFields β) → (v : β) →
    fields.Everywhere (fun _ v => v.WellFormed) (fun _ _ => True) v →
    SettlesFrom (fields.Everywhere (fun _ _ => True) (fun length maxSize => length ≤ maxSize) v)
      (fields.layouts.map Layout.size).sum (fields.marshal v)
  | _, .nil, _, _ => SettlesFrom.pure
  | _, .cons ty rest, (v, vs), h => by
    simp only [TupleFields.Everywhere] at h ⊢
    exact (ty.settles_tryMarshal v h.1).advance.bind (rest.settlesFrom_marshal vs h.2)

theorem Variants.settles_tryMarshalVariant : {p : Prim} → {selectors : List (BitVec p.bits)} →
    {β : Type} → (variants : Variants p selectors β) → (v : β) →
    variants.Everywhere (fun _ v => v.WellFormed) (fun _ _ => True) v →
    Settles (variants.Everywhere (fun _ _ => True) (fun length maxSize => length ≤ maxSize) v)
      (Layout.maxSize variants.layouts) (variants.tryMarshalVariant v)
  | _, _, _, .cons _ _ fields _, .inl v, h =>
    (fields.settlesFrom_marshal v h).settles.mono id
      ((Layout.sum_size_le_size_struct _).trans (le_max_left _ _))
  | _, _, _, .cons _ _ _ rest, .inr v, h =>
    (rest.settles_tryMarshalVariant v h).mono id (le_max_right _ _)

end

end TpmRs
