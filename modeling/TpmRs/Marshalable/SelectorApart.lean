import TpmRs.Marshalable.Exact

/-!
# Selectors stored apart

Besides `Marshalable`, the derive gives an enum its discriminant and a marshaler and an
unmarshaler of the variant alone, so that a struct can write the selector elsewhere. An
implementation written by hand in terms of these is exact when it decodes what it
encodes, and reports an unknown selector once everything before the variant is read.
-/

namespace TpmRs

open Library Library.Fallible

variable {α β : Type} {selectors : List U16}

/-- What `get_enum_impl` generates for an enum with a `u16` selector. -/
structure EnumImpl (α β : Type) (selectors : List U16) where
  variants : α ≃ β
  payloads : Variants .u16 selectors β

namespace EnumImpl

def discriminant (impl : EnumImpl α β selectors) (self : α) : U16 :=
  impl.payloads.discriminant (impl.variants self)

def tryMarshalVariant (impl : EnumImpl α β selectors) (self : α) : MarshalM ℕ :=
  impl.payloads.tryMarshalVariant (impl.variants self)

def tryUnmarshalVariant (impl : EnumImpl α β selectors) (selector : U16) : UnmarshalM α := do
  let v ← impl.payloads.tryUnmarshalVariant selector
  pure (impl.variants.symm v)

def WellFormed (impl : EnumImpl α β selectors) (self : α) : Prop :=
  impl.payloads.WellFormed (impl.variants self)

/-- The encoding of the variant without its selector. -/
def encVariant (impl : EnumImpl α β selectors) (self : α) : List U8 :=
  Chunk.flat (impl.payloads.chunks (impl.variants self))

end EnumImpl

theorem Variants.run_tryUnmarshalVariant_of_notMem : {p : Prim} →
    {selectors : List (BitVec p.bits)} → {β : Type} → (variants : Variants p selectors β) →
    (selector : BitVec p.bits) → selector ∉ selectors → (b : List U8) →
    (variants.tryUnmarshalVariant selector).run b = .error (.err .selector) b
  | _, _, _, .nil, _, _, b => by rw [Variants.tryUnmarshalVariant, run_fail]
  | _, _, _, .cons selector' _ fields rest, selector, h, b => by
    rw [List.mem_cons, not_or] at h
    have hrest := rest.run_tryUnmarshalVariant_of_notMem selector h.2 b
    rw [Variants.tryUnmarshalVariant, if_neg h.1, run_bind_of_error hrest]

/-- A codec is exact: decoding never panics and accepts precisely the encodings of
well-formed values, encoding writes what decoding accepts, and an unknown selector is
reported when everything before the variant could be read. -/
structure SelectorApartExact (tryMarshal : α → MarshalM ℕ) (tryUnmarshal : UnmarshalM α)
    (wellFormed : α → Prop) (enc : α → List U8) (selectors : List U16)
    (readSelector : UnmarshalM U16) : Prop where
  decodes : Decodes tryUnmarshal wellFormed enc
  puts : ∀ v, wellFormed v → Puts (tryMarshal v) (enc v)
  run_of_notMem : ∀ b selector r, readSelector.run b = .ok selector r → selector ∉ selectors →
    tryUnmarshal.run b = .error (.err .selector) r

/-- Whatever has the effect of a description with its selector apart is exact. -/
theorem Ty.selectorApartExact {γ δ : Type} (e : α ≃ β × γ × δ) (before : TupleFields β)
    (after : TupleFields γ) (variants : Variants .u16 selectors δ) {readSelector : UnmarshalM U16}
    (hread : readSelector = do
      let _ ← before.unmarshal
      let selector ← Prim.u16.tryUnmarshal
      let _ ← after.unmarshal
      pure selector) :
    SelectorApartExact (Ty.selectorApart e before after variants).tryMarshal
      (Ty.selectorApart e before after variants).tryUnmarshal
      (Ty.selectorApart e before after variants).WellFormed
      (Ty.selectorApart e before after variants).enc selectors
      readSelector := by
  refine ⟨Ty.decodes _, fun v hv => Ty.puts_tryMarshal _ hv, ?_⟩
  intro b selector r h hnotMem
  rw [hread, run_bind_eq_ok_iff] at h
  obtain ⟨vs, s, hvs, h⟩ := h
  rw [run_bind_eq_ok_iff] at h
  obtain ⟨selector', t, hselector, h⟩ := h
  rw [run_bind_eq_ok_iff] at h
  obtain ⟨ws, u, hws, h⟩ := h
  obtain ⟨rfl, rfl⟩ : selector' = selector ∧ u = r := by simpa using h
  have hvariant := variants.run_tryUnmarshalVariant_of_notMem selector' hnotMem u
  rw [Ty.tryUnmarshal, run_bind_of_ok hvs, run_bind_of_ok hselector, run_bind_of_ok hws,
    run_bind_of_error hvariant]

end TpmRs
