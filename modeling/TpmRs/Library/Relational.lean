import TpmRs.Library.Service
import TpmRs.Library.Slice

/-!
# Two runs side by side

Two computations are related when from related states they end alike: with related values
or with the same fault, and in related states again. Related parts make related wholes, so
two implementations of which no call can be told apart are told apart by no client.
-/

namespace TpmRs.Library.Fallible

variable {ε σ τ υ α α' β β' : Type}

/-- The results are of one kind and related. -/
def EndAlike (R : α → β → Prop) (rel : σ → τ → Prop) :
    EStateM.Result (Fault ε) σ α → EStateM.Result (Fault ε) τ β → Prop
  | .ok a s, .ok b t => R a b ∧ rel s t
  | .error e s, .error e' t => e = e' ∧ rel s t
  | _, _ => False

/-- From related states both end alike. -/
structure Related (rel : σ → τ → Prop) (R : α → β → Prop) (x : Fallible ε σ α)
    (y : Fallible ε τ β) : Prop where
  endAlike {s : σ} {t : τ} (h : rel s t) : EndAlike R rel (x.run s) (y.run t)

namespace Related

variable {rel : σ → τ → Prop} {R : α → β → Prop} {R' : α' → β' → Prop}
  {x : Fallible ε σ α} {y : Fallible ε τ β}

theorem pure {a : α} {b : β} (h : R a b) :
    Related rel R (pure a : Fallible ε σ α) (pure b) :=
  ⟨fun hst => ⟨h, hst⟩⟩

/-- The two ways of ending alike. -/
theorem ok_or_error (h : Related rel R x y) {s : σ} {t : τ} (hst : rel s t) :
    (∃ a b s' t', x.run s = .ok a s' ∧ y.run t = .ok b t' ∧ R a b ∧ rel s' t') ∨
      ∃ e s' t', x.run s = .error e s' ∧ y.run t = .error e t' ∧ rel s' t' := by
  have hend := h.endAlike hst
  cases hs : x.run s with
  | ok a s' =>
    cases ht : y.run t with
    | ok b t' =>
      rw [hs, ht] at hend
      exact .inl ⟨a, b, s', t', rfl, rfl, hend.1, hend.2⟩
    | error e t' =>
      rw [hs, ht] at hend
      exact hend.elim
  | error e s' =>
    cases ht : y.run t with
    | ok b t' =>
      rw [hs, ht] at hend
      exact hend.elim
    | error e' t' =>
      rw [hs, ht] at hend
      obtain ⟨rfl, hrel⟩ := hend
      exact .inr ⟨e, s', t', rfl, rfl, hrel⟩

theorem bind {f : α → Fallible ε σ α'} {g : β → Fallible ε τ β'} (hx : Related rel R x y)
    (hf : ∀ a b, R a b → Related rel R' (f a) (g b)) : Related rel R' (x >>= f) (y >>= g) := by
  constructor
  intro s t hst
  rcases hx.ok_or_error hst with ⟨a, b, s', t', hs, ht, hab, hrel⟩ | ⟨e, s', t', hs, ht, hrel⟩
  · rw [run_bind_of_ok hs, run_bind_of_ok ht]
    exact (hf a b hab).endAlike hrel
  · rw [run_bind_of_error hs, run_bind_of_error ht]
    exact ⟨rfl, hrel⟩

theorem onLocal (u : υ) (z : Fallible ε υ α) :
    Related rel Eq (onLocal u z : Fallible ε σ (α × υ)) (Fallible.onLocal u z) := by
  constructor
  intro s t hst
  cases h : z.run u with
  | ok a u' =>
    rw [run_onLocal_of_ok h, run_onLocal_of_ok h]
    exact ⟨rfl, hst⟩
  | error e u' =>
    rw [run_onLocal_of_error h, run_onLocal_of_error h]
    exact ⟨rfl, hst⟩

theorem sliceTo (xs : List υ) (n : ℕ) :
    Related rel Eq (Slice.sliceTo xs n : Fallible ε σ (List υ)) (Slice.sliceTo xs n) := by
  constructor
  intro s t hst
  unfold Slice.sliceTo
  split_ifs
  · exact ⟨rfl, hst⟩
  · exact ⟨rfl, hst⟩

theorem attempt {y : Fallible ε τ α} (h : Related rel Eq x y) :
    Related rel Eq (attempt x) (Fallible.attempt y) := by
  constructor
  intro s t hst
  rcases h.ok_or_error hst with ⟨a, _, s', t', hs, ht, rfl, hrel⟩ | ⟨e, s', t', hs, ht, hrel⟩
  · rw [run_attempt_of_ok hs, run_attempt_of_ok ht]
    exact ⟨rfl, hrel⟩
  · cases e with
    | err e =>
      rw [run_attempt_of_err hs, run_attempt_of_err ht]
      exact ⟨rfl, hrel⟩
    | panic =>
      rw [run_attempt_of_panic hs, run_attempt_of_panic ht]
      exact ⟨rfl, hrel⟩

/-- The induction is on the client, for all pairs of related states at once. -/
theorem client {ι : Type} {Q : ι → Type} {impl : (i : ι) → Fallible ε σ (Q i)}
    {impl' : (i : ι) → Fallible ε τ (Q i)} (h : ∀ i, Related rel Eq (impl i) (impl' i))
    (program : Client ι Q α) : Related rel Eq (program.run impl) (program.run impl') := by
  induction program with
  | done a => exact pure rfl
  | call i next ih =>
    apply (h i).bind
    rintro r _ rfl
    exact ih r

end Related
end TpmRs.Library.Fallible
