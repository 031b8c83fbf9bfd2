import TpmRs.Library.Runs

/-!
# Clients of a service

A client is a tree of calls: which call comes next may depend on everything that the
earlier ones returned. A service is a state machine that answers calls. An implementation
that simulates the service one call at a time simulates it for every client, and makes the
calls that the client makes, in their order. A service may also fail to answer; then what is
seen of an implementation is the service exactly if every call of it is.
-/

namespace TpmRs.Library

open Fallible

inductive Client (ι : Type) (R : ι → Type) (α : Type) where
  | done (a : α)
  | call (i : ι) (next : R i → Client ι R α)

/-- What is returned for a call, and the state after it. -/
abbrev Service (ι : Type) (R : ι → Type) (τ : Type) := (i : ι) → τ → R i × τ

variable {ι : Type} {R : ι → Type} {ε σ τ α : Type}

namespace Client

def run (impl : (i : ι) → Fallible ε σ (R i)) : Client ι R α → Fallible ε σ α
  | done a => pure a
  | call i next => do
    let r ← impl i
    (next r).run impl

/-- The client against the service. -/
def eval (service : Service ι R τ) : Client ι R α → τ → α × τ
  | done a, t => (a, t)
  | call i next, t => (next (service i t).1).eval service (service i t).2

/-- The calls that the client makes, in order. -/
def calls (service : Service ι R τ) : Client ι R α → τ → List ι
  | done _, _ => []
  | call i next, t => i :: (next (service i t).1).calls service (service i t).2

end Client

/-- From related states, every call returns what the service returns. -/
def Simulates (impl : (i : ι) → Fallible ε σ (R i)) (service : Service ι R τ)
    (rel : σ → τ → Prop) : Prop :=
  ∀ i s t, rel s t →
    ∃ s', (impl i).run s = .ok (service i t).1 s' ∧ rel s' (service i t).2

/-- A service that keeps the calls it was asked. -/
def Service.logged (service : Service ι R τ) : Service ι R (τ × List ι) := fun i s =>
  ((service i s.1).1, (service i s.1).2, s.2 ++ [i])

theorem Client.eval_logged (service : Service ι R τ) (client : Client ι R α) (t : τ)
    (log : List ι) :
    client.eval service.logged (t, log) =
      ((client.eval service t).1, (client.eval service t).2, log ++ client.calls service t) := by
  induction client generalizing t log with
  | done a => rw [eval, eval, calls, List.append_nil]
  | call i next ih =>
    rw [eval, eval, calls]
    exact (ih _ _ _).trans (by rw [List.append_assoc, List.singleton_append]; rfl)

/-- The induction is on the client, and carries that the states are related. -/
theorem Simulates.exists_run {impl : (i : ι) → Fallible ε σ (R i)} {service : Service ι R τ}
    {rel : σ → τ → Prop} (h : Simulates impl service rel) (client : Client ι R α) {s : σ} {t : τ}
    (hst : rel s t) :
    ∃ s', (client.run impl).run s = .ok (client.eval service t).1 s' ∧
      rel s' (client.eval service t).2 := by
  induction client generalizing s t with
  | done a => exact ⟨s, rfl, hst⟩
  | call i next ih =>
    obtain ⟨s', hstep, hrel⟩ := h i s t hst
    obtain ⟨s'', hrest, hrel'⟩ := ih (service i t).1 hrel
    exact ⟨s'', (run_bind_of_ok hstep).trans hrest, hrel'⟩

/-- A computation through a view of its state: nothing is seen of one that does not return. -/
def observe {α : Type} (view : σ → τ) (x : Fallible ε σ α) (s : σ) : Option (α × τ) :=
  match x.run s with
  | .ok a s => some (a, view s)
  | .error _ _ => none

section

variable {α : Type} {view : σ → τ} {x : Fallible ε σ α} {s s' : σ} {a : α}

theorem observe_of_ok (h : x.run s = .ok a s') : observe view x s = some (a, view s') := by
  unfold observe
  rw [h]

theorem observe_of_not_returns (h : ¬Returns x s) : observe view x s = none := by
  obtain ⟨e, s', hrun⟩ := exists_error_of_not_returns h
  unfold observe
  rw [hrun]

end

/-- The client against a service that may fail to answer. -/
def Client.evalPartial (service : (i : ι) → τ → Option (R i × τ)) {α : Type} :
    Client ι R α → τ → Option (α × τ)
  | done a, t => some (a, t)
  | call i next, t => (service i t).bind fun (r, t) => (next r).evalPartial service t

theorem Client.observe_run {impl : (i : ι) → Fallible ε σ (R i)} {view : σ → τ}
    {service : (i : ι) → τ → Option (R i × τ)}
    (h : ∀ i s, observe view (impl i) s = service i (view s)) {α : Type}
    (client : Client ι R α) (s : σ) :
    observe view (client.run impl) s = client.evalPartial service (view s) := by
  induction client generalizing s with
  | done a => rfl
  | call i next ih =>
    rw [evalPartial, ← h i s]
    cases hrun : (impl i).run s with
    | ok r s' =>
      rw [observe_of_ok hrun, Option.bind_some]
      refine Eq.trans ?_ (ih r s')
      unfold observe
      rw [run, run_bind_of_ok hrun]
    | error e s' =>
      rw [observe_of_not_returns (not_returns_of_error hrun), Option.bind_none]
      exact observe_of_not_returns (not_returns_of_error (run_bind_of_error hrun))

end TpmRs.Library
