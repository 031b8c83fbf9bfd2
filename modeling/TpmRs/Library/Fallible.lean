import Mathlib.Tactic

/-!
# Stateful computations that may fail or abort

A computation threads a state and ends in one of three ways: it returns a value,
it returns an error that its caller can handle, or it panics. The state reached is
kept in all three cases, so a partial write before a failure stays visible.
The lemmas invert sequencing once, so that later proofs never unfold a `do` block
down to its branches.
-/

namespace TpmRs.Library

/-- The two ways of not returning a value. -/
inductive Fault (ε : Type) where
  | err (e : ε)
  | panic
  deriving DecidableEq

/-- A computation over the state `σ` with errors in `ε`. -/
abbrev Fallible (ε σ : Type) := EStateM (Fault ε) σ

namespace Fallible

variable {ε ε' σ τ α β : Type}

/-- Return the error `e` to the caller. -/
def fail (e : ε) : Fallible ε σ α := throw (.err e)

/-- Abort. -/
def abort : Fallible ε σ α := throw .panic

@[simp] theorem run_fail (e : ε) (s : σ) :
    (fail e : Fallible ε σ α).run s = .error (.err e) s := rfl

@[simp] theorem run_abort (s : σ) : (abort : Fallible ε σ α).run s = .error .panic s := rfl

@[simp] theorem run_map (f : α → β) (x : Fallible ε σ α) (s : σ) :
    (f <$> x).run s = match x.run s with
      | .ok a s' => .ok (f a) s'
      | .error e s' => .error e s' := by
  change EStateM.map f x s = _
  unfold EStateM.map EStateM.run
  cases x s <;> rfl

theorem run_bind_of_ok {x : Fallible ε σ α} {f : α → Fallible ε σ β} {s s' : σ} {a : α}
    (h : x.run s = .ok a s') : (x >>= f).run s = (f a).run s' := by
  simp [h]

theorem run_bind_of_error {x : Fallible ε σ α} {f : α → Fallible ε σ β} {s s' : σ}
    {e : Fault ε} (h : x.run s = .error e s') : (x >>= f).run s = .error e s' := by
  simp [h]

theorem run_bind_eq_ok_iff {x : Fallible ε σ α} {f : α → Fallible ε σ β} {s t : σ} {b : β} :
    (x >>= f).run s = .ok b t ↔ ∃ a s', x.run s = .ok a s' ∧ (f a).run s' = .ok b t := by
  cases h : x.run s with
  | ok a s' => simp [h]
  | error e s' => simp [h]

theorem run_seq_eq_ok_iff {x : Fallible ε σ Unit} {f : Unit → Fallible ε σ β} {s t : σ} {b : β} :
    (x >>= f).run s = .ok b t ↔ ∃ s', x.run s = .ok () s' ∧ (f ()).run s' = .ok b t :=
  run_bind_eq_ok_iff.trans ⟨fun ⟨_, h⟩ => h, fun h => ⟨(), h⟩⟩

theorem run_bind_eq_error_iff {x : Fallible ε σ α} {f : α → Fallible ε σ β} {s t : σ}
    {e : Fault ε} :
    (x >>= f).run s = .error e t ↔
      x.run s = .error e t ∨ ∃ a s', x.run s = .ok a s' ∧ (f a).run s' = .error e t := by
  cases h : x.run s with
  | ok a s' => simp [h]
  | error e s' => simp [h]

/-- Never aborts, from any state. -/
def PanicFree (x : Fallible ε σ α) : Prop := ∀ s t, x.run s ≠ .error .panic t

theorem PanicFree.pure (a : α) : PanicFree (pure a : Fallible ε σ α) := by
  intro s t h
  cases h

theorem PanicFree.fail (e : ε) : PanicFree (fail e : Fallible ε σ α) := by
  intro s t h
  cases h

theorem PanicFree.bind {x : Fallible ε σ α} {f : α → Fallible ε σ β}
    (hx : PanicFree x) (hf : ∀ a, PanicFree (f a)) : PanicFree (x >>= f) := by
  intro s t h
  rcases run_bind_eq_error_iff.mp h with h | ⟨a, s', _, h⟩
  · exact hx s t h
  · exact hf a s' t h

/-- Convert the errors of a computation; a panic stays a panic. -/
def mapErr (g : ε → ε') (x : Fallible ε σ α) : Fallible ε' σ α :=
  EStateM.adaptExcept (fun | .err e => .err (g e) | .panic => .panic) x

theorem run_mapErr_of_ok {g : ε → ε'} {x : Fallible ε σ α} {s s' : σ} {a : α}
    (h : x.run s = .ok a s') : (mapErr g x).run s = .ok a s' := by
  simp [mapErr, EStateM.run_adaptExcept, h]

theorem run_mapErr_of_err {g : ε → ε'} {x : Fallible ε σ α} {s s' : σ} {e : ε}
    (h : x.run s = .error (.err e) s') : (mapErr g x).run s = .error (.err (g e)) s' := by
  simp [mapErr, EStateM.run_adaptExcept, h]

theorem run_mapErr_of_panic {g : ε → ε'} {x : Fallible ε σ α} {s s' : σ}
    (h : x.run s = .error .panic s') : (mapErr g x).run s = .error .panic s' := by
  simp [mapErr, EStateM.run_adaptExcept, h]

theorem run_mapErr_eq_ok_iff {g : ε → ε'} {x : Fallible ε σ α} {s s' : σ} {a : α} :
    (mapErr g x).run s = .ok a s' ↔ x.run s = .ok a s' := by
  cases h : x.run s <;> simp [mapErr, EStateM.run_adaptExcept, h]

theorem mapErr_bind (g : ε → ε') (x : Fallible ε σ α) (f : α → Fallible ε σ β) :
    mapErr g (x >>= f) = mapErr g x >>= fun a => mapErr g (f a) := by
  funext s
  change (mapErr g (x >>= f)).run s = (mapErr g x >>= fun a => mapErr g (f a)).run s
  cases h : x.run s with
  | ok a s' => simp [mapErr, EStateM.run_adaptExcept, h]
  | error e s' => simp [mapErr, EStateM.run_adaptExcept, h]

theorem PanicFree.mapErr {g : ε → ε'} {x : Fallible ε σ α} (hx : PanicFree x) :
    PanicFree (mapErr g x) := by
  intro s t h
  cases hr : x.run s with
  | ok a s' => simp [run_mapErr_of_ok hr] at h
  | error e s' =>
    cases e with
    | err e => simp [run_mapErr_of_err hr] at h
    | panic => exact hx s s' hr

/-- Run a computation over a local state, which it returns with its value. -/
def onLocal (s : σ) (x : Fallible ε σ α) : Fallible ε τ (α × σ) := fun t =>
  match x.run s with
  | .ok a s' => .ok (a, s') t
  | .error e _ => .error e t

/-- A computation that does not use the state. -/
def fromExcept (x : Except (Fault ε) α) : Fallible ε σ α := fun t =>
  match x with
  | .ok a => .ok a t
  | .error e => .error e t

theorem run_onLocal_of_ok {s s' : σ} {x : Fallible ε σ α} {a : α} (h : x.run s = .ok a s')
    (t : τ) : (onLocal s x).run t = .ok (a, s') t := by
  change onLocal s x t = _
  simp [onLocal, h]

theorem run_onLocal_of_error {s s' : σ} {x : Fallible ε σ α} {e : Fault ε}
    (h : x.run s = .error e s') (t : τ) :
    (onLocal s x : Fallible ε τ (α × σ)).run t = .error e t := by
  change onLocal s x t = _
  simp [onLocal, h]

theorem run_onLocal_eq_ok_iff {s s' : σ} {x : Fallible ε σ α} {a : α} {t t' : τ} :
    (onLocal s x).run t = .ok (a, s') t' ↔ x.run s = .ok a s' ∧ t = t' := by
  cases h : x.run s with
  | ok b s'' => simp [run_onLocal_of_ok h, and_assoc]
  | error e s'' => simp [run_onLocal_of_error h]

theorem PanicFree.onLocal {x : Fallible ε σ α} (hx : PanicFree x) (s : σ) :
    PanicFree (onLocal s x : Fallible ε τ (α × σ)) := by
  intro t t' h
  cases hr : x.run s with
  | ok a s' => simp [run_onLocal_of_ok hr] at h
  | error e s' =>
    rw [run_onLocal_of_error hr, EStateM.Result.error.injEq] at h
    exact hx s s' (h.1 ▸ hr)

@[simp] theorem run_fromExcept_ok (a : α) (t : σ) :
    (fromExcept (.ok a) : Fallible ε σ α).run t = .ok a t := rfl

@[simp] theorem run_fromExcept_error (e : Fault ε) (t : σ) :
    (fromExcept (.error e) : Fallible ε σ α).run t = .error e t := rfl

theorem run_fromExcept_eq_ok_iff {x : Except (Fault ε) α} {a : α} {t t' : σ} :
    (fromExcept x).run t = .ok a t' ↔ x = .ok a ∧ t = t' := by
  cases x <;> simp

theorem PanicFree.fromExcept {x : Except (Fault ε) α} (h : x ≠ .error .panic) :
    PanicFree (fromExcept x : Fallible ε σ α) := by
  intro t t' hrun
  cases x with
  | ok a => simp at hrun
  | error e =>
    rw [run_fromExcept_error, EStateM.Result.error.injEq] at hrun
    exact h (congrArg _ hrun.1)

/-- Run a computation on the first part of the state. -/
def onFst (x : Fallible ε σ α) : Fallible ε (σ × τ) α := fun (s, t) =>
  match x.run s with
  | .ok a s' => .ok a (s', t)
  | .error e s' => .error e (s', t)

theorem run_onFst_of_ok {x : Fallible ε σ α} {s s' : σ} {a : α} (h : x.run s = .ok a s') (t : τ) :
    (onFst x).run (s, t) = .ok a (s', t) := by
  change onFst x (s, t) = _
  simp [onFst, h]

theorem run_onFst_of_error {x : Fallible ε σ α} {s s' : σ} {e : Fault ε}
    (h : x.run s = .error e s') (t : τ) : (onFst x).run (s, t) = .error e (s', t) := by
  change onFst x (s, t) = _
  simp [onFst, h]

/-- The state that a computation ends in, however it ends. -/
def finalState : EStateM.Result (Fault ε) σ α → σ
  | .ok _ s => s
  | .error _ s => s

/-- Leaves every state as it is. -/
def KeepsState (x : Fallible ε σ α) : Prop := ∀ s, finalState (x.run s) = s

theorem KeepsState.eq_of_ok {x : Fallible ε σ α} (hx : KeepsState x) {s s' : σ} {a : α}
    (h : x.run s = .ok a s') : s' = s := by
  have hs := hx s
  rwa [h] at hs

theorem KeepsState.eq_of_error {x : Fallible ε σ α} (hx : KeepsState x) {s s' : σ} {e : Fault ε}
    (h : x.run s = .error e s') : s' = s := by
  have hs := hx s
  rwa [h] at hs

theorem KeepsState.pure (a : α) : KeepsState (pure a : Fallible ε σ α) := fun _ => rfl

theorem KeepsState.fail (e : ε) : KeepsState (fail e : Fallible ε σ α) := fun _ => rfl

theorem KeepsState.abort : KeepsState (abort : Fallible ε σ α) := fun _ => rfl

theorem KeepsState.onLocal (s : τ) (x : Fallible ε τ α) :
    KeepsState (onLocal s x : Fallible ε σ (α × τ)) := by
  intro t
  cases h : x.run s with
  | ok a s' => rw [run_onLocal_of_ok h, finalState]
  | error e s' => rw [run_onLocal_of_error h, finalState]

theorem KeepsState.bind {x : Fallible ε σ α} {f : α → Fallible ε σ β} (hx : KeepsState x)
    (hf : ∀ a, KeepsState (f a)) : KeepsState (x >>= f) := by
  intro s
  cases h : x.run s with
  | ok a s' =>
    obtain rfl := hx.eq_of_ok h
    rw [run_bind_of_ok h]
    exact hf a s'
  | error e s' =>
    obtain rfl := hx.eq_of_error h
    rw [run_bind_of_error h, finalState]

end Fallible

end TpmRs.Library
