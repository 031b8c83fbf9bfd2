import TpmRs.Library.Fallible

/-!
# Runs

Whether a computation returns, and what holds at every step of a run. A run takes one
step for each input, each from the state that the step before it left, and ends at the
first fault.
-/

namespace TpmRs.Library.Fallible

variable {ε ε' σ τ ι α β : Type}

/-- From the state `s`, `x` returns a value. -/
def Returns (x : Fallible ε σ α) (s : σ) : Prop := ∃ a s', x.run s = .ok a s'

section

variable {x : Fallible ε σ α} {s s' : σ} {a : α} {e : Fault ε}

theorem returns_of_ok (h : x.run s = .ok a s') : Returns x s := ⟨a, s', h⟩

theorem not_returns_of_error (h : x.run s = .error e s') : ¬Returns x s := by
  intro hret
  rcases hret with ⟨a, s'', hrun⟩
  rw [h] at hrun
  cases hrun

theorem exists_error_of_not_returns (h : ¬Returns x s) : ∃ e s', x.run s = .error e s' := by
  cases hrun : x.run s with
  | ok a s' => exact absurd (returns_of_ok hrun) h
  | error e s' => exact ⟨e, s', rfl⟩

theorem returns_congr {y : Fallible ε σ α} (h : x.run s = y.run s') :
    Returns x s ↔ Returns y s' := by
  unfold Returns
  rw [h]

theorem returns_bind_of_ok {f : α → Fallible ε σ β} (h : x.run s = .ok a s') :
    Returns (x >>= f) s ↔ Returns (f a) s' := by
  unfold Returns
  rw [run_bind_of_ok h]

theorem Returns.of_bind {f : α → Fallible ε σ β} (h : Returns (x >>= f) s) : Returns x s := by
  rcases h with ⟨b, t, h⟩
  obtain ⟨a, s', hrun, -⟩ := run_bind_eq_ok_iff.mp h
  exact returns_of_ok hrun

theorem returns_mapErr_iff {g : ε → ε'} : Returns (mapErr g x) s ↔ Returns x s :=
  exists_congr fun _ => exists_congr fun _ => run_mapErr_eq_ok_iff

theorem returns_onFst_iff {t : τ} : Returns (onFst x) (s, t) ↔ Returns x s := by
  cases h : x.run s with
  | ok a s' => exact iff_of_true (returns_of_ok (run_onFst_of_ok h t)) (returns_of_ok h)
  | error e s' =>
    exact iff_of_false (not_returns_of_error (run_onFst_of_error h t)) (not_returns_of_error h)

end

/-- `P` holds of every input in the state in which the run takes its step. -/
def AlongRun (step : ι → Fallible ε σ α) (P : ι → σ → Prop) : List ι → σ → Prop
  | [], _ => True
  | i :: is, s => P i s ∧ ∀ a s', (step i).run s = .ok a s' → AlongRun step P is s'

section

variable {step : ι → Fallible ε σ α} {P Q : ι → σ → Prop}

theorem alongRun_cons_of_ok {i : ι} {is : List ι} {s s' : σ} {a : α}
    (h : (step i).run s = .ok a s') :
    AlongRun step P (i :: is) s ↔ P i s ∧ AlongRun step P is s' := by
  refine and_congr_right fun _ => ?_
  constructor
  · intro hrest
    exact hrest a s' h
  · intro hrest b t ht
    rw [h] at ht
    cases ht
    exact hrest

theorem AlongRun.imp (h : ∀ i s, P i s → Q i s) {is : List ι} {s : σ}
    (hP : AlongRun step P is s) : AlongRun step Q is s := by
  induction is generalizing s with
  | nil => trivial
  | cons i is ih => exact ⟨h i s hP.1, fun a s' hrun => ih (hP.2 a s' hrun)⟩

theorem alongRun_congr (h : ∀ i s, P i s ↔ Q i s) (is : List ι) (s : σ) :
    AlongRun step P is s ↔ AlongRun step Q is s :=
  ⟨.imp fun i s => (h i s).mp, .imp fun i s => (h i s).mpr⟩

theorem alongRun_and (is : List ι) (s : σ) :
    AlongRun step (fun i s => P i s ∧ Q i s) is s ↔
      AlongRun step P is s ∧ AlongRun step Q is s := by
  constructor
  · intro h
    exact ⟨h.imp fun _ _ => And.left, h.imp fun _ _ => And.right⟩
  · intro h
    induction is generalizing s with
    | nil => trivial
    | cons i is ih =>
      exact ⟨⟨h.1.1, h.2.1⟩, fun a s' hrun => ih s' ⟨h.1.2 a s' hrun, h.2.2 a s' hrun⟩⟩

end

/-- Return the error of a computation as a value. -/
def attempt (x : Fallible ε σ α) : Fallible Empty σ (Except ε α) := fun s =>
  match x.run s with
  | .ok a s' => .ok (.ok a) s'
  | .error (.err e) s' => .ok (.error e) s'
  | .error .panic s' => .error .panic s'

section

variable {x : Fallible ε σ α} {s s' : σ}

theorem run_attempt_congr {y : Fallible ε σ α} (h : x.run s = y.run s') :
    (attempt x).run s = (attempt y).run s' := by
  change attempt x s = attempt y s'
  unfold attempt
  rw [h]

theorem run_attempt_of_ok {a : α} (h : x.run s = .ok a s') :
    (attempt x).run s = .ok (.ok a) s' := by
  change attempt x s = _
  simp [attempt, h]

theorem run_attempt_of_err {e : ε} (h : x.run s = .error (.err e) s') :
    (attempt x).run s = .ok (.error e) s' := by
  change attempt x s = _
  simp [attempt, h]

theorem run_attempt_of_panic (h : x.run s = .error .panic s') :
    (attempt x).run s = .error .panic s' := by
  change attempt x s = _
  simp [attempt, h]

end

/-- A run that goes on after an error and collects what the steps return. -/
def attemptAll (step : ι → Fallible ε σ α) : List ι → Fallible Empty σ (List (Except ε α))
  | [] => pure []
  | i :: is => do
    let result ← attempt (step i)
    let results ← attemptAll step is
    pure (result :: results)

/-- Put what the first step returned in front of what the others return. -/
def consResult (result : Except ε α) :
    EStateM.Result (Fault Empty) σ (List (Except ε α)) →
      EStateM.Result (Fault Empty) σ (List (Except ε α))
  | .ok results s => .ok (result :: results) s
  | .error e s => .error e s

theorem run_attemptAll_cons {step : ι → Fallible ε σ α} {i : ι} {s s' : σ} {result : Except ε α}
    (h : (attempt (step i)).run s = .ok result s') (is : List ι) :
    (attemptAll step (i :: is)).run s = consResult result ((attemptAll step is).run s') := by
  rw [attemptAll, run_bind_of_ok h]
  cases hrest : (attemptAll step is).run s' with
  | ok results s'' => rw [run_bind_of_ok hrest, EStateM.run_pure, consResult]
  | error e s'' => rw [run_bind_of_error hrest, consResult]

end TpmRs.Library.Fallible
