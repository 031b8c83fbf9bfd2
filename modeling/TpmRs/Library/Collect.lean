import TpmRs.Library.Runs

/-!
# Collecting errors

A pass over a list of items goes on after an item that fails, with the state that the
item left, and reports all errors together at the end. What the pass returns is stated
through the outcome of each item after the ones before it.
-/

namespace TpmRs.Library.Fallible

variable {ε σ ι α : Type}

/-- The errors among some results. -/
def errorsOf (results : List (Except ε α)) : List ε :=
  results.filterMap fun
    | .ok _ => none
    | .error e => some e

/-- The values among some results. -/
def valuesOf (results : List (Except ε α)) : List α :=
  results.filterMap fun
    | .ok a => some a
    | .error _ => none

@[simp] theorem errorsOf_cons_ok (a : α) (results : List (Except ε α)) :
    errorsOf (.ok a :: results) = errorsOf results := rfl

@[simp] theorem errorsOf_cons_error (e : ε) (results : List (Except ε α)) :
    errorsOf (.error e :: results) = e :: errorsOf results := rfl

@[simp] theorem valuesOf_cons_ok (a : α) (results : List (Except ε α)) :
    valuesOf (.ok a :: results) = a :: valuesOf results := rfl

/-- Every item is taken, whether or not one before it failed. -/
def collect (gen : ι → Fallible (List ε) σ α) (items : List ι) :
    Fallible (List ε) σ (List α) := do
  let results ← mapErr Empty.elim (attemptAll gen items)
  match errorsOf results with
  | [] => pure (valuesOf results)
  | errors => fail errors.flatten

/-- What `gen` does to an item depends only on the items before it. -/
structure Follows (gen : ι → Fallible (List ε) σ α) (state : List ι → σ)
    (outcome : List ι → ι → Except (List ε) α) (panics : ι → Prop) : Prop where
  run_of_ok : ∀ {before i a}, ¬panics i → outcome before i = .ok a →
    (gen i).run (state before) = .ok a (state (before ++ [i]))
  run_of_error : ∀ {before i e}, ¬panics i → outcome before i = .error e →
    (gen i).run (state before) = .error (.err e) (state (before ++ [i]))
  run_of_panics : ∀ {before i}, panics i → ∃ s, (gen i).run (state before) = .error .panic s

/-- The end of a computation in the state `s`. -/
def ended (s : σ) : Except ε α → EStateM.Result (Fault ε) σ α
  | .ok a => .ok a s
  | .error e => .error (.err e) s

/-- The outcomes of `items` after the items `before`. -/
def outcomes (outcome : List ι → ι → Except ε α) : List ι → List ι → List (Except ε α)
  | _, [] => []
  | before, i :: is => outcome before i :: outcomes outcome (before ++ [i]) is

section

variable {gen : ι → Fallible (List ε) σ α} {state : List ι → σ}
  {outcome : List ι → ι → Except (List ε) α} {panics : ι → Prop}

theorem Follows.of_run
    (hrun : ∀ before i, ¬panics i → (gen i).run (state before) =
      ended (state (before ++ [i])) (outcome before i))
    (hpanics : ∀ before i, panics i → ∃ s, (gen i).run (state before) = .error .panic s) :
    Follows gen state outcome panics where
  run_of_ok hi ho := by
    rw [hrun _ _ hi, ho, ended]
  run_of_error hi ho := by
    rw [hrun _ _ hi, ho, ended]
  run_of_panics hi := hpanics _ _ hi

theorem Follows.run_attempt (h : Follows gen state outcome panics) (before : List ι) {i : ι}
    (hi : ¬panics i) : (attempt (gen i)).run (state before) =
      .ok (outcome before i) (state (before ++ [i])) := by
  cases ho : outcome before i with
  | ok a => exact run_attempt_of_ok (h.run_of_ok hi ho)
  | error e => exact run_attempt_of_err (h.run_of_error hi ho)

theorem Follows.run_attemptAll (h : Follows gen state outcome panics) (before : List ι)
    {items : List ι} (hitems : ∀ i ∈ items, ¬panics i) :
    (attemptAll gen items).run (state before) =
      .ok (outcomes outcome before items) (state (before ++ items)) := by
  induction items generalizing before with
  | nil => simp [attemptAll, outcomes]
  | cons i is ih =>
    have hstep := h.run_attempt before (hitems i (by simp))
    have hrest := ih (before ++ [i]) fun j hj => hitems j (by simp [hj])
    rw [run_attemptAll_cons hstep, hrest, consResult, outcomes]
    simp

theorem Follows.run_attemptAll_of_panics (h : Follows gen state outcome panics)
    (before : List ι) {items : List ι} (hitems : ∃ i ∈ items, panics i) :
    ∃ s, (attemptAll gen items).run (state before) = .error .panic s := by
  induction items generalizing before with
  | nil => simp at hitems
  | cons i is ih =>
    by_cases hi : panics i
    · obtain ⟨s, hs⟩ : ∃ s, (gen i).run (state before) = .error .panic s := h.run_of_panics hi
      exact ⟨s, run_bind_of_error (run_attempt_of_panic hs)⟩
    · have hrest : ∃ j ∈ is, panics j := by
        simpa [hi] using hitems
      obtain ⟨s, hs⟩ := ih (before ++ [i]) hrest
      refine ⟨s, ?_⟩
      rw [run_attemptAll_cons (h.run_attempt before hi), hs, consResult]

/-- Without a panic the pass returns all values, or reports all errors. -/
theorem Follows.run_collect (h : Follows gen state outcome panics) {items : List ι}
    (hitems : ∀ i ∈ items, ¬panics i) :
    (collect gen items).run (state []) =
      match errorsOf (outcomes outcome [] items) with
      | [] => .ok (valuesOf (outcomes outcome [] items)) (state items)
      | errors => .error (.err errors.flatten) (state items) := by
  have hall := h.run_attemptAll [] hitems
  rw [collect, run_bind_of_ok (run_mapErr_of_ok hall), List.nil_append]
  cases errorsOf (outcomes outcome [] items) with
  | nil => rfl
  | cons e es => rfl

theorem Follows.run_collect_of_panics (h : Follows gen state outcome panics) {items : List ι}
    (hitems : ∃ i ∈ items, panics i) :
    ∃ s, (collect gen items).run (state []) = .error .panic s := by
  obtain ⟨s, hs⟩ := h.run_attemptAll_of_panics [] hitems
  exact ⟨s, run_bind_of_error (run_mapErr_of_panic hs)⟩

end

theorem errorsOf_outcomes_eq_nil_iff {outcome : List ι → ι → Except ε α}
    (before items : List ι) :
    errorsOf (outcomes outcome before items) = [] ↔
      ∀ front i back, items = front ++ i :: back →
        ∃ a, outcome (before ++ front) i = .ok a := by
  induction items generalizing before with
  | nil => simp [outcomes, errorsOf]
  | cons i is ih =>
    rw [outcomes]
    constructor
    · intro h front j back hsplit
      cases ho : outcome before i with
      | error e => simp [ho] at h
      | ok a =>
        rw [ho, errorsOf_cons_ok, ih] at h
        cases front with
        | nil =>
          obtain ⟨rfl, -⟩ := List.cons.inj hsplit
          exact ⟨a, by simpa using ho⟩
        | cons k front =>
          obtain ⟨rfl, hrest⟩ := List.cons.inj hsplit
          simpa using h front j back hrest
    · intro h
      obtain ⟨a, ha⟩ := h [] i is rfl
      rw [List.append_nil] at ha
      rw [ha, errorsOf_cons_ok, ih]
      intro front j back hsplit
      simpa using h (i :: front) j back (by rw [hsplit, List.cons_append])

theorem outcomes_eq_map_ok {outcome : List ι → ι → Except ε α} {value : ι → α}
    {before items : List ι} (h : errorsOf (outcomes outcome before items) = [])
    (hvalue : ∀ before i a, outcome before i = .ok a → a = value i) :
    valuesOf (outcomes outcome before items) = items.map value := by
  induction items generalizing before with
  | nil => rfl
  | cons i is ih =>
    unfold outcomes at h ⊢
    cases ho : outcome before i with
    | ok a =>
      rw [ho, errorsOf_cons_ok] at h
      rw [valuesOf_cons_ok, ih h, List.map_cons, hvalue before i a ho]
    | error e => simp [ho] at h

end TpmRs.Library.Fallible
