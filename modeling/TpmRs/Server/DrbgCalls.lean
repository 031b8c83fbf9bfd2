import TpmRs.Server.DrbgHelpers

/-!
# The calls that fill a destination

A generator that records the calls to it shows which integers `fill_bytes_via_next`
draws, with which inputs, and what becomes of a destination when a call fails.
-/

namespace TpmRs

open Library Library.Fallible

/-- A call that draws an integer. -/
structure NextCall where
  width : Width
  additionalInput : List U8
  result : Except (Fault DrbgError) (BitVec width.prim.bits)

/-- The little-endian bytes of the integer, unless the call failed. -/
def NextCall.output (call : NextCall) : Option (List U8) :=
  match call.result with
  | .ok v => some (call.width.prim.toLeBytes v)
  | .error _ => none

/-- A generator with a record of the integers drawn from it. -/
structure Recorded (R : Type) where
  drbg : R
  calls : List NextCall

variable {R : Type} [DrbgNext R]

def Recorded.next (w : Width) (x : List U8) :
    Fallible DrbgError (Recorded R) (BitVec w.prim.bits) := fun self =>
  match (nextInt w x).run self.drbg with
  | .ok v drbg => .ok v ⟨drbg, self.calls ++ [⟨w, x, .ok v⟩]⟩
  | .error e drbg => .error e ⟨drbg, self.calls ++ [⟨w, x, .error e⟩]⟩

instance : DrbgNext (Recorded R) where
  nextU32 := Recorded.next .u32
  nextU64 := Recorded.next .u64

namespace Recorded

variable {w : Width} {x : List U8} {self : Recorded R} {drbg : R}

theorem nextInt_eq (w : Width) (x : List U8) :
    (nextInt w x : Fallible DrbgError (Recorded R) _) = next w x := by
  cases w <;> rfl

theorem run_nextInt_of_ok {v : BitVec w.prim.bits}
    (h : (nextInt w x).run self.drbg = .ok v drbg) :
    (nextInt w x).run self = .ok v ⟨drbg, self.calls ++ [⟨w, x, .ok v⟩]⟩ := by
  rw [nextInt_eq]
  change next w x self = _
  simp [next, h]

theorem run_nextInt_of_error {e : Fault DrbgError}
    (h : (nextInt w x).run self.drbg = .error e drbg) :
    (nextInt w x).run self = .error e ⟨drbg, self.calls ++ [⟨w, x, .error e⟩]⟩ := by
  rw [nextInt_eq]
  change next w x self = _
  simp [next, h]

end Recorded

/-- The integers for a destination of length `len`: one for every eight bytes, and one for
the rest. -/
def plan (len : ℕ) : List Width :=
  List.replicate (len / 8) .u64 ++
    if 5 ≤ len % 8 then [.u64] else if 1 ≤ len % 8 then [.u32] else []

theorem plan_of_le {len : ℕ} (h : 8 ≤ len) : plan len = .u64 :: plan (len - 8) := by
  unfold plan
  rw [Nat.mod_eq_sub_mod h, Nat.div_eq_sub_div (by decide) h, List.replicate_succ]
  rfl

theorem plan_of_lt {len : ℕ} (hpos : 0 < len) (h : len < 8) : plan len = [firstWidth len] := by
  unfold plan firstWidth
  rw [Nat.div_eq_of_lt h, Nat.mod_eq_of_lt h, if_pos (Nat.succ_le_of_lt hpos)]
  by_cases h4 : 4 < len
  · rw [if_pos h4, if_pos (Nat.succ_le_of_lt h4)]
    rfl
  · rw [if_neg h4, if_neg (mt Nat.lt_of_succ_le h4)]
    rfl

theorem take_one_plan {len : ℕ} (hpos : 0 < len) : (plan len).take 1 = [firstWidth len] := by
  by_cases h : 8 ≤ len
  · rw [plan_of_le h, firstWidth, if_pos (by omega)]
    rfl
  · rw [plan_of_lt hpos (Nat.not_le.mp h)]
    rfl

/-- The inputs of `n` calls: the additional input goes to the first one only. -/
def callInputs (x : List U8) : ℕ → List (List U8)
  | 0 => []
  | n + 1 => x :: List.replicate n []

theorem callInputs_succ (x : List U8) (n : ℕ) : callInputs x (n + 1) = x :: callInputs [] n := by
  cases n <;> rfl

/-- The calls all succeed and their outputs, cut to its length, are the destination. -/
structure FillsAll (x dest filled : List U8) (calls : List NextCall) : Prop where
  inputs : calls.map (·.additionalInput) = callInputs x calls.length
  widths : calls.map (·.width) = plan dest.length
  outputs : ∃ outputs : List (List U8), calls.map (·.output) = outputs.map some ∧
    filled = outputs.flatten.take dest.length
  length_filled : filled.length = dest.length

/-- The calls succeed up to the last one, which fails; the destination has the outputs of
the others and is otherwise unchanged. -/
structure FailsAfter (k : ℕ) (x dest filled : List U8) (calls : List NextCall)
    (e : Fault DrbgError) : Prop where
  inputs : calls.map (·.additionalInput) = callInputs x calls.length
  widths : calls.map (·.width) = (plan dest.length).take (k + 1)
  length_calls : calls.length = k + 1
  fault : ∃ w y, calls.getLast? = some ⟨w, y, .error e⟩
  outputs : ∃ outputs : List (List U8), calls.map (·.output) = outputs.map some ++ [none] ∧
    outputs.flatten.length = 8 * k ∧ filled = outputs.flatten ++ dest.drop (8 * k)
  length_le : 8 * k ≤ dest.length

section calls

variable {x dest right : List U8} {calls : List NextCall}

theorem fillsAll_nil : FillsAll x [] [] [] where
  inputs := rfl
  widths := rfl
  outputs := ⟨[], rfl, rfl⟩
  length_filled := rfl

theorem fillsAll_tail (hpos : 0 < dest.length) (hlt : dest.length < 8)
    (v : BitVec (firstWidth dest.length).prim.bits) :
    FillsAll x dest (((firstWidth dest.length).prim.toLeBytes v).take dest.length)
      [⟨firstWidth dest.length, x, .ok v⟩] where
  inputs := rfl
  widths := (plan_of_lt hpos hlt).symm
  outputs := ⟨[_], rfl, by simp⟩
  length_filled := by simp [le_size_firstWidth hlt]

theorem failsAfter_zero (hpos : 0 < dest.length) (e : Fault DrbgError) :
    FailsAfter 0 x dest dest [⟨firstWidth dest.length, x, .error e⟩] e where
  inputs := rfl
  widths := (take_one_plan hpos).symm
  length_calls := rfl
  fault := ⟨_, _, rfl⟩
  outputs := ⟨[], rfl, rfl, rfl⟩
  length_le := Nat.zero_le _

theorem FillsAll.chunk (h : FillsAll [] (dest.drop 8) right calls) (hdest : 8 ≤ dest.length)
    (x : List U8) (v : U64) :
    FillsAll x dest (Prim.u64.toLeBytes v ++ right) (⟨.u64, x, .ok v⟩ :: calls) where
  inputs := by
    rw [List.map_cons, h.inputs, List.length_cons, callInputs_succ]
  widths := by
    rw [List.map_cons, h.widths, List.length_drop, plan_of_le hdest]
  outputs := by
    obtain ⟨outputs, hcalls, hright⟩ := h.outputs
    have hchunk : (Prim.u64.toLeBytes v).take dest.length = Prim.u64.toLeBytes v :=
      List.take_of_length_le (by simpa using hdest)
    refine ⟨Prim.u64.toLeBytes v :: outputs, by rw [List.map_cons, hcalls]; rfl, ?_⟩
    rw [List.flatten_cons, hright, List.length_drop, List.take_append, Prim.length_toLeBytes,
      hchunk]
  length_filled := by
    rw [List.length_append, h.length_filled, List.length_drop, Prim.length_toLeBytes,
      Nat.add_sub_of_le hdest]

theorem FailsAfter.chunk {k : ℕ} {e : Fault DrbgError}
    (h : FailsAfter k [] (dest.drop 8) right calls e) (hdest : 8 ≤ dest.length) (x : List U8)
    (v : U64) :
    FailsAfter (k + 1) x dest (Prim.u64.toLeBytes v ++ right) (⟨.u64, x, .ok v⟩ :: calls) e where
  inputs := by
    rw [List.map_cons, h.inputs, List.length_cons, callInputs_succ]
  widths := by
    rw [List.map_cons, h.widths, List.length_drop, plan_of_le hdest, List.take_succ_cons]
  length_calls := by rw [List.length_cons, h.length_calls]
  fault := by
    obtain ⟨w, y, hlast⟩ := h.fault
    exact ⟨w, y, by rw [List.getLast?_cons, hlast]; rfl⟩
  outputs := by
    obtain ⟨outputs, hcalls, hlen, hright⟩ := h.outputs
    refine ⟨Prim.u64.toLeBytes v :: outputs, by rw [List.map_cons, hcalls]; rfl, ?_, ?_⟩
    · rw [List.flatten_cons, List.length_append, hlen, Prim.length_toLeBytes]
      ring
    · rw [List.flatten_cons, hright, List.drop_drop, List.append_assoc, Nat.mul_succ,
        Nat.add_comm 8]
  length_le := by
    have hle := h.length_le
    rw [List.length_drop] at hle
    omega

end calls

/-- How a computation that returns nothing ends, with its final state. -/
def endsIn {σ : Type} (outcome : Except (Fault DrbgError) Unit) (s : σ) :
    EStateM.Result (Fault DrbgError) σ Unit :=
  match outcome with
  | .ok () => .ok () s
  | .error e => .error e s

/-- What the calls have done to the destination, for either outcome. -/
def Filled (x dest filled : List U8) (calls : List NextCall) :
    Except (Fault DrbgError) Unit → Prop
  | .ok () => FillsAll x dest filled calls
  | .error e => ∃ k, FailsAfter k x dest filled calls e

theorem Filled.chunk {x dest right : List U8} {calls : List NextCall}
    {outcome : Except (Fault DrbgError) Unit}
    (h : Filled [] (dest.drop 8) right calls outcome) (hdest : 8 ≤ dest.length) (v : U64) :
    Filled x dest (Prim.u64.toLeBytes v ++ right) (⟨.u64, x, .ok v⟩ :: calls) outcome := by
  cases outcome with
  | ok u => exact FillsAll.chunk h hdest x v
  | error e =>
    obtain ⟨k, hk⟩ := h
    exact ⟨k + 1, hk.chunk hdest x v⟩

theorem run_chunk_endsIn {x dest right : List U8} {rng rng' rng'' : R} {v : U64}
    {outcome : Except (Fault DrbgError) Unit} (hdest : 8 ≤ dest.length)
    (hnext : (nextInt .u64 x).run rng = .ok v rng')
    (hrest : (fillBytesViaNext []).run (rng', dest.drop 8) = endsIn outcome (rng'', right)) :
    (fillBytesViaNext x).run (rng, dest) =
      endsIn outcome (rng'', Prim.u64.toLeBytes v ++ right) := by
  rw [run_fillBytesViaNext_chunk hdest hnext, hrest]
  cases outcome <;> rfl

/-- The recorded run makes the calls after those already recorded, and is otherwise the run
of the generator itself. -/
theorem exists_calls (x : List U8) (self : Recorded R) (dest : List U8) :
    ∃ calls drbg filled outcome,
      (fillBytesViaNext x).run (self, dest) =
        endsIn outcome (⟨drbg, self.calls ++ calls⟩, filled) ∧
      (fillBytesViaNext x).run (self.drbg, dest) = endsIn outcome (drbg, filled) ∧
      Filled x dest filled calls outcome := by
  induction hn : dest.length using Nat.strong_induction_on generalizing x self dest with
  | _ n ih =>
    subst hn
    by_cases hzero : dest.length = 0
    · obtain rfl := List.eq_nil_of_length_eq_zero hzero
      refine ⟨[], self.drbg, [], .ok (), ?_, run_fillBytesViaNext_nil, fillsAll_nil⟩
      rw [run_fillBytesViaNext_nil, List.append_nil]
      rfl
    have hpos := Nat.pos_of_ne_zero hzero
    cases hfirst : (nextInt (firstWidth dest.length) x).run self.drbg with
    | error e drbg =>
      exact ⟨_, drbg, dest, .error e,
        run_fillBytesViaNext_error hpos (Recorded.run_nextInt_of_error hfirst),
        run_fillBytesViaNext_error hpos hfirst, 0, failsAfter_zero hpos e⟩
    | ok v drbg =>
      by_cases h8 : 8 ≤ dest.length
      · have hwidth : firstWidth dest.length = .u64 := if_pos (by omega)
        revert v
        rw [hwidth]
        intro v hfirst
        obtain ⟨calls, drbg', right, outcome, hrecorded, hplain, hfilled⟩ :=
          ih (dest.length - 8) (by omega) [] ⟨drbg, self.calls ++ [⟨.u64, x, .ok v⟩]⟩
            (dest.drop 8) List.length_drop
        refine ⟨⟨.u64, x, .ok v⟩ :: calls, drbg', _, outcome, ?_,
          run_chunk_endsIn h8 hfirst hplain, hfilled.chunk h8 v⟩
        rw [run_chunk_endsIn h8 (Recorded.run_nextInt_of_ok hfirst) hrecorded, List.append_assoc]
        rfl
      · have hlt := Nat.not_le.mp h8
        exact ⟨_, drbg, _, .ok (),
          run_fillBytesViaNext_tail hpos hlt (Recorded.run_nextInt_of_ok hfirst),
          run_fillBytesViaNext_tail hpos hlt hfirst, fillsAll_tail hpos hlt v⟩

/-- For every generator, also one whose calls fail, filling a destination makes one call for
every eight bytes and one for the rest, gives the additional input to the first, and stops
at the first failure. -/
theorem fillBytesViaNext_calls (x : List U8) (rng : R) (dest : List U8) :
    ∃ calls rng' filled outcome,
      (fillBytesViaNext x).run ((⟨rng, []⟩ : Recorded R), dest) =
        endsIn outcome (⟨rng', calls⟩, filled) ∧
      (fillBytesViaNext x).run (rng, dest) = endsIn outcome (rng', filled) ∧
      Filled x dest filled calls outcome :=
  exists_calls x ⟨rng, []⟩ dest

end TpmRs
