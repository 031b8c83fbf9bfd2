import TpmRs.Library.Fallible
import Mathlib.Data.Vector.Basic

/-!
# Mutable slices

A buffer is the list of its entries. A computation over a buffer may be confined to
the part from an index on, as a callee is that receives `&mut buffer[k..]`; ranges
out of bounds abort. `getRange` and `putRange` read and replace a range of fixed
length, which leaves the length of the buffer unchanged.
-/

namespace TpmRs.Library

open Fallible

variable {ε σ α β : Type}

namespace Slice

/-- Run `m` on `&mut buffer[k..]`. -/
def onSuffix (k : ℕ) (m : Fallible ε (List α) β) : Fallible ε (List α) β := fun buffer =>
  if k ≤ buffer.length then
    match m.run (buffer.drop k) with
    | .ok b rest => .ok b (buffer.take k ++ rest)
    | .error e rest => .error e (buffer.take k ++ rest)
  else .error .panic buffer

/-- `buffer[..src.len()].copy_from_slice(src)`. -/
def copyPrefix (src : List α) : Fallible ε (List α) Unit := fun buffer =>
  if src.length ≤ buffer.length then .ok () (src ++ buffer.drop src.length)
  else .error .panic buffer

/-- The fixed-size array with the given entries. -/
def array {n : ℕ} (xs : List α) (h : xs.length = n) : List.Vector α n := ⟨xs, h⟩

@[simp] theorem toList_array {n : ℕ} (xs : List α) (h : xs.length = n) :
    (array xs h).toList = xs := rfl

theorem array_eq_iff {n : ℕ} {xs : List α} {h : xs.length = n} {v : List.Vector α n} :
    array xs h = v ↔ xs = v.toList :=
  ⟨fun hv => hv ▸ rfl, fun hv => List.Vector.eq _ _ hv⟩

/-- `xs[..n]`. -/
def sliceTo (xs : List β) (n : ℕ) : Fallible ε σ (List β) :=
  if n ≤ xs.length then pure (xs.take n) else abort

/-- `xs[a..b]`. -/
def sliceRange (xs : List β) (a b : ℕ) : Fallible ε σ (List β) :=
  if a ≤ b ∧ b ≤ xs.length then pure ((xs.take b).drop a) else abort

theorem sliceTo_of_le {xs : List β} {n : ℕ} (h : n ≤ xs.length) :
    (sliceTo xs n : Fallible ε σ (List β)) = pure (xs.take n) := if_pos h

theorem keepsState_sliceTo (xs : List β) (n : ℕ) :
    KeepsState (sliceTo xs n : Fallible ε σ (List β)) := by
  unfold sliceTo
  split_ifs
  · exact .pure _
  · exact .abort

theorem sliceRange_of_le {xs : List β} {a b : ℕ} (ha : a ≤ b) (hb : b ≤ xs.length) :
    (sliceRange xs a b : Fallible ε σ (List β)) = pure ((xs.take b).drop a) := if_pos ⟨ha, hb⟩

theorem sliceRange_of_lt {xs : List β} {a b : ℕ} (h : b < a) :
    (sliceRange xs a b : Fallible ε σ (List β)) = abort :=
  if_neg fun hle => absurd hle.1 (Nat.not_le.mpr h)

theorem run_onSuffix_of_ok {k : ℕ} {m : Fallible ε (List α) β} {buffer rest : List α} {b : β}
    (hk : k ≤ buffer.length) (h : m.run (buffer.drop k) = .ok b rest) :
    (onSuffix k m).run buffer = .ok b (buffer.take k ++ rest) := by
  change onSuffix k m buffer = _
  simp [onSuffix, hk, h]

theorem run_onSuffix_of_error {k : ℕ} {m : Fallible ε (List α) β} {buffer rest : List α}
    {e : Fault ε} (hk : k ≤ buffer.length) (h : m.run (buffer.drop k) = .error e rest) :
    (onSuffix k m).run buffer = .error e (buffer.take k ++ rest) := by
  change onSuffix k m buffer = _
  simp [onSuffix, hk, h]

theorem run_onSuffix_of_lt {k : ℕ} {m : Fallible ε (List α) β} {buffer : List α}
    (hk : buffer.length < k) : (onSuffix k m).run buffer = .error .panic buffer := by
  change onSuffix k m buffer = _
  simp [onSuffix, Nat.not_le.mpr hk]

theorem run_copyPrefix_of_le {src buffer : List α} (h : src.length ≤ buffer.length) :
    (copyPrefix src : Fallible ε (List α) Unit).run buffer =
      .ok () (src ++ buffer.drop src.length) := by
  change copyPrefix src buffer = _
  simp [copyPrefix, h]

theorem run_copyPrefix_of_lt {src buffer : List α} (h : buffer.length < src.length) :
    (copyPrefix src : Fallible ε (List α) Unit).run buffer = .error .panic buffer := by
  change copyPrefix src buffer = _
  simp [copyPrefix, Nat.not_le.mpr h]

/-- `buffer.get(offset..offset + len)`. -/
def getRange (buffer : List α) (offset len : ℕ) : Option (List α) :=
  if offset + len ≤ buffer.length then some ((buffer.drop offset).take len) else none

/-- The buffer after a write of `data` at `offset`. -/
def putRange (buffer : List α) (offset : ℕ) (data : List α) : List α :=
  buffer.take offset ++ data ++ buffer.drop (offset + data.length)

theorem getRange_of_le {buffer : List α} {offset len : ℕ} (h : offset + len ≤ buffer.length) :
    getRange buffer offset len = some ((buffer.drop offset).take len) := by
  simp [getRange, h]

theorem getRange_of_lt {buffer : List α} {offset len : ℕ} (h : buffer.length < offset + len) :
    getRange buffer offset len = none := by
  simp [getRange, Nat.not_le.mpr h]

@[simp] theorem length_putRange {buffer data : List α} {offset : ℕ}
    (h : offset + data.length ≤ buffer.length) :
    (putRange buffer offset data).length = buffer.length := by
  simp [putRange]
  omega

theorem putRange_append (front old back new : List α) (h : new.length = old.length) :
    putRange (front ++ old ++ back) front.length new = front ++ new ++ back := by
  have hlen : front.length + new.length = (front ++ old).length := by simp [h]
  unfold putRange
  rw [hlen, List.drop_left, List.append_assoc front old back, List.take_left]

@[simp] theorem putRange_nil (buffer : List α) (offset : ℕ) :
    putRange buffer offset [] = buffer := by
  simp [putRange]

theorem drop_putRange {buffer data : List α} {offset : ℕ}
    (h : offset + data.length ≤ buffer.length) :
    (putRange buffer offset data).drop (offset + data.length) =
      buffer.drop (offset + data.length) := by
  have hlen : (buffer.take offset ++ data).length = offset + data.length := by
    simp
    omega
  unfold putRange
  rw [← hlen, List.drop_left]

theorem putRange_putRange {buffer first : List α} {offset : ℕ}
    (h : offset + first.length ≤ buffer.length) (second : List α) :
    putRange (putRange buffer offset first) (offset + first.length) second =
      putRange buffer offset (first ++ second) := by
  have hlen : (buffer.take offset ++ first).length = offset + first.length := by
    simp
    omega
  have hdrop : (putRange buffer offset first).drop (offset + first.length + second.length) =
      buffer.drop (offset + first.length + second.length) := by
    rw [← List.drop_drop, drop_putRange h, List.drop_drop]
  have htake : (putRange buffer offset first).take (offset + first.length) =
      buffer.take offset ++ first := by
    unfold putRange
    rw [← hlen, List.take_left]
  rw [putRange, hdrop, htake, putRange, List.length_append, ← Nat.add_assoc,
    List.append_assoc _ _ second]

end Slice
end TpmRs.Library
