import TpmRs.Library.ChunkWriter

/-!
# Writers with room

What a writer does in a buffer with room for all that it could write: it returns, having
used no more than that room, or it aborts since a condition on its input fails. It never
reports an error. The rooms of consecutive writers add up and all their conditions count.
-/

namespace TpmRs.Library

open Fallible

variable {ε α : Type}

/-- In a buffer with room for `n` entries `m` returns, having used at most `n`, unless
`ok` fails and it aborts. -/
def Settles (ok : Prop) (n : ℕ) (m : Fallible ε (List α) ℕ) : Prop :=
  ∀ buffer : List α, n ≤ buffer.length →
    (∃ used buffer', m.run buffer = .ok used buffer' ∧ used ≤ n ∧
      buffer'.length = buffer.length) ∨
    ¬ok ∧ ∃ buffer', m.run buffer = .error .panic buffer'

/-- The same of a writer that continues at index `w`, with room for `n` more entries. -/
def SettlesFrom (ok : Prop) (n : ℕ) (k : ℕ → Fallible ε (List α) ℕ) : Prop :=
  ∀ (w : ℕ) (buffer : List α), w + n ≤ buffer.length →
    (∃ w' buffer', (k w).run buffer = .ok w' buffer' ∧ w' ≤ w + n ∧
      buffer'.length = buffer.length) ∨
    ¬ok ∧ ∃ buffer', (k w).run buffer = .error .panic buffer'

variable {ok ok' : Prop} {n n' : ℕ} {m : Fallible ε (List α) ℕ}
  {k l : ℕ → Fallible ε (List α) ℕ}

theorem SettlesFrom.settles (h : SettlesFrom ok n k) : Settles ok n (k 0) := by
  intro buffer hroom
  have h0 := h 0 buffer (by omega)
  simpa using h0

theorem SettlesFrom.pure : SettlesFrom ok 0 (pure : ℕ → Fallible ε (List α) ℕ) := by
  intro w buffer _
  exact .inl ⟨w, buffer, rfl, Nat.le_refl _, rfl⟩

theorem SettlesFrom.abort (h : ¬ok) :
    SettlesFrom ok n (fun _ => abort : ℕ → Fallible ε (List α) ℕ) := by
  intro w buffer _
  exact .inr ⟨h, buffer, rfl⟩

theorem SettlesFrom.mono (h : SettlesFrom ok n k) (hok : ok' → ok) (hn : n ≤ n') :
    SettlesFrom ok' n' k := by
  intro w buffer hroom
  rcases h w buffer (by omega) with ⟨w', buffer', hrun, hw', hlen⟩ | ⟨hnot, hpanic⟩
  · exact .inl ⟨w', buffer', hrun, by omega, hlen⟩
  · exact .inr ⟨fun h' => hnot (hok h'), hpanic⟩

theorem Settles.mono (h : Settles ok n m) (hok : ok' → ok) (hn : n ≤ n') :
    Settles ok' n' m := by
  intro buffer hroom
  rcases h buffer (by omega) with ⟨used, buffer', hrun, hused, hlen⟩ | ⟨hnot, hpanic⟩
  · exact .inl ⟨used, buffer', hrun, by omega, hlen⟩
  · exact .inr ⟨fun h' => hnot (hok h'), hpanic⟩

theorem Settles.advance (h : Settles ok n m) : SettlesFrom ok n (fun w => advance w m) := by
  intro w buffer hroom
  have hw : w ≤ buffer.length := by omega
  rcases h (buffer.drop w) (by simp; omega) with
    ⟨used, buffer', hrun, hused, hlen⟩ | ⟨hnot, buffer', hpanic⟩
  · refine .inl ⟨w + used, _, run_advance_of_ok hw hrun, by omega, ?_⟩
    rw [List.length_append, hlen, ← List.length_append, List.take_append_drop]
  · exact .inr ⟨hnot, _, run_advance_of_error hw hpanic⟩

theorem SettlesFrom.bind (h : SettlesFrom ok n k) (h' : SettlesFrom ok' n' l) :
    SettlesFrom (ok ∧ ok') (n + n') (fun w => k w >>= l) := by
  intro w buffer hroom
  rcases h w buffer (by omega) with ⟨w', buffer', hrun, hw', hlen⟩ | ⟨hnot, buffer', hpanic⟩
  · rcases h' w' buffer' (by omega) with
      ⟨w'', buffer'', hrun', hw'', hlen'⟩ | ⟨hnot, buffer'', hpanic⟩
    · refine .inl ⟨w'', buffer'', ?_, by omega, hlen'.trans hlen⟩
      rw [run_bind_of_ok hrun, hrun']
    · refine .inr ⟨fun hboth => hnot hboth.2, buffer'', ?_⟩
      rw [run_bind_of_ok hrun, hpanic]
  · exact .inr ⟨fun hboth => hnot hboth.1, buffer', run_bind_of_error hpanic⟩

theorem Chunk.settles_writeAll (full : ε) (cs : List (Chunk α)) (h : (flat cs).length ≤ n) :
    Settles ok n (writeAll full cs 0) := by
  intro buffer hroom
  refine .inl ⟨_, _, run_writeAll_of_le full cs (by omega), by omega, ?_⟩
  simp
  omega

end TpmRs.Library
