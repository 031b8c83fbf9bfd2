import TpmRs.Library.BigEndian

/-!
# Byte streams

A generator whose output can be drawn in pieces: a draw of `a + b` bytes is a draw of
`a` bytes followed by a draw of `b` bytes. An input is absorbed by the first piece of a
draw; the other pieces have the neutral input.
-/

namespace TpmRs.Library

structure ByteStream (σ ι : Type) (neutral : ι) where
  bytes : σ → ι → ℕ → List Byte
  after : σ → ι → ℕ → σ
  length_bytes : ∀ s x n, (bytes s x n).length = n
  bytes_add : ∀ s x a b, bytes s x (a + b) = bytes s x a ++ bytes (after s x a) neutral b
  after_add : ∀ s x a b, after s x (a + b) = after (after s x a) neutral b

namespace ByteStream

variable {σ ι : Type} {neutral : ι} (stream : ByteStream σ ι neutral) (s : σ) (x : ι)

theorem bytes_zero : stream.bytes s x 0 = [] :=
  List.eq_nil_of_length_eq_zero (stream.length_bytes s x 0)

/-- A shorter draw gives the front of a longer one. -/
theorem take_bytes {a n : ℕ} (h : a ≤ n) : (stream.bytes s x n).take a = stream.bytes s x a := by
  obtain ⟨b, rfl⟩ := Nat.exists_eq_add_of_le h
  rw [stream.bytes_add, List.take_left' (stream.length_bytes s x a)]

/-- The rest of a longer draw comes after a shorter one. -/
theorem bytes_of_le {a n : ℕ} (h : a ≤ n) :
    stream.bytes s x n =
      stream.bytes s x a ++ stream.bytes (stream.after s x a) neutral (n - a) := by
  rw [← stream.bytes_add, Nat.add_sub_of_le h]

end ByteStream
end TpmRs.Library
