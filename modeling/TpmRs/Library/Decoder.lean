import TpmRs.Library.BigEndian
import TpmRs.Library.Fallible

/-!
# Exact decoders

A decoder consumes the front of the remaining input. It is exact for an encoding
when it returns a value precisely on the inputs that start with the encoding of
that well-formed value, and leaves precisely the rest. Exactness composes: a
sequence of exact decoders decodes the concatenation of the encodings.
-/

namespace TpmRs.Library

open Fallible

variable {ε α β : Type}

/-- `d` returns `v` and leaves `r` exactly on `enc v ++ r`, for the well-formed `v`. -/
def Accepts (d : Fallible ε (List Byte) α) (wf : α → Prop) (enc : α → List Byte) : Prop :=
  ∀ b v r, d.run b = .ok v r ↔ wf v ∧ b = enc v ++ r

/-- An exact decoder, which moreover never aborts on other inputs. -/
structure Decodes (d : Fallible ε (List Byte) α) (wf : α → Prop) (enc : α → List Byte) : Prop where
  panicFree : PanicFree d
  run_eq_ok_iff : ∀ b v r, d.run b = .ok v r ↔ wf v ∧ b = enc v ++ r

namespace Decodes

variable {wf : α → Prop} {enc : α → List Byte}

theorem congr {d : Fallible ε (List Byte) α} {wf' : α → Prop} {enc' : α → List Byte}
    (h : Decodes d wf enc) (hwf : ∀ v, wf v ↔ wf' v) (henc : ∀ v, enc v = enc' v) :
    Decodes d wf' enc' := by
  obtain rfl : wf = wf' := funext fun v => propext (hwf v)
  obtain rfl : enc = enc' := funext henc
  exact h

theorem pure (a : α) :
    Decodes (pure a : Fallible ε (List Byte) α) (fun v => v = a) (fun _ => []) := by
  refine ⟨.pure a, fun b v r => ?_⟩
  simp [eq_comm]

theorem fail (e : ε) (enc : α → List Byte) :
    Decodes (fail e : Fallible ε (List Byte) α) (fun _ => False) enc :=
  ⟨.fail e, by simp⟩

theorem seq {d : Fallible ε (List Byte) α} {d' : α → Fallible ε (List Byte) β}
    {wf' : α → β → Prop} {enc' : α → β → List Byte}
    (h : Decodes d wf enc) (h' : ∀ a, Decodes (d' a) (wf' a) (enc' a)) :
    Decodes (do let a ← d; let b ← d' a; Pure.pure (a, b))
      (fun p => wf p.1 ∧ wf' p.1 p.2) (fun p => enc p.1 ++ enc' p.1 p.2) := by
  refine ⟨h.panicFree.bind fun a => (h' a).panicFree.bind fun b => .pure _, ?_⟩
  rintro input ⟨a, b⟩ r
  simp only [run_bind_eq_ok_iff, h.run_eq_ok_iff, (h' _).run_eq_ok_iff, EStateM.run_pure,
    EStateM.Result.ok.injEq, Prod.mk.injEq]
  constructor
  · intro h
    rcases h with ⟨a', s, ⟨ha, rfl⟩, b', t, ⟨hb, rfl⟩, ⟨rfl, rfl⟩, rfl⟩
    exact ⟨⟨ha, hb⟩, by simp⟩
  · intro h
    rcases h with ⟨⟨ha, hb⟩, rfl⟩
    exact ⟨a, enc' a b ++ r, ⟨ha, by simp⟩, b, r, ⟨hb, rfl⟩, ⟨rfl, rfl⟩, rfl⟩

theorem image {d : Fallible ε (List Byte) α} (h : Decodes d wf enc) (f : α → β)
    (wf' : β → Prop) (enc' : β → List Byte) (hwf : ∀ b, wf' b ↔ ∃ a, wf a ∧ f a = b)
    (henc : ∀ a, wf a → enc' (f a) = enc a) :
    Decodes (do let a ← d; Pure.pure (f a)) wf' enc' := by
  refine ⟨h.panicFree.bind fun a => .pure _, fun input b r => ?_⟩
  simp only [run_bind_eq_ok_iff, h.run_eq_ok_iff, EStateM.run_pure, EStateM.Result.ok.injEq, hwf]
  constructor
  · intro h
    rcases h with ⟨a, s, ⟨ha, rfl⟩, rfl, rfl⟩
    exact ⟨⟨a, ha, rfl⟩, by rw [henc a ha]⟩
  · intro h
    rcases h with ⟨⟨a, ha, rfl⟩, rfl⟩
    exact ⟨a, r, ⟨ha, by rw [henc a ha]⟩, rfl, rfl⟩

theorem map (e : β ≃ α) {d : Fallible ε (List Byte) α} (h : Decodes d wf enc) :
    Decodes (do let a ← d; Pure.pure (e.symm a)) (fun v => wf (e v)) (fun v => enc (e v)) :=
  h.image e.symm _ _
    (fun v => ⟨fun hv => ⟨e v, hv, by simp⟩, by rintro ⟨a, ha, rfl⟩; simpa using ha⟩) (by simp)

theorem guard (c : Prop) [Decidable c] (e : ε) {d : Fallible ε (List Byte) α}
    (h : Decodes d wf enc) :
    Decodes (if c then Fallible.fail e else d) (fun v => ¬c ∧ wf v) enc := by
  by_cases hc : c
  · simpa [hc] using Decodes.fail e enc
  · simpa [hc] using h

end Decodes
end TpmRs.Library
