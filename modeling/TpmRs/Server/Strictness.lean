import TpmRs.Server.Agreement
import TpmRs.Server.Failures

/-!
# The commands that are executed

A well-formed command is the tag without sessions, its size, the code and one parameter.
The tag is read and not examined, and bytes after the parameter are counted by the size
but not read, so commands with another tag or with bytes left over are executed as well.
-/

namespace TpmRs

open Library Library.Fallible Library.Slice

/-- A command for random bytes and nothing else. -/
def WellFormedCommand (q : List U8) : Prop :=
  ∃ bytesRequested : U16, q = Prim.u16.enc 0x8001 ++ (Prim.u32.enc 12 ++
    (Prim.u32.enc 0x17B ++ Prim.u16.enc bytesRequested))

theorem wellFormedCommand_iff {q : List U8} : WellFormedCommand q ↔
    be q 0 2 = 0x8001 ∧ be q 2 4 = 12 ∧ be q 6 4 = 0x17B ∧ q.length = 12 := by
  constructor
  · intro h
    rcases h with ⟨n, rfl⟩
    refine ⟨?_, ?_, ?_, ?_⟩
    · exact be_append .u16 [] _ 0x8001
    · exact be_append .u32 (Prim.u16.enc 0x8001) _ 12
    · exact be_append .u32 (Prim.u16.enc 0x8001 ++ Prim.u32.enc 12) _ 0x17B
    · simp only [List.length_append, Prim.length_enc, Prim.size]
  · intro h
    rcases h with ⟨htag, hsize, hcode, hlen⟩
    have hsplit (a n : ℕ) : (q.drop a).take n ++ q.drop (a + n) = q.drop a := by
      rw [← List.drop_drop, List.take_append_drop]
    have henc (p : Prim) (offset n : ℕ) (hn : p.size = n) (h : offset + n ≤ 12) :=
      enc_be p q offset n hn (hlen ▸ h)
    refine ⟨BitVec.ofNat 16 (be q 10 2), ?_⟩
    calc q = (q.drop 0).take 2 ++ ((q.drop 2).take 4 ++ ((q.drop 6).take 4 ++
          (q.drop 10).take 2)) := by
          have hend : q.drop 12 = [] := List.drop_eq_nil_of_le hlen.le
          have htail := hsplit 10 2
          rw [hend, List.append_nil] at htail
          rw [htail, hsplit 6 4, hsplit 2 4, hsplit 0 2, List.drop_zero]
      _ = _ := by
          rw [← henc .u16 0 2 rfl (by omega), ← henc .u32 2 4 rfl (by omega),
            ← henc .u32 6 4 rfl (by omega), ← henc .u16 10 2 rfl (by omega), htag, hsize, hcode]
          rfl

/-- `execute_command` on the buffers of the entry point succeeds. -/
def Input.Succeeds {D E : Type} [Drbg D] [EntropySource E] (self : Input)
    (ctx : TpmContext D E) : Prop :=
  match self with
  | .separate request response => TpmContext.Succeeds ctx (SeparateBuffers.mk request response)
  | .inPlace inOut requestSize => TpmContext.Succeeds ctx (InOutBuffer.new inOut requestSize)

section

variable {D E : Type} [Drbg D] [EntropySource E]

theorem Input.succeeds_iff {input : Input} {ctx : TpmContext D E} : input.Succeeds ctx ↔
    Answered input.request input.response.length ∧ ¬input.DrawFails ctx := by
  cases input with
  | separate q r => exact TpmContext.returns_executeCommand_iff (SeparateBuffers.reads q r)
  | inPlace w m => exact TpmContext.returns_executeCommand_iff (InOutBuffer.reads w m)

/-- Only well-formed commands succeed, except those that are answered under another tag or
with bytes left over. -/
theorem Input.succeeds_only_wellFormed_iff (input : Input) (ctx : TpmContext D E) :
    (input.Succeeds ctx → WellFormedCommand input.request) ↔
      (Answered input.request input.response.length → ¬input.DrawFails ctx →
        be input.request 0 2 = 0x8001 ∧ input.request.length = 12) := by
  rw [Input.succeeds_iff, and_imp]
  refine imp_congr_right fun hans => imp_congr_right fun _ => ?_
  rw [wellFormedCommand_iff]
  constructor
  · intro h
    exact ⟨h.1, h.2.2.2⟩
  · intro h
    exact ⟨h.1, hans.1.trans h.2, hans.2.1, h.2⟩

end

/-- The request of the unit tests under the tag for sessions. -/
def sessionsRequest : List U8 := [0x80, 0x02, 0, 0, 0, 0x0C, 0, 0, 0x01, 0x7B, 0, 0x0C]

/-- The request of the unit tests with a byte after the parameter. -/
def longRequest : List U8 := [0x80, 0x01, 0, 0, 0, 0x0D, 0, 0, 0x01, 0x7B, 0, 0x0C, 0xFF]

theorem Input.succeeds_not_wellFormed :
    ((Input.separate sessionsRequest (List.replicate 22 0xFF)).Succeeds testContext ∧
      ¬WellFormedCommand sessionsRequest) ∧
    (Input.separate longRequest (List.replicate 22 0xFF)).Succeeds testContext ∧
      ¬WellFormedCommand longRequest := by
  refine ⟨⟨?_, ?_⟩, ?_, ?_⟩
  · exact succeeds_iff.mpr ⟨by decide, not_drawFails_of_canDraw testContext.drbg.canDraw⟩
  · rw [wellFormedCommand_iff]
    decide
  · exact succeeds_iff.mpr ⟨by decide, not_drawFails_of_canDraw testContext.drbg.canDraw⟩
  · rw [wellFormedCommand_iff]
    decide

end TpmRs
