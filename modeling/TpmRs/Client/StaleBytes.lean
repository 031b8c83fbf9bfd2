import TpmRs.Client.Services
import TpmRs.Library.Relational

/-!
# Bytes behind a response

The client passes a buffer of fixed size to the TPM and is told in the header how much of
it belongs to the response. Whatever stands behind that never reaches a result, so two TPMs
that differ in nothing else are the same to every client.
-/

namespace TpmRs

open Library Library.Fallible Library.Slice AuthorizationArea

/-- The bytes that belong to a response: the header, and more if its size says so. -/
def announced (b : List U8) : List U8 := b.take (max 10 (RespHeader.ofBytes b).size.toNat)

theorem ofBytes_take {b : List U8} {n : ℕ} (h : 10 ≤ n) :
    RespHeader.ofBytes (b.take n) = RespHeader.ofBytes b := by
  unfold RespHeader.ofBytes
  simp only [List.take_take, List.drop_take]
  rw [Nat.min_eq_left (by omega), Nat.min_eq_left (by omega), Nat.min_eq_left (by omega)]

theorem ofBytes_announced (b : List U8) :
    RespHeader.ofBytes (announced b) = RespHeader.ofBytes b := ofBytes_take (Nat.le_max_left 10 _)

theorem announced_append {b : List U8} (h : max 10 (RespHeader.ofBytes b).size.toNat ≤ b.length)
    (rest : List U8) : announced (b ++ rest) = announced b := by
  have hten : 10 ≤ b.length := le_of_max_le_left h
  have hheader : RespHeader.ofBytes (b ++ rest) = RespHeader.ofBytes b := by
    rw [← ofBytes_take hten, List.take_left]
  rw [announced, hheader, List.take_append_of_le_length h, announced]

theorem take_announced (b : List U8) :
    (announced b).take (RespHeader.ofBytes b).size.toNat =
      b.take (RespHeader.ofBytes b).size.toNat := by
  rw [announced, List.take_take, Nat.min_eq_left (Nat.le_max_right 10 _)]

section

variable {AA X Y Z : Type} [Session X] [Session Y] [Session Z] [AuthorizationArea AA X Y Z]
  {RespT RespHandles : Type} [Marshalable RespT] [Marshalable RespHandles] {T T' : Type}
  {rel : T → T' → Prop}

/-- What is read is determined by the bytes that belong to the response. -/
theorem related_readResponse (sessions : AA) {b b' : List.Vector U8 respBufferSize}
    (h : announced b.toList = announced b'.toList) :
    Related rel Eq (readResponse sessions b : Fallible TssError T (RespT × RespHandles))
      (readResponse sessions b') := by
  have hheader : RespHeader.ofBytes b'.toList = RespHeader.ofBytes b.toList := by
    rw [← ofBytes_announced b.toList, h, ofBytes_announced]
  generalize hdef : RespHeader.ofBytes b.toList = header at hheader
  constructor
  intro s t hst
  by_cases hrc : header.rc = 0
  · by_cases hlow : 10 ≤ header.size.toNat
    · by_cases hhigh : header.size.toNat ≤ respBufferSize
      · have hbytes : b'.toList.take header.size.toNat = b.toList.take header.size.toNat := by
          rw [← hheader, ← take_announced b'.toList, ← h, hheader, ← hdef, take_announced]
        rw [run_readResponse_of_size_le sessions s hdef hrc hlow hhigh,
          run_readResponse_of_size_le sessions t hheader hrc hlow hhigh, hbytes]
        refine Related.endAlike ?_ hst
        refine (Related.onLocal _ _).bind ?_
        rintro p _ rfl
        exact .pure rfl
      · have hgt := Nat.not_le.mp hhigh
        rw [run_readResponse_of_size_gt sessions s hdef hrc hgt,
          run_readResponse_of_size_gt sessions t hheader hrc hgt]
        exact ⟨rfl, hst⟩
    · have hlt := Nat.not_le.mp hlow
      rw [run_readResponse_of_size_lt sessions s hdef hrc hlt,
        run_readResponse_of_size_lt sessions t hheader hrc hlt]
      exact ⟨rfl, hst⟩
  · subst hdef
    have hrc' : (RespHeader.ofBytes b'.toList).rc ≠ 0 := hheader ▸ hrc
    rw [run_readResponse_of_rc_ne_zero sessions s hrc,
      run_readResponse_of_rc_ne_zero sessions t hrc']
    simp only [hheader]
    exact ⟨rfl, hst⟩

variable [Tpm T] [Tpm T']

/-- From related states the TPMs give the same responses to the same commands, but for the bytes
behind them, or the same errors, and their states stay related. -/
def SameResponses (rel : T → T' → Prop) : Prop :=
  ∀ command, Related rel (fun b b' => announced b.toList = announced b'.toList)
    (Tpm.respond command : Fallible TssError T _) (Tpm.respond command)

variable {CmdT Handles : Type} [TpmCommand CmdT Handles RespT RespHandles] [Marshalable Handles]

theorem SameResponses.related_runCommandWithHandles (h : SameResponses rel) (cmd : CmdT)
    (cmdHandles : Handles) (cmdSessions : AA) :
    Related rel Eq (runCommandWithHandles cmd cmdHandles cmdSessions : Fallible TssError T _)
      (runCommandWithHandles cmd cmdHandles cmdSessions) := by
  unfold runCommandWithHandles
  refine (Related.onLocal _ _).bind ?_
  rintro ⟨written, cmdBuffer⟩ _ rfl
  refine (Related.sliceTo _ _).bind ?_
  rintro command _ rfl
  refine (h command).bind ?_
  intro b b' hbytes
  exact related_readResponse cmdSessions hbytes

end

section

variable {T T' : Type} [Tpm T] [Tpm T'] {rel : T → T' → Prop}

theorem SameResponses.related_run (h : SameResponses rel) (c : TpmCall) :
    Related rel Eq (c.run T) (c.run T') := by
  unfold TpmCall.run
  refine Related.attempt ?_
  exact h.related_runCommandWithHandles c.cmd c.cmdHandles c.cmdSessions

/-- No program can tell the TPMs apart: it ends alike with both, with the same value. -/
theorem SameResponses.run_program (h : SameResponses rel) {ι α : Type} (call : ι → TpmCall)
    (program : Client ι (fun i => (call i).Result) α) :
    Related rel Eq (program.run fun i => (call i).run T)
      (program.run fun i => (call i).run T') :=
  .client (fun i => h.related_run (call i)) program

end

theorem FakeTpm.sameResponses (tpm : FakeTpm) {stale : List U8}
    (hsize : max 10 (RespHeader.ofBytes tpm.response).size.toNat ≤ tpm.response.length)
    (hlen : (tpm.response ++ stale).length ≤ respBufferSize) :
    SameResponses fun a b => a = tpm ∧ b = FakeTpm.mk (tpm.response ++ stale) := by
  intro command
  constructor
  intro a b hab
  rw [hab.1, hab.2]
  have hshort : tpm.response.length ≤ respBufferSize := by
    rw [List.length_append] at hlen
    omega
  obtain ⟨respBuffer, htransact, rest, hrest⟩ := FakeTpm.run_transact_of_le tpm hshort command
  obtain ⟨respBuffer', htransact', rest', hrest'⟩ :=
    FakeTpm.run_transact_of_le ⟨tpm.response ++ stale⟩ hlen command
  rw [Tpm.run_respond_of_ok htransact, Tpm.run_respond_of_ok htransact']
  have hbytes : announced respBuffer.toList = announced respBuffer'.toList := by
    rw [hrest, hrest', List.append_assoc, announced_append hsize, announced_append hsize]
  exact ⟨hbytes, rfl, rfl⟩

theorem SameResponses.run_program_askAgain :
    let tpm : FakeTpm := ⟨randomWithPasswordAuth⟩
    let tpm' : FakeTpm := ⟨randomWithPasswordAuth ++ [1, 2, 3]⟩
    Related (fun a b => a = tpm ∧ b = tpm') Eq
      (askAgain.run fun n => (getRandomCall n).run FakeTpm)
      (askAgain.run fun n => (getRandomCall n).run FakeTpm) :=
  (FakeTpm.sameResponses ⟨randomWithPasswordAuth⟩ (by decide) (by decide)).run_program
    getRandomCall askAgain

end TpmRs
