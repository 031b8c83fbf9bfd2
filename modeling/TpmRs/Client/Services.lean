import TpmRs.Client.BaseCalls
import TpmRs.Library.Service

/-!
# A TPM as a service

With a TPM that answers every call as a service does, every client gets what it would get
from the service itself, however its later calls depend on earlier results; and the TPM is
sent one frame for each call, in order. The framing adds nothing and loses nothing.
-/

namespace TpmRs

open Library Library.Fallible AuthorizationArea

section

variable {ι T τ α : Type} [Tpm T] {call : ι → TpmCall}

/-- The TPM answers every call as the service does, and moves to a state related to the one
of the service. -/
def Serves (T : Type) [Tpm T] (call : ι → TpmCall)
    (service : Service ι (fun i => (call i).Result) τ) (rel : T → τ → Prop) : Prop :=
  ∀ i tpm t, rel tpm t → ∃ tpm' respBuffer,
    (Tpm.transact (call i).sent).run (tpm, List.Vector.replicate respBufferSize 0) =
      .ok () (tpm', respBuffer) ∧
    (call i).Answers respBuffer.toList (service i t).1 ∧ rel tpm' (service i t).2

variable {service : Service ι (fun i => (call i).Result) τ} {rel : T → τ → Prop}

/-- With a TPM that keeps its commands, the client simulates the service that keeps its
calls. -/
theorem Serves.simulates (h : Serves T call service rel) (commands : List (List U8)) :
    Simulates (fun i => (call i).run (Recorder T)) service.logged fun recorder s =>
      rel recorder.tpm s.1 ∧ recorder.commands = commands ++ s.2.map fun i => (call i).sent := by
  rintro i ⟨tpm, sent⟩ ⟨t, log⟩ ⟨hrel, rfl⟩
  obtain ⟨tpm', respBuffer, htransact, hanswers, hrel'⟩ := h i tpm t hrel
  refine ⟨_, TpmCall.run_of_answers (Recorder.run_transact_of_ok htransact _) hanswers, hrel', ?_⟩
  simp [Service.logged]

/-- Every client gets from the TPM what it gets from the service, and the TPM is sent exactly
the frames of the calls that the client makes. -/
theorem Serves.run_client (h : Serves T call service rel)
    (client : Client ι (fun i => (call i).Result) α) (recorder : Recorder T) {t : τ}
    (hrel : rel recorder.tpm t) :
    ∃ recorder', (client.run fun i => (call i).run (Recorder T)).run recorder =
        .ok (client.eval service t).1 recorder' ∧
      rel recorder'.tpm (client.eval service t).2 ∧
      recorder'.commands =
        recorder.commands ++ (client.calls service t).map fun i => (call i).sent := by
  obtain ⟨recorder', hrun, hrel', hcommands⟩ :=
    (h.simulates recorder.commands).exists_run client (s := recorder) (t := (t, []))
      ⟨hrel, by simp⟩
  rw [Client.eval_logged] at hrun hrel' hcommands
  exact ⟨recorder', hrun, hrel', hcommands⟩

end

/-- Two random bytes and the authorization that a password session expects. -/
def randomWithPasswordAuth : List U8 :=
  [0x80, 0x02, 0, 0, 0, 23, 0, 0, 0, 0, 0, 0, 0, 4, 0, 2, 0xAA, 0xBB, 0, 0, 1, 0, 0]

/-- A request for random bytes with a password. -/
def getRandomCall (n : U16) : TpmCall :=
  .ofFits (⟨n⟩ : GetRandomCmd) () twoBytePassword (GetRandomCmd.wellFormed ⟨n⟩) wellFormed_unit
    wellFormed_twoBytePassword

/-- A client that asks for as many bytes as it got first. -/
def askAgain : Client U16 (fun n => (getRandomCall n).Result) (Except TssError U16) :=
  .call 2 fun
    | .error e => .done (.error e)
    | .ok first => .call first.1.randomBytes.getSize fun
      | .error e => .done (.error e)
      | .ok second => .done (.ok second.1.randomBytes.getSize)

/-- A service that has no state and always returns the same two bytes. -/
def twoRandomBytesService : Service U16 (fun n => (getRandomCall n).Result) Unit :=
  fun _ _ => (.ok (⟨twoRandomBytes⟩, ()), ())

theorem serves_randomWithPasswordAuth :
    Serves FakeTpm getRandomCall twoRandomBytesService fun tpm _ =>
      tpm = ⟨randomWithPasswordAuth⟩ := by
  rintro n _ _ rfl
  have hresponse : responseFrame (Ty.unit.enc ()) (GetRandomResp.ty.enc ⟨twoRandomBytes⟩)
      [passwordAuth] = randomWithPasswordAuth := by decide
  obtain ⟨respBuffer, htransact, rest, hrest⟩ :=
    FakeTpm.run_transact_of_le ⟨randomWithPasswordAuth⟩ (by decide) (getRandomCall n).sent
  refine ⟨_, respBuffer, htransact, ?_, rfl⟩
  rw [hrest, ← hresponse]
  exact (getRandomCall n).answers_responseFrame wellFormed_twoRandomBytes wellFormed_unit
    validates_twoBytePassword rest

theorem run_client_askAgain :
    ∃ recorder', (askAgain.run fun n => (getRandomCall n).run (Recorder FakeTpm)).run
        ⟨⟨randomWithPasswordAuth⟩, []⟩ = .ok (.ok 2) recorder' ∧
      recorder'.tpm = ⟨randomWithPasswordAuth⟩ ∧
      recorder'.commands = [(getRandomCall 2).sent, (getRandomCall 2).sent] :=
  serves_randomWithPasswordAuth.run_client askAgain ⟨⟨randomWithPasswordAuth⟩, []⟩ (t := ()) rfl

end TpmRs
