import TpmRs.Base.Lists
import TpmRs.Marshalable.LengthBound

/-!
# Length fields

Which values the encoder handles as the decoder would: exactly those without a length
field beyond the capacity of its array. Some structs have public length fields, so that
a caller can exceed the bound. Where the fields are private the constructors keep it.
-/

namespace TpmRs

open Library Library.Fallible

variable {α : Type}

/-- The marshaler reports an error into every buffer if a length field exceeds the capacity of
its array, and it never panics by indexing past an array: not at all into a buffer with
room for the value in memory. -/
def Ty.ReportsOverlong (t : Ty α) (v : α) : Prop :=
  (¬t.LengthsInBounds v → ∀ buffer : List U8,
    ∃ e s, (t.tryMarshal v).run buffer = .error (.err e) s) ∧
  ∀ buffer : List U8, t.sizeOf ≤ buffer.length →
    ∀ s, (t.tryMarshal v).run buffer ≠ .error .panic s

theorem Ty.lengthsInBounds_of_reportsOverlong (t : Ty α) {v : α} (hv : t.ContainersWellFormed v)
    (h : t.ReportsOverlong v) : t.LengthsInBounds v := by
  by_contra hnot
  have hroom : t.sizeOf ≤ (List.replicate t.sizeOf (0 : U8)).length := by simp
  rcases h with ⟨hreport, hpanicFree⟩
  obtain ⟨e, s, herr⟩ := hreport hnot (List.replicate t.sizeOf 0)
  rcases t.settles_tryMarshal v hv _ hroom with ⟨used, s', hrun, -⟩ | ⟨-, s', hpanic⟩
  · rw [herr] at hrun
    cases hrun
  · exact hpanicFree _ hroom s' hpanic

/-- The encoder enforces the bound of the decoder exactly on the values that keep it. -/
theorem Ty.reportsOverlong_iff (t : Ty α) (v : α) (hv : t.ContainersWellFormed v) :
    t.ReportsOverlong v ↔ t.LengthsInBounds v := by
  constructor
  · intro h
    exact t.lengthsInBounds_of_reportsOverlong hv h
  · intro h
    refine ⟨fun hnot => absurd h hnot, ?_⟩
    intro buffer hroom s hpanic
    rcases t.settles_tryMarshal v hv buffer hroom with ⟨used, s', hrun, -⟩ | ⟨hnot, -⟩
    · rw [hpanic] at hrun
      cases hrun
    · exact hnot h

/-- Five bytes of the four that there are. -/
def overlongSelection : TpmsPcrSelection where
  hash := ⟨TpmAlgId.sha256.val⟩
  sizeofSelect := 5
  pcrSelect := .replicate tpm2PcrSelectMax 0

theorem not_reportsOverlong_overlongSelection :
    ¬TpmsPcrSelection.ty.ReportsOverlong overlongSelection := by
  intro h
  have hle := TpmsPcrSelection.ty.lengthsInBounds_of_reportsOverlong
    ⟨⟨trivial, trivial⟩, trivial, fun _ _ => trivial, trivial⟩ h
  exact absurd hle.2.1 (by decide)

/-- The constructors keep the count of a list in bounds, so that only an element can
exceed a bound of its own. -/
theorem Tpml.Represents.lengthsInBounds_iff [Inhabited α] {cap : ℕ} {listType : Ty α}
    (hdefault : listType.LengthsInBounds Inhabited.default) {x : Tpml α cap} {xs : List α}
    (h : x.Represents xs) :
    (Tpml.ty listType cap).LengthsInBounds x ↔ ∀ v ∈ xs, listType.LengthsInBounds v := by
  have hcount : x.count.toNat ≤ cap := h.count_eq ▸ h.length_le
  constructor
  · intro hx v hv
    apply hx.2.1
    simp [h.list_eq, hv]
  · intro hxs
    refine ⟨hcount, ?_, trivial⟩
    intro v hv
    change v ∈ x.list.toList at hv
    rw [h.list_eq, List.mem_append, List.mem_replicate] at hv
    rcases hv with hv | ⟨-, rfl⟩
    · exact hxs v hv
    · exact hdefault

theorem not_reportsOverlong_nested : ∃ x : TpmlPcrSelection,
    Tpml.new [overlongSelection] = .ok x ∧
      ¬(Tpml.ty TpmsPcrSelection.ty tpm2NumPcrBanks).ReportsOverlong x := by
  have hlen : [overlongSelection].length ≤ tpm2NumPcrBanks := by decide
  obtain ⟨x, hnew, hx⟩ := Tpml.new_of_le hlen (by decide)
  have hcontainers : (Tpml.ty TpmsPcrSelection.ty tpm2NumPcrBanks).ContainersWellFormed x :=
    ⟨trivial, fun _ _ => ⟨⟨trivial, trivial⟩, trivial, fun _ _ => trivial, trivial⟩, trivial⟩
  refine ⟨x, hnew, ?_⟩
  rw [Ty.reportsOverlong_iff _ x hcontainers]
  intro h
  have hdefault : TpmsPcrSelection.ty.LengthsInBounds Inhabited.default :=
    ⟨⟨trivial, trivial⟩, Nat.zero_le _, fun _ _ => trivial, trivial⟩
  have hle := (hx.lengthsInBounds_iff hdefault).mp h overlongSelection (by simp)
  exact absurd hle.2.1 (by decide)

end TpmRs
