import TpmRs.Marshalable.Exact
import TpmRs.MarshalableDerive.Structs

/-!
# The flags for TPM2B containers

An attribute on the definition itself asks for other code than that of the fields. With
`tpm2b_simple` the macro generates the container of the `Tpm2bSimple` trait, which only a
size and a byte array can have. The bytes of a container are those that the code of its
fields would write and accept, if the array had another name than the parameter.
-/

namespace TpmRs.MarshalableDerive

open Library Library.Fallible

/-- A flag is found when it is the last argument and no comma follows it. -/
theorem parseMarshalableArgs_iff {name : Ident} {args : List (Path × Bool)} :
    parseMarshalableArgs name args = true ↔
      ∃ front path, args = front ++ [(path, false)] ∧ path.isIdent name = true ∧
        ∀ arg ∈ front, arg.1.isIdent name = false := by
  induction args with
  | nil => simp [parseMarshalableArgs]
  | cons arg args ih =>
    obtain ⟨path, comma⟩ := arg
    unfold parseMarshalableArgs
    cases hpath : path.isIdent name with
    | true =>
      simp only [if_true, Bool.and_eq_true, Bool.not_eq_true', List.isEmpty_iff]
      constructor
      · rintro ⟨rfl, rfl⟩
        exact ⟨[], path, rfl, hpath, nofun⟩
      · rintro ⟨front, path', hargs, -, hfront⟩
        cases front with
        | nil =>
          cases hargs
          exact ⟨rfl, rfl⟩
        | cons arg front =>
          obtain ⟨rfl, -⟩ := List.cons.inj hargs
          have hne := hfront _ List.mem_cons_self
          rw [hpath] at hne
          cases hne
    | false =>
      rw [if_neg Bool.false_ne_true, ih]
      constructor
      · rintro ⟨front, path', rfl, hpath', hfront⟩
        refine ⟨(path, comma) :: front, path', rfl, hpath', ?_⟩
        intro arg harg
        rcases List.mem_cons.mp harg with rfl | harg
        · exact hpath
        · exact hfront arg harg
      · rintro ⟨front, path', hargs, hpath', hfront⟩
        cases front with
        | nil =>
          cases hargs
          rw [hpath] at hpath'
          cases hpath'
        | cons arg front =>
          obtain ⟨-, rfl⟩ := List.cons.inj hargs
          exact ⟨front, path', rfl, hpath', fun arg harg =>
            hfront arg (List.mem_cons_of_mem _ harg)⟩

/-- An attribute sets a flag when the flag is the last of its arguments, without a comma
after it, and none of the arguments before. -/
theorem hasMarshalableAttr_iff {attr : Attribute} {name : Ident} :
    hasMarshalableAttr attr name = true ↔
      attr.path.isIdent "marshalable" = true ∧ ∃ front path,
        attr.args = .paths (front ++ [(path, false)]) ∧ path.isIdent name = true ∧
          ∀ arg ∈ front, arg.1.isIdent name = false := by
  unfold hasMarshalableAttr
  rw [Bool.and_eq_true]
  refine and_congr_right fun _ => ?_
  cases hargs : attr.args with
  | nameValue path value => simp
  | other => simp
  | paths args => simp [parseMarshalableArgs_iff]

theorem deriveTpm2bCommon_eq_ok_iff {name : Ident} {fields : Fields} {buffer : Ident} {len : Expr} :
    deriveTpm2bCommon name fields = .ok (buffer, len) ↔
      ∃ first second, fields = .named [first, second] ∧ first.ident = "size" ∧
        first.ty = .prim .u16 ∧ second.ident = buffer ∧ second.ty = .array (.prim .u8) len := by
  unfold deriveTpm2bCommon
  split
  · next first second =>
    constructor
    · intro h
      split at h
      · next hsize hu16 =>
        split at h
        · next len' hty =>
          cases h
          exact ⟨first, second, rfl, by simpa using hsize, hu16, rfl, hty⟩
        · cases h
        · cases h
      · cases h
    · rintro ⟨first', second', hfields, hsize, hu16, rfl, hty⟩
      cases hfields
      simp [hsize, hu16, hty]
  · next fields hne =>
    refine iff_of_false nofun ?_
    rintro ⟨first, second, hfields, -⟩
    cases hfields
    exact hne first second rfl
  · next hne =>
    refine iff_of_false nofun ?_
    rintro ⟨first, second, hfields, -⟩
    exact hne _ hfields

theorem accepted_pair_iff {first second : NamedField} :
    Accepted [first, second] ↔ first.Accepted [] ∧ second.Accepted [first] := by
  constructor
  · intro h
    exact ⟨h [] first [second] rfl, h [first] second [] rfl⟩
  · rintro ⟨hfirst, hsecond⟩ before f after h
    cases before with
    | nil =>
      obtain ⟨rfl, -⟩ := List.cons.inj h
      exact hfirst
    | cons g before =>
      obtain ⟨rfl, hrest⟩ := List.cons.inj h
      cases before with
      | nil =>
        obtain ⟨rfl, -⟩ := List.cons.inj hrest
        exact hsecond
      | cons g' before => simp at hrest

/-- The two fields of a container: a size without attributes and a buffer whose length the
size may be. -/
structure IsContainer (first second : NamedField) (len : Expr) : Prop where
  ident : first.ident = "size"
  u16 : first.ty = .prim .u16
  plain : first.Plain
  buffer : second.ty = .array (.prim .u8) len
  length : second.Plain ∨ ∃ path, second.HasLength path ∧ path.getIdent = some "size"

theorem isContainer_iff {first second : NamedField} {len : Expr} :
    IsContainer first second len ↔ Accepted [first, second] ∧ first.ident = "size" ∧
      first.ty = .prim .u16 ∧ second.ty = .array (.prim .u8) len := by
  rw [accepted_pair_iff]
  constructor
  · intro h
    have hbasic : ¬first.IsArray := by simp [NamedField.IsArray, h.u16]
    refine ⟨⟨.inl h.plain, h.length.imp id ?_⟩, h.ident, h.u16, h.buffer⟩
    rintro ⟨path, hlen, hid⟩
    exact ⟨path, first, hlen, h.ident ▸ hid, List.mem_singleton_self _, h.plain, hbasic,
      _, len, h.buffer⟩
  · rintro ⟨⟨hfirst, hsecond⟩, hident, hu16, hbuffer⟩
    have hplain : first.Plain := by
      rcases hfirst with hplain | ⟨path, length, -, -, hmem, -⟩
      · exact hplain
      · cases hmem
    refine ⟨hident, hu16, hplain, hbuffer, hsecond.imp id ?_⟩
    rintro ⟨path, length, hlen, hid, hmem, -⟩
    obtain rfl := List.mem_singleton.mp hmem
    exact ⟨path, hlen, hident ▸ hid⟩

/-- The fields of a container: a size and the byte array `array` with that length. -/
def tpm2bFields (array : Ident) (len : Expr) : List NamedField :=
  [⟨"size", [], .prim .u16⟩, ⟨array, [lengthIs "size"], .array (.prim .u8) len⟩]

theorem isContainer_tpm2bFields (array : Ident) (len : Expr) :
    IsContainer ⟨"size", [], .prim .u16⟩ ⟨array, [lengthIs "size"], .array (.prim .u8) len⟩
      len where
  ident := rfl
  u16 := rfl
  plain := rfl
  buffer := rfl
  length := .inr ⟨.ofIdent "size", ⟨lengthIs "size", .ofIdent "length", rfl, rfl, rfl⟩, rfl⟩

/-- With the flag `tpm2b_simple` the macro accepts exactly the containers, and generates
nothing but their own code. -/
theorem deriveTpmMarshalInner_tpm2bSimple_iff {input : DeriveInput} {fields : Fields}
    {expansion : Expansion} (hdata : input.data = .struct fields)
    (hflag : input.attrs.any (hasMarshalableAttr · "tpm2b_simple") = true) :
    deriveTpmMarshalInner input = .ok expansion ↔
      ∃ first second len, fields = .named [first, second] ∧ IsContainer first second len ∧
        expansion = ⟨.tpm2bSimple second.ident len, none⟩ := by
  unfold deriveTpmMarshalInner
  simp only [hdata, hflag, if_true, Bool.true_or]
  constructor
  · intro h
    split at h
    · cases h
    · next code hcode =>
      split at h
      · cases h
      · next buffer len hcommon =>
        cases h
        obtain ⟨first, second, rfl, hident, hu16, rfl, hbuffer⟩ :=
          deriveTpm2bCommon_eq_ok_iff.mp hcommon
        have haccepted := (getStructCode_named_eq_ok_iff.mp hcode).1
        exact ⟨first, second, len, rfl,
          isContainer_iff.mpr ⟨haccepted, hident, hu16, hbuffer⟩, rfl⟩
  · rintro ⟨first, second, len, rfl, hcontainer, rfl⟩
    obtain ⟨haccepted, hident, hu16, hbuffer⟩ := isContainer_iff.mp hcontainer
    have hcode := getStructCode_named_eq_ok_iff.mpr ⟨haccepted, rfl⟩
    have hcommon : deriveTpm2bCommon input.ident (.named [first, second]) =
        .ok (second.ident, len) :=
      deriveTpm2bCommon_eq_ok_iff.mpr ⟨first, second, rfl, hident, hu16, rfl, hbuffer⟩
    simp only [hcode, hcommon]

theorem deriveTpmMarshalInner_tpm2bSimple_iff_digest :
    deriveTpmMarshalInner ⟨"Tpm2bDigest",
        [⟨.ofIdent "marshalable", .paths [(.ofIdent "tpm2b_simple", false)]⟩],
        .struct (.named (tpm2bFields "buffer" (.other "64")))⟩ =
      .ok ⟨.tpm2bSimple "buffer" (.other "64"), none⟩ :=
  (deriveTpmMarshalInner_tpm2bSimple_iff rfl rfl).mpr
    ⟨_, _, _, rfl, isContainer_tpm2bFields "buffer" (.other "64"), rfl⟩

/-- `derive(Tpm2bStruct)` accepts a size and a byte array of `size_of` of a type. -/
theorem deriveTpm2bStructInner_eq_ok_iff {input : DeriveInput} {buffer : Ident} {ty : RustType} :
    deriveTpm2bStructInner input = .ok (buffer, ty) ↔
      ∃ first second len hasAttrs hasQself args rest,
        input.data = .struct (.named [first, second]) ∧ first.ident = "size" ∧
        first.ty = .prim .u16 ∧ second.ident = buffer ∧ second.ty = .array (.prim .u8) len ∧
        len = .call (.path hasAttrs hasQself
          (.cons "size_of" (.angleBracketed (.type ty args)) rest)) ∧ ty.isPath = true := by
  unfold deriveTpm2bStructInner
  constructor
  · intro h
    split at h
    · next fields hdata =>
      split at h
      · cases h
      · next buffer' len hcommon =>
        obtain ⟨first, second, rfl, hident, hu16, rfl, hbuffer⟩ :=
          deriveTpm2bCommon_eq_ok_iff.mp hcommon
        split at h
        · next func =>
          split at h
          · next hasAttrs hasQself path =>
            split at h
            · cases h
            · next ident arguments rest =>
              split_ifs at h with hsize
              · split at h
                · split at h
                  · next ty' args =>
                    split_ifs at h with hpath
                    cases h
                    refine ⟨first, second, _, hasAttrs, hasQself, args, rest, hdata, hident,
                      hu16, rfl, hbuffer, ?_, hpath⟩
                    rw [beq_iff_eq.mp hsize]
                  · cases h
                  · cases h
                · cases h
          · cases h
        · cases h
    · cases h
  · rintro ⟨first, second, len, hasAttrs, hasQself, args, rest, hdata, hident, hu16, rfl,
      hbuffer, rfl, hpath⟩
    have hcommon : deriveTpm2bCommon input.ident (.named [first, second]) = .ok (second.ident, _) :=
      deriveTpm2bCommon_eq_ok_iff.mpr ⟨first, second, rfl, hident, hu16, rfl, hbuffer⟩
    simp [hdata, hcommon, hpath]

section

variable {cap : ℕ}

/-- A container as a struct of its fields. -/
def containerFields : Tpm2b cap ≃ U16 × List.Vector U8 cap × Unit where
  toFun v := (v.size, v.buffer, ())
  invFun p := ⟨p.1, p.2.1⟩
  left_inv _ := rfl
  right_inv _ := rfl

/-- The description of a container without the flag. -/
def containerTy (cap : ℕ) : Ty (Tpm2b cap) :=
  .namedStruct containerFields (.length .u16 rfl (.lengthArray (.last 0) (.prim .u8) 0 cap .nil))

theorem namedFields_tpm2bFields (Γ : Crate) (array : Ident) (len : Expr) :
    Γ.namedFields [] (tpm2bFields array len) =
      some (.length .u16 rfl (.lengthArray 0 (.prim .u8) (0 : U8) (Γ.size len) .nil)) := rfl

/-- Without the flag the code for the fields of a container is the codec of `containerTy`. As
in any struct, the array cannot have the name of the parameter. -/
theorem tpm2bFields_expands {array : Ident} (hsize : array ≠ "size") (hbuffer : array ≠ "buffer")
    (Γ : Crate) (len : Expr) :
    let codec := containerTy (Γ.size len)
    let fields := tpm2bFields array len
    ∃ code, getStructCode (.named fields) = .ok code ∧
      (∀ v : Tpm2b (Γ.size len), code.runTryMarshal (Γ.toValue fields (containerFields v)) =
        OptionT.lift (codec.tryMarshal v)) ∧
      code.runTryUnmarshal Γ =
        OptionT.lift ((fun v => Γ.toValue fields (containerFields v)) <$> codec.tryUnmarshal) := by
  intro codec fields
  have hty : Typechecks Γ fields := typechecks_lengthArray hsize (by decide) hbuffer rfl rfl len
  have hnamed := namedFields_tpm2bFields Γ array len
  have hcode := structCode_of_namedFields (α := Tpm2b (Γ.size len)) containerFields hnamed
    hty.nodup hty.buffer
  exact ⟨structCode fields, rfl, hcode.1, hcode.2⟩

theorem enc_u8 (x : U8) : Prim.enc .u8 x = [x] := by
  simp [Prim.enc, BigEndian.toBe]

theorem wellFormed_containerTy (v : Tpm2b cap) : (containerTy cap).WellFormed v ↔ v.WellFormed := by
  have h : (containerTy cap).WellFormed v ↔ v.size.toNat ≤ cap ∧
      (∀ x ∈ v.buffer.toList.take v.size.toNat, True) ∧
      v.buffer.toList.drop v.size.toNat = (List.replicate cap 0).drop v.size.toNat ∧ True :=
    Iff.rfl
  rw [h]
  constructor
  · rintro ⟨hle, -, htail, -⟩
    exact ⟨hle, htail⟩
  · rintro ⟨hle, htail⟩
    exact ⟨hle, fun _ _ => trivial, htail, trivial⟩

theorem enc_containerTy (v : Tpm2b cap) : (containerTy cap).enc v = v.enc := by
  have h : (containerTy cap).enc v = Chunk.flat (⟨Prim.u16.enc v.size, true⟩ ::
      ((v.buffer.toList.take v.size.toNat).flatMap (Ty.prim .u8).chunks ++ [])) := rfl
  have hbytes (xs : List U8) : Chunk.flat (xs.flatMap (Ty.prim .u8).chunks) = xs := by
    induction xs with
    | nil => rfl
    | cons x xs ih =>
      rw [List.flatMap_cons, Ty.chunks, enc_u8, List.singleton_append, Chunk.flat_cons, ih]
      rfl
  rw [h, Chunk.flat_cons, List.append_nil, hbytes]
  rfl

/-- The flag changes nothing on the wire: both codes accept the same bytes with the same
values, and write the same bytes into a buffer that has room for them. -/
theorem containerTy_agrees (cap : ℕ) :
    (∀ b v r, (containerTy cap).tryUnmarshal.run b = .ok v r ↔
      (Ty.tpm2bSimple cap).tryUnmarshal.run b = .ok v r) ∧
    ∀ v : Tpm2b cap, v.WellFormed → ∀ buffer : List U8, v.enc.length ≤ buffer.length →
      ((containerTy cap).tryMarshal v).run buffer =
        ((Ty.tpm2bSimple cap).tryMarshal v).run buffer := by
  have henc (v : Tpm2b cap) : (Ty.tpm2bSimple cap).enc v = v.enc := by
    simp [Ty.enc, Ty.chunks]
  constructor
  · intro b v r
    rw [(Ty.decodes _).run_eq_ok_iff, (Ty.decodes _).run_eq_ok_iff, wellFormed_containerTy,
      enc_containerTy, henc]
    rfl
  · intro v hv buffer hroom
    have hplain := (containerTy cap).puts_tryMarshal ((wellFormed_containerTy v).mpr hv)
    have hsimple := (Ty.tpm2bSimple cap).puts_tryMarshal (v := v) hv
    rw [enc_containerTy] at hplain
    rw [henc] at hsimple
    rw [hplain buffer hroom, hsimple buffer hroom]

end

end TpmRs.MarshalableDerive
