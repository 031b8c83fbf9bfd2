import TpmRs.MarshalableDerive.Expand

/-!
# Which structs the macro accepts

The two passes over named fields are stated through the outcome of one field after the
fields before it. A definition is accepted when every length attribute is the only one
of its field, is on an array and names an earlier field that is neither an array nor
has an attribute; otherwise the first pass with an error reports all of its errors.
-/

namespace TpmRs.MarshalableDerive

open Library Library.Fallible

namespace NamedField

/-- The length attribute of a field, as both passes read it. -/
def lengthAttr (f : NamedField) : Except Error (Option Path) := getMarshalAttribute f.attrs "length"

def IsArray (f : NamedField) : Prop := ∃ elem len, f.ty = .array elem len

/-- Whether a later length attribute may name the field. -/
def isBasic (f : NamedField) : Bool :=
  match f.lengthAttr, f.ty with
  | .ok none, .array _ _ => false
  | .ok none, _ => true
  | _, _ => false

/-- The length is not a single name. -/
def Panics (f : NamedField) : Prop := ∃ path, f.lengthAttr = .ok (some path) ∧ path.getIdent = none

/-- The marshal template for the field. -/
def marshalStmts (f : NamedField) : List MarshalStmt :=
  match f.lengthAttr, f.ty with
  | .ok (some length), _ => [.entries (.length length) f.ident]
  | _, .array _ maxSize => [.entries (.size maxSize) f.ident]
  | _, _ => [.field (.named f.ident)]

/-- The unmarshal template for the field. -/
def unmarshalStmts (f : NamedField) : List UnmarshalStmt :=
  match f.lengthAttr, f.ty with
  | .ok (some length), .array entryType maxSize =>
    [.checkLength length maxSize, .array f.ident entryType maxSize (.length length)]
  | _, .array entryType maxSize => [.array f.ident entryType maxSize (.size maxSize)]
  | _, ty => [.field f.ident ty]

end NamedField

/-- The map after the fields `before`. -/
def basicFieldTypes (before : List NamedField) : BasicFieldTypes :=
  ((before.filter NamedField.isBasic).map fun f => (f.ident, f.ty)).reverse

/-- A length attribute after the fields `before` may name one of these. -/
def basicNames (before : List NamedField) : List Ident :=
  (before.filter NamedField.isBasic).map NamedField.ident

theorem lookup_basicFieldTypes_eq_none_iff {before : List NamedField} {ident : Ident} :
    (basicFieldTypes before).lookup ident = none ↔ ident ∉ basicNames before := by
  simp only [List.lookup_eq_none_iff, basicFieldTypes, basicNames, List.mem_reverse,
    List.mem_map]
  constructor
  · rintro h ⟨f, hf, rfl⟩
    simpa using h (f.ident, f.ty) ⟨f, hf, rfl⟩
  · rintro h p ⟨f, hf, rfl⟩
    have hne : ident ≠ f.ident := fun hid => h ⟨f, hf, hid.symm⟩
    simpa using hne

theorem basicFieldTypes_append_of_not_isBasic (before : List NamedField) {f : NamedField}
    (h : f.isBasic = false) :
    basicFieldTypes (before ++ [f]) = basicFieldTypes before := by
  simp [basicFieldTypes, h]

/-- The error for a length that no earlier field has. -/
def lengthError (path : Path) : Error :=
  [(.path path, .debug "length field must appear before field " path.getIdent
    " using it in a length attribute")]

/-- `get_primitive` on a path that is a name. -/
def lengthOutcome {α : Type} (before : List NamedField) (path : Path) (a : α) : Except Error α :=
  match path.getIdent with
  | some ident => if ident ∈ basicNames before then .ok a else .error (lengthError path)
  | none => .ok a

def marshalOutcome (before : List NamedField) (f : NamedField) : Except Error (List MarshalStmt) :=
  match f.lengthAttr with
  | .error e => .error e
  | .ok none => .ok f.marshalStmts
  | .ok (some path) => lengthOutcome before path f.marshalStmts

def unmarshalOutcome (before : List NamedField) (f : NamedField) :
    Except Error (List UnmarshalStmt) :=
  match f.lengthAttr with
  | .error e => .error e
  | .ok none => .ok f.unmarshalStmts
  | .ok (some path) =>
    match getArrayDefault f.ident f.ty with
    | .error e => .error e
    | .ok _ => lengthOutcome before path f.unmarshalStmts

theorem run_getPrimitive_of_none {path : Path} (h : path.getIdent = none)
    (types : BasicFieldTypes) : (getPrimitive path).run types = .error .panic types := by
  unfold getPrimitive
  simp [h]

theorem run_getPrimitive {path : Path} {ident : Ident} (h : path.getIdent = some ident)
    (before : List NamedField) :
    (getPrimitive path).run (basicFieldTypes before) =
      if ident ∈ basicNames before then .ok path (basicFieldTypes before)
      else .error (.err (lengthError path)) (basicFieldTypes before) := by
  unfold getPrimitive
  by_cases hmem : ident ∈ basicNames before
  · have hsome := lookup_basicFieldTypes_eq_none_iff.not.mpr (not_not.mpr hmem)
    obtain ⟨ty, hty⟩ := Option.ne_none_iff_exists'.mp hsome
    simp [h, hty, hmem]
  · have hnone := lookup_basicFieldTypes_eq_none_iff.mpr hmem
    simp [h, hnone, hmem, lengthError]

theorem run_getNamedFieldMarshal_of_none (before : List NamedField) {f : NamedField}
    (h : f.lengthAttr = .ok none) :
    (getNamedFieldMarshal f).run (basicFieldTypes before) =
      .ok f.marshalStmts (basicFieldTypes (before ++ [f])) := by
  unfold NamedField.lengthAttr at h
  cases hty : f.ty <;>
    simp [getNamedFieldMarshal, NamedField.marshalStmts, NamedField.isBasic,
      NamedField.lengthAttr, basicFieldTypes, h, hty, ofResult]

theorem run_getNamedFieldUnmarshal_of_none (before : List NamedField) {f : NamedField}
    (h : f.lengthAttr = .ok none) :
    (getNamedFieldUnmarshal f).run (basicFieldTypes before) =
      .ok f.unmarshalStmts (basicFieldTypes (before ++ [f])) := by
  unfold NamedField.lengthAttr at h
  cases hty : f.ty <;>
    simp [getNamedFieldUnmarshal, NamedField.unmarshalStmts, NamedField.isBasic,
      NamedField.lengthAttr, basicFieldTypes, h, hty, ofResult]

theorem basicFieldTypes_append_of_ne (before : List NamedField) {f : NamedField}
    (h : f.lengthAttr ≠ .ok none) : basicFieldTypes (before ++ [f]) = basicFieldTypes before := by
  apply basicFieldTypes_append_of_not_isBasic
  unfold NamedField.isBasic
  split
  · rfl
  · exact absurd ‹_› h
  · rfl

theorem run_getNamedFieldMarshal_of_error (before : List NamedField) {f : NamedField} {e : Error}
    (h : f.lengthAttr = .error e) :
    (getNamedFieldMarshal f).run (basicFieldTypes before) =
      .error (.err e) (basicFieldTypes (before ++ [f])) := by
  have hread : getMarshalAttribute f.attrs "length" = .error e := h
  rw [basicFieldTypes_append_of_ne before (by simp [h]), getNamedFieldMarshal, hread]
  exact run_bind_of_error rfl

theorem run_getNamedFieldUnmarshal_of_error (before : List NamedField) {f : NamedField} {e : Error}
    (h : f.lengthAttr = .error e) :
    (getNamedFieldUnmarshal f).run (basicFieldTypes before) =
      .error (.err e) (basicFieldTypes (before ++ [f])) := by
  have hread : getMarshalAttribute f.attrs "length" = .error e := h
  rw [basicFieldTypes_append_of_ne before (by simp [h]), getNamedFieldUnmarshal, hread]
  exact run_bind_of_error rfl

theorem run_getNamedFieldMarshal_of_length (before : List NamedField) {f : NamedField}
    {path : Path} {ident : Ident} (h : f.lengthAttr = .ok (some path))
    (hid : path.getIdent = some ident) :
    (getNamedFieldMarshal f).run (basicFieldTypes before) =
      ended (basicFieldTypes (before ++ [f])) (lengthOutcome before path f.marshalStmts) := by
  have hread : getMarshalAttribute f.attrs "length" = .ok (some path) := h
  have hprim := run_getPrimitive hid before
  rw [basicFieldTypes_append_of_ne before (by simp [h]), getNamedFieldMarshal, hread, ofResult,
    pure_bind]
  simp only [lengthOutcome, hid]
  by_cases hmem : ident ∈ basicNames before
  · rw [if_pos hmem] at hprim
    rw [run_bind_of_ok hprim, if_pos hmem]
    simp [NamedField.marshalStmts, h, ended]
  · rw [if_neg hmem] at hprim
    rw [run_bind_of_error hprim, if_neg hmem]
    rfl

theorem follows_getNamedFieldMarshal :
    Follows getNamedFieldMarshal basicFieldTypes marshalOutcome NamedField.Panics := by
  apply Follows.of_run
  · intro before f hf
    unfold marshalOutcome
    split
    · next e hattr => exact run_getNamedFieldMarshal_of_error before hattr
    · next hattr => exact run_getNamedFieldMarshal_of_none before hattr
    · next path hattr =>
      cases hid : path.getIdent with
      | none => exact absurd ⟨path, hattr, hid⟩ hf
      | some ident => exact run_getNamedFieldMarshal_of_length before hattr hid
  · rintro before f ⟨path, hattr, hid⟩
    have hread : getMarshalAttribute f.attrs "length" = .ok (some path) := hattr
    refine ⟨basicFieldTypes before, ?_⟩
    rw [getNamedFieldMarshal, hread, ofResult, pure_bind,
      run_bind_of_error (run_getPrimitive_of_none hid _)]

theorem getArrayDefault_of_not_isArray {f : NamedField} (h : ¬f.IsArray) :
    getArrayDefault f.ident f.ty = .error (.new (.ident f.ident)
      "length attribute is not permitted for non-array field") := by
  unfold getArrayDefault
  split
  · next elem len hty => exact absurd ⟨elem, len, hty⟩ h
  · rfl

theorem run_getNamedFieldUnmarshal_of_length (before : List NamedField) {f : NamedField}
    {path : Path} (h : f.lengthAttr = .ok (some path)) (hf : ¬(f.Panics ∧ f.IsArray)) :
    (getNamedFieldUnmarshal f).run (basicFieldTypes before) =
      ended (basicFieldTypes (before ++ [f])) (unmarshalOutcome before f) := by
  have hread : getMarshalAttribute f.attrs "length" = .ok (some path) := h
  rw [basicFieldTypes_append_of_ne before (by simp [h]), getNamedFieldUnmarshal, hread, ofResult,
    pure_bind, unmarshalOutcome, h]
  by_cases harr : f.IsArray
  · have hpanics : ¬f.Panics := fun hp => hf ⟨hp, harr⟩
    obtain ⟨elem, len, hty⟩ := harr
    cases hid : path.getIdent with
    | none => exact absurd ⟨path, h, hid⟩ hpanics
    | some ident =>
      have hprim := run_getPrimitive hid before
      simp only [hty, getArrayDefault, lengthOutcome, hid]
      by_cases hmem : ident ∈ basicNames before
      · rw [if_pos hmem] at hprim
        simp [hmem, ofResult, hprim, NamedField.unmarshalStmts, h, hty, ended]
      · rw [if_neg hmem] at hprim
        simp [hmem, ofResult, hprim, ended]
  · rw [getArrayDefault_of_not_isArray harr]
    exact run_bind_of_error rfl

theorem follows_getNamedFieldUnmarshal :
    Follows getNamedFieldUnmarshal basicFieldTypes unmarshalOutcome
      (fun f => f.Panics ∧ f.IsArray) := by
  apply Follows.of_run
  · intro before f hf
    cases hattr : f.lengthAttr with
    | error e =>
      rw [unmarshalOutcome, hattr]
      exact run_getNamedFieldUnmarshal_of_error before hattr
    | ok length =>
      cases length with
      | none =>
        rw [unmarshalOutcome, hattr]
        exact run_getNamedFieldUnmarshal_of_none before hattr
      | some path => exact run_getNamedFieldUnmarshal_of_length before hattr hf
  · rintro before f ⟨⟨path, hattr, hid⟩, elem, len, hty⟩
    have hread : getMarshalAttribute f.attrs "length" = .ok (some path) := hattr
    have hprim := run_getPrimitive_of_none hid (basicFieldTypes before)
    refine ⟨basicFieldTypes before, ?_⟩
    rw [getNamedFieldUnmarshal, hread, ofResult, pure_bind]
    simp [hty, getArrayDefault, ofResult, hprim]

def Attribute.isMarshalable (attr : Attribute) : Bool := attr.path.isIdent "marshalable"

theorem findMarshalAttribute_cons_of_not {attr : Attribute} (h : attr.isMarshalable = false)
    (found : Option (Path × Expr)) (attrs : List Attribute) :
    findMarshalAttribute found (attr :: attrs) = findMarshalAttribute found attrs := by
  rw [Attribute.isMarshalable] at h
  simp [findMarshalAttribute, h]

/-- After one attribute there must not be another one. -/
theorem findMarshalAttribute_some_eq_ok_iff {attrs : List Attribute} {x : Path × Expr}
    {found : Option (Path × Expr)} :
    findMarshalAttribute (some x) attrs = .ok found ↔
      attrs.filter Attribute.isMarshalable = [] ∧ found = some x := by
  induction attrs with
  | nil => simp [findMarshalAttribute, eq_comm]
  | cons attr attrs ih =>
    cases h : attr.isMarshalable with
    | false => rw [findMarshalAttribute_cons_of_not h, ih, List.filter_cons_of_neg (by simp [h])]
    | true =>
      rw [List.filter_cons_of_pos h]
      rw [Attribute.isMarshalable] at h
      simp [findMarshalAttribute, h]

theorem findMarshalAttribute_none_eq_ok_iff {attrs : List Attribute}
    {found : Option (Path × Expr)} :
    findMarshalAttribute none attrs = .ok found ↔
      (attrs.filter Attribute.isMarshalable = [] ∧ found = none) ∨
        ∃ attr path value, attrs.filter Attribute.isMarshalable = [attr] ∧
          attr.args = .nameValue path value ∧ found = some (path, value) := by
  induction attrs with
  | nil => simp [findMarshalAttribute, eq_comm]
  | cons attr attrs ih =>
    cases h : attr.isMarshalable with
    | false => rw [findMarshalAttribute_cons_of_not h, ih, List.filter_cons_of_neg (by simp [h])]
    | true =>
      rw [List.filter_cons_of_pos h]
      rw [Attribute.isMarshalable] at h
      cases hargs : attr.args with
      | nameValue path value =>
        simp only [findMarshalAttribute, h, hargs, Option.isSome_none, Bool.false_eq_true,
          if_true, if_false, findMarshalAttribute_some_eq_ok_iff]
        constructor
        · rintro ⟨hrest, rfl⟩
          exact .inr ⟨attr, path, value, by rw [hrest], hargs, rfl⟩
        · rintro (⟨hnil, -⟩ | ⟨attr', path', value', hone, hargs', rfl⟩)
          · cases hnil
          · obtain ⟨rfl, hrest⟩ := List.cons.inj hone
            rw [hargs] at hargs'
            cases hargs'
            exact ⟨hrest, rfl⟩
      | paths args =>
        simp [findMarshalAttribute, h, hargs]
      | other =>
        simp [findMarshalAttribute, h, hargs]

namespace NamedField

/-- Without an attribute of the macro. -/
def Plain (f : NamedField) : Prop := f.attrs.filter Attribute.isMarshalable = []

/-- With `#[marshalable(length = path)]` as its only attribute of the macro. -/
def HasLength (f : NamedField) (path : Path) : Prop :=
  ∃ attr key, f.attrs.filter Attribute.isMarshalable = [attr] ∧
    attr.args = .nameValue key (.path false false path) ∧ key.isIdent "length" = true

theorem lengthAttr_eq_none_iff {f : NamedField} : f.lengthAttr = .ok none ↔ f.Plain := by
  have hfind : findMarshalAttribute none f.attrs = .ok none ↔ f.Plain := by
    rw [findMarshalAttribute_none_eq_ok_iff]
    simp [Plain]
  rw [← hfind]
  unfold lengthAttr getMarshalAttribute
  constructor
  · intro h
    split at h
    · cases h
    · assumption
    · split_ifs at h
      split at h
      · split_ifs at h
        cases h
      · cases h
  · intro h
    rw [h]

theorem lengthAttr_eq_some_iff {f : NamedField} {path : Path} :
    f.lengthAttr = .ok (some path) ↔ f.HasLength path := by
  have hfind : f.HasLength path ↔ ∃ key, key.isIdent "length" = true ∧
      findMarshalAttribute none f.attrs = .ok (some (key, .path false false path)) := by
    simp only [findMarshalAttribute_none_eq_ok_iff, HasLength]
    constructor
    · rintro ⟨attr, key, hone, hargs, hkey⟩
      exact ⟨key, hkey, .inr ⟨attr, key, _, hone, hargs, rfl⟩⟩
    · rintro ⟨key, hkey, ⟨-, h⟩ | ⟨attr, key', value, hone, hargs, h⟩⟩
      · cases h
      · cases h
        exact ⟨attr, key, hone, hargs, hkey⟩
  rw [hfind]
  unfold lengthAttr getMarshalAttribute
  constructor
  · intro h
    split at h
    · cases h
    · cases h
    · next key value hfound =>
      split_ifs at h with hkey
      split at h
      · next hasAttrs hasQself length =>
        split_ifs at h with hattrs hqself
        cases h
        refine ⟨key, hkey, ?_⟩
        rw [hfound, Bool.eq_false_of_not_eq_true hattrs, Bool.eq_false_of_not_eq_true hqself]
      · cases h
  · rintro ⟨key, hkey, hfound⟩
    simp [hfound, hkey]

end NamedField

theorem NamedField.isBasic_iff {f : NamedField} : f.isBasic = true ↔ f.Plain ∧ ¬f.IsArray := by
  rw [← NamedField.lengthAttr_eq_none_iff]
  unfold NamedField.isBasic NamedField.IsArray
  cases hattr : f.lengthAttr with
  | error e => simp
  | ok length =>
    cases length with
    | none => cases hty : f.ty <;> simp
    | some path => simp

/-- The rule for a field after the fields `before`: it has no attribute of the macro, or
its length is an earlier field without one, and only one of the two is an array. -/
def NamedField.Accepted (before : List NamedField) (f : NamedField) : Prop :=
  f.Plain ∨ ∃ path length, f.HasLength path ∧ path.getIdent = some length.ident ∧
    length ∈ before ∧ length.Plain ∧ ¬length.IsArray ∧ f.IsArray

/-- The rule holds of every field. -/
def Accepted (fields : List NamedField) : Prop :=
  ∀ before f after, fields = before ++ f :: after → f.Accepted before

/-- The code for an accepted struct. -/
def structCode (fields : List NamedField) : StructCode where
  tryMarshal := fields.flatMap NamedField.marshalStmts
  tryUnmarshal := fields.flatMap NamedField.unmarshalStmts
  instantiation := getFieldList (.named fields)

theorem mem_basicNames_iff {before : List NamedField} {ident : Ident} :
    ident ∈ basicNames before ↔
      ∃ length ∈ before, length.Plain ∧ ¬length.IsArray ∧ length.ident = ident := by
  simp [basicNames, NamedField.isBasic_iff, and_assoc]

theorem marshalOutcome_eq_ok {before : List NamedField} {f : NamedField} {code : List MarshalStmt}
    (h : marshalOutcome before f = .ok code) : code = f.marshalStmts := by
  unfold marshalOutcome lengthOutcome at h
  split at h
  · cases h
  · cases h
    rfl
  · split at h
    · split_ifs at h
      cases h
      rfl
    · cases h
      rfl

theorem unmarshalOutcome_eq_ok {before : List NamedField} {f : NamedField}
    {code : List UnmarshalStmt} (h : unmarshalOutcome before f = .ok code) :
    code = f.unmarshalStmts := by
  unfold unmarshalOutcome lengthOutcome at h
  split at h
  · cases h
  · cases h
    rfl
  · split at h
    · cases h
    · split at h
      · split_ifs at h
        cases h
        rfl
      · cases h
        rfl

section

variable {α : Type} {gen : NamedField → Gen (List α)}
  {outcome : List NamedField → NamedField → Except Error (List α)} {panics : NamedField → Prop}
  {stmts : NamedField → List α}

/-- One pass, when no field makes it panic. -/
theorem getNamedFields_of_not_panics (h : Follows gen basicFieldTypes outcome panics)
    (hstmts : ∀ before f code, outcome before f = .ok code → code = stmts f)
    {fields : List NamedField} (hfields : ∀ f ∈ fields, ¬panics f) :
    getNamedFields gen fields =
      match errorsOf (outcomes outcome [] fields) with
      | [] => .ok (fields.flatMap stmts)
      | errors => .error (.err errors.flatten) := by
  have hrun := h.run_collect hfields
  rw [show basicFieldTypes [] = [] from rfl] at hrun
  rw [getNamedFields, hrun]
  cases herr : errorsOf (outcomes outcome [] fields) with
  | nil =>
    rw [outcomes_eq_map_ok herr hstmts, List.flatMap_def]
  | cons e es => rfl

theorem getNamedFields_of_panics (h : Follows gen basicFieldTypes outcome panics)
    {fields : List NamedField} (hfields : ∃ f ∈ fields, panics f) :
    getNamedFields gen fields = .error .panic := by
  obtain ⟨s, hs⟩ := h.run_collect_of_panics hfields
  rw [show basicFieldTypes [] = [] from rfl] at hs
  rw [getNamedFields, hs]

theorem getNamedFields_eq_ok_iff (h : Follows gen basicFieldTypes outcome panics)
    (hstmts : ∀ before f code, outcome before f = .ok code → code = stmts f)
    {fields : List NamedField} {code : List α} :
    getNamedFields gen fields = .ok code ↔
      (∀ before f after, fields = before ++ f :: after →
        ¬panics f ∧ ∃ c, outcome before f = .ok c) ∧ code = fields.flatMap stmts := by
  by_cases hfields : ∃ f ∈ fields, panics f
  · rw [getNamedFields_of_panics h hfields]
    refine iff_of_false nofun ?_
    rintro ⟨hall, -⟩
    obtain ⟨f, hf, hpanics⟩ := hfields
    obtain ⟨before, after, hsplit⟩ := List.append_of_mem hf
    exact (hall before f after hsplit).1 hpanics
  · have hno : ∀ f ∈ fields, ¬panics f := fun f hf hp => hfields ⟨f, hf, hp⟩
    have hnil : errorsOf (outcomes outcome [] fields) = [] ↔
        ∀ before f after, fields = before ++ f :: after →
          ¬panics f ∧ ∃ c, outcome before f = .ok c := by
      rw [errorsOf_outcomes_eq_nil_iff]
      constructor
      · intro hall before f after hsplit
        exact ⟨hno f (by simp [hsplit]), hall before f after hsplit⟩
      · intro hall before f after hsplit
        exact (hall before f after hsplit).2
    rw [getNamedFields_of_not_panics h hstmts hno, ← hnil]
    cases errorsOf (outcomes outcome [] fields) with
    | nil => simp [eq_comm]
    | cons e es => simp

end

theorem lengthOutcome_ok_iff {α : Type} {before : List NamedField} {path : Path} {a : α} :
    (path.getIdent ≠ none ∧ ∃ c, lengthOutcome before path a = .ok c) ↔
      ∃ length, path.getIdent = some length.ident ∧ length ∈ before ∧ length.Plain ∧
        ¬length.IsArray := by
  unfold lengthOutcome
  cases hid : path.getIdent with
  | none => simp
  | some ident =>
    constructor
    · rintro ⟨-, c, hc⟩
      simp only at hc
      split_ifs at hc with hmem
      obtain ⟨length, hbefore, hplain, harr, rfl⟩ := mem_basicNames_iff.mp hmem
      exact ⟨length, rfl, hbefore, hplain, harr⟩
    · rintro ⟨length, hlen, hbefore, hplain, harr⟩
      have hmem := mem_basicNames_iff.mpr ⟨length, hbefore, hplain, harr, rfl⟩
      cases hlen
      exact ⟨by simp, a, if_pos hmem⟩

theorem marshalOutcome_ok_iff {before : List NamedField} {f : NamedField} :
    (¬f.Panics ∧ ∃ code, marshalOutcome before f = .ok code) ↔
      f.Plain ∨ ∃ path length, f.HasLength path ∧ path.getIdent = some length.ident ∧
        length ∈ before ∧ length.Plain ∧ ¬length.IsArray := by
  simp only [← NamedField.lengthAttr_eq_none_iff (f := f), ← NamedField.lengthAttr_eq_some_iff]
  unfold marshalOutcome NamedField.Panics
  cases hattr : f.lengthAttr with
  | error e => simp
  | ok length =>
    cases length with
    | none => simp
    | some path =>
      have h : path.getIdent ≠ none ∧ (∃ c, lengthOutcome before path f.marshalStmts = .ok c) ↔ _ :=
        lengthOutcome_ok_iff
      simpa [eq_comm] using h

theorem unmarshalOutcome_ok_iff {before : List NamedField} {f : NamedField}
    (h : ¬f.Panics ∧ ∃ code, marshalOutcome before f = .ok code) :
    (¬(f.Panics ∧ f.IsArray) ∧ ∃ code, unmarshalOutcome before f = .ok code) ↔
      (f.Plain ∨ f.IsArray) := by
  obtain ⟨hpanics, code, hcode⟩ := h
  have hno : ¬(f.Panics ∧ f.IsArray) := fun hp => hpanics hp.1
  rw [← NamedField.lengthAttr_eq_none_iff]
  unfold marshalOutcome at hcode
  unfold unmarshalOutcome
  cases hattr : f.lengthAttr with
  | error e => simp [hattr] at hcode
  | ok length =>
    cases length with
    | none => simp [hno]
    | some path =>
      simp only [hattr] at hcode
      by_cases harr : f.IsArray
      · have hid : path.getIdent ≠ none := fun hid => hpanics ⟨path, hattr, hid⟩
        obtain ⟨-, hlen⟩ := (lengthOutcome_ok_iff (a := f.unmarshalStmts)).mpr
          (lengthOutcome_ok_iff.mp ⟨hid, code, hcode⟩)
        obtain ⟨elem, len, hty⟩ := id harr
        simpa [harr, hty, getArrayDefault, hpanics] using hlen
      · simp [harr, getArrayDefault_of_not_isArray harr]

theorem NamedField.accepted_iff {before : List NamedField} {f : NamedField} :
    f.Accepted before ↔ (¬f.Panics ∧ ∃ code, marshalOutcome before f = .ok code) ∧
      ¬(f.Panics ∧ f.IsArray) ∧ ∃ code, unmarshalOutcome before f = .ok code := by
  rw [and_congr_right unmarshalOutcome_ok_iff, marshalOutcome_ok_iff]
  unfold NamedField.Accepted
  by_cases hplain : f.Plain
  · simp [hplain]
  · simp only [hplain, false_or]
    constructor
    · rintro ⟨path, length, hlen, hid, hmem, hbasic, harr, hf⟩
      exact ⟨⟨path, length, hlen, hid, hmem, hbasic, harr⟩, hf⟩
    · rintro ⟨⟨path, length, hlen, hid, hmem, hbasic, harr⟩, hf⟩
      exact ⟨path, length, hlen, hid, hmem, hbasic, harr, hf⟩

/-- The macro accepts a struct exactly when every field follows the rule, and then
generates the templates of the fields in order. -/
theorem getStructCode_named_eq_ok_iff {fields : List NamedField} {code : StructCode} :
    getStructCode (.named fields) = .ok code ↔ Accepted fields ∧ code = structCode fields := by
  have hmarshal (code) : getNamedFields getNamedFieldMarshal fields = .ok code ↔ _ :=
    getNamedFields_eq_ok_iff follows_getNamedFieldMarshal fun _ _ _ => marshalOutcome_eq_ok
  have hunmarshal (code) : getNamedFields getNamedFieldUnmarshal fields = .ok code ↔ _ :=
    getNamedFields_eq_ok_iff follows_getNamedFieldUnmarshal fun _ _ _ => unmarshalOutcome_eq_ok
  unfold getStructCode getFieldMarshalBody getFieldUnmarshal
  constructor
  · intro h
    cases hm : getNamedFields getNamedFieldMarshal fields with
    | error e => simp [hm] at h
    | ok marshalText =>
      cases hu : getNamedFields getNamedFieldUnmarshal fields with
      | error e => simp [hm, hu] at h
      | ok unmarshalText =>
        obtain ⟨hallm, rfl⟩ := (hmarshal marshalText).mp hm
        obtain ⟨hallu, rfl⟩ := (hunmarshal unmarshalText).mp hu
        simp only [hm, hu, Except.ok.injEq] at h
        exact ⟨fun before f after hsplit => NamedField.accepted_iff.mpr
          ⟨hallm before f after hsplit, hallu before f after hsplit⟩, h.symm⟩
  · rintro ⟨hall, rfl⟩
    have hm := (hmarshal _).mpr ⟨fun before f after hsplit =>
      (NamedField.accepted_iff.mp (hall before f after hsplit)).1, rfl⟩
    have hu := (hunmarshal _).mpr ⟨fun before f after hsplit =>
      (NamedField.accepted_iff.mp (hall before f after hsplit)).2, rfl⟩
    simp [hm, hu, structCode]

/-- The error of a field with a length that is no array. -/
def NamedField.arrayError (f : NamedField) : Option Error :=
  match f.lengthAttr, getArrayDefault f.ident f.ty with
  | .ok (some _), .error e => some e
  | _, _ => none

/-- The errors of the first pass, in the order of the fields. -/
def marshalErrors (fields : List NamedField) : List Error :=
  errorsOf (outcomes marshalOutcome [] fields)

/-- A field without an error in the first pass can only fail to be an array in the second. -/
theorem unmarshalOutcome_of_marshalOutcome_ok {before : List NamedField} {f : NamedField}
    {code : List MarshalStmt} (h : marshalOutcome before f = .ok code) :
    unmarshalOutcome before f =
      match f.arrayError with
      | some e => .error e
      | none => .ok f.unmarshalStmts := by
  unfold marshalOutcome at h
  unfold unmarshalOutcome NamedField.arrayError
  split at h
  · cases h
  · next hattr => simp [hattr]
  · next path hattr =>
    rw [hattr]
    cases getArrayDefault f.ident f.ty with
    | error e => rfl
    | ok p =>
      unfold lengthOutcome at h ⊢
      split at h
      · next ident hid =>
        split_ifs at h with hmem
        simp [hmem]
      · next hid => rfl

theorem errorsOf_outcomes_unmarshalOutcome (before fields : List NamedField)
    (h : errorsOf (outcomes marshalOutcome before fields) = []) :
    errorsOf (outcomes unmarshalOutcome before fields) =
      fields.filterMap NamedField.arrayError := by
  induction fields generalizing before with
  | nil => rfl
  | cons f fields ih =>
    unfold outcomes at h ⊢
    cases ho : marshalOutcome before f with
    | error e => simp [ho] at h
    | ok code =>
      rw [ho, errorsOf_cons_ok] at h
      have hrest := ih _ h
      rw [unmarshalOutcome_of_marshalOutcome_ok ho, List.filterMap_cons]
      cases f.arrayError with
      | none => rw [errorsOf_cons_ok, hrest]
      | some e => rw [errorsOf_cons_error, hrest]

/-- What the macro reports. A length that is not a single name makes it panic. Otherwise
all errors of the first pass are reported, and those of the second one when there are none. -/
theorem getStructCode_named_eq (fields : List NamedField) :
    ((∃ f ∈ fields, f.Panics) → getStructCode (.named fields) = .error .panic) ∧
      ((∀ f ∈ fields, ¬f.Panics) → getStructCode (.named fields) =
        match marshalErrors fields, fields.filterMap NamedField.arrayError with
        | [], [] => .ok (structCode fields)
        | [], errors => .error (.err errors.flatten)
        | errors, _ => .error (.err errors.flatten)) := by
  constructor
  · intro h
    rw [getStructCode, getFieldMarshalBody,
      getNamedFields_of_panics follows_getNamedFieldMarshal h]
  · intro h
    have hmarshal := getNamedFields_of_not_panics follows_getNamedFieldMarshal
      (fun _ _ _ => marshalOutcome_eq_ok) h
    have hunmarshal := getNamedFields_of_not_panics follows_getNamedFieldUnmarshal
      (fun _ _ _ => unmarshalOutcome_eq_ok) fun f hf hp => h f hf hp.1
    rw [getStructCode, getFieldMarshalBody, getFieldUnmarshal, hmarshal, hunmarshal]
    cases herr : marshalErrors fields with
    | cons e es =>
      rw [marshalErrors] at herr
      rw [herr]
    | nil =>
      rw [marshalErrors] at herr
      rw [herr, errorsOf_outcomes_unmarshalOutcome [] fields herr]
      cases fields.filterMap NamedField.arrayError with
      | nil => rfl
      | cons e es => rfl

end TpmRs.MarshalableDerive
