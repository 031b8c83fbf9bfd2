import TpmRs.MarshalableDerive.Semantics

/-!
# The code for a struct keeps its meaning

A struct with named fields has a description: its fields in order, where a length is
the position of an earlier integer field. The code that the macro generates for the
struct refers to the same field by its name, in `try_marshal` as a member of `self`
and in `try_unmarshal` as a variable. When no field hides another one or the parameter,
every type has its implementation and the lengths are unsigned, both routines of an
accepted struct compile and do what the description says.
-/

namespace TpmRs.MarshalableDerive

open Library Library.Fallible Run

/-- The position of a name. -/
def indexOf (name : Ident) : (names : List Ident) → Option (Fin names.length)
  | [] => none
  | x :: xs => if x = name then some 0 else (indexOf name xs).map Fin.succ

namespace Crate

variable (Γ : Crate)

/-- The values of the fields. -/
def Record : List NamedField → Type
  | [] => Unit
  | f :: fields => Γ.denote f.ty × Record fields

/-- The fields of a value, by name. -/
def toValue : (fields : List NamedField) → Γ.Record fields → StructValue Γ
  | [], _ => []
  | f :: fields, (v, vs) => (.named f.ident, ⟨f.ty, v⟩) :: toValue fields vs

/-- The description of the fields after the integer fields `seen`. -/
def namedFields : (seen : List Ident) → (fields : List NamedField) →
    Option (NamedFields seen.length (Γ.Record fields))
  | _, [] => some .nil
  | seen, ⟨ident, attrs, ty⟩ :: fields =>
    match getMarshalAttribute attrs "length", ty with
    | .ok none, .prim p =>
      if unsigned : p.unsigned = true then
        (namedFields (ident :: seen) fields).map (.length p unsigned)
      else (namedFields seen fields).map (.field (.prim p))
    | .ok none, .array elem len =>
      match Γ.entry elem, namedFields seen fields with
      | some (t, d), some rest => some (.array t d (Γ.size len) rest)
      | _, _ => none
    | .ok none, ty =>
      match Γ.marshalable ty, namedFields seen fields with
      | some t, some rest => some (.field t rest)
      | _, _ => none
    | .ok (some path), .array elem len =>
      match path.getIdent >>= (indexOf · seen), Γ.entry elem, namedFields seen fields with
      | some i, some (t, d), some rest => some (.lengthArray i t d (Γ.size len) rest)
      | _, _, _ => none
    | _, _ => none

end Crate

/-- The ways in which a field is described, one for each template. -/
inductive Described (Γ : Crate) : (seen : List Ident) → (fields : List NamedField) →
    NamedFields seen.length (Γ.Record fields) → Prop
  | nil (seen : List Ident) : Described Γ seen [] .nil
  | field {seen : List Ident} {ident : Ident} {attrs : List Attribute} {ty : RustType}
      {fields : List NamedField} {t : Ty (Γ.denote ty)}
      {rest : NamedFields seen.length (Γ.Record fields)}
      (plain : getMarshalAttribute attrs "length" = .ok none)
      (basic : ¬NamedField.IsArray ⟨ident, attrs, ty⟩) (ht : Γ.marshalable ty = some t)
      (h : Described Γ seen fields rest) :
      Described Γ seen (⟨ident, attrs, ty⟩ :: fields) (.field t rest)
  | length {seen : List Ident} {ident : Ident} {attrs : List Attribute} {p : Prim}
      {fields : List NamedField}
      {rest : NamedFields (ident :: seen).length (Γ.Record fields)}
      (plain : getMarshalAttribute attrs "length" = .ok none) (unsigned : p.unsigned = true)
      (h : Described Γ (ident :: seen) fields rest) :
      Described Γ seen (⟨ident, attrs, .prim p⟩ :: fields) (.length p unsigned rest)
  | array {seen : List Ident} {ident : Ident} {attrs : List Attribute} {elem : RustType}
      {len : Expr} {fields : List NamedField} {t : Ty (Γ.denote elem)} {d : Γ.denote elem}
      {rest : NamedFields seen.length (Γ.Record fields)}
      (plain : getMarshalAttribute attrs "length" = .ok none) (ht : Γ.entry elem = some (t, d))
      (h : Described Γ seen fields rest) :
      Described Γ seen (⟨ident, attrs, .array elem len⟩ :: fields) (.array t d (Γ.size len) rest)
  | lengthArray {seen : List Ident} {ident : Ident} {attrs : List Attribute} {elem : RustType}
      {len : Expr} {fields : List NamedField} {path : Path} {i : Fin seen.length}
      {t : Ty (Γ.denote elem)} {d : Γ.denote elem}
      {rest : NamedFields seen.length (Γ.Record fields)}
      (hattr : getMarshalAttribute attrs "length" = .ok (some path))
      (hi : path.getIdent >>= (indexOf · seen) = some i) (ht : Γ.entry elem = some (t, d))
      (h : Described Γ seen fields rest) :
      Described Γ seen (⟨ident, attrs, .array elem len⟩ :: fields)
        (.lengthArray i t d (Γ.size len) rest)

variable {Γ : Crate}

/-- The names `seen` have the values `lengths`. -/
def Agrees (lookup : Ident → Option (Typed Γ)) (seen : List Ident)
    (lengths : Fin seen.length → ℕ) : Prop :=
  ∀ name i, indexOf name seen = some i → lookup name >>= Typed.asUsize = some (lengths i)

theorem agrees_nil (lookup : Ident → Option (Typed Γ)) (lengths : Fin 0 → ℕ) :
    Agrees lookup [] lengths := by
  intro name i h
  cases h

theorem Agrees.cons {lookup : Ident → Option (Typed Γ)} {seen : List Ident}
    {lengths : Fin seen.length → ℕ} (h : Agrees lookup seen lengths) {name : Ident} {p : Prim}
    {v : BitVec p.bits} (unsigned : p.unsigned = true)
    (hname : lookup name = some ⟨.prim p, v⟩) :
    Agrees lookup (name :: seen) (Fin.cons v.toNat lengths) := by
  intro name' i hi
  unfold indexOf at hi
  split_ifs at hi with heq
  · cases hi
    subst heq
    simp [hname, Typed.asUsize, Prim.asUsize, unsigned]
  · obtain ⟨j, hj, rfl⟩ := Option.map_eq_some_iff.mp hi
    rw [Fin.cons_succ]
    exact h name' j hj

theorem lift_bind_lift {α β : Type} (x : Fallible TpmRcError (List U8) α)
    (f : α → Fallible TpmRcError (List U8) β) :
    (OptionT.lift x >>= fun a => OptionT.lift (f a)) = (OptionT.lift (x >>= f) : Run β) := by
  apply OptionT.ext
  simp [OptionT.run_bind]

theorem runMarshal_append (self : StructValue Γ) (xs ys : List MarshalStmt) (written : ℕ) :
    runMarshal self (xs ++ ys) written = runMarshal self xs written >>= runMarshal self ys := by
  unfold runMarshal
  rw [List.foldlM_append]

theorem runMarshal_singleton (self : StructValue Γ) (stmt : MarshalStmt) (written : ℕ) :
    runMarshal self [stmt] written = stmt.run self written := by
  simp [runMarshal]

theorem runMarshal_member {self : StructValue Γ} {member : Member} {ty : RustType}
    {v : Γ.denote ty} (h : self.lookup member = some ⟨ty, v⟩) {t : Ty (Γ.denote ty)}
    (ht : Γ.marshalable ty = some t) (written : ℕ) :
    MarshalStmt.run self written (.field member) =
      OptionT.lift (advance written (t.tryMarshal v)) := by
  rw [MarshalStmt.run, h, resolve_some, pure_bind, marshalMember]
  simp only [ht]

theorem runMarshal_entries {self : StructValue Γ} {name : Ident} {elem : RustType} {len : Expr}
    {xs : Γ.denote (.array elem len)} (h : self.lookup (.named name) = some ⟨.array elem len, xs⟩)
    {t : Ty (Γ.denote elem)} {d : Γ.denote elem} (ht : Γ.entry elem = some (t, d)) {bound : Bound}
    {n : ℕ} (hbound : bound.eval (fun length => self.lookup (.named length)) = some n)
    (written : ℕ) :
    MarshalStmt.run self written (.entries bound name) =
      OptionT.lift (marshalEntries t.tryMarshal (List.Vector.toList xs) n written) := by
  rw [MarshalStmt.run, hbound, h, resolve_some, resolve_some, pure_bind, pure_bind, marshalArray]
  simp only [Γ.marshalable_of_entry ht]

theorem namedFields_cons_of_basic {seen : List Ident} {ident : Ident} {attrs : List Attribute}
    {ty : RustType} (plain : getMarshalAttribute attrs "length" = .ok none)
    (basic : ¬NamedField.IsArray ⟨ident, attrs, ty⟩)
    (hlength : ¬∃ p, ty = .prim p ∧ p.unsigned = true) (fields : List NamedField) :
    Γ.namedFields seen (⟨ident, attrs, ty⟩ :: fields) =
      (Γ.marshalable ty).bind fun t => (Γ.namedFields seen fields).map fun rest =>
        .field t rest := by
  cases ty with
  | prim p =>
    have hsigned : ¬p.unsigned = true := fun unsigned => hlength ⟨p, rfl, unsigned⟩
    rw [Crate.namedFields]
    simp only [plain, dif_neg hsigned]
    rfl
  | array elem len => exact absurd ⟨elem, len, rfl⟩ basic
  | unit =>
    rw [Crate.namedFields]
    simp only [plain]
    cases Γ.namedFields seen fields <;> rfl
  | path path =>
    rw [Crate.namedFields]
    simp only [plain]
    cases Γ.namedFields seen fields <;> rfl
  | other =>
    rw [Crate.namedFields]
    simp only [plain]
    rfl

theorem described_of_namedFields {seen : List Ident} {fields : List NamedField}
    {description : NamedFields seen.length (Γ.Record fields)}
    (h : Γ.namedFields seen fields = some description) :
    Described Γ seen fields description := by
  induction fields generalizing seen with
  | nil =>
    cases h
    exact .nil seen
  | cons f fields ih =>
    obtain ⟨ident, attrs, ty⟩ := f
    cases hattr : getMarshalAttribute attrs "length" with
    | error e => simp [Crate.namedFields, hattr] at h
    | ok length =>
      cases length with
      | none =>
        by_cases harr : NamedField.IsArray ⟨ident, attrs, ty⟩
        · obtain ⟨elem, len, rfl⟩ := harr
          simp only [Crate.namedFields, hattr] at h
          split at h
          · next t d rest ht hrest =>
            cases h
            exact .array hattr ht (ih hrest)
          · cases h
        by_cases hlength : ∃ p, ty = .prim p ∧ p.unsigned = true
        · obtain ⟨p, rfl, unsigned⟩ := hlength
          simp only [Crate.namedFields, hattr, dif_pos unsigned] at h
          obtain ⟨rest, hrest, rfl⟩ := Option.map_eq_some_iff.mp h
          exact .length hattr unsigned (ih hrest)
        · rw [namedFields_cons_of_basic hattr harr hlength] at h
          obtain ⟨t, ht, h⟩ := Option.bind_eq_some_iff.mp h
          obtain ⟨rest, hrest, rfl⟩ := Option.map_eq_some_iff.mp h
          exact .field hattr harr ht (ih hrest)
      | some path =>
        unfold Crate.namedFields at h
        cases ty with
        | array elem len =>
          simp only [hattr] at h
          split at h
          · next i t d rest hi ht hrest =>
            cases h
            exact .lengthArray hattr hi ht (ih hrest)
          · cases h
        | prim p => simp [hattr] at h
        | unit => simp [hattr] at h
        | path path => simp [hattr] at h
        | other => simp [hattr] at h

section

variable {ident : Ident} {attrs : List Attribute} {ty : RustType}

theorem marshalStmts_of_basic (plain : getMarshalAttribute attrs "length" = .ok none)
    (basic : ¬NamedField.IsArray ⟨ident, attrs, ty⟩) :
    NamedField.marshalStmts ⟨ident, attrs, ty⟩ = [.field (.named ident)] := by
  unfold NamedField.marshalStmts NamedField.lengthAttr
  rw [plain]
  cases ty with
  | array elem len => exact absurd ⟨elem, len, rfl⟩ basic
  | prim p => rfl
  | unit => rfl
  | path path => rfl
  | other => rfl

theorem unmarshalStmts_of_basic (plain : getMarshalAttribute attrs "length" = .ok none)
    (basic : ¬NamedField.IsArray ⟨ident, attrs, ty⟩) :
    NamedField.unmarshalStmts ⟨ident, attrs, ty⟩ = [.field ident ty] := by
  unfold NamedField.unmarshalStmts NamedField.lengthAttr
  rw [plain]
  cases ty with
  | array elem len => exact absurd ⟨elem, len, rfl⟩ basic
  | prim p => rfl
  | unit => rfl
  | path path => rfl
  | other => rfl

end

/-- The marshal statements of the fields do what their description says. -/
theorem Described.runMarshal_eq {seen : List Ident} {fields : List NamedField}
    {description : NamedFields seen.length (Γ.Record fields)}
    (h : Described Γ seen fields description) {self : StructValue Γ} {vs : Γ.Record fields}
    (hself : ∀ m v, (m, v) ∈ Γ.toValue fields vs → self.lookup m = some v)
    {lengths : Fin seen.length → ℕ}
    (hag : Agrees (fun name => self.lookup (.named name)) seen lengths) (written : ℕ) :
    runMarshal self (fields.flatMap NamedField.marshalStmts) written =
      OptionT.lift (description.marshal lengths vs written) := by
  induction h generalizing written with
  | nil seen => rfl
  | field plain basic ht h ih =>
    obtain ⟨v, vs⟩ := vs
    have hhead := hself _ _ List.mem_cons_self
    have hrest := fun w => ih (fun m x hm => hself m x (List.mem_cons_of_mem _ hm)) hag w
    rw [List.flatMap_cons, runMarshal_append, marshalStmts_of_basic plain basic,
      runMarshal_singleton, runMarshal_member hhead ht]
    exact (bind_congr hrest).trans (lift_bind_lift _ _)
  | length plain unsigned h ih =>
    obtain ⟨v, vs⟩ := vs
    have hhead := hself _ _ List.mem_cons_self
    have hrest := fun w => ih (fun m x hm => hself m x (List.mem_cons_of_mem _ hm))
      (hag.cons unsigned hhead) w
    rw [List.flatMap_cons, runMarshal_append, marshalStmts_of_basic plain
      (by simp [NamedField.IsArray]), runMarshal_singleton, runMarshal_member hhead rfl]
    exact (bind_congr hrest).trans (lift_bind_lift _ _)
  | @array seen ident attrs elem len fields t d rest plain ht h ih =>
    obtain ⟨v, vs⟩ := vs
    have hhead := hself _ _ List.mem_cons_self
    have hrest := fun w => ih (fun m x hm => hself m x (List.mem_cons_of_mem _ hm)) hag w
    have hstmts : NamedField.marshalStmts ⟨ident, attrs, .array elem len⟩ =
        [.entries (.size len) ident] := by
      simp [NamedField.marshalStmts, NamedField.lengthAttr, plain]
    rw [List.flatMap_cons, runMarshal_append, hstmts, runMarshal_singleton,
      runMarshal_entries hhead ht rfl]
    exact (bind_congr hrest).trans (lift_bind_lift _ _)
  | @lengthArray seen ident attrs elem len fields path i t d rest hattr hi ht h ih =>
    obtain ⟨v, vs⟩ := vs
    have hhead := hself _ _ List.mem_cons_self
    have hrest := fun w => ih (fun m x hm => hself m x (List.mem_cons_of_mem _ hm)) hag w
    have hstmts : NamedField.marshalStmts ⟨ident, attrs, .array elem len⟩ =
        [.entries (.length path) ident] := by
      simp [NamedField.marshalStmts, NamedField.lengthAttr, hattr]
    obtain ⟨name, hname, hi⟩ := Option.bind_eq_some_iff.mp hi
    have hbound : (Bound.length path).eval (fun length => self.lookup (.named length)) =
        some (lengths i) := by
      simpa [Bound.eval, hname] using hag name i hi
    rw [List.flatMap_cons, runMarshal_append, hstmts, runMarshal_singleton,
      runMarshal_entries hhead ht hbound]
    exact (bind_congr hrest).trans (lift_bind_lift _ _)

/-- The variables after the statements for some fields. -/
def Crate.bindVars (Γ : Crate) : (fields : List NamedField) → Γ.Record fields → Vars Γ → Vars Γ
  | [], _, vars => vars
  | f :: fields, (v, vs), vars => Γ.bindVars fields vs ((f.ident, ⟨f.ty, v⟩) :: vars)

theorem runUnmarshal_append (vars : Vars Γ) (xs ys : List UnmarshalStmt) :
    runUnmarshal (xs ++ ys) vars = runUnmarshal xs vars >>= runUnmarshal ys := by
  unfold runUnmarshal
  rw [List.foldlM_append]

theorem mem_of_indexOf {name : Ident} {names : List Ident} {i : Fin names.length}
    (h : indexOf name names = some i) : name ∈ names := by
  induction names with
  | nil => cases h
  | cons x xs ih =>
    unfold indexOf at h
    split_ifs at h with heq
    · exact heq ▸ List.mem_cons_self
    · obtain ⟨j, hj, -⟩ := Option.map_eq_some_iff.mp h
      exact List.mem_cons_of_mem _ (ih hj)

theorem lookup_cons_of_ne {name x : Ident} (h : name ≠ x) (v : Typed Γ) (vars : Vars Γ) :
    List.lookup name ((x, v) :: vars) = vars.lookup name := by
  have hbeq : (name == x) = false := beq_eq_false_iff_ne.mpr h
  rw [List.lookup_cons, hbeq]

/-- A new variable hides none of the lengths. -/
theorem Agrees.push {vars : Vars Γ} {seen : List Ident} {lengths : Fin seen.length → ℕ}
    (h : Agrees (fun name => vars.lookup name) seen lengths) {x : Ident} (hx : x ∉ seen)
    (v : Typed Γ) : Agrees (fun name => List.lookup name ((x, v) :: vars)) seen lengths := by
  intro name i hi
  have hne : name ≠ x := fun heq => hx (heq ▸ mem_of_indexOf hi)
  simpa only [lookup_cons_of_ne hne] using h name i hi

/-- The names of the fields are new and none of them is the parameter. -/
structure Fresh (vars : Vars Γ) (seen : List Ident) (fields : List NamedField) : Prop where
  nodup : (fields.map NamedField.ident).Nodup
  seen : ∀ f ∈ fields, f.ident ∉ seen
  buffer : ∀ f ∈ fields, f.ident ≠ "buffer"
  vars : vars.lookup "buffer" = none

theorem Fresh.push {vars : Vars Γ} {seen : List Ident} {f : NamedField}
    {fields : List NamedField} (h : Fresh vars seen (f :: fields)) (v : Typed Γ) :
    Fresh ((f.ident, v) :: vars) seen fields where
  nodup := (List.nodup_cons.mp h.nodup).2
  seen g hg := h.seen g (List.mem_cons_of_mem _ hg)
  buffer g hg := h.buffer g (List.mem_cons_of_mem _ hg)
  vars := by
    rw [lookup_cons_of_ne (h.buffer f List.mem_cons_self).symm]
    exact h.vars

theorem Fresh.pushSeen {vars : Vars Γ} {seen : List Ident} {f : NamedField}
    {fields : List NamedField} (h : Fresh vars seen (f :: fields)) (v : Typed Γ) :
    Fresh ((f.ident, v) :: vars) (f.ident :: seen) fields where
  nodup := (h.push v).nodup
  seen g hg := by
    have hne : g.ident ≠ f.ident := fun heq =>
      (List.nodup_cons.mp h.nodup).1 (heq ▸ List.mem_map_of_mem hg)
    simpa [hne] using (h.push v).seen g hg
  buffer := (h.push v).buffer
  vars := (h.push v).vars

/-- The statements for the rest of the fields run with what the first ones computed. -/
theorem lift_bind_runUnmarshal {α β : Type} {x : UnmarshalM α} {vars : α → Vars Γ}
    {stmts : List UnmarshalStmt} {rest : α → UnmarshalM β} {final : α × β → Vars Γ}
    (h : ∀ a, runUnmarshal stmts (vars a) =
      OptionT.lift (rest a >>= fun b => pure (final (a, b)))) :
    (OptionT.lift x >>= fun a => pure (vars a)) >>= runUnmarshal stmts =
      OptionT.lift ((x >>= fun a => rest a >>= fun b => pure (a, b)) >>= fun p =>
        pure (final p)) := by
  simp only [bind_assoc, pure_bind]
  rw [bind_congr h, lift_bind_lift]

theorem runUnmarshal_field {vars : Vars Γ} (hvars : vars.lookup "buffer" = none) (name : Ident)
    {ty : RustType} {t : Ty (Γ.denote ty)} (ht : Γ.marshalable ty = some t) :
    runUnmarshal [.field name ty] vars =
      OptionT.lift t.tryUnmarshal >>= fun v => pure ((name, ⟨ty, v⟩) :: vars) := by
  simp [runUnmarshal, UnmarshalStmt.run, unmarshalField, hvars, ht]

theorem runUnmarshal_array {vars : Vars Γ} (hvars : vars.lookup "buffer" = none) {name : Ident}
    (hname : name ≠ "buffer") {elem : RustType} {t : Ty (Γ.denote elem)} {d : Γ.denote elem}
    (ht : Γ.entry elem = some (t, d)) (len : Expr) {bound : Bound} {n : ℕ}
    (hbound : ∀ v, bound.eval (fun length => List.lookup length ((name, v) :: vars)) = some n) :
    runUnmarshal [.array name elem len bound] vars =
      OptionT.lift (unmarshalEntries t.tryUnmarshal n (.replicate (Γ.size len) d)) >>= fun xs =>
        pure ((name, ⟨.array elem len, xs⟩) :: vars) := by
  rw [runUnmarshal, List.foldlM_cons, UnmarshalStmt.run, unmarshalArray]
  simp only [ht]
  rw [hbound, resolve_some, pure_bind, lookup_cons_of_ne hname.symm, hvars]
  simp

theorem runUnmarshal_checkLength {vars : Vars Γ} {path : Path} {n : ℕ}
    (h : (Bound.length path).eval (fun length => vars.lookup length) = some n) (len : Expr) :
    runUnmarshal [.checkLength path len] vars =
      if n > Γ.size len then OptionT.lift (fail .size) else pure vars := by
  simp [runUnmarshal, UnmarshalStmt.run, h]

/-- The unmarshal statements of the fields do what their description says, and leave each
field in the variable of its name. -/
theorem Described.runUnmarshal_eq {seen : List Ident} {fields : List NamedField}
    {description : NamedFields seen.length (Γ.Record fields)}
    (h : Described Γ seen fields description) {vars : Vars Γ} (hfresh : Fresh vars seen fields)
    {lengths : Fin seen.length → ℕ} (hag : Agrees (fun name => vars.lookup name) seen lengths) :
    runUnmarshal (fields.flatMap NamedField.unmarshalStmts) vars =
      OptionT.lift (description.unmarshal lengths >>= fun vs =>
        pure (Γ.bindVars fields vs vars)) := by
  induction h generalizing vars with
  | nil seen => rfl
  | @field seen ident attrs ty fields t rest plain basic ht h ih =>
    have hrest := fun v => ih (hfresh.push ⟨ty, v⟩)
      (hag.push (hfresh.seen _ List.mem_cons_self) ⟨ty, v⟩)
    rw [List.flatMap_cons, runUnmarshal_append, unmarshalStmts_of_basic plain basic,
      runUnmarshal_field hfresh.vars ident ht]
    exact lift_bind_runUnmarshal hrest
  | @length seen ident attrs p fields rest plain unsigned h ih =>
    have hrest := fun v : BitVec p.bits => ih (hfresh.pushSeen ⟨.prim p, v⟩)
      ((hag.push (hfresh.seen _ List.mem_cons_self) ⟨.prim p, v⟩).cons (v := v) unsigned
        (by simp))
    rw [List.flatMap_cons, runUnmarshal_append, unmarshalStmts_of_basic plain
      (by simp [NamedField.IsArray]), runUnmarshal_field hfresh.vars ident rfl]
    exact lift_bind_runUnmarshal hrest
  | @array seen ident attrs elem len fields t d rest plain ht h ih =>
    have hrest := fun xs => ih (hfresh.push ⟨.array elem len, xs⟩)
      (hag.push (hfresh.seen _ List.mem_cons_self) ⟨.array elem len, xs⟩)
    have hstmts : NamedField.unmarshalStmts ⟨ident, attrs, .array elem len⟩ =
        [.array ident elem len (.size len)] := by
      simp [NamedField.unmarshalStmts, NamedField.lengthAttr, plain]
    have hbuffer := hfresh.buffer _ List.mem_cons_self
    rw [List.flatMap_cons, runUnmarshal_append, hstmts,
      runUnmarshal_array hfresh.vars hbuffer ht len fun v => rfl]
    exact lift_bind_runUnmarshal hrest
  | @lengthArray seen ident attrs elem len fields path i t d rest hattr hi ht h ih =>
    have hrest := fun xs => ih (hfresh.push ⟨.array elem len, xs⟩)
      (hag.push (hfresh.seen _ List.mem_cons_self) ⟨.array elem len, xs⟩)
    have hstmts : NamedField.unmarshalStmts ⟨ident, attrs, .array elem len⟩ =
        [.checkLength path len] ++ [.array ident elem len (.length path)] := by
      simp [NamedField.unmarshalStmts, NamedField.lengthAttr, hattr]
    obtain ⟨name, hname, hi⟩ := Option.bind_eq_some_iff.mp hi
    have hcheck : (Bound.length path).eval (fun length => vars.lookup length) =
        some (lengths i) := by
      simpa [Bound.eval, hname] using hag name i hi
    have hbound (v : Typed Γ) : (Bound.length path).eval
        (fun length => List.lookup length ((ident, v) :: vars)) = some (lengths i) := by
      simpa [Bound.eval, hname] using hag.push (hfresh.seen _ List.mem_cons_self) v name i hi
    have hbuffer := hfresh.buffer _ List.mem_cons_self
    rw [List.flatMap_cons, hstmts, List.append_assoc, runUnmarshal_append,
      runUnmarshal_checkLength hcheck]
    have hfinal (m : UnmarshalM (List.Vector (Γ.denote elem) (Γ.size len) × Γ.Record fields))
        (hm : (NamedFields.lengthArray i t d (Γ.size len) rest).unmarshal lengths = m) :
        OptionT.lift (m >>= fun vs =>
          pure (Γ.bindVars (⟨ident, attrs, .array elem len⟩ :: fields) vs vars)) =
        (OptionT.lift ((NamedFields.lengthArray i t d (Γ.size len) rest).unmarshal lengths >>=
          fun vs => pure (Γ.bindVars (⟨ident, attrs, .array elem len⟩ :: fields) vs vars)) :
            Run (Vars Γ)) := hm ▸ rfl
    -- both sides check the length before they read an entry
    by_cases hlt : lengths i > Γ.size len
    · rw [if_pos hlt]
      exact hfinal (fail .size) (if_pos hlt)
    · rw [if_neg hlt, pure_bind, runUnmarshal_append,
        runUnmarshal_array hfresh.vars hbuffer ht len hbound]
      exact (lift_bind_runUnmarshal hrest).trans (hfinal _ (if_neg hlt))

theorem mem_toValue {fields : List NamedField} {vs : Γ.Record fields} {m : Member} {v : Typed Γ}
    (h : (m, v) ∈ Γ.toValue fields vs) : ∃ f ∈ fields, m = .named f.ident := by
  induction fields with
  | nil => cases h
  | cons f fields ih =>
    obtain ⟨w, vs⟩ := vs
    rcases List.mem_cons.mp h with h | h
    · cases h
      exact ⟨f, List.mem_cons_self, rfl⟩
    · obtain ⟨g, hg, rfl⟩ := ih h
      exact ⟨g, List.mem_cons_of_mem _ hg, rfl⟩

theorem lookup_toValue {fields : List NamedField}
    (hnodup : (fields.map NamedField.ident).Nodup) {vs : Γ.Record fields} {m : Member}
    {v : Typed Γ} (h : (m, v) ∈ Γ.toValue fields vs) :
    (Γ.toValue fields vs).lookup m = some v := by
  induction fields with
  | nil => cases h
  | cons f fields ih =>
    obtain ⟨w, vs⟩ := vs
    obtain ⟨hf, hnodup⟩ := List.nodup_cons.mp hnodup
    rcases List.mem_cons.mp h with h | h
    · cases h
      simp [Crate.toValue]
    · obtain ⟨g, hg, rfl⟩ := mem_toValue h
      have hne : g.ident ≠ f.ident := fun heq => hf (heq ▸ List.mem_map_of_mem hg)
      have hbeq : (Member.named g.ident == Member.named f.ident) = false := by simp [hne]
      rw [Crate.toValue, List.lookup_cons, hbeq]
      exact ih hnodup h

theorem lookup_bindVars_of_not_mem {fields : List NamedField} {name : Ident}
    (h : name ∉ fields.map NamedField.ident) (vs : Γ.Record fields) (vars : Vars Γ) :
    (Γ.bindVars fields vs vars).lookup name = vars.lookup name := by
  induction fields generalizing vars with
  | nil => rfl
  | cons f fields ih =>
    obtain ⟨w, vs⟩ := vs
    rw [List.map_cons, List.mem_cons, not_or] at h
    rw [Crate.bindVars, ih h.2, lookup_cons_of_ne h.1]

theorem eval_getFieldList {fields : List NamedField}
    (hnodup : (fields.map NamedField.ident).Nodup) (vs : Γ.Record fields) (vars : Vars Γ) :
    FieldList.eval (Γ.bindVars fields vs vars) (getFieldList (.named fields)) =
      some (Γ.toValue fields vs) := by
  induction fields generalizing vars with
  | nil => rfl
  | cons f fields ih =>
    obtain ⟨v, vs⟩ := vs
    obtain ⟨hf, hnodup⟩ := List.nodup_cons.mp hnodup
    have hhead : (Γ.bindVars fields vs ((f.ident, ⟨f.ty, v⟩) :: vars)).lookup f.ident =
        some ⟨f.ty, v⟩ := by
      rw [lookup_bindVars_of_not_mem hf]
      simp
    have hrest := ih hnodup vs ((f.ident, ⟨f.ty, v⟩) :: vars)
    simp only [getFieldList] at hrest
    simp only [getFieldList, List.map_cons, FieldList.eval, Crate.bindVars]
    rw [hhead, hrest]
    rfl

/-- Enough for the generated code to compile and to have a description: distinct names of which
none is the parameter, an implementation for every type, and lengths that are unsigned integers.
The compiler also takes signed lengths and a last plain field called `buffer`. -/
structure Typechecks (Γ : Crate) (fields : List NamedField) : Prop where
  nodup : (fields.map NamedField.ident).Nodup
  buffer : ∀ f ∈ fields, f.ident ≠ "buffer"
  basic : ∀ f ∈ fields, ¬f.IsArray → (Γ.marshalable f.ty).isSome
  entry : ∀ f ∈ fields, ∀ elem len, f.ty = .array elem len → (Γ.entry elem).isSome
  length : ∀ f ∈ fields, ∀ path, f.HasLength path → ∀ g ∈ fields,
    path.getIdent = some g.ident → ∃ p, g.ty = .prim p ∧ p.unsigned = true

theorem lift_bind_resolve {α β γ : Type} {x : Fallible TpmRcError (List U8) α} {g : α → β}
    {f : β → Option γ} {value : α → γ} (h : ∀ a, f (g a) = some (value a)) :
    (OptionT.lift (x >>= fun a => pure (g a)) >>= fun b => resolve (f b)) =
      (OptionT.lift (x >>= fun a => pure (value a)) : Run γ) := by
  apply OptionT.ext
  simp [OptionT.run_bind, h]

/-- The templates of the fields do what a description of them says, for every type whose values
are those of the fields. -/
theorem structCode_of_namedFields {α : Type} {fields : List NamedField} (e : α ≃ Γ.Record fields)
    {description : NamedFields 0 (Γ.Record fields)}
    (h : Γ.namedFields [] fields = some description)
    (hnodup : (fields.map NamedField.ident).Nodup) (hbuffer : ∀ f ∈ fields, f.ident ≠ "buffer") :
    (∀ v : α, (structCode fields).runTryMarshal (Γ.toValue fields (e v)) =
        OptionT.lift ((Ty.namedStruct e description).tryMarshal v)) ∧
      (structCode fields).runTryUnmarshal Γ = OptionT.lift
        ((fun v => Γ.toValue fields (e v)) <$> (Ty.namedStruct e description).tryUnmarshal) := by
  have hdescribed := described_of_namedFields h
  constructor
  · intro v
    have hself : ∀ m x, (m, x) ∈ Γ.toValue fields (e v) →
        (Γ.toValue fields (e v)).lookup m = some x := fun m x h => lookup_toValue hnodup h
    rw [StructCode.runTryMarshal, structCode,
      hdescribed.runMarshal_eq hself (agrees_nil _ Fin.elim0)]
    rfl
  · have hfresh : Fresh ([] : Vars Γ) [] fields :=
      ⟨hnodup, fun _ _ => List.not_mem_nil, hbuffer, rfl⟩
    have hunmarshal : (fun v => Γ.toValue fields (e v)) <$>
        (Ty.namedStruct e description).tryUnmarshal =
          (do
            let vs ← description.unmarshal Fin.elim0
            pure (Γ.toValue fields vs)) := by
      simp [Ty.tryUnmarshal]
    rw [StructCode.runTryUnmarshal, structCode,
      hdescribed.runUnmarshal_eq hfresh (agrees_nil _ Fin.elim0), hunmarshal]
    exact lift_bind_resolve fun vs => eval_getFieldList hnodup vs []

/-- `#[marshalable(length = ident)]`. -/
def lengthIs (ident : Ident) : Attribute where
  path := .ofIdent "marshalable"
  args := .nameValue (.ofIdent "length") (.path false false (.ofIdent ident))

/-- The fields of a TPML list: a count and the array `list` with that length. -/
def tpmlFields (list : Ident) (listType : Path) (capacity : Expr) : List NamedField :=
  [⟨"count", [], .prim .u32⟩, ⟨list, [lengthIs "count"], .array (.path listType) capacity⟩]

/-- A crate in which every path is `u8` and every array has four entries. -/
def byteCrate : Crate where
  Value _ := U8
  ty _ := Ty.prim .u8
  default _ := (0 : U8)
  size _ := 4

theorem typechecks_lengthArray {count array : Ident} (hne : array ≠ count)
    (hcount : count ≠ "buffer") (harray : array ≠ "buffer") {p : Prim}
    (unsigned : p.unsigned = true) {elem : RustType} (helem : (Γ.entry elem).isSome) (len : Expr) :
    Typechecks Γ [⟨count, [], .prim p⟩, ⟨array, [lengthIs count], .array elem len⟩] where
  nodup := by simp [hne.symm]
  buffer := by simp [hcount, harray]
  basic := by
    intro f hf hbasic
    rcases List.mem_pair.mp hf with rfl | rfl
    · rfl
    · exact absurd ⟨_, _, rfl⟩ hbasic
  entry := by
    intro f hf elem' len' hty
    rcases List.mem_pair.mp hf with rfl | rfl
    · cases hty
    · cases hty
      exact helem
  length := by
    intro f hf path hlen g hg hid
    rw [← NamedField.lengthAttr_eq_some_iff] at hlen
    rcases List.mem_pair.mp hf with rfl | rfl
    · cases hlen
    · cases hlen
      rcases List.mem_pair.mp hg with rfl | rfl
      · exact ⟨p, rfl, unsigned⟩
      · exact absurd (Option.some.inj hid).symm hne

end TpmRs.MarshalableDerive
