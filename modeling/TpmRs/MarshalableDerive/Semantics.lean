import TpmRs.MarshalableDerive.Diagnostics

/-!
# Running generated code

The statements of the templates are run on values that carry their Rust type, with the
names resolved where they are used: a member of `self`, or the latest variable of that
name. What a name of the surrounding crate means is a parameter. Code that the compiler
refuses, because a name is missing or has the wrong type, has no result.
-/

namespace TpmRs.MarshalableDerive

open Library Library.Fallible

/-- The types, the defaults and the constants of the crate that the code becomes part of. -/
structure Crate where
  Value : Path → Type
  ty : (path : Path) → Ty (Value path)
  default : (path : Path) → Value path
  size : Expr → ℕ

/-- `v as usize`. -/
def Prim.asUsize (p : Prim) (v : BitVec p.bits) : ℕ :=
  if p.unsigned then v.toNat else (v.signExtend 64).toNat

namespace Crate

variable (Γ : Crate)

/-- The values of a type. -/
def denote : RustType → Type
  | .prim p => BitVec p.bits
  | .unit => Unit
  | .path path => Γ.Value path
  | .array elem len => List.Vector (denote elem) (Γ.size len)
  | .other => Empty

/-- The implementation of `Marshalable` that `<ty>::try_unmarshal` refers to. -/
def marshalable : (ty : RustType) → Option (Ty (Γ.denote ty))
  | .prim p => some (.prim p)
  | .unit => some .unit
  | .path path => some (Γ.ty path)
  | .array (.prim .u8) len => some (.byteArray (Γ.size len))
  | _ => none

/-- What `ty::try_unmarshal` and `ty::default` refer to; only a path can stand there. -/
def entry : (ty : RustType) → Option (Ty (Γ.denote ty) × Γ.denote ty)
  | .prim p => some (.prim p, (0 : BitVec p.bits))
  | .path path => some (Γ.ty path, Γ.default path)
  | _ => none

theorem marshalable_of_entry {ty : RustType} {t : Ty (Γ.denote ty)} {d : Γ.denote ty}
    (h : Γ.entry ty = some (t, d)) : Γ.marshalable ty = some t := by
  cases ty with
  | prim p =>
    cases h
    rfl
  | path path =>
    cases h
    rfl
  | unit => cases h
  | array elem len => cases h
  | other => cases h

end Crate

/-- A value with its type. -/
structure Typed (Γ : Crate) where
  ty : RustType
  value : Γ.denote ty

/-- The fields of a value. -/
abbrev StructValue (Γ : Crate) := List (Member × Typed Γ)

/-- The variables in scope, the latest first. -/
abbrev Vars (Γ : Crate) := List (Ident × Typed Γ)

/-- A run of code; without a value when the code does not compile. -/
abbrev Run := OptionT (Fallible TpmRcError (List U8))

namespace Run

/-- What the compiler resolves to, if it does. -/
def resolve {α : Type} (x : Option α) : Run α := OptionT.mk (pure x)

/-- Code that does not compile. -/
def rejected {α : Type} : Run α := resolve none

@[simp] theorem resolve_some {α : Type} (a : α) : resolve (some a) = pure a := rfl

end Run

open Run

variable {Γ : Crate}

def Typed.asUsize : Typed Γ → Option ℕ
  | ⟨.prim p, v⟩ => some (Prim.asUsize p v)
  | _ => none

/-- The end of a loop, where `length` gives the value of a name. -/
def Bound.eval (length : Ident → Option (Typed Γ)) : Bound → Option ℕ
  | .length path => path.getIdent >>= length >>= Typed.asUsize
  | .size len => some (Γ.size len)

/-- `written += self.member.try_marshal(&mut buffer[written..])?;` -/
def marshalMember (written : ℕ) (v : Typed Γ) : Run ℕ :=
  match Γ.marshalable v.ty with
  | some t => OptionT.lift (advance written (t.tryMarshal v.value))
  | none => rejected

/-- The loop over the first `n` entries of an array. -/
def marshalArray (n written : ℕ) : Typed Γ → Run ℕ
  | ⟨.array elem _, entries⟩ =>
    match Γ.marshalable elem with
    | some t => OptionT.lift (marshalEntries t.tryMarshal (List.Vector.toList entries) n written)
    | none => rejected
  | _ => rejected

def MarshalStmt.run (self : StructValue Γ) (written : ℕ) : MarshalStmt → Run ℕ
  | .field member => do
    let v ← resolve (self.lookup member)
    marshalMember written v
  | .entries bound name => do
    let n ← resolve (bound.eval fun length => self.lookup (.named length))
    let entries ← resolve (self.lookup (.named name))
    marshalArray n written entries

/-- `<ty>::try_unmarshal(buffer)?`; a variable `buffer` would hide the parameter. -/
def unmarshalField (vars : Vars Γ) (ty : RustType) : Run (Γ.denote ty) :=
  match vars.lookup "buffer", Γ.marshalable ty with
  | none, some t => OptionT.lift t.tryUnmarshal
  | _, _ => rejected

/-- The array `name` of defaults, of which the loop replaces the first entries. -/
def unmarshalArray (vars : Vars Γ) (name : Ident) (entryType : RustType) (maxSize : Expr)
    (bound : Bound) : Run (Vars Γ) :=
  match Γ.entry entryType with
  | none => rejected
  | some (t, d) => do
    let entries : Γ.denote (.array entryType maxSize) := List.Vector.replicate (Γ.size maxSize) d
    let vars' := (name, ⟨.array entryType maxSize, entries⟩) :: vars
    let n ← resolve (bound.eval fun length => vars'.lookup length)
    if (vars'.lookup "buffer").isSome then rejected
    else
      let entries ← OptionT.lift (unmarshalEntries t.tryUnmarshal n entries)
      pure ((name, ⟨.array entryType maxSize, entries⟩) :: vars)

/-- The variables after a statement. -/
def UnmarshalStmt.run (vars : Vars Γ) : UnmarshalStmt → Run (Vars Γ)
  | .field name ty => do
    let v ← unmarshalField vars ty
    pure ((name, ⟨ty, v⟩) :: vars)
  | .checkLength length maxSize => do
    let n ← resolve ((Bound.length length).eval fun length => vars.lookup length)
    if n > Γ.size maxSize then OptionT.lift (fail .size) else pure vars
  | .array name entryType maxSize bound => unmarshalArray vars name entryType maxSize bound

/-- The value at the end of `try_unmarshal`. -/
def FieldList.eval (vars : Vars Γ) : FieldList → Option (StructValue Γ)
  | [] => some []
  | (member, name) :: fields => do
    let v ← vars.lookup name
    let vs ← FieldList.eval vars fields
    some ((member, v) :: vs)

def runMarshal (self : StructValue Γ) (stmts : List MarshalStmt) (written : ℕ) : Run ℕ :=
  stmts.foldlM (MarshalStmt.run self) written

def runUnmarshal (stmts : List UnmarshalStmt) (vars : Vars Γ) : Run (Vars Γ) :=
  stmts.foldlM UnmarshalStmt.run vars

namespace StructCode

def runTryMarshal (code : StructCode) (self : StructValue Γ) : Run ℕ :=
  runMarshal self code.tryMarshal 0

def runTryUnmarshal (Γ : Crate) (code : StructCode) : Run (StructValue Γ) := do
  let vars ← runUnmarshal code.tryUnmarshal []
  resolve (code.instantiation.eval vars)

end StructCode

end TpmRs.MarshalableDerive
