import TpmRs.Marshalable.Derive

/-!
# What the derive macros read and write

The input of a derive macro is a type definition, as far as the macros look at it:
names, attributes, types of fields and array lengths. Its output is code built from a
few templates, each of which is one constructor here. An error carries the part of the
input that it points to and its text; several errors are reported as one list.
-/

namespace TpmRs.MarshalableDerive

abbrev Ident := String

mutual

/-- `syn::Expr`; what is neither a path nor a call is never looked into. -/
inductive Expr
  | path (hasAttrs hasQself : Bool) (path : Path)
  | call (func : Expr)
  | other (text : String)

/-- `syn::Path`, segment by segment. -/
inductive Path
  | nil
  | cons (ident : Ident) (arguments : PathArguments) (rest : Path)

inductive PathArguments
  | none
  | angleBracketed (args : GenericArguments)
  | parenthesized

inductive GenericArguments
  | nil
  | type (ty : RustType) (rest : GenericArguments)
  | other (rest : GenericArguments)

/-- `syn::Type`. A path that names a primitive integer is the constructor `prim`. -/
inductive RustType
  | prim (p : Prim)
  | unit
  | path (path : Path)
  | array (elem : RustType) (len : Expr)
  | other

end

namespace Path

/-- `get_ident`: the name of a path of one segment without arguments. -/
def getIdent : Path → Option Ident
  | cons ident .none nil => some ident
  | _ => none

def isIdent (path : Path) (ident : Ident) : Bool := path.getIdent == some ident

/-- A path of one segment. -/
def ofIdent (ident : Ident) : Path := cons ident .none nil

@[simp] theorem getIdent_ofIdent (ident : Ident) : (ofIdent ident).getIdent = some ident := rfl

end Path

/-- `Type::Path`. -/
def RustType.isPath : RustType → Bool
  | .prim _ | .path _ => true
  | _ => false

/-- The arguments in the parentheses of an attribute. -/
inductive AttrArgs
  | nameValue (path : Path) (value : Expr)
  /-- Paths, each with whether a comma follows it. -/
  | paths (args : List (Path × Bool))
  | other

structure Attribute where
  path : Path
  args : AttrArgs

structure NamedField where
  ident : Ident
  attrs : List Attribute
  ty : RustType

inductive Fields
  | named (fields : List NamedField)
  | unnamed (types : List RustType)
  | unit

structure Variant where
  ident : Ident
  fields : Fields
  discriminant : Option Expr

inductive Data
  | struct (fields : Fields)
  | enum (variants : List Variant)
  | union

structure DeriveInput where
  ident : Ident
  attrs : List Attribute
  data : Data

/-- What an error points to. -/
inductive Span
  | input
  | ident (ident : Ident)
  | attribute (attr : Attribute)
  | path (path : Path)
  | expr (expr : Expr)
  | type (ty : RustType)
  | arguments (arguments : PathArguments)
  | fields (fields : Fields)
  | generics

inductive Message
  | text (text : String)
  /-- A text around the `{:?}` of an optional name. -/
  | debug (before : String) (ident : Option Ident) (after : String)
  /-- A text of the parser for attribute arguments. -/
  | parser

/-- `syn::Error`: one message after another. -/
abbrev Error := List (Span × Message)

/-- `Error::new`. -/
def Error.new (span : Span) (text : String) : Error := [(span, .text text)]

/-- The end of a loop over the entries of an array. -/
inductive Bound
  /-- `length as usize`, of a field in `try_marshal` and of a variable in `try_unmarshal`. -/
  | length (path : Path)
  | size (len : Expr)

inductive Member
  | named (ident : Ident)
  | unnamed (index : ℕ)
  deriving DecidableEq

/-- The statements of a generated `try_marshal`. -/
inductive MarshalStmt
  /-- `written += self.member.try_marshal(&mut buffer[written..])?;` -/
  | field (member : Member)
  /-- `for i in 0..bound { written += self.name[i].try_marshal(&mut buffer[written..])?; }` -/
  | entries (bound : Bound) (name : Ident)

/-- The statements of a generated `try_unmarshal`. -/
inductive UnmarshalStmt
  /-- `let name = <ty>::try_unmarshal(buffer)?;` -/
  | field (name : Ident) (ty : RustType)
  /-- `if length as usize > max_size { return Err(TpmRcError::Size); }` -/
  | checkLength (length : Path) (maxSize : Expr)
  /-- `let mut name = [entry_type::default(); max_size];` and
  `for i in name.iter_mut().take(bound) { *i = entry_type::try_unmarshal(buffer)?; }` -/
  | array (name : Ident) (entryType : RustType) (maxSize : Expr) (bound : Bound)

/-- The fields of the value that is built at the end of `try_unmarshal`, each with the
variable that it is taken from. -/
abbrev FieldList := List (Member × Ident)

/-- `fN`, the name of a variable for field `N` of a tuple. -/
def indexIdent (i : ℕ) : Ident := "f" ++ toString i

/-- `Enum::variant(f0, f1, ...) => { written += f0.try_marshal(&mut buffer[written..])?; ... }` -/
structure MarshalArm where
  variant : Ident
  binders : FieldList
  body : List Ident

/-- `if selector == sel { ...; return Ok(Enum::variant(f0, f1, ...)); }` -/
structure UnmarshalArm where
  selector : Expr
  body : List UnmarshalStmt
  variant : Ident
  fields : FieldList

/-- The code for a struct. -/
structure StructCode where
  tryMarshal : List MarshalStmt
  tryUnmarshal : List UnmarshalStmt
  instantiation : FieldList

/-- The code for an enum: `try_marshal_variant` and `try_unmarshal_variant`. -/
structure EnumCode where
  tryMarshalVariant : List MarshalArm
  tryUnmarshalVariant : List UnmarshalArm

/-- The `impl` blocks that come before the one of `Marshalable`. -/
inductive PureImpl
  | none
  /-- `Tpm2bSimple`, `Default`, `AsRef` and a `Marshalable` of its own. -/
  | tpm2bSimple (fieldName : Ident) (sizeExpression : Expr)
  | marshalableVariant (code : EnumCode)

/-- The `impl Marshalable` block; the one of an enum calls the routines for its variant. -/
inductive MarshalableImpl
  | struct (code : StructCode)
  | enum

structure Expansion where
  pureImpl : PureImpl
  marshalable : Option MarshalableImpl

end TpmRs.MarshalableDerive
