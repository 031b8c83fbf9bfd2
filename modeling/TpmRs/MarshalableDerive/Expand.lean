import TpmRs.Library.Collect
import TpmRs.MarshalableDerive.Syntax

/-!
# The generators of `derive(Marshalable)`

The two passes over named fields keep a map of the fields that a length attribute may
name and go on after an error, so that all errors of a pass are reported together; the
second pass runs only when the first one reported none. An enum is read twice in the
same way. A length that is not a single name makes the macro panic.
-/

namespace TpmRs.MarshalableDerive

open Library Library.Fallible

/-- `HashMap<&Ident, Type>`, the latest entry first. -/
abbrev BasicFieldTypes := List (Ident × RustType)

abbrev Gen := Fallible Error BasicFieldTypes

/-- The loop of `get_marshal_attribute`, with the attribute found so far. -/
def findMarshalAttribute : Option (Path × Expr) → List Attribute →
    Except Error (Option (Path × Expr))
  | found, [] => .ok found
  | found, attr :: attrs =>
    if attr.path.isIdent "marshalable" then
      if found.isSome then
        .error (.new (.attribute attr) "Only one #[marshalable(...)] is permitted for field")
      else match attr.args with
        | .nameValue path value => findMarshalAttribute (some (path, value)) attrs
        | _ => .error [(.attribute attr, .parser)]
    else findMarshalAttribute found attrs

def getMarshalAttribute (attrs : List Attribute) (key : Ident) : Except Error (Option Path) :=
  match findMarshalAttribute none attrs with
  | .error e => .error e
  | .ok none => .ok none
  | .ok (some (path, value)) =>
    if path.isIdent key then
      match value with
      | .path hasAttrs hasQself length =>
        if hasAttrs then .error (.new (.expr value) "Attributes are not allowed here")
        else if hasQself then
          .error (.new (.expr value) "Explicit Self types are not allowed here")
        else .ok (some length)
      | _ => .error (.new (.expr value) "Unknown expression: Expected identifier")
    else .error (.new (.path path) ("Unknown attribute: Expected `" ++ key ++ "`"))

/-- `get_array_default`. -/
def getArrayDefault (name : Ident) : RustType → Except Error (Expr × RustType)
  | .array elem len => .ok (len, elem)
  | _ => .error (.new (.ident name) "length attribute is not permitted for non-array field")

/-- `?` on a `Result`. -/
def ofResult {ε σ α : Type} : Except ε α → Fallible ε σ α
  | .ok a => pure a
  | .error e => fail e

/-- `get_primitive`, called with `basic_field_types.get(length.get_ident().unwrap())`. -/
def getPrimitive (path : Path) : Gen Path := do
  let types ← get
  match path.getIdent with
  | none => abort
  | some ident =>
    match types.lookup ident with
    | none => fail [(.path path, .debug "length field must appear before field "
        path.getIdent " using it in a length attribute")]
    | some _ => pure path

def getNamedFieldMarshal (field : NamedField) : Gen (List MarshalStmt) := do
  match ← ofResult (getMarshalAttribute field.attrs "length") with
  | some length =>
    let lengthPrim ← getPrimitive length
    pure [.entries (.length lengthPrim) field.ident]
  | none =>
    match field.ty with
    | .array _ maxSize => pure [.entries (.size maxSize) field.ident]
    | ty =>
      modify fun types => (field.ident, ty) :: types
      pure [.field (.named field.ident)]

def getNamedFieldUnmarshal (field : NamedField) : Gen (List UnmarshalStmt) := do
  match ← ofResult (getMarshalAttribute field.attrs "length") with
  | some length =>
    let (maxSize, entryType) ← ofResult (getArrayDefault field.ident field.ty)
    let lengthPrim ← getPrimitive length
    pure [.checkLength lengthPrim maxSize,
      .array field.ident entryType maxSize (.length lengthPrim)]
  | none =>
    match field.ty with
    | .array entryType maxSize => pure [.array field.ident entryType maxSize (.size maxSize)]
    | ty =>
      modify fun types => (field.ident, ty) :: types
      pure [.field field.ident ty]

/-- `get_named_fields_marshal` and `get_named_fields_unmarshal`, with a new map each; the
errors of all fields go through `errors_to_error`. -/
def getNamedFields {α : Type} (gen : NamedField → Gen (List α)) (fields : List NamedField) :
    Except (Fault Error) (List α) :=
  match (collect gen fields).run [] with
  | .ok recurse _ => .ok recurse.flatten
  | .error e _ => .error e

def getFieldMarshalBody : Fields → Except (Fault Error) (List MarshalStmt)
  | .named fields => getNamedFields getNamedFieldMarshal fields
  | .unnamed types => .ok ((List.range types.length).map fun i => .field (.unnamed i))
  | .unit => .ok []

def getFieldUnmarshal : Fields → Except (Fault Error) (List UnmarshalStmt)
  | .named fields => getNamedFields getNamedFieldUnmarshal fields
  | .unnamed types => .ok (types.zipIdx.map fun (ty, i) => .field (indexIdent i) ty)
  | .unit => .ok []

def getFieldList : Fields → FieldList
  | .named fields => fields.map fun f => (.named f.ident, f.ident)
  | .unnamed types => (List.range types.length).map fun i => (.unnamed i, indexIdent i)
  | .unit => []

/-- The body of the loop of `get_enum_marshal_body`. -/
def getVariantMarshal (v : Variant) : Fallible Error Unit MarshalArm :=
  match v.fields with
  | .unnamed types =>
    pure { variant := v.ident
           binders := getFieldList v.fields
           body := (List.range types.length).map indexIdent }
  | _ => fail (.new (.fields v.fields) "Cannot marshal named field in an enum")

def getSelection (v : Variant) : Except Error Expr :=
  match v.discriminant with
  | some sel => .ok sel
  | none => .error (.new (.ident v.ident) "Enum variant must declare a selector")

/-- The loop of `get_enum_unmarshal_body`: a variant without a selector ends it at once,
an error in the fields of a variant does not. -/
def getVariantsUnmarshal : List Variant → List Error → List UnmarshalArm →
    Except (Fault Error) (List UnmarshalArm)
  | [], [], conditionalCode => .ok conditionalCode
  | [], errors, _ => .error (.err errors.flatten)
  | v :: vs, errors, conditionalCode =>
    match getFieldUnmarshal v.fields with
    | .error .panic => .error .panic
    | .error (.err e) => getVariantsUnmarshal vs (errors ++ [e]) conditionalCode
    | .ok variantUnmarshal =>
      match getSelection v with
      | .error e => .error (.err e)
      | .ok sel => getVariantsUnmarshal vs errors (conditionalCode ++
          [{ selector := sel, body := variantUnmarshal, variant := v.ident
             fields := getFieldList v.fields }])

/-- `get_enum_impl`. -/
def getEnumImpl (variants : List Variant) : Except (Fault Error) EnumCode :=
  match (collect getVariantMarshal variants).run () with
  | .error e _ => .error e
  | .ok marshalText _ =>
    match getVariantsUnmarshal variants [] [] with
    | .error e => .error e
    | .ok unmarshalText =>
      .ok { tryMarshalVariant := marshalText, tryUnmarshalVariant := unmarshalText }

/-- Parse the arguments of an attribute up to `name`; a parse that leaves arguments over
fails as a whole. -/
def parseMarshalableArgs (name : Ident) : List (Path × Bool) → Bool
  | [] => false
  | (path, comma) :: args =>
    if path.isIdent name then !comma && args.isEmpty else parseMarshalableArgs name args

def hasMarshalableAttr (attr : Attribute) (name : Ident) : Bool :=
  attr.path.isIdent "marshalable" &&
    match attr.args with
    | .paths args => parseMarshalableArgs name args
    | _ => false

/-- `derive_tpm2b_common`: the name of the buffer and its size. -/
def deriveTpm2bCommon (name : Ident) (fields : Fields) : Except (Fault Error) (Ident × Expr) :=
  let general := "A Tpm2b struct must contain just two elements, a u16 size and a buffer array"
  let firstElm := "First element in Tpm2b struct must be a 'size: u16'"
  let secondElm := "Second element in Tpm2b struct must be u8 buffer: " ++
    "<buffer name>: [u8, <buffer size>]."
  match fields with
  | .named [first, second] =>
    match first.ident == "size", first.ty with
    | true, .prim .u16 =>
      match second.ty with
      | .array (.prim .u8) len => .ok (second.ident, len)
      | .array elem _ => .error (.err (.new (.type elem) secondElm))
      | ty => .error (.err (.new (.type ty) secondElm))
    | _, _ => .error (.err (.new (.ident first.ident) firstElm))
  | .named _ => .error (.err (.new (.fields fields) general))
  | _ => .error (.err (.new (.ident name) general))

/-- The code for a struct, from both passes. -/
def getStructCode (fields : Fields) : Except (Fault Error) StructCode :=
  match getFieldMarshalBody fields with
  | .error e => .error e
  | .ok marshalText =>
    match getFieldUnmarshal fields with
    | .error e => .error e
    | .ok fieldUnmarsh =>
      .ok { tryMarshal := marshalText, tryUnmarshal := fieldUnmarsh
            instantiation := getFieldList fields }

def deriveTpmMarshalInner (input : DeriveInput) : Except (Fault Error) Expansion :=
  let hasTpm2bSimple := input.attrs.any (hasMarshalableAttr · "tpm2b_simple")
  let hasTpm2bStruct := input.attrs.any (hasMarshalableAttr · "tpm2b_struct")
  let expand (pureImpl : PureImpl) (code : MarshalableImpl) : Expansion :=
    { pureImpl := pureImpl
      marshalable := if hasTpm2bSimple || hasTpm2bStruct then none else some code }
  match input.data with
  | .struct fields =>
    match getStructCode fields with
    | .error e => .error e
    | .ok code =>
      if hasTpm2bSimple then
        match deriveTpm2bCommon input.ident fields with
        | .error e => .error e
        | .ok (fieldName, size) => .ok (expand (.tpm2bSimple fieldName size) (.struct code))
      else .ok (expand .none (.struct code))
  | .enum variants =>
    match getEnumImpl variants with
    | .error e => .error e
    | .ok code => .ok (expand (.marshalableVariant code) .enum)
  | .union => .error (.err (.new .input "Marshalable cannot be derived for union type"))

/-- `derive(Tpm2bStruct)`: the name of the buffer and the struct whose size it has. -/
def deriveTpm2bStructInner (input : DeriveInput) : Except (Fault Error) (Ident × RustType) :=
  let err (span : Span) : Except (Fault Error) (Ident × RustType) :=
    .error (.err (.new span ("Second element in Tpm2b struct must define a u8 buffer using " ++
      "sizeof expression: <buffer name>: [u8, sizeof(<some struct>) ] when using " ++
      "#[derive(Tpm2bStruct)].")))
  match input.data with
  | .struct fields =>
    match deriveTpm2bCommon input.ident fields with
    | .error e => .error e
    | .ok (fieldName, sizeExpression) =>
      match sizeExpression with
      | .call func =>
        match func with
        | .path _ _ path =>
          match path with
          | .nil => err (.expr func)
          | .cons ident arguments _ =>
            if ident == "size_of" then
              match arguments with
              | .angleBracketed args =>
                match args with
                | .type ty _ => if ty.isPath then .ok (fieldName, ty) else err (.type ty)
                | .other _ => err (.arguments arguments)
                | .nil => err (.path path)
              | _ => err (.arguments arguments)
            else err (.path path)
        | _ => err (.expr func)
      | _ => err (.expr sizeExpression)
  | _ => .error (.err (.new .input
      "The #[derive(Tpm2bStruct)] can only be applied to a struct."))

end TpmRs.MarshalableDerive
