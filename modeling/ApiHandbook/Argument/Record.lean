import ApiHandbook.Text.Blank
import ApiHandbook.Text.Case
import ApiHandbook.Text.Split

/-! A documented request argument: a name and the fields that its declaration sets, in the order in which they were
first set. -/
namespace ApiHandbook.Argument
open Text

/-- A documented property of a request argument. -/
inductive Field where
  | location
  | type
  | required
  | nullable
  | default
  | help
  deriving DecidableEq, Repr

def Field.header : Field → String
  | .location => "location"
  | .type => "type"
  | .required => "required"
  | .nullable => "nullable"
  | .default => "default"
  | .help => "help"

/-- The field that a declaration's keyword sets. -/
def Field.ofKeyword? (keyword : String) : Option Field :=
  if keyword = "location" then some .location
  else if keyword = "type" ∨ keyword = "ty" ∨ keyword = "kind" then some .type
  else if keyword = "required" then some .required
  else if keyword = "nullable" then some .nullable
  else if keyword = "default" then some .default
  else if keyword = "help" then some .help
  else none

structure Record where
  name : String
  fields : List (Field × String) := []
  deriving DecidableEq, Repr

/-- Replaces the value of a field in its place, or adds the field at the end. -/
def setField (field : Field) (value : String) : List (Field × String) → List (Field × String)
  | [] => [(field, value)]
  | (f, v) :: rest => if f = field then (f, value) :: rest else (f, v) :: setField field value rest

namespace Record

def set (r : Record) (field : Field) (value : String) : Record :=
  { r with fields := setField field value r.fields }

def get? (r : Record) (field : Field) : Option String := r.fields.lookup field

/-- A declaration that names nothing but the argument is optional and nullable. -/
def withBareDefaults (r : Record) : Record :=
  if r.fields.isEmpty then (r.set .required "false").set .nullable "true" else r

end Record

/-- Where a request argument is read from. -/
inductive Location where
  | args
  | json
  | form
  | headers
  | cookies
  | files
  | values
  deriving DecidableEq, Repr

def Location.keyword : Location → String
  | .args => "args"
  | .json => "json"
  | .form => "form"
  | .headers => "headers"
  | .cookies => "cookies"
  | .files => "files"
  | .values => "values"

/-- What the documentation calls a location keyword; unknown keywords have no label. -/
def locationLabel (keyword : String) : String :=
  let keyword := mapped (fun s => asciiLower (trim s)) keyword
  if keyword = "args" ∨ keyword = "query" ∨ keyword = "values" then "query"
  else if keyword = "json" ∨ keyword = "body" then "body"
  else if keyword = "form" then "form"
  else if keyword = "headers" ∨ keyword = "header" then "header"
  else if keyword = "cookies" ∨ keyword = "cookie" then "cookie"
  else if keyword = "files" ∨ keyword = "file" then "file"
  else ""

/-- The schema type of a request argument. -/
inductive Kind where
  | integer
  | string
  | boolean
  | number
  deriving DecidableEq, Repr

def Kind.label : Kind → String
  | .integer => "integer"
  | .string => "string"
  | .boolean => "boolean"
  | .number => "number"

def integerNames : List String :=
  ["int", "integer", "i8", "i16", "i32", "i64", "i128", "isize", "u8", "u16", "u32", "u64", "u128", "usize"]

/-- The schema type named by the last segment of a type path, references aside; unknown names have no label. -/
def typeLabel (identifier : String) : String :=
  let path := (trim identifier.toList).dropWhile (· == '&')
  let name := String.ofList ((splitAtText [':', ':'] path.reverse).headD []).reverse
  if integerNames.contains name then Kind.integer.label
  else if name = "str" ∨ name = "string" ∨ name = "String" then Kind.string.label
  else if name = "bool" ∨ name = "boolean" then Kind.boolean.label
  else if name = "float" ∨ name = "number" ∨ name = "f32" ∨ name = "f64" then Kind.number.label
  else ""

/-- One step in the making of a structured declaration. -/
inductive Setter where
  | location (place : Location)
  | kind (kind : Kind)
  | required (value : Bool)
  | nullable (value : Bool)
  | default (text : String)
  | help (text : String)
  deriving DecidableEq, Repr

def Setter.apply (r : Record) : Setter → Record
  | .location place => r.set .location (locationLabel place.keyword)
  | .kind schema => r.set .type schema.label
  | .required value => r.set .required (if value then "true" else "false")
  | .nullable value => r.set .nullable (if value then "true" else "false")
  | .default value => r.set .default value
  | .help value => r.set .help value

/-- The record of a structured declaration. -/
def declared (name : String) (setters : List Setter) : Record :=
  setters.foldl Setter.apply ⟨name, []⟩

end ApiHandbook.Argument
