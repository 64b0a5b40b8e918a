import ApiHandbook.Data.Json
import ApiHandbook.Data.Yaml.Node
import ApiHandbook.Settings

/-! Settings read from a JSON or YAML document: absent fields keep their defaults, unknown fields are passed over, and a
known field must have the right type and stand once. -/
namespace ApiHandbook.Settings

/-- How the values of a document format are read. -/
structure ValueReader (ν : Type) where
  text : ν → Option String
  flag : ν → Option Bool
  texts : ν → Option (List String)
  /-- A text that may be absent. -/
  digest : ν → Option (Option String)

/-- The names of the fields, in the order in which a list of values gives them. -/
def fieldNames : List String :=
  ["title", "version", "description", "no_doc_text", "enable", "cdn", "cdn_css_template", "cdn_js_template",
    "url_prefix", "member", "member_sub_exclude", "restful_exclude", "methods_list", "password_sha2",
    "auto_generating_args_md", "all_md"]

variable {ν : Type}

/-- Sets the field of a known name. -/
def assign (reader : ValueReader ν) (s : Settings) (name : String) (value : ν) : Option Settings :=
  match name with
  | "title" => (reader.text value).map fun v => { s with title := v }
  | "version" => (reader.text value).map fun v => { s with version := v }
  | "description" => (reader.text value).map fun v => { s with description := v }
  | "no_doc_text" => (reader.text value).map fun v => { s with noDocText := v }
  | "enable" => (reader.flag value).map fun v => { s with enable := v }
  | "cdn" => (reader.flag value).map fun v => { s with cdn := v }
  | "cdn_css_template" => (reader.text value).map fun v => { s with cdnCssTemplate := v }
  | "cdn_js_template" => (reader.text value).map fun v => { s with cdnJsTemplate := v }
  | "url_prefix" => (reader.text value).map fun v => { s with urlPrefix := v }
  | "member" => (reader.texts value).map fun v => { s with member := v }
  | "member_sub_exclude" => (reader.texts value).map fun v => { s with memberSubExclude := v }
  | "restful_exclude" => (reader.texts value).map fun v => { s with restfulExclude := v }
  | "methods_list" => (reader.texts value).map fun v => { s with methodsList := v }
  | "password_sha2" => (reader.digest value).map fun v => { s with passwordDigest := v }
  | "auto_generating_args_md" => (reader.flag value).map fun v => { s with argumentTables := v }
  | "all_md" => (reader.flag value).map fun v => { s with allMarkdown := v }
  | _ => none

/-- Sets the known fields; none may come twice. -/
def assignAll (reader : ValueReader ν) : List String → Settings → List (String × ν) → Option Settings
  | _, s, [] => some s
  | seen, s, (name, value) :: rest =>
    if fieldNames.contains name then
      if seen.contains name then none
      else do
        let s ← assign reader s name value
        assignAll reader (name :: seen) s rest
    else assignAll reader seen s rest

def jsonText : Json → Option String
  | .string text => some text
  | _ => none

def jsonReader : ValueReader Json where
  text := jsonText
  flag
    | .bool b => some b
    | _ => none
  texts
    | .array items => items.mapM jsonText
    | _ => none
  digest
    | .null => some none
    | value => (jsonText value).map some

/-- Settings from an object, or from a list of values in the order of the fields. -/
def ofJson? : Json → Option Settings
  | .object fields => assignAll jsonReader [] {} fields
  | .array items =>
    if items.length ≤ fieldNames.length then assignAll jsonReader [] {} (fieldNames.zip items) else none
  | _ => none

/-- Every scalar is a text, however it is written. -/
def yamlText : Yaml.Node → Option String
  | .scalar text _ _ => some text
  | _ => none

def isEmptyPlace : Yaml.Node → Bool
  | .scalar text .plain _ => text.isEmpty
  | _ => false

def yamlFlag? (text : String) : Option Bool :=
  if text = "true" ∨ text = "True" ∨ text = "TRUE" then some true
  else if text = "false" ∨ text = "False" ∨ text = "FALSE" then some false
  else none

def isYamlNull (text : String) : Bool := ["null", "Null", "NULL", "~"].contains text

def yamlFlag : Yaml.Node → Option Bool
  | .scalar text .plain _ => yamlFlag? text
  | .scalar text .literal (some "tag:yaml.org,2002:bool") => yamlFlag? text
  | _ => none

/-- A text, unless the node says that there is none. -/
def yamlDigest : Yaml.Node → Option (Option String)
  | .scalar text .plain (some tag) =>
    if tag = "tag:yaml.org,2002:null" then if isYamlNull text then some none else none
    else some (some text)
  | .scalar text .plain none => some (if text.isEmpty || isYamlNull text then none else some text)
  | node => (yamlText node).map some

/-- Reads values, with `resolve` to find what an alias stands for. -/
def yamlReader (resolve : Yaml.Node → Yaml.Node) : ValueReader Yaml.Node where
  text node := yamlText (resolve node)
  flag node := yamlFlag (resolve node)
  texts node := match resolve node with
    | .sequence items => items.mapM fun item => yamlText (resolve item)
    | node => if isEmptyPlace node then some [] else none
  digest node := yamlDigest (resolve node)

/-- Settings from a mapping with scalar keys, or from an empty place. -/
def ofYaml? (document : Yaml.Document) : Option Settings :=
  match document.root with
  | .mapping fields => do
    let fields ← fields.mapM fun (key, value) => (yamlText (document.resolve key)).map fun name => (name, value)
    assignAll (yamlReader document.resolve) [] {} fields
  | node => if isEmptyPlace node then some {} else none

/-- The formats of a settings document. -/
inductive Format where
  | json
  | yaml
  deriving DecidableEq, Repr

/-- Reads and validates settings. -/
def ofText (format : Format) (text : String) : Except SettingsFault Settings := do
  let read? := match format with
    | .json => (Json.read? text.toList).bind ofJson?
    | .yaml => (Yaml.Document.read? text.toList).bind ofYaml?
  match read? with
  | none => throw .malformed
  | some s =>
    s.validate
    pure s

end ApiHandbook.Settings
