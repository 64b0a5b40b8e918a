import ApiHandbook.Project.Framework

/-! The command line: options before and after the name of a command, and what they ask for together. -/
namespace ApiHandbook.Command
open Project

/-- The documents that a command writes. -/
inductive Form where
  | html
  | markdown
  deriving DecidableEq, Repr

namespace Form

/-- The name of the command. -/
def name : Form → String
  | .html => "html"
  | .markdown => "markdown"

def ofName? (word : String) : Option Form := [html, markdown].find? fun form => form.name == word

/-- Where the document goes unless the line says otherwise. -/
def defaultOutput : Form → String
  | .html => "htmldoc"
  | .markdown => "doc.md"

end Form

/-- What a command line asks for. -/
structure Line where
  /-- The file that holds the settings. -/
  config : Option String
  /-- The framework of the project; found out if not given. -/
  framework : Option Framework
  /-- The directory of the project. -/
  project : String
  /-- Modules to document besides those of the settings. -/
  member : List String
  verbose : Bool
  form : Form
  output : String
  /-- Whether an existing output is replaced. -/
  force : Bool
  deriving DecidableEq, Repr

/-- Why a command line asks for no document. -/
inductive LineFault where
  | helpWanted
  | versionWanted
  | nothingGiven
  | missingCommand
  | unknownCommand
  | unknownOption
  /-- An option that may be given once is given again. -/
  | repeatedOption
  | invalidValue
  /-- A value is attached to an option that takes none. -/
  | unexpectedValue
  deriving DecidableEq, Repr

inductive Key where
  | config
  | framework
  | project
  | member
  | verbose
  | help
  | version
  | output
  | force
  deriving DecidableEq, Repr

namespace Key

/-- The name of an option behind two dashes. -/
def long : Key → String
  | .config => "config"
  | .framework => "framework"
  | .project => "project"
  | .member => "member"
  | .verbose => "verbose"
  | .help => "help"
  | .version => "version"
  | .output => "output"
  | .force => "force"

/-- The letter of an option behind one dash. -/
def short : Key → Char
  | .config => 'c'
  | .framework => 'w'
  | .project => 'p'
  | .member => 'm'
  | .verbose => 'v'
  | .help => 'h'
  | .version => 'V'
  | .output => 'o'
  | .force => 'f'

def takesValue : Key → Bool
  | .config | .framework | .project | .member | .output => true
  | .verbose | .help | .version | .force => false

/-- The options that may stand before the name of a command. -/
def before : List Key := [.config, .framework, .project, .member, .verbose, .help, .version]

/-- The options that may stand after the name of a command. -/
def after : List Key := [.config, .framework, .project, .member, .verbose, .help, .output, .force]

end Key

/-- The options given on one side of the name of a command. -/
structure Options where
  config : Option String := none
  framework : Option Framework := none
  project : Option String := none
  member : List String := []
  verbose : Bool := false
  output : Option String := none
  force : Bool := false
  deriving DecidableEq, Repr

namespace Options

/-- The value of an option that may be given once and holds a path. -/
def onePath (old : Option String) (value : String) : Except LineFault (Option String) :=
  if old.isSome then .error .repeatedOption
  else if value.isEmpty then .error .invalidValue
  else .ok (some value)

/-- The value of a flag that may be given once. -/
def oneFlag (old : Bool) : Except LineFault Bool := if old then .error .repeatedOption else .ok true

def oneFramework (old : Option Framework) (value : String) : Except LineFault (Option Framework) :=
  if old.isSome then .error .repeatedOption
  else match Framework.ofName? value with
    | some framework => .ok (some framework)
    | none => .error .invalidValue

/-- Gives an option its value. -/
def assign (o : Options) (key : Key) (value? : Option String) : Except LineFault Options :=
  match key, value? with
  | .help, _ => .error .helpWanted
  | .version, _ => .error .versionWanted
  | .verbose, _ => do return { o with verbose := ← oneFlag o.verbose }
  | .force, _ => do return { o with force := ← oneFlag o.force }
  | _, none => .error .invalidValue
  | .config, some value => do return { o with config := ← onePath o.config value }
  | .framework, some value => do return { o with framework := ← oneFramework o.framework value }
  | .project, some value => do return { o with project := ← onePath o.project value }
  | .member, some value => .ok { o with member := o.member ++ [value] }
  | .output, some value => do return { o with output := ← onePath o.output value }

end Options

/-- How far one side of a command line is read. -/
structure Reader where
  options : Options := {}
  /-- The last option and its value, while the value may be missing and is not yet looked at. -/
  pending : Option (Key × Option String) := none

namespace Reader

/-- Whether the next plain word is the value of an option. -/
def awaitsValue (r : Reader) : Bool :=
  match r.pending with
  | some (_, none) => true
  | _ => false

/-- The options, once the last of them is looked at. -/
def settle (r : Reader) : Except LineFault Options :=
  match r.pending with
  | some (key, value?) => r.options.assign key value?
  | none => .ok r.options

/-- Reads an option that is complete. -/
def complete (r : Reader) (key : Key) (value? : Option String) : Except LineFault Reader := do
  return { options := ← (← r.settle).assign key value? }

/-- Reads an option whose value is the next word. -/
def await (r : Reader) (key : Key) : Except LineFault Reader := do
  return { options := ← r.settle, pending := some (key, none) }

/-- Reads an option spelled with two dashes, which come before `word`. -/
def long (known : List Key) (r : Reader) (word : List Char) : Except LineFault Reader :=
  let name := String.ofList (word.takeWhile (· != '='))
  let value? := if word.contains '=' then some (String.ofList (word.drop (name.length + 1))) else none
  match known.find? fun key => key.long == name with
  | none => .error .unknownOption
  | some key =>
    match key.takesValue, value? with
    | true, none => r.await key
    | false, some _ => .error .unexpectedValue
    | _, _ => r.complete key value?

/-- Reads the letters of options spelled with one dash; what follows the letter of an option that takes a value is that
value. -/
def letters (known : List Key) (r : Reader) : List Char → Except LineFault Reader
  | [] => .ok r
  | c :: rest =>
    match known.find? fun key => key.short == c with
    | none => .error .unknownOption
    | some key =>
      if key.takesValue then
        if rest.isEmpty then r.await key
        else r.complete key (some (String.ofList (if rest.head? = some '=' then rest.drop 1 else rest)))
      else do letters known (← r.complete key none) rest

/-- Reads a word that may spell options; nothing for a plain word. -/
def option? (known : List Key) (r : Reader) (word : String) : Option (Except LineFault Reader) :=
  match word.toList with
  | '-' :: '-' :: rest => some (r.long known rest)
  | '-' :: c :: rest => some (r.letters known (c :: rest))
  | _ => none

/-- Reads a plain word, which must be awaited as a value. -/
def value (r : Reader) (word : String) (stray : LineFault) : Except LineFault Reader :=
  match r.pending with
  | some (key, none) => .ok { r with pending := some (key, some word) }
  | _ => .error stray

end Reader

/-- Reads the words after the name of a command. -/
def readAfter (r : Reader) : List String → Except LineFault Options
  | [] => r.settle
  | word :: rest =>
    if word = "--" then if rest.isEmpty then r.settle else .error .unknownOption
    else match r.option? Key.after word with
      | some read => do readAfter (← read) rest
      | none => do readAfter (← r.value word .unknownOption) rest

/-- What the words after `help` ask for. -/
def helpOn : List String → LineFault
  | [] => .helpWanted
  | [word] => if word = "help" ∨ (Form.ofName? word).isSome then .helpWanted else .unknownCommand
  | _ => .unknownCommand

/-- Reads the words of a line up to the name of a command and then those after it. -/
def readBefore (r : Reader) : List String → Except LineFault (Reader × Option (Form × Options))
  | [] => .ok (r, none)
  | word :: rest =>
    let form? := if r.awaitsValue then none else Form.ofName? word
    match form? with
    | some form => do return (r, some (form, ← readAfter {} rest))
    | none =>
      if word = "help" ∧ !r.awaitsValue then .error (helpOn rest)
      else if word = "--" then
        match rest with
        | [] => .ok (r, none)
        | stray :: _ => .error (if helpOn [stray] = .helpWanted then .unknownOption else .unknownCommand)
      else match r.option? Key.before word with
        | some read => do readBefore (← read) rest
        | none => do readBefore (← r.value word .unknownCommand) rest

namespace Line

/-- What the options on both sides of the name of a command ask for; those after it win. -/
def ofOptions (form : Form) (outer inner : Options) : Line where
  config := inner.config <|> outer.config
  framework := inner.framework <|> outer.framework
  project := (inner.project <|> outer.project).getD "."
  member := if inner.member.isEmpty then outer.member else inner.member
  verbose := inner.verbose || outer.verbose
  form := form
  output := inner.output.getD form.defaultOutput
  force := inner.force

/-- Reads a command line. -/
def ofWords (words : List String) : Except LineFault Line := do
  let (r, command?) ← readBefore {} words
  let outer ← r.settle
  match command? with
  | some (form, inner) => .ok (ofOptions form outer inner)
  | none => .error (if outer = {} then .nothingGiven else .missingCommand)

end Line
end ApiHandbook.Command
