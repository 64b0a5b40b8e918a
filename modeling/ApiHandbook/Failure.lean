import ApiHandbook.Text.Quoted

/-! What can go wrong, by cause, and how each cause is worded. -/
namespace ApiHandbook

/-- Why settings were refused. -/
inductive SettingsFault where
  | urlPrefix (given : String)
  | unknownMethod (given : String)
  | passwordDigest
  | unsupportedFile (path : String)
  | notADirectory (path : String)
  /-- The text is no document of its format, or a value in it has the wrong type. -/
  | malformed
  deriving DecidableEq, Repr

/-- Why a file could not be read or written. -/
inductive FileFault where
  | notFound
  | alreadyExists
  | isADirectory
  | notADirectory
  /-- The bytes are no UTF-8 text. -/
  | invalidData
  /-- A chain of symbolic links that leads nowhere. -/
  | tooManyLinks
  /-- A path with a character that no path may hold. -/
  | invalidInput
  /-- A name that is too long. -/
  | invalidFilename
  | resourceBusy
  deriving DecidableEq, Repr

inductive Failure where
  | file (cause : FileFault)
  | settings (cause : SettingsFault)
  | targetExists (path : String)
  | unsafeTarget (path : String)
  | unparsable (path : String)
  deriving DecidableEq, Repr

def SettingsFault.detail : SettingsFault → String
  | .urlPrefix given => "url_prefix must start with '/', got " ++ Text.quoted given
  | .unknownMethod given => "methods_list contains unknown HTTP method " ++ Text.quoted given
  | .passwordDigest => "password_sha2 must be a 64 character hex SHA-256 digest"
  | .unsupportedFile path => "unsupported configuration file type: " ++ path
  | .notADirectory path => "project path is not a directory: " ++ path
  | .malformed => "malformed document"

def FileFault.name : FileFault → String
  | .notFound => "NotFound"
  | .alreadyExists => "AlreadyExists"
  | .isADirectory => "IsADirectory"
  | .notADirectory => "NotADirectory"
  | .invalidData => "InvalidData"
  | .tooManyLinks => "FilesystemLoop"
  | .invalidInput => "InvalidInput"
  | .invalidFilename => "InvalidFilename"
  | .resourceBusy => "ResourceBusy"

def Failure.message : Failure → String
  | .file cause => "IO error: " ++ cause.name
  | .settings cause => "Invalid configuration: " ++ cause.detail
  | .targetExists path => "Target " ++ path ++ " exists, use -f or --force to override"
  | .unsafeTarget path => "Refusing to replace " ++ path ++ ": it contains the working directory"
  | .unparsable path => "Parse error in " ++ path

end ApiHandbook
