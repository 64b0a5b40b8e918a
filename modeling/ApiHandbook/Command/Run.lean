import ApiHandbook.Command.Line
import ApiHandbook.Files.Export
import ApiHandbook.Markdown.Document
import ApiHandbook.Page
import ApiHandbook.Payload
import ApiHandbook.Project.Registry
import ApiHandbook.Project.Scan
import ApiHandbook.Settings.File

/-! What a command does: read settings and sources, put the documentation together, and export it. -/
namespace ApiHandbook.Command
open Files Project

/-- Why a command wrote no document. -/
inductive RunFault where
  | noProject (path : String)
  | badSettings (path : String) (cause : Failure)
  | badProject (path : String) (cause : Failure)
  | noSources
  | noReadableSources
  | noFramework
  | exportFailed (cause : Failure)
  deriving DecidableEq, Repr

namespace RunFault

def message : RunFault → String
  | .noProject path => "Project path is not a directory: " ++ path
  | .badSettings path _ => "Failed to load configuration from " ++ path
  | .badProject path _ => "Failed to scan " ++ path
  | .noSources => "No Rust files found in the project directory"
  | .noReadableSources => "No files could be parsed successfully"
  | .noFramework =>
    "No supported web framework detected. Please specify a framework using --framework option.\n" ++
      "Supported frameworks: axum, actix-web"
  | .exportFailed cause => cause.message

/-- What lies behind the fault. -/
def cause? : RunFault → Option Failure
  | .badSettings _ cause | .badProject _ cause | .exportFailed cause => some cause
  | _ => none

end RunFault

namespace Line

/-- The settings with the modules that the line adds to them. -/
def extend (line : Line) (settings : Settings) : Settings :=
  { settings with member :=
      line.member.foldl (fun member m => if member.contains m then member else member ++ [m]) settings.member }

/-- The frameworks whose registrations are collected. -/
def frameworks (line : Line) (files : List SourceFile) : Except RunFault (List Framework) :=
  match line.framework with
  | some framework => .ok [framework]
  | none =>
    let detected := Framework.detect files
    if detected.isEmpty then .error .noFramework else .ok detected

/-- The documentation of a project, given its files as far as they could be read. -/
def document (line : Line) (settings : Settings) (read : List (Except Failure SourceFile)) : Except RunFault String := do
  if read.isEmpty then throw .noSources
  let files := read.filterMap Except.toOption
  if files.isEmpty then throw .noReadableSources
  let settings := line.extend settings
  let aggregate := Aggregate.build settings (application files (← line.frameworks files)).source
  match line.form with
  | .html => return Page.offline settings (Payload.build settings aggregate none).text
  | .markdown => return Markdown.document settings aggregate

/-- The documentation of the project on a disk. -/
def documentOn (line : Line) (disk : Disk) : Except RunFault String := do
  if !disk.isDirectory (Path.ofString line.project) then throw (.noProject line.project)
  let settings ← match line.config with
    | none => pure {}
    | some path => (Settings.ofFile disk path).mapError (.badSettings path)
  let paths ← (scan disk line.project).mapError (.badProject line.project)
  line.document settings (paths.map (readSource disk))

/-- Writes the document and returns the path to it. -/
def exportText (line : Line) (text : String) : Action String :=
  match line.form with
  | .html => exportPage line.output text line.force
  | .markdown => exportDocument line.output text line.force

/-- What is printed when the document stands at a path. -/
def report (line : Line) (path : String) : String :=
  match line.form with
  | .html => "Exported HTML documentation to " ++ path ++ "\n"
  | .markdown => "Exported Markdown documentation to " ++ path ++ "\n"

/-- Runs the command and returns what it prints. -/
def run (line : Line) : EStateM RunFault Disk String := fun disk =>
  match line.documentOn disk with
  | .error fault => .error fault disk
  | .ok text =>
    match line.exportText text disk with
    | .ok path disk => EStateM.Result.ok (line.report path) disk
    | .error cause disk => .error (.exportFailed cause) disk

end Line
end ApiHandbook.Command
