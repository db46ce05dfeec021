import ApiManual.Config.Check
import ApiManual.FileTree
import ApiManual.Yaml.Value

/-!
# Loading a configuration

`Config.load` reads a configuration file and perhaps a second one, each of whose top-level settings
takes the place of the first file's. Both files are read before anything is checked.
-/

namespace ApiManual

/-- What is no mistake in YAML and no check covers. -/
inductive LoadFault where
  | unreadable (u : Yaml.Unreadable)
  /-- A top-level key that is no text. -/
  | keyNotText
  /-- A path that no file can have. -/
  | pathNotNameable
  deriving DecidableEq, Repr

inductive LoadError where
  | unreadable (e : FileError)
  | notYaml (path : Path) (e : Yaml.Error)
  | notMapping (path : Path)
  | invalid (path : Path) (problems : List Problem)
  | fault (f : LoadFault)
  deriving Repr

/-- What is reported of an error on its first line. -/
def LoadError.message? : LoadError → Option String
  | unreadable e => some s!"Cannot read configuration file {e.path.text}: {e.message}"
  | notYaml path _ => some s!"Configuration file {path.text} is not valid YAML:"
  | notMapping path => some s!"Configuration file {path.text} must contain a mapping"
  | invalid path _ => some s!"Invalid configuration in {path.text}:"
  | fault _ => none

/-- The further lines: one for each problem. -/
def LoadError.details : LoadError → List String
  | invalid _ problems => problems.map fun p => "  " ++ ".".intercalate p.location ++ ": " ++ p.kind.name
  | _ => []

/-- The top-level settings of a file; an empty file has none. -/
def topSettings (tree : FileTree) (path : Path) : Except LoadError (List (Setting × Setting)) := do
  if !path.isNameable then throw (.fault .pathNotNameable)
  let text ← (tree.read path).mapError .unreadable
  match Yaml.read text.toList with
  | .error (.unreadable u) => throw (.fault (.unreadable u))
  | .error e => throw (.notYaml path e)
  | .ok .null => return []
  | .ok (.table entries) => return entries
  | .ok _ => throw (.notMapping path)

/-- Put the later settings in the place of the earlier ones. -/
def overlay (settings later : List (Setting × Setting)) : List (Setting × Setting) :=
  later.foldl (fun es e => Setting.setKey e.1 e.2 es) settings

def isText : Setting → Bool
  | .str _ => true
  | _ => false

/-- The configuration that settings from a file make. -/
def Config.ofTop (path : Path) (settings : List (Setting × Setting)) : Except LoadError Config :=
  if settings.all (isText ·.1) then
    match Config.ofSettings (Setting.named settings) with
    | .ok config => .ok config
    | .problems ps => .error (.invalid path ps)
  else .error (.fault .keyNotText)

def Config.load (tree : FileTree) (path : Path) (override : Option Path) : Except LoadError Config := do
  let settings ← topSettings tree path
  match override with
  | none => Config.ofTop path settings
  | some file => Config.ofTop path (overlay settings (← topSettings tree file))

end ApiManual
