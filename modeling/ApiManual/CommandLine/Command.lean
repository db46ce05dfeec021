import ApiManual.CommandLine.Words
import ApiManual.Config.Load
import ApiManual.Config.Starter
import ApiManual.Manual

/-!
# Commands

* **`generate`** loads a configuration, describes its routes and writes the manual.
* **`init-config`** writes a starter configuration.

A command works in a `Workspace`: the files, the entropy of the machine and the answers of live endpoints. Its `Report`
is what it prints, how it ends, and the fault that broke it off.
-/

namespace ApiManual.CommandLine

open Source

structure Workspace where
  tree : FileTree := {}
  /-- What a run without a seed draws from. -/
  entropy : Generator
  probe : List Reply := []
  calls : List Call := []
  deriving Inhabited

/-- What breaks off a command without a word. -/
inductive Crash where
  | config (f : LoadFault)
  | run (f : Failure)
  | file (e : FileError)
  /-- A path that no file can have. -/
  | pathNotNameable
  deriving Repr

structure Report where
  exit : Nat := 0
  out : String := ""
  err : String := ""
  crash : Option Crash := none
  deriving Repr, Inhabited

namespace Report

def print (r : Report) (line : String) : Report := { r with out := r.out ++ line ++ "\n" }

def note (r : Report) (text : String) : Report := { r with err := r.err ++ text }

/-- End with an error. -/
def fail (r : Report) (message : String) : Report :=
  { r with exit := 1, err := r.err ++ "Error: " ++ message ++ "\n" }

def crashWith (r : Report) (crash : Crash) : Report := { r with exit := 1, crash := some crash }

end Report

/-! ## The forms of commands -/

def outputOption : OptionForm := { names := ["-o", "--output"], takesValue := true }

def overrideOption : OptionForm := { names := ["--override"], takesValue := true }

def keepGoingOption : OptionForm := { names := ["--keep-going"], takesValue := false }

def seedOption : OptionForm := { names := ["--seed"], takesValue := true }

def verboseOption : OptionForm := { names := ["-v", "--verbose"], takesValue := false }

def forceOption : OptionForm := { names := ["--force"], takesValue := false }

def generateForm : CommandForm :=
  { name := "generate", argument := "CONFIG_PATH"
    options := [outputOption, overrideOption, keepGoingOption, seedOption, verboseOption] }

def initForm : CommandForm := { name := "init-config", argument := "PATH", options := [forceOption] }

/-- The program itself: its own options stand before the command. -/
def programForm : CommandForm :=
  { name := "main", argument := "COMMAND [ARGS]...", options := [], mixed := false }

/-- How a command is called from outside. -/
def CommandForm.called (form : CommandForm) : String :=
  if form = programForm then form.name else s!"{programForm.name} {form.name}"

def CommandForm.usage (form : CommandForm) : String := s!"Usage: {form.called} [OPTIONS] {form.argument}"

/-- The report of a command line that cannot be used. -/
def usageReport (form : CommandForm) (e : UsageError) : Report :=
  if e = .pathNotNameable then Report.crashWith {} .pathNotNameable else
  let usage := if e.showsUsage then form.usage ++ "\nTry '" ++ form.called ++ " --help' for help.\n\n" else ""
  { exit := 2, err := usage ++ "Error: " ++ e.message ++ "\n" }

/-! ## Values -/

/-- What a parameter that names a path asks of it. -/
structure PathForm where
  isFile : Bool
  mustExist : Bool

open Text in
def checkPath (tree : FileTree) (form : PathForm) (parameter text : String) : Except UsageError Path :=
  let noun := if form.isFile then "File" else "Directory"
  let refuse (reason : String) : Except UsageError Path :=
    .error (.badValue parameter s!"{noun} {quotedString text} {reason}.")
  if !(Path.ofText text).isNameable then .error .pathNotNameable
  else match tree.kindAt text with
  | .error _ => if form.mustExist then refuse "does not exist" else .ok (Path.ofText text)
  | .ok .directory => if form.isFile then refuse "is a directory" else .ok (Path.ofText text)
  | .ok (.file _) => if form.isFile then .ok (Path.ofText text) else refuse "is a file"

/-- How messages name an option. -/
def OptionForm.shown (o : OptionForm) : String :=
  " / ".intercalate (o.names.map fun name => "'" ++ name ++ "'")

def checkSeed (text : String) : Except UsageError Int :=
  match Number.readInteger? text.toList with
  | some i => .ok i
  | none => .error (.badValue seedOption.shown s!"{Text.quotedString text} is not a valid integer.")

/-- Refuse an option with a bad value. -/
def checkOption (tree : FileTree) (o : OptionForm) (text : String) : Except UsageError Unit :=
  if o = outputOption then discard (checkPath tree ⟨false, false⟩ o.shown text)
  else if o = overrideOption then discard (checkPath tree ⟨true, true⟩ o.shown text)
  else if o = seedOption then discard (checkSeed text)
  else .ok ()

/-- Check the options by their last values, each where it comes first. -/
def checkOptions (tree : FileTree) (given : Given) : Except UsageError Unit :=
  given.options.forM fun (o, _) => checkOption tree o ((given.value? o).getD "")

/-- The only argument, and nothing behind it. -/
def onlyArgument (tree : FileTree) (form : CommandForm) (mustExist : Bool) (given : Given) :
    Except UsageError Path := do
  match given.arguments with
  | [] => throw (.argumentMissing form.argument)
  | text :: extra =>
    let path ← checkPath tree ⟨true, mustExist⟩ ("'" ++ form.argument ++ "'") text
    if extra.isEmpty then return path else throw (.argumentsExtra extra)

/-! ## Generating a manual -/

structure GenerateRequest where
  config : Path
  output : Option Path
  override : Option Path
  keepGoing : Bool
  seed : Option Int
  verbose : Bool
  deriving Repr

def GenerateRequest.ofGiven (tree : FileTree) (given : Given) : Except UsageError GenerateRequest := do
  checkOptions tree given
  let config ← onlyArgument tree generateForm true given
  return { config
           output := (given.value? outputOption).map Path.ofText
           override := (given.value? overrideOption).map Path.ofText
           keepGoing := given.has keepGoingOption
           seed := (given.value? seedOption).bind fun text => Number.readInteger? text.toList
           verbose := given.has verboseOption }

def logLine (entry : LogEntry) : String := s!"{entry.level.name} {entry.source.name}: {entry.message}\n"

/-- The log as it is printed: all of it, or without what helps only to find mistakes. -/
def logText (verbose : Bool) (log : List LogEntry) : String :=
  String.join ((log.filter fun entry => verbose || entry.level != .debug).map logLine)

/-- What is reported of a refused manual. -/
def Report.refuse (r : Report) : Refusal → Report
  | .stopped (.authoring e) => r.crashWith (.run (.authoring e))
  | .stopped f => match f.message? with
    | some message => r.fail message
    | none => r.crashWith (.run f)
  | refusal => r.fail (refusal.message?.getD "")

def Report.skips (r : Report) (skipped : List String) : Report :=
  if skipped.isEmpty then r else r.print s!"Skipped {skipped.length} routes."

def Report.failures (r : Report) (failures : List RouteFailure) : Report :=
  if failures.isEmpty then r
  else
    failures.foldl (fun r f => r.print f.line)
      (r.print s!"Left out {failures.length} routes with documentation errors:")

/-- The number of paths in a manual. -/
def pathCount (manual : Json) : Nat := ((Entries.get? manual.members "paths").getD .null).members.length

/-- Write a manual into a directory, which is made where it is missing. -/
def writeManual (tree : FileTree) (directory : Path) (manual : Json) : Except FileError FileTree := do
  (← tree.makeDirectories directory).write (directory ++ [manualFile]) manual.compact

/-- Write a manual and report on it. -/
def finish (r : Report) (d : Documenter) (tree : FileTree) (directory : Path) (manual : Json) :
    Report × FileTree :=
  let file := Path.text (directory ++ [manualFile])
  if !directory.isNameable then (r.crashWith .pathNotNameable, tree)
  else match writeManual tree directory manual with
  | .error e => (r.fail s!"Cannot write {file}: {e.message}", tree)
  | .ok tree =>
    let r := (r.skips d.skipped).failures d.failures
    (r.print s!"Documented {pathCount manual} paths in {file}", tree)

def generate (modules : Modules) (request : GenerateRequest) (w : Workspace) : Report × Workspace :=
  match Config.load w.tree request.config request.override with
  | .error (.fault f) => (Report.crashWith {} (.config f), w)
  | .error e => (Report.fail {} ("\n".intercalate (e.message?.getD "" :: e.details)), w)
  | .ok config =>
    let config := { config with seed := request.seed.orElse fun _ => config.seed }
    let records := config.records
    let r := Report.print {} s!"Documenting {records.length} routes from {request.config.text}..."
    let (result, d) := (Documenter.generate modules config (!request.keepGoing) records).run.run
      { session := config.session w.entropy w.probe }
    let w := { w with probe := d.session.probe, calls := w.calls ++ d.session.calls }
    let r := r.note (logText request.verbose d.session.log)
    match result with
    | .error refusal => (r.refuse refusal, w)
    | .ok manual =>
      let (r, tree) := finish r d w.tree (request.output.getD (Path.ofText config.output)) manual
      (r, { w with tree })

/-! ## Starting a configuration -/

def writeStarter (tree : FileTree) (path : Path) : Except FileError FileTree := do
  (← tree.makeDirectories path.dropLast).write path starterConfig

def initConfig (path : Path) (force : Bool) (w : Workspace) : Report × Workspace :=
  match w.tree.kind path, writeStarter w.tree path with
  | .error .nameTooLong, _ => (Report.crashWith {} (.file ⟨.nameTooLong, path⟩), w)
  | found, written =>
    if found.isOk && !force then
      (Report.fail {} s!"{path.text} already exists, use --force to overwrite it", w)
    else match written with
      | .error e => (Report.crashWith {} (.file e), w)
      | .ok tree => (Report.print {} s!"Configuration written to {path.text}", { w with tree })

/-! ## The whole command line -/

def helpReport (form : CommandForm) : Report := Report.print {} form.usage

def generateWords (modules : Modules) (words : List String) (w : Workspace) : Report × Workspace :=
  match generateForm.read words with
  | .error e => (usageReport generateForm e, w)
  | .ok given =>
    if given.has helpOption then (helpReport generateForm, w)
    else match GenerateRequest.ofGiven w.tree given with
      | .error e => (usageReport generateForm e, w)
      | .ok request => generate modules request w

def initWords (words : List String) (w : Workspace) : Report × Workspace :=
  match initForm.read words with
  | .error e => (usageReport initForm e, w)
  | .ok given =>
    if given.has helpOption then (helpReport initForm, w)
    else match onlyArgument w.tree initForm false given with
      | .error e => (usageReport initForm e, w)
      | .ok path => initConfig path (given.has forceOption) w

/-- The report on a word that names no command. One that looks like an option is read as one, even
behind `--`. -/
def unknownCommand (word : String) (words : List String) : Report :=
  let unknown := usageReport programForm
    (.unknownCommand word (Text.mostSimilar word [generateForm.name, initForm.name]))
  if word.toList.head? = some '-' then
    match programForm.read (word :: words) with
    | .error e => usageReport programForm e
    | .ok given => if given.has helpOption then helpReport programForm else unknown
  else unknown

/-- Run the command behind the program's own options. -/
def run (modules : Modules) (words : List String) (w : Workspace) : Report × Workspace :=
  match words, programForm.read words with
  | [], _ => ({ exit := 2, err := programForm.usage ++ "\n" }, w)
  | _, .error e => (usageReport programForm e, w)
  | _, .ok given =>
    if given.has helpOption then (helpReport programForm, w)
    else match given.arguments with
      | [] => (usageReport programForm .commandMissing, w)
      | "generate" :: words => generateWords modules words w
      | "init-config" :: words => initWords words w
      | word :: words => (unknownCommand word words, w)

end ApiManual.CommandLine
