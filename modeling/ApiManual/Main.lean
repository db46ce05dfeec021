import ApiManual.CommandLine.Command
import ApiManual.Json.Reader
import ApiManual.Source.Description

/-!
# The program

Runs a command on the files around the working directory. The modules that routes refer to are described
in the file `modules.json`; without it there are none. Live endpoints are not called, and a run without a
seed draws from entropy of the machine.
-/

open ApiManual CommandLine

namespace ApiManual.Program

/-- Look at the places on the way to a path, from the first step on. -/
def survey (tree : FileTree) (here : Path) : List String → IO FileTree
  | [] => return tree
  | step :: steps => do
    let place := FileTree.move here step
    match ← (IO.FS.readFile place.text).toBaseIO with
    | .ok text => return { tree with files := FileTree.setFile place text tree.files }
    | .error (.noFileOrDirectory ..) => return tree
    | .error _ => survey { tree with directories := place :: tree.directories } place steps

/-- The paths that a word may mean, as a file and as a directory for a manual. -/
def wordPaths (word : String) : List Path :=
  let value := (word.toList.dropWhile (· != '=')).drop 1
  [word, String.ofList value].flatMap fun text =>
    let path := Path.ofText text
    [path, path ++ [manualFile]]

/-- The path of the manual that a word asks for if it names a configuration. -/
def manualPath? (tree : FileTree) (word : String) : Option Path :=
  match Config.load tree (Path.ofText word) none with
  | .ok config => some (Path.ofText config.output ++ [manualFile])
  | .error _ => none

def surveyAll (tree : FileTree) (paths : List Path) : IO FileTree :=
  paths.foldlM (fun tree path => survey tree [] path) tree

/-- The modules that are described in the working directory. -/
def describedModules : IO Source.Modules := do
  match ← (IO.FS.readFile "modules.json").toBaseIO with
  | .error _ => return []
  | .ok text => match Json.read text with
    | .error _ => return []
    | .ok description => match Source.Modules.ofJson description with
      | .ok modules => return modules
      | .error _ => return []

/-- A generator that is seeded from the machine. -/
def machineEntropy : IO Generator := do
  let bytes ← IO.getRandomBytes 32
  return .ofSeed (bytes.toList.foldl (fun n b => 256 * n + b.toNat) 0)

def writeFile (path : Path) (text : String) : IO Unit := do
  IO.FS.createDirAll (Path.text path.dropLast)
  IO.FS.writeFile path.text text

end ApiManual.Program

open ApiManual.Program in
def main (words : List String) : IO UInt32 := do
  let tree ← surveyAll {} (words.flatMap wordPaths)
  let tree ← surveyAll tree (words.filterMap (manualPath? tree))
  let (report, after) := CommandLine.run (← describedModules) words { tree, entropy := ← machineEntropy }
  for (path, text) in tree.changes after.tree do
    writeFile path text
  IO.print report.out
  IO.eprint report.err
  if report.crash.isSome then IO.eprintln "The command was broken off."
  return UInt32.ofNat report.exit
