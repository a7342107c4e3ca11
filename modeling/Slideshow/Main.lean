import Slideshow.CommandLine.Files

/-! # The program

The entries along the paths of a run are read first, and what the run changes is written last.
-/
namespace Slideshow

/-- What the file system has at a place. -/
def look (names : List Text) : IO (Option Entry) := do
  let path := (← IO.currentDir) / String.ofList (Path.ofNames names)
  if ← path.isDir then return some .directory
  else if ← path.pathExists then return some (.file (← IO.FS.readBinFile path).toList)
  else return none

/-- A store that also knows the entries along some paths. -/
def survey (store : Store) (paths : List Text) : IO Store :=
  (paths.flatMap store.placesTo).foldlM (fun s names => do
    if (s.get? names).isSome then return s
    match ← look names with
    | some entry => return s.put names entry
    | none => return s) store

/-- Bring the file system from one store to another. -/
def commit (before after : Store) : IO Unit :=
  after.entries.reverse.forM fun (names, entry) => do
    if before.get? names ≠ some entry then
      let path := String.ofList (Path.ofNames names)
      match entry with
      | .directory => IO.FS.createDirAll path
      | .file contents => IO.FS.writeBinFile path ⟨contents.toArray⟩

/-- Run the program with some arguments, and give its exit code. -/
def start (args : List String) : IO UInt32 := do
  let words := args.map String.toList
  let env ← Settings.variableNames.filterMapM fun k => do
    return (← IO.getEnv (String.ofList k)).map fun v => (k, v.toList)
  let get (k : Text) : Option Text := List.lookup k env
  let store : Store :=
    ⟨(Text.pieces '/' (← IO.currentDir).toString.toList).filter (· ≠ []), []⟩
  let known ← match CommandLine.Arguments.ofWords? words with
    | none => pure store
    | some a =>
      let settings := a.settings (Settings.ofEnvironment get) none
      let store ← survey store (a.paths settings)
      survey store (a.imagePaths store settings)
  let (changed, report) := CommandLine.run known get words
  commit known changed
  (← IO.getStdout).write ⟨(Utf8.encode report.output).toArray⟩
  report.errors.forM fun line => IO.eprintln (String.ofList line)
  return UInt32.ofNat report.exit

end Slideshow

def main (args : List String) : IO UInt32 := Slideshow.start args
