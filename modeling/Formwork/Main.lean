import Formwork.Console.Transcript

/-!
# The program

What stands at the paths of a command is looked up, the command is carried out on it,
its lines are printed, and the files and folders that it made are made.
-/

namespace Formwork.Console

/-- The paths that a command uses. -/
def Command.paths (c : Command) : List String :=
  c.files.map (·.2) ++ match c with
    | .resolve call => call.output.toList
    | _ => []

/-- The parts of a spelled path that lead to its end, with the folder at the start. -/
def waypoints (spelling : String) : List String :=
  (List.range (Files.spelledNames spelling).length).map fun i =>
    "/".intercalate ((Files.spelledNames spelling).take (i + 1))

/-- Looks up what stands on the way to a path. -/
def survey (tree : Files.Tree) (spelling : String) : IO Files.Tree := do
  let here ← IO.currentDir
  let mut tree := tree
  for waypoint in waypoints spelling do
    let place := here / (if waypoint = "" then "/" else waypoint)
    let l := Files.Location.ofSpelling waypoint
    if ← place.isDir then
      tree := { tree with folders := l :: tree.folders }
    else if ← place.pathExists then
      tree := { tree with files := (l, (← IO.FS.readBinFile place).toList) :: tree.files }
  return tree

/-- The path of a location. -/
def spelled (l : Files.Location) : String :=
  (if l.rooted then "/" else "") ++ "/".intercalate l.names

/-- Makes the folders and writes the files that were not there before. -/
def commit (before after : Files.Tree) : IO Unit := do
  for l in after.folders.reverse do
    unless before.folders.contains l do
      IO.FS.createDirAll (spelled l)
  for (l, bytes) in after.files do
    unless before.content? l == some bytes do
      IO.FS.writeBinFile (spelled l) ⟨bytes.toArray⟩

end Formwork.Console

open Formwork Console in
/-- Carries out the command that the arguments ask for. -/
def main (arguments : List String) : IO UInt32 := do
  let paths := match Command.ofArguments arguments with
    | .ok command => command.paths
    | .error _ => []
  let files ← paths.foldlM survey ⟨[], []⟩
  match @Console.call .standard files arguments with
  | .error e =>
    IO.eprintln ("Error: " ++ e.message)
    return 2
  | .ok transcript =>
    commit files transcript.files
    for line in transcript.lines do
      IO.println line
    return UInt32.ofNat transcript.status
