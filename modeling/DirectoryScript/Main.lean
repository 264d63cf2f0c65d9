import DirectoryScript.CommandLine
import Std.Time.Format
import Std.Time.Zoned

namespace DirectoryScript

def absolutePath (place : List Text) : String := String.ofList ('/' :: join '/' place)

/-- What the file system has at a place. Only a regular file has content here. -/
def probe (place : List Text) : IO (Option Node) := do
  let entry : IO.FS.DirEntry := ⟨"/", absolutePath place⟩
  match ← (entry.path.metadata).toBaseIO with
  | .error _ => return none
  | .ok data =>
    match data.type with
    | .dir => return some .folder
    | .file => return some (.file (← IO.FS.readBinFile (absolutePath place)).toList)
    | _ => return none

/-- The places on the way along a path. -/
def placesOnTheWay (home : List Text) (p : Text) : List (List Text) :=
  let start := if p.head? = some '/' then [] else home
  (split '/' p).foldl (fun places part =>
    places ++ [FileStore.stepTo (places.getLastD start) part]) [start]

/-- As much of the file system as the paths among the arguments lead through. -/
def surveyed (paths : List Text) : IO FileStore := do
  let home := pathParts (← IO.currentDir).toString.toList
  let mut nodes := []
  for place in (paths.flatMap (placesOnTheWay home)).eraseDups do
    match ← probe place with
    | none => pure ()
    | some node => nodes := (place, node) :: nodes
  return { home, nodes }

/-- Writes the files that an ending leaves other than they were. -/
def carryOut (before after : FileStore) : IO Unit := do
  for (place, node) in after.nodes do
    match node with
    | .folder => pure ()
    | .file content =>
      if before.node? place ≠ some node then
        IO.FS.writeBinFile (absolutePath place) ⟨content.toArray⟩

def secondsNow : IO Float := do
  let now ← Std.Time.Timestamp.now
  return Float.ofInt now.toNanosecondsSinceUnixEpoch.val / 1000000000

def stampNow : IO Text := do
  let now ← Std.Time.PlainDateTime.now
  return (now.format "uuuu-MM-dd HH:mm:ss,SSS").toList

/-- The program on the files, the clock and the settings of the machine. -/
def runProgram (k : Toolkit) (args : List String) : IO UInt32 := do
  let words := args.map String.toList
  let setting := (← IO.getEnv "DIRSIM_LOG_LEVEL").map String.toList
  let clock : Clock := { now := ← secondsNow, stamp := ← stampNow }
  let store ← surveyed words
  let first ← IO.lazyPure fun _ => invoke k store setting clock words
  let finish ← secondsNow
  let ending := invoke k store setting { clock with elapsed := finish - clock.now } words
  try
    carryOut store first.store
  catch e =>
    IO.eprintln s!"Cannot write output file: {e}"
    return 1
  IO.print (String.ofList ending.shown)
  IO.eprint (String.ofList ending.complaint)
  if let some failure := ending.failure then
    IO.eprintln (String.ofList failure)
  return UInt32.ofNat ending.status

end DirectoryScript
