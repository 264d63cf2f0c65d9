import DirectoryScript.BlockWriter
import DirectoryScript.Clock
import DirectoryScript.Journal

namespace DirectoryScript

/-- A carriage return ends a line like a line feed does; the two together end one line. -/
def unifyLineEnds : Text → Text
  | [] => []
  | '\r' :: '\n' :: rest => '\n' :: unifyLineEnds rest
  | c :: rest => (if c = '\r' then '\n' else c) :: unifyLineEnds rest

def scriptLines (t : Text) : List Text := split '\n' (unifyLineEnds t)

/-- Why there is no script to run. -/
inductive ScriptProblem where
  | missing
  | unreadable (p : Text) (problem : OpenProblem)
  | undecodable (m : Malformed)
deriving DecidableEq

def ScriptProblem.message : ScriptProblem → Text
  | missing => "Input file does not exist".toList
  | unreadable p problem => "Cannot read input file: ".toList ++ problem.message p
  | undecodable m => "Cannot read input file: ".toList ++ m.message

/-- The lines of a script, from what its file holds if it is there. -/
def readScript : Option Bytes → Except ScriptProblem (List Text)
  | none => .error .missing
  | some content =>
    match decode content with
    | .ok t => .ok (scriptLines t)
    | .error m => .error (.undecodable m)

/-- One run of a script. Paths are in normal form. -/
structure Job where
  script : Text
  output : Option Text
  id : Int
  echoes : Bool := true
deriving DecidableEq

/-- Why a run ends without a result. The system may not even tell whether the script is there. -/
inductive RunProblem where
  | script (problem : ScriptProblem)
  | lookup (p : Text) (e : SystemError)
  | output (p : Text) (problem : OpenProblem)
  | broken (why : Fault)
deriving DecidableEq

def RunProblem.message : RunProblem → Text
  | script problem => problem.message
  | lookup p e => e.message p
  | output p problem => problem.message p
  | broken why => why.message

/-- What a run leaves: the files, what it has shown and the blocks or the problem. -/
structure Report where
  store : FileStore
  shown : Text
  result : Except RunProblem (List Text)

def runStarted (id : Int) (script output : Text) : LogRecord :=
  ⟨.info, .runner, "Starting run for job ".toList ++ signedDecimal id ++ ": ".toList ++ script ++
    " -> ".toList ++ output⟩

def runFinished (id : Int) (lines : Nat) (c : Clock) : LogRecord :=
  ⟨.info, .runner, "Finished job ".toList ++ signedDecimal id ++ ": ".toList ++ decimal lines ++
    " lines in ".toList ++ c.elapsedText ++ "s".toList⟩

namespace Job

/-- An empty output path is no output path. -/
def requested (script : Text) (output : Option Text) (c : Clock) : Job where
  script := normalPath script
  output := (output.filter fun p => p ≠ []).map normalPath
  id := c.jobId

/-- Without an output path the file is named for the job. -/
def outputPath (j : Job) : Text :=
  j.output.getD ("output_".toList ++ signedDecimal j.id ++ ".txt".toList)

def lines (j : Job) (s : FileStore) : Except RunProblem (List Text) :=
  match s.isFile j.script with
  | .error e => .error (.lookup j.script e)
  | .ok false => (readScript none).mapError .script
  | .ok true =>
    match s.read j.script with
    | .error problem => .error (.script (.unreadable j.script problem))
    | .ok content => (readScript (some content)).mapError .script

def writer (strip : Text → Text) (j : Job) (s : FileStore) : BlockWriter where
  path := j.outputPath
  echoes := j.echoes
  strip
  store := s

/-- The script is read before the output is opened, so it may be its own output. -/
def run (strip : Text → Text) (j : Job) (s : FileStore) : Report :=
  match j.lines s with
  | .error problem => ⟨s, [], .error problem⟩
  | .ok lines =>
    match (j.writer strip s).opened with
    | .error problem => ⟨s, [], .error (.output j.outputPath problem)⟩
    | .ok opened =>
      let outcome := Workspace.runLines {} lines
      let left := (opened.writeAll outcome.blocks).closed
      { store := left.store
        shown := left.shown
        result := match outcome.fault with
          | none => .ok outcome.blocks
          | some why => .error (.broken why) }

/-- The log of a run. Its first record is written before the output is opened. -/
def records (j : Job) (s : FileStore) (c : Clock) : List LogRecord :=
  match j.lines s with
  | .error _ => []
  | .ok lines =>
    runStarted j.id j.script j.outputPath ::
      match s.placeToWrite j.outputPath with
      | .error _ => []
      | .ok _ =>
        Workspace.linesRecords {} lines ++
          if (Workspace.runLines {} lines).fault = none then [runFinished j.id lines.length c]
          else []

end Job

end DirectoryScript
