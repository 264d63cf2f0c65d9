import DirectoryScript.Job

namespace DirectoryScript

/-- What the arguments of the program come to: to show the help, to run a script, to complain of
how the program is used, or to fail for a reason that has no report. -/
inductive Request where
  | help (shown : Text)
  | run (script : Text) (output : Option Text)
  | misused (complaint : Text)
  | failed (message : Text)
deriving DecidableEq

/-- What the program has others do: to read its arguments, with a look at the files that they name,
and to take out of a text what a screen would not show. -/
structure Toolkit where
  read : FileStore → List Text → Request
  strip : Text → Text

/-- How the program ends: its status, what it has shown and logged, the failure that it has no
report for and the files it leaves. -/
structure Ending where
  status : Nat
  shown : Text := []
  complaint : Text := []
  failure : Option Text := none
  store : FileStore

/-- What the program says of a problem. It has nothing to say of a path that the system was not
asked for, nor of a fault. Whatever the system objects to is taken for the output's. -/
def RunProblem.reported : RunProblem → Option Text
  | script problem => some problem.message
  | lookup p e | output p (.system e) => some ("Cannot write output file: ".toList ++ e.message p)
  | output _ .nullInPath | broken _ => none

def logLines (c : Clock) (records : List LogRecord) : Text :=
  records.flatMap fun r => r.shown c.stamp ++ ['\n']

/-- How the program ends that has run a script. -/
def Report.ending (report : Report) (strip : Text → Text) (log : Text) : Ending :=
  match report.result with
  | .ok _ => { status := 0, shown := report.shown, complaint := log, store := report.store }
  | .error problem =>
    match problem.reported with
    | some said =>
      { status := 1, shown := report.shown, complaint := log ++ shownBlock strip said
        store := report.store }
    | none =>
      { status := 1, shown := report.shown, complaint := log, failure := some problem.message
        store := report.store }

/-- The program on its arguments and the setting of the log level. -/
def invoke (k : Toolkit) (s : FileStore) (setting : Option Text) (c : Clock) (args : List Text) :
    Ending :=
  match k.read s args with
  | .help shown => { status := 0, shown, store := s }
  | .misused complaint => { status := 2, complaint, store := s }
  | .failed message => { status := 1, failure := some message, store := s }
  | .run script output =>
    match Level.ofName? (levelName setting) with
    | none =>
      { status := 1, failure := some (Level.unknownMessage (levelName setting)), store := s }
    | some level =>
      let job := Job.requested script output c
      let log := logLines c (keptRecords (some level) (job.records s c))
      (job.run k.strip s).ending k.strip log

end DirectoryScript
