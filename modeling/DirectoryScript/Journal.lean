import DirectoryScript.Execution
import DirectoryScript.Level

namespace DirectoryScript

/-- The part of the program that a log record comes from. -/
inductive Component where
  | runner
  | executor
deriving DecidableEq

def Component.name : Component → Text
  | runner => "dirsim.runner".toList
  | executor => "dirsim.execution.executor".toList

structure LogRecord where
  level : Level
  component : Component
  message : Text
deriving DecidableEq

def LogRecord.shown (r : LogRecord) (stamp : Text) : Text :=
  stamp ++ " - ".toList ++ r.component.name ++ " - ".toList ++ r.level.name ++ " - ".toList ++
    r.message

/-- The records that a log of some level keeps; without a level there is no log. -/
def keptRecords (level : Option Level) (records : List LogRecord) : List LogRecord :=
  match level with
  | none => []
  | some least => records.filter fun r => least.rank ≤ r.level.rank

def executedRecord (w : Workspace) (c : Command) : LogRecord :=
  ⟨.debug, .executor, "Executing ".toList ++ c.echo ++ " in ".toList ++ w.position.shown⟩

def refusedRecord (c : Command) (why : Refusal) : LogRecord :=
  ⟨.debug, .executor, "State error for ".toList ++ quoted c.line ++ ": ".toList ++ why.message⟩

def movedRecord (home : Path) (source : Text) (target : Placement) : LogRecord :=
  ⟨.debug, .executor, "Moved ".toList ++ home.shown ++ pathSeparator :: source ++ " to ".toList ++
    target.folder.shown ++ pathSeparator :: target.name⟩

def rejectedRecord (r : RejectedLine) : LogRecord :=
  ⟨.debug, .runner, "Rejected ".toList ++ quoted r.line ++ ": ".toList ++ r.why.text⟩

namespace Workspace

/-- What the log says of a command that ended in a verdict. -/
def verdictRecords (w : Workspace) (c : Command) : Verdict → List LogRecord
  | .refused why => [refusedRecord c why]
  | .broken _ => []
  | .done _ =>
    if c.verb = .mv then
      match Placement.resolve w.root w.position c.source c.destination with
      | .ok target => [movedRecord w.position c.source target]
      | .error _ => []
    else []

def lineRecords (w : Workspace) (raw : Text) : List LogRecord :=
  match Command.parse (trim raw) with
  | .ok c => executedRecord w c :: w.verdictRecords c (w.attempt c).verdict
  | .error rejected => [rejectedRecord rejected]

def linesRecords (w : Workspace) : List Text → List LogRecord
  | [] => []
  | raw :: lines =>
    let first := w.runLine raw
    w.lineRecords raw ++ if first.fault = none then first.workspace.linesRecords lines else []

end Workspace

end DirectoryScript
