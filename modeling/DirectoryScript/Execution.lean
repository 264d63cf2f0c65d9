import DirectoryScript.CommandColumns
import DirectoryScript.Workspace

namespace DirectoryScript

/-- What running something leaves: the workspace, the blocks printed so far and the fault, if
any, that ended it. -/
structure Outcome where
  workspace : Workspace
  blocks : List Text
  fault : Option Fault := none
deriving DecidableEq

/-- A command is echoed before its result; a refusal is the result of a command that fails. -/
def Attempt.reported (a : Attempt) (c : Command) : Outcome :=
  match a.verdict with
  | .done blocks => ⟨a.workspace, c.echo :: blocks, none⟩
  | .refused why => ⟨a.workspace, [c.echo, why.message], none⟩
  | .broken why => ⟨a.workspace, [], some why⟩

namespace Workspace

/-- Attempts a command. Only a move looks up a placement, in the directories given for it. -/
def attemptBy (resolving : Directory) (w : Workspace) (c : Command) : Attempt :=
  match c.verb with
  | .dir => w.list
  | .mkdir => w.make c.source
  | .cd => w.enter c.source
  | .up => w.ascend
  | .mv => w.moveBy resolving c.source c.destination
  | .tree => w.draw

def attempt (w : Workspace) (c : Command) : Attempt := w.attemptBy w.root c

def execute (w : Workspace) (c : Command) : Outcome := (w.attempt c).reported c

/-- Runs one line of a script, with or without blanks around it. -/
def runLine (w : Workspace) (raw : Text) : Outcome :=
  match Command.parse (trim raw) with
  | .ok c => w.execute c
  | .error rejected => ⟨w, [rejected.message], none⟩

/-- Runs the lines of a script in order, up to the first fault. -/
def runLines (w : Workspace) : List Text → Outcome
  | [] => ⟨w, [], none⟩
  | raw :: lines =>
    let first := w.runLine raw
    match first.fault with
    | some _ => first
    | none =>
      let rest := first.workspace.runLines lines
      { rest with blocks := first.blocks ++ rest.blocks }

end Workspace

end DirectoryScript
