import DirectoryScript.Command
import DirectoryScript.DirectoryEdit
import DirectoryScript.Placement
import DirectoryScript.Quoted
import DirectoryScript.Views

namespace DirectoryScript

/-- The directories of a session and the path of its active directory. -/
structure Workspace where
  root : Directory := .empty
  position : Path := []
deriving DecidableEq, Inhabited

/-- A broken assumption about the workspace, which no script brings about. -/
inductive Fault where
  | strayPosition (position : Path) (missing : Missing)
  | noEntry (name : Text)
  | lostFolder (folder : Path) (source : Text)
  | invalidName (e : InvalidName)
deriving DecidableEq

def Fault.message : Fault → Text
  | strayPosition position missing =>
    "Path stack ".toList ++ quotedList position ++ " does not resolve: '".toList ++ missing.name ++
      "' missing under ".toList ++ missing.under.shown
  | noEntry name => quoted name
  | lostFolder folder source =>
    "Move target ".toList ++ folder.shown ++ " did not survive detaching '".toList ++ source ++
      "'".toList
  | invalidName e => e.message

/-- How the attempt at a command ends: with the blocks it prints, with a refusal that is
printed instead, or with a fault. -/
inductive Verdict where
  | done (blocks : List Text)
  | refused (why : Refusal)
  | broken (why : Fault)
deriving DecidableEq

structure Attempt where
  workspace : Workspace
  verdict : Verdict
deriving DecidableEq

def noSubdirectories : Text := "No subdirectories".toList

namespace Workspace

/-- Runs a command that needs the active directory. -/
def withActive (w : Workspace) (run : Directory → Attempt) : Attempt :=
  match w.root.locate w.position with
  | .ok active => run active
  | .error missing => ⟨w, .broken (.strayPosition w.position missing)⟩

def list (w : Workspace) : Attempt :=
  w.withActive fun active =>
    let header := "Directory of ".toList ++ w.position.shown ++ ":".toList
    let names := active.sortedNames
    ⟨w, .done [header, if names = [] then noSubdirectories else listing names]⟩

def draw (w : Workspace) : Attempt :=
  w.withActive fun active =>
    let lines := active.draw []
    let header := "Tree of ".toList ++ w.position.shown ++ ":".toList
    ⟨w, .done (header :: ".".toList :: if lines = [] then [] else [join '\n' lines])⟩

def make (w : Workspace) (name : Text) : Attempt :=
  w.withActive fun active =>
    match active.insert? name .empty with
    | .error e => ⟨w, .broken (.invalidName e)⟩
    | .ok none => ⟨w, .refused .nameTaken⟩
    | .ok (some grown) => ⟨{ w with root := w.root.change (fun _ => grown) w.position }, .done []⟩

def enter (w : Workspace) (name : Text) : Attempt :=
  w.withActive fun active =>
    if active.has name then ⟨{ w with position := w.position ++ [name] }, .done []⟩
    else ⟨w, .refused .notFound⟩

/-- Ascending does not look at the directories. -/
def ascend (w : Workspace) : Attempt :=
  if w.position = [] then ⟨w, .refused .aboveRoot⟩
  else ⟨{ w with position := w.position.dropLast }, .done []⟩

/-- Attaches a directory that has been detached from the workspace. When the receiving
directory went with it, or the name is invalid or taken, the directory is lost. -/
def attach (w : Workspace) (source : Text) (moved : Directory) (target : Placement) : Attempt :=
  match w.root.at? target.folder with
  | none => ⟨w, .broken (.lostFolder target.folder source)⟩
  | some folder =>
    match folder.insert? target.name moved with
    | .error e => ⟨w, .broken (.invalidName e)⟩
    | .ok none => ⟨w, .done []⟩
    | .ok (some grown) =>
      ⟨{ w with root := w.root.change (fun _ => grown) target.folder }, .done []⟩

/-- Moves a subdirectory of the active directory to a placement that is looked up before it is
detached. -/
def moveTo (w : Workspace) (source : Text) (target : Except Refusal Placement) : Attempt :=
  w.withActive fun active =>
    if active.has source then
      match target with
      | .error why => ⟨w, .refused why⟩
      | .ok target =>
        match active.remove? source with
        | none => ⟨w, .broken (.noEntry source)⟩
        | some (moved, rest) =>
          attach { w with root := w.root.change (fun _ => rest) w.position } source moved target
    else ⟨w, .refused .notFound⟩

/-- Moves a subdirectory to where a destination leads in the directories that it is looked up in. -/
def moveBy (resolving : Directory) (w : Workspace) (source destination : Text) : Attempt :=
  w.moveTo source (Placement.resolve resolving w.position source destination)

def move (w : Workspace) (source destination : Text) : Attempt :=
  w.moveBy w.root source destination

end Workspace

end DirectoryScript
