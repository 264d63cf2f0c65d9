import DirectoryScript.DirectoryPath

namespace DirectoryScript

/-- Why a command that is well formed does not apply to the directories as they are. -/
inductive Refusal where
  | nameTaken
  | notFound
  | aboveRoot
  | illegalMove
deriving DecidableEq

def Refusal.message : Refusal → Text
  | nameTaken => "Subdirectory already exists".toList
  | notFound => "Subdirectory does not exist".toList
  | aboveRoot => "Cannot move up from root directory".toList
  | illegalMove => "Illegal action attempted".toList

/-- Where a moved directory goes: the directory that receives it and its name there. -/
structure Placement where
  folder : Path
  name : Text
deriving DecidableEq

namespace Placement

/-- The last checks, made where the walk along a destination has ended. -/
def settle (root : Directory) (home : Path) (source : Text) (folder : Path) (name : Text) :
    Except Refusal Placement :=
  match root.at? folder with
  | none => .error .notFound
  | some d =>
    if folder.shown = home.shown ∧ name = source then .error .illegalMove
    else if d.has name then .error .nameTaken
    else .ok ⟨folder, name⟩

/-- Walks along a destination. A last step that names nothing renames the directory; one that
names a directory moves into it. Being at home is seen by the shown path. -/
def walk (root : Directory) (home : Path) (source : Text) :
    Path → List Text → Except Refusal Placement
  | folder, [] => settle root home source folder source
  | folder, step :: steps =>
    if step = here then walk root home source folder steps
    else if step = above then
      if folder = [] then .error .aboveRoot else walk root home source folder.dropLast steps
    else
      match root.at? folder with
      | none => .error .notFound
      | some d =>
        if folder.shown = home.shown ∧ step = source then .error .illegalMove
        else
          match d.child? step with
          | some inside =>
            if steps = [] ∧ inside.has source then .error .nameTaken
            else walk root home source (folder ++ [step]) steps
          | none => if steps = [] then settle root home source folder step else .error .notFound

/-- The placement that a destination means for a directory moved out of `home`. -/
def resolve (root : Directory) (home : Path) (source destination : Text) :
    Except Refusal Placement :=
  walk root home source home (destinationSteps destination)

end Placement

end DirectoryScript
