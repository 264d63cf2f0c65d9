import DirectoryScript.DirectoryPath

namespace DirectoryScript

/-- A name that no directory may have. -/
structure InvalidName where
  name : Text
  reason : Text := "names are 1-6 characters of letters, digits or '_'".toList
deriving DecidableEq

def InvalidName.message (e : InvalidName) : Text :=
  "Invalid directory name '".toList ++ e.name ++ "': ".toList ++ e.reason

namespace Directory

/-- Attaches a directory under a name. There is no result when the name is taken. -/
def insert? (d : Directory) (name : Text) (inside : Directory) :
    Except InvalidName (Option Directory) :=
  if isName name then .ok (if d.has name then none else some (d.place name inside))
  else .error { name }

/-- Detaches what is under a name: the directory found there, and what is left. -/
def remove? (d : Directory) (name : Text) : Option (Directory × Directory) :=
  (d.child? name).map fun inside => (inside, d.without name)

theorem remove?_of_child? {d inside : Directory} {name : Text} (h : d.child? name = some inside) :
    d.remove? name = some (inside, d.without name) := by
  simp [remove?, h]

/-- What an edit answers, and the directories that it leaves. -/
structure Edit (α : Type) where
  answer : α
  root : Directory
deriving DecidableEq

/-- Attaches a directory in the one at a path, and tells whether the name was free there. -/
def insertAt (root : Directory) (p : Path) (name : Text) (inside : Directory) :
    Except Missing (Edit (Except InvalidName Bool)) :=
  (root.locate p).map fun d =>
    match d.insert? name inside with
    | .error e => ⟨.error e, root⟩
    | .ok none => ⟨.ok false, root⟩
    | .ok (some grown) => ⟨.ok true, root.change (fun _ => grown) p⟩

/-- Detaches what is under a name in the directory at a path. There is no answer when nothing is
there. -/
def removeAt (root : Directory) (p : Path) (name : Text) :
    Except Missing (Edit (Option Directory)) :=
  (root.locate p).map fun d =>
    match d.remove? name with
    | none => ⟨none, root⟩
    | some (inside, rest) => ⟨some inside, root.change (fun _ => rest) p⟩

end Directory

end DirectoryScript
