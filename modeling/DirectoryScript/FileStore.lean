import DirectoryScript.Directory
import DirectoryScript.Quoted
import DirectoryScript.Utf8

namespace DirectoryScript

/-- The parts of a file path that name something; repeated slashes and single dots do not. -/
def pathParts (p : Text) : List Text := (split '/' p).filter fun part => part ≠ [] ∧ part ≠ here

/-- Exactly two slashes at the front stay two, any other number of them is one. -/
def pathRoot : Text → Text
  | '/' :: '/' :: '/' :: _ => ['/']
  | '/' :: '/' :: _ => ['/', '/']
  | '/' :: _ => ['/']
  | _ => []

/-- A file path in the form in which it is shown and opened. The empty path is the working
directory. -/
def normalPath (p : Text) : Text :=
  match pathRoot p ++ join '/' (pathParts p) with
  | [] => here
  | shown => shown

/-- An error of the file system: its number and what the system calls it. -/
structure SystemError where
  number : Nat
  text : Text
deriving DecidableEq

namespace SystemError

def noSuchFile : SystemError := ⟨2, "No such file or directory".toList⟩

def notAFolder : SystemError := ⟨20, "Not a directory".toList⟩

def isAFolder : SystemError := ⟨21, "Is a directory".toList⟩

def message (p : Text) (e : SystemError) : Text :=
  "[Errno ".toList ++ decimal e.number ++ "] ".toList ++ e.text ++ ": ".toList ++ quoted p

/-- Whoever asks whether a file is there takes these for an answer: no such file, a bad
descriptor, no folder on the way, and links that lead round in a circle. -/
def isAbsence (e : SystemError) : Bool := [2, 9, 20, 40].contains e.number

end SystemError

/-- What is asked of the file system, which may object to it: to take in a path, to follow a part
of it from a folder, to read a file and to write one. -/
inductive Access where
  | path (p : Text)
  | part (folder : List Text) (name : Text)
  | read (place : List Text)
  | write (place : List Text)

inductive Node where
  | folder
  | file (content : Bytes)
deriving DecidableEq

/-- The places of a file system, as the parts of their absolute paths, with the working
directory, what it objects to, and how many of the bytes that wait in a buffer each further piece
of text lets through to the file. -/
structure FileStore where
  home : List Text
  nodes : List (List Text × Node) := []
  objection : Access → Option SystemError := fun _ => none
  passes : Nat → Nat := fun _ => 0

def nullChar : Char := '\x00'

/-- Why a path cannot be opened. The null character ends a path, so no path holds it, and the
system is not even asked. -/
inductive OpenProblem where
  | nullInPath
  | system (e : SystemError)
deriving DecidableEq

def OpenProblem.message (p : Text) : OpenProblem → Text
  | nullInPath => "embedded null byte".toList
  | system e => e.message p

namespace FileStore

/-- A place above the working directory or above another place is a folder without being listed. -/
def node? (s : FileStore) (place : List Text) : Option Node :=
  match s.nodes.lookup place with
  | some node => some node
  | none =>
    if place.isPrefixOf s.home || s.nodes.any fun entry => place.isPrefixOf entry.1 then
      some .folder
    else none

def permits (s : FileStore) (a : Access) : Except OpenProblem Unit :=
  match s.objection a with
  | some e => .error (.system e)
  | none => .ok ()

def stepTo (place : List Text) (part : Text) : List Text :=
  if part = [] ∨ part = here then place
  else if part = above then place.dropLast
  else place ++ [part]

/-- Follows the parts of a path. Only the last place may be missing or a file. -/
def follow (s : FileStore) : List Text → List Text → Except OpenProblem (List Text)
  | place, [] => .ok place
  | place, part :: parts =>
    match s.node? place with
    | none => .error (.system .noSuchFile)
    | some (.file _) => .error (.system .notAFolder)
    | some .folder =>
      match s.permits (.part place part) with
      | .error problem => .error problem
      | .ok () => s.follow (stepTo place part) parts

def placeOf (s : FileStore) (p : Text) : Except OpenProblem (List Text) :=
  if nullChar ∈ p then .error .nullInPath
  else
    match s.permits (.path p) with
    | .error problem => .error problem
    | .ok () => s.follow (if p.head? = some '/' then [] else s.home) (split '/' p)

def isFolder (s : FileStore) (p : Text) : Bool :=
  match s.placeOf p with
  | .ok place => p ≠ [] ∧ s.node? place = some .folder
  | .error _ => false

/-- Whether a path leads to a file. An error that does not tell is passed on. -/
def isFile (s : FileStore) (p : Text) : Except SystemError Bool :=
  match s.placeOf p with
  | .ok place =>
    match s.node? place with
    | some (.file _) => .ok true
    | _ => .ok false
  | .error .nullInPath => .ok false
  | .error (.system e) => if e.isAbsence then .ok false else .error e

/-- What the file at a path holds, to be read or not. -/
def content? (s : FileStore) (p : Text) : Option Bytes :=
  match s.placeOf p with
  | .error _ => none
  | .ok place =>
    match s.node? place with
    | some (.file content) => some content
    | _ => none

def read (s : FileStore) (p : Text) : Except OpenProblem Bytes :=
  match s.placeOf p with
  | .error problem => .error problem
  | .ok place =>
    match s.node? place with
    | none => .error (.system .noSuchFile)
    | some .folder => .error (.system .isAFolder)
    | some (.file content) => (s.permits (.read place)).map fun () => content

/-- The place that opening a path for writing creates or empties. -/
def placeToWrite (s : FileStore) (p : Text) : Except OpenProblem (List Text) :=
  match s.placeOf p with
  | .error problem => .error problem
  | .ok place =>
    if s.node? place = some .folder then .error (.system .isAFolder)
    else (s.permits (.write place)).map fun () => place

def write (s : FileStore) (place : List Text) (content : Bytes) : FileStore :=
  { s with nodes := (place, .file content) :: s.nodes.filter fun entry => entry.1 ≠ place }

/-- Adds to the end of the file at a place. -/
def extend (s : FileStore) (place : List Text) (more : Bytes) : FileStore :=
  match s.node? place with
  | some (.file content) => s.write place (content ++ more)
  | _ => s.write place more

end FileStore

end DirectoryScript
