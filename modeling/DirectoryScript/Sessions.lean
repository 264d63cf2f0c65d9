import DirectoryScript.Execution

namespace DirectoryScript

/-- Where an object is kept. Two objects that refer to one place share what is there. -/
abbrev Ref := Nat

structure Session where
  tree : Ref
  position : Path := []
deriving DecidableEq

/-- What looks up the destinations of moves, in a tree that it was given. -/
structure Resolver where
  tree : Ref
deriving DecidableEq

/-- Executes commands in one session; nothing but its making binds its resolver to the tree of that
session. -/
structure Executor where
  session : Ref
  resolver : Ref
deriving DecidableEq

/-- Runs script lines. Its parser holds nothing, so it is no object here. -/
structure Runner where
  session : Ref
  executor : Executor
deriving DecidableEq

/-- The objects that have been made, each at the place that its reference counts to. -/
structure Heap where
  trees : List Directory := []
  sessions : List Session := []
  resolvers : List Resolver := []
deriving DecidableEq

/-- What a line run in a session has come to. -/
structure Answer where
  blocks : List Text
  fault : Option Fault := none
deriving DecidableEq

namespace Heap

def newTree (h : Heap) : Ref × Heap :=
  (h.trees.length, { h with trees := h.trees ++ [.empty] })

/-- A session without a tree to work on makes one of its own. -/
def newSession (h : Heap) (tree : Option Ref) : Ref × Heap :=
  let (tree, h) := match tree with
    | some tree => (tree, h)
    | none => h.newTree
  (h.sessions.length, { h with sessions := h.sessions ++ [{ tree := tree }] })

/-- The resolver of an executor is bound to the tree that the session has at that time. -/
def newExecutor (h : Heap) (session : Ref) : Option (Executor × Heap) :=
  h.sessions[session]?.map fun found =>
    (⟨session, h.resolvers.length⟩, { h with resolvers := h.resolvers ++ [⟨found.tree⟩] })

/-- A runner without a session to work in makes one of its own. -/
def newRunner (h : Heap) (session : Option Ref) : Option (Runner × Heap) :=
  let (session, h) := match session with
    | some session => (session, h)
    | none => h.newSession none
  (h.newExecutor session).map fun (executor, h) => (⟨session, executor⟩, h)

/-- The directories and the position that a reference to a session leads to. -/
def workspace? (h : Heap) (session : Ref) : Option Workspace := do
  let found ← h.sessions[session]?
  let root ← h.trees[found.tree]?
  return ⟨root, found.position⟩

/-- Puts the directories and the position back where they have come from. -/
def putWorkspace (h : Heap) (session : Ref) (w : Workspace) : Heap :=
  match h.sessions[session]? with
  | none => h
  | some found =>
    { h with
      trees := h.trees.set found.tree w.root
      sessions := h.sessions.set session { found with position := w.position } }

/-- Executes a command, if none of the references is to nothing. -/
def execute (h : Heap) (x : Executor) (c : Command) : Option (Answer × Heap) := do
  let w ← h.workspace? x.session
  let resolver ← h.resolvers[x.resolver]?
  let resolving ← h.trees[resolver.tree]?
  let o := (w.attemptBy resolving c).reported c
  return (⟨o.blocks, o.fault⟩, h.putWorkspace x.session o.workspace)

def runLine (h : Heap) (r : Runner) (raw : Text) : Option (Answer × Heap) :=
  match Command.parse (trim raw) with
  | .ok c => h.execute r.executor c
  | .error rejected => some (⟨[rejected.message], none⟩, h)

/-- Runs lines one after the other, each with the runner that its number names. -/
def runSteps (h : Heap) (runners : List Runner) : List (Nat × Text) → Option (List Answer × Heap)
  | [] => some ([], h)
  | (i, line) :: steps => do
    let runner ← runners[i]?
    let (answer, h) ← h.runLine runner line
    let (answers, h) ← h.runSteps runners steps
    return (answer :: answers, h)

/-- Makes runners one after the other, each with a session of its own. -/
def newRunners (h : Heap) : Nat → Option (List Runner × Heap)
  | 0 => some ([], h)
  | n + 1 => do
    let (runners, h) ← h.newRunners n
    let (runner, h) ← h.newRunner none
    return (runners ++ [runner], h)

end Heap

/-- What some steps come to that fresh runners take, and the workspaces that these end with. -/
def runFresh (n : Nat) (steps : List (Nat × Text)) :
    Option (List Answer × List (Option Workspace)) := do
  let (runners, h) ← Heap.newRunners {} n
  let (answers, h) ← h.runSteps runners steps
  return (answers, runners.map fun runner => h.workspace? runner.session)

end DirectoryScript
