import DirectoryScript.Sessions
import DirectoryScript.Proofs.CutOutput
import Mathlib.Logic.Function.Basic

namespace DirectoryScript

/-- A runner, and the tree that its session works on and its resolver looks in. -/
structure Owner where
  runner : Runner
  tree : Ref

/-- Two runners that neither share a session nor a tree. -/
structure Owner.Apart (a b : Owner) : Prop where
  session : a.runner.session ≠ b.runner.session
  tree : a.tree ≠ b.tree

namespace Heap

variable {h h' : Heap} {a b : Owner} {w : Workspace}

/-- The objects of a runner hold a workspace. Session and executor agree on the session, session and
resolver on the tree. -/
structure Holds (h : Heap) (a : Owner) (w : Workspace) : Prop where
  executor : a.runner.executor.session = a.runner.session
  session : h.sessions[a.runner.session]? = some ⟨a.tree, w.position⟩
  resolver : h.resolvers[a.runner.executor.resolver]? = some ⟨a.tree⟩
  tree : h.trees[a.tree]? = some w.root

theorem Holds.workspace? (ha : h.Holds a w) : h.workspace? a.runner.session = some w := by
  simp [Heap.workspace?, ha.session, ha.tree]

theorem Holds.putWorkspace_eq (ha : h.Holds a w) (after : Workspace) :
    h.putWorkspace a.runner.session after = { h with
      trees := h.trees.set a.tree after.root
      sessions := h.sessions.set a.runner.session ⟨a.tree, after.position⟩ } := by
  simp only [putWorkspace, ha.session]

/-- What is put into the objects of a runner is held by them. -/
theorem Holds.putWorkspace (ha : h.Holds a w) (after : Workspace) :
    (h.putWorkspace a.runner.session after).Holds a after := by
  have hsession := (List.getElem?_eq_some_iff.mp ha.session).1
  have htree := (List.getElem?_eq_some_iff.mp ha.tree).1
  rw [ha.putWorkspace_eq]
  exact ⟨ha.executor, List.getElem?_set_self hsession, ha.resolver, List.getElem?_set_self htree⟩

/-- The objects of another runner hold what they held. -/
theorem Holds.putWorkspace_other {other : Workspace} (ha : h.Holds a w) (hb : h.Holds b other)
    (hapart : a.Apart b) (after : Workspace) :
    (h.putWorkspace a.runner.session after).Holds b other := by
  rw [ha.putWorkspace_eq]
  refine ⟨hb.executor, ?_, hb.resolver, ?_⟩
  · show (h.sessions.set _ _)[_]? = _
    rw [List.getElem?_set_ne hapart.session, hb.session]
  · show (h.trees.set _ _)[_]? = _
    rw [List.getElem?_set_ne hapart.tree, hb.tree]

theorem Holds.runLine (ha : h.Holds a w) (line : Text) : ∃ h', h.runLine a.runner line =
      some (⟨(w.runLine line).blocks, (w.runLine line).fault⟩, h') ∧
    (h' = h ∧ (w.runLine line).workspace = w ∨
      h' = h.putWorkspace a.runner.session (w.runLine line).workspace) := by
  cases hparse : Command.parse (trim line) with
  | error rejected =>
    have hline : w.runLine line = ⟨w, [rejected.message], none⟩ := by
      rw [Workspace.runLine, hparse]
    refine ⟨h, ?_, Or.inl ⟨rfl, by rw [hline]⟩⟩
    rw [Heap.runLine, hparse, hline]
  | ok c =>
    -- The resolver looks in the tree that the session works on.
    have hline : w.runLine line = (w.attemptBy w.root c).reported c := by
      rw [Workspace.runLine, hparse]
      rfl
    refine ⟨_, ?_, Or.inr rfl⟩
    rw [Heap.runLine, hparse, hline]
    simp [Heap.execute, ha.executor, ha.workspace?, ha.resolver, ha.tree]

/-- Runners that hold a workspace each, and share nothing. -/
structure Separate (h : Heap) (owners : List Owner) (ws : Nat → Workspace) : Prop where
  held : ∀ (i : Nat) (a : Owner), owners[i]? = some a → h.Holds a (ws i)
  apart : ∀ (i j : Nat) (a b : Owner), owners[i]? = some a → owners[j]? = some b → i ≠ j → a.Apart b

variable {owners : List Owner} {ws : Nat → Workspace}

/-- A line changes the workspace of the runner that runs it, and no other. -/
theorem Separate.runLine {i : Nat} (hs : h.Separate owners ws) (hi : owners[i]? = some a)
    (line : Text) : ∃ h', h.runLine a.runner line =
      some (⟨((ws i).runLine line).blocks, ((ws i).runLine line).fault⟩, h') ∧
    h'.Separate owners (Function.update ws i ((ws i).runLine line).workspace) := by
  have ha := hs.held i a hi
  obtain ⟨h', hrun, hafter⟩ := ha.runLine line
  refine ⟨h', hrun, ?_, hs.apart⟩
  intro j b hj
  rcases hafter with ⟨rfl, hsame⟩ | rfl
  · rw [hsame, Function.update_eq_self]
    exact hs.held j b hj
  · by_cases hji : j = i
    · subst hji
      cases Option.some.inj (hi.symm.trans hj)
      rw [Function.update_self]
      exact ha.putWorkspace _
    · rw [Function.update_of_ne hji]
      exact ha.putWorkspace_other (hs.held j b hj) (hs.apart i j a b hi hj (Ne.symm hji)) _

end Heap

/-- The lines among some steps that one of the runners runs. -/
def linesFor (i : Nat) (steps : List (Nat × Text)) : List Text :=
  (steps.filter fun step => step.1 = i).map fun step => step.2

/-- The answers to the steps that one of the runners takes. -/
def answersFor (i : Nat) (steps : List (Nat × Text)) (answers : List Answer) : List Answer :=
  ((steps.zip answers).filter fun step => step.1.1 = i).map fun step => step.2

/-- The answers to the lines that a workspace runs, one after the other. -/
def Workspace.answers (w : Workspace) : List Text → List Answer
  | [] => []
  | line :: lines =>
    ⟨(w.runLine line).blocks, (w.runLine line).fault⟩ :: (w.runLine line).workspace.answers lines

variable {w : Workspace} {i j n : Nat} {line : Text} {steps : List (Nat × Text)}

theorem linesFor_same (i : Nat) (line : Text) (steps : List (Nat × Text)) :
    linesFor i ((i, line) :: steps) = line :: linesFor i steps := by
  simp [linesFor]

theorem linesFor_other (h : j ≠ i) (line : Text) (steps : List (Nat × Text)) :
    linesFor i ((j, line) :: steps) = linesFor i steps := by
  simp [linesFor, h]

theorem answersFor_same (i : Nat) (line : Text) (steps : List (Nat × Text)) (answer : Answer)
    (answers : List Answer) : answersFor i ((i, line) :: steps) (answer :: answers) =
      answer :: answersFor i steps answers := by
  simp [answersFor]

theorem answersFor_other (h : j ≠ i) (line : Text) (steps : List (Nat × Text)) (answer : Answer)
    (answers : List Answer) : answersFor i ((j, line) :: steps) (answer :: answers) =
      answersFor i steps answers := by
  simp [answersFor, h]

/-- A runner that takes all steps is asked all lines, and gives all answers. -/
theorem linesFor_own (i : Nat) (lines : List Text) :
    linesFor i (lines.map fun line => (i, line)) = lines := by
  induction lines with
  | nil => rfl
  | cons line lines ih => rw [List.map_cons, linesFor_same, ih]

theorem answersFor_own (i : Nat) {lines : List Text} {answers : List Answer}
    (h : answers.length = lines.length) :
    answersFor i (lines.map fun line => (i, line)) answers = answers := by
  induction lines generalizing answers with
  | nil =>
    rw [List.eq_nil_of_length_eq_zero h]
    rfl
  | cons line lines ih =>
    cases answers with
    | nil => simp at h
    | cons answer answers =>
      rw [List.map_cons, answersFor_same, ih (Nat.succ.inj h)]

theorem Workspace.answers_blocks (w : Workspace) (lines : List Text) :
    (w.answers lines).map Answer.blocks = w.blocksByLine lines := by
  induction lines generalizing w with
  | nil => rfl
  | cons line lines ih => rw [answers, List.map_cons, ih, blocksByLine]

theorem Workspace.answers_faultless (hw : w.Sound) (lines : List Text) :
    ∀ answer ∈ w.answers lines, answer.fault = none := by
  induction lines generalizing w with
  | nil => simp [answers]
  | cons line lines ih =>
    intro answer hm
    obtain ⟨hfault, hsound⟩ := runLine_sound hw line
    rcases List.mem_cons.mp hm with rfl | hm
    · exact hfault
    · exact ih hsound answer hm

namespace Heap

variable {h : Heap} {owners : List Owner} {ws : Nat → Workspace}

theorem sound_after_line (hw : ∀ i, (ws i).Sound) (j : Nat) (line : Text) (i : Nat) :
    (Function.update ws j ((ws j).runLine line).workspace i).Sound := by
  by_cases hij : i = j
  · subst hij
    rw [Function.update_self]
    exact (Workspace.runLine_sound (hw i) line).2
  · rw [Function.update_of_ne hij]
    exact hw i

/-- The step of one runner is the first line for this one, and no line for any other. -/
theorem runLines_after_line (hw : ∀ i, (ws i).Sound) (j : Nat) (line : Text)
    (steps : List (Nat × Text)) (i : Nat) :
    ((Function.update ws j ((ws j).runLine line).workspace i).runLines
        (linesFor i steps)).workspace =
      ((ws i).runLines (linesFor i ((j, line) :: steps))).workspace := by
  by_cases hij : i = j
  · subst hij
    rw [linesFor_same, Function.update_self, Workspace.runLines_cons (hw i)]
  · rw [linesFor_other (Ne.symm hij), Function.update_of_ne hij]

theorem answersFor_after_line {j : Nat} {line : Text} {answers : List Answer} {i : Nat}
    (h : answersFor i steps answers =
      (Function.update ws j ((ws j).runLine line).workspace i).answers (linesFor i steps)) :
    answersFor i ((j, line) :: steps)
        (⟨((ws j).runLine line).blocks, ((ws j).runLine line).fault⟩ :: answers) =
      (ws i).answers (linesFor i ((j, line) :: steps)) := by
  by_cases hij : i = j
  · subst hij
    rw [linesFor_same, answersFor_same, h, Function.update_self, Workspace.answers]
  · rw [linesFor_other (Ne.symm hij), answersFor_other (Ne.symm hij), h,
      Function.update_of_ne hij]

/-- Whatever the other runners run in between, a runner answers and ends as its workspace does with
its own lines alone. -/
theorem Separate.runSteps (hs : h.Separate owners ws) (hw : ∀ i, (ws i).Sound)
    (hsteps : ∀ step ∈ steps, step.1 < owners.length) : ∃ answers h',
      h.runSteps (owners.map Owner.runner) steps = some (answers, h') ∧
      answers.length = steps.length ∧
      h'.Separate owners (fun i => ((ws i).runLines (linesFor i steps)).workspace) ∧
      ∀ i, answersFor i steps answers = (ws i).answers (linesFor i steps) := by
  induction steps generalizing h ws with
  | nil => exact ⟨[], h, rfl, rfl, hs, fun i => rfl⟩
  | cons step steps ih =>
    obtain ⟨j, line⟩ := step
    have hj : j < owners.length := hsteps (j, line) List.mem_cons_self
    have howner := List.getElem?_eq_getElem hj
    obtain ⟨h₁, hline, hs₁⟩ := hs.runLine howner line
    obtain ⟨answers, h', hrest, hlength, hs', hanswers⟩ := ih hs₁ (sound_after_line hw j line)
      fun step hm => hsteps step (List.mem_cons_of_mem _ hm)
    have hlasts := funext (runLines_after_line hw j line steps)
    rw [hlasts] at hs'
    refine ⟨_, h', ?_, congrArg _ hlength, hs', fun i => answersFor_after_line (hanswers i)⟩
    rw [Heap.runSteps, List.getElem?_map, howner]
    simp only [Option.map_some, Option.bind_eq_bind, Option.bind_some, hline, hrest]
    rfl

/-- The runner that is made next, with the tree that is made for it. -/
def nextOwner (h : Heap) : Owner where
  runner := ⟨h.sessions.length, ⟨h.sessions.length, h.resolvers.length⟩⟩
  tree := h.trees.length

def withNext (h : Heap) : Heap where
  trees := h.trees ++ [.empty]
  sessions := h.sessions ++ [{ tree := h.trees.length }]
  resolvers := h.resolvers ++ [⟨h.trees.length⟩]

theorem newRunner_eq (h : Heap) : h.newRunner none = some (h.nextOwner.runner, h.withNext) := by
  simp [newRunner, newSession, newTree, newExecutor, nextOwner, withNext]

theorem holds_nextOwner (h : Heap) : h.withNext.Holds h.nextOwner {} :=
  ⟨rfl, List.getElem?_concat_length, List.getElem?_concat_length, List.getElem?_concat_length⟩

theorem getElem?_append_of_some {α : Type} {xs ys : List α} {i : Nat} {x : α}
    (hx : xs[i]? = some x) : (xs ++ ys)[i]? = some x := by
  rw [List.getElem?_append_left (List.getElem?_eq_some_iff.mp hx).1, hx]

theorem getElem?_concat_cases {α : Type} {xs : List α} {last x : α} {i : Nat}
    (h : (xs ++ [last])[i]? = some x) : xs[i]? = some x ∨ i = xs.length ∧ x = last := by
  by_cases hless : i < xs.length
  · rw [List.getElem?_append_left hless] at h
    exact Or.inl h
  · have hbound := (List.getElem?_eq_some_iff.mp h).1
    rw [List.length_append, List.length_singleton] at hbound
    have he : i = xs.length := by omega
    rw [he, List.getElem?_concat_length] at h
    exact Or.inr ⟨he, (Option.some.inj h).symm⟩

theorem Holds.withNext {a : Owner} {w : Workspace} (ha : h.Holds a w) : h.withNext.Holds a w :=
  ⟨ha.executor, getElem?_append_of_some ha.session, getElem?_append_of_some ha.resolver,
    getElem?_append_of_some ha.tree⟩

/-- What is made for a runner is in no other hands. -/
theorem Holds.apart_nextOwner {a : Owner} {w : Workspace} (ha : h.Holds a w) :
    a.Apart h.nextOwner := by
  have hsession := (List.getElem?_eq_some_iff.mp ha.session).1
  have htree := (List.getElem?_eq_some_iff.mp ha.tree).1
  exact ⟨Nat.ne_of_lt hsession, Nat.ne_of_lt htree⟩

theorem Separate.withNext (hs : h.Separate owners ws) (hlast : ws owners.length = {}) :
    h.withNext.Separate (owners ++ [h.nextOwner]) ws := by
  constructor
  case held =>
    intro i a hi
    rcases getElem?_concat_cases hi with hold | ⟨rfl, rfl⟩
    · exact (hs.held i a hold).withNext
    · rw [hlast]
      exact h.holds_nextOwner
  case apart =>
    intro i j a b hi hj hne
    rcases getElem?_concat_cases hi with hold | ⟨hlast, rfl⟩
    · rcases getElem?_concat_cases hj with hold' | ⟨_, rfl⟩
      · exact hs.apart i j a b hold hold' hne
      · exact (hs.held i a hold).apart_nextOwner
    · rcases getElem?_concat_cases hj with hold' | ⟨hlast', rfl⟩
      · have hapart := (hs.held j b hold').apart_nextOwner
        exact ⟨hapart.session.symm, hapart.tree.symm⟩
      · exact absurd (hlast.trans hlast'.symm) hne

/-- Runners that make their own sessions share nothing, and find fresh workspaces. -/
theorem newRunners_separate (n : Nat) : ∃ (owners : List Owner) (h : Heap),
    Heap.newRunners {} n = some (owners.map Owner.runner, h) ∧ owners.length = n ∧
      h.Separate owners (fun _ => {}) := by
  induction n with
  | zero =>
    refine ⟨[], {}, rfl, rfl, ?_, ?_⟩
    · intro i a hi
      simp at hi
    · intro i j a b hi
      simp at hi
  | succ n ih =>
    obtain ⟨owners, h, hmade, hlength, hs⟩ := ih
    refine ⟨owners ++ [h.nextOwner], h.withNext, ?_, ?_, hs.withNext rfl⟩
    · rw [newRunners, hmade]
      simp [newRunner_eq]
    · rw [List.length_append, hlength, List.length_singleton]

end Heap

/-- What fresh runners come to: each runs its own lines as a fresh workspace does. -/
theorem runFresh_eq {n : Nat} {steps : List (Nat × Text)}
    (hsteps : ∀ step ∈ steps, step.1 < n) : ∃ answers lasts,
    runFresh n steps = some (answers, lasts) ∧ answers.length = steps.length ∧
    (∀ i, answersFor i steps answers = Workspace.answers {} (linesFor i steps)) ∧
    lasts = (List.range n).map fun i =>
      some (Workspace.runLines {} (linesFor i steps)).workspace := by
  obtain ⟨owners, h, hmade, hlength, hs⟩ := Heap.newRunners_separate n
  rw [← hlength] at hsteps
  obtain ⟨answers, h', hrun, hsame, hs', hanswers⟩ :=
    hs.runSteps (fun _ => Workspace.sound_fresh) hsteps
  have hlasts : (owners.map Owner.runner).map (fun runner => h'.workspace? runner.session) =
      (List.range n).map fun i => some (Workspace.runLines {} (linesFor i steps)).workspace := by
    apply List.ext_getElem
    · simp [hlength]
    · intro i hi _
      rw [List.length_map, List.length_map] at hi
      simp only [List.getElem_map, List.getElem_range]
      exact (hs'.held i owners[i] (List.getElem?_eq_getElem hi)).workspace?
  refine ⟨answers, _, ?_, hsame, hanswers, hlasts⟩
  simp [runFresh, hmade, hrun]

/-- What one of some fresh runners answers to its own steps, and the workspace it ends with. -/
def Observed (n : Nat) (steps : List (Nat × Text)) (i : Nat) (own : List Answer)
    (last : Workspace) : Prop :=
  ∃ answers lasts, runFresh n steps = some (answers, lasts) ∧ answersFor i steps answers = own ∧
    lasts[i]? = some (some last)

theorem observed (hi : i < n) (hsteps : ∀ step ∈ steps, step.1 < n) :
    Observed n steps i (Workspace.answers {} (linesFor i steps))
      (Workspace.runLines {} (linesFor i steps)).workspace := by
  obtain ⟨answers, lasts, hrun, _, hanswers, hlasts⟩ := runFresh_eq hsteps
  refine ⟨answers, lasts, hrun, hanswers i, ?_⟩
  rw [hlasts, List.getElem?_map, List.getElem?_range hi, Option.map_some]

theorem runFresh_one (lines : List Text) : runFresh 1 (lines.map fun line => (0, line)) =
    some (Workspace.answers {} lines, [some (Workspace.runLines {} lines).workspace]) := by
  have hzero : ∀ step ∈ lines.map fun line => (0, line), step.1 < 1 := by simp
  obtain ⟨own, lasts, hrun, hlength, hanswers, hlasts⟩ := runFresh_eq hzero
  rw [List.length_map] at hlength
  have halone := hanswers 0
  rw [linesFor_own, answersFor_own 0 hlength] at halone
  rw [hrun, halone, hlasts, List.range_one, List.map_singleton, linesFor_own]

/-- Whatever other sessions do in between, a session answers and ends as a single one does that is
given its lines alone, and meets no fault. So only the order of its own lines counts. -/
theorem sessions_independent {n i : Nat} (hi : i < n) {steps : List (Nat × Text)}
    (hsteps : ∀ step ∈ steps, step.1 < n) : ∃ own last, Observed n steps i own last ∧
      runFresh 1 ((linesFor i steps).map fun line => (0, line)) = some (own, [some last]) ∧
      (own.flatMap Answer.blocks = (Workspace.runLines {} (linesFor i steps)).blocks ∧
        last = (Workspace.runLines {} (linesFor i steps)).workspace ∧
        ∀ answer ∈ own, answer.fault = none) ∧
      ∀ steps', (∀ step ∈ steps', step.1 < n) → linesFor i steps' = linesFor i steps →
        Observed n steps' i own last := by
  refine ⟨_, _, observed hi hsteps, runFresh_one _, ⟨?_, rfl, ?_⟩, ?_⟩
  · rw [List.flatMap_def, Workspace.answers_blocks, Workspace.runLines_blocks Workspace.sound_fresh]
  · exact Workspace.answers_faultless Workspace.sound_fresh _
  · intro steps' hsteps' hlines
    rw [← hlines]
    exact observed hi hsteps'

theorem second_of_two_sessions :
    let steps := [(1, "mkdir   a".toList), (0, "mkdir   b".toList), (1, "mkdir   b".toList),
      (0, "cd      b".toList), (1, "mv      a       b".toList)]
    1 < 2 ∧ (∀ step ∈ steps, step.1 < 2) ∧
      ∃ own, Observed 2 steps 1 own ⟨.entry ['b'] (.entry ['a'] .empty .empty) .empty, []⟩ := by
  intro steps
  have hsteps : ∀ step ∈ steps, step.1 < 2 := by decide
  obtain ⟨own, last, hobserved, _, ⟨_, hlast, _⟩, _⟩ :=
    sessions_independent (n := 2) (i := 1) (by decide) hsteps
  refine ⟨by decide, hsteps, own, ?_⟩
  rw [hlast] at hobserved
  exact hobserved

/-- Two sessions on one tree are not independent. -/
example :
    let (tree, h) := Heap.newTree {}
    let (one, h) := h.newSession (some tree)
    let (other, h) := h.newSession (some tree)
    (do
      let (maker, h) ← h.newRunner (some one)
      let (lister, h) ← h.newRunner (some other)
      let (_, h) ← h.runLine maker "mkdir   a".toList
      let (answer, _) ← h.runLine lister "dir".toList
      return answer.blocks.getLast?) = some (some (cell "a".toList)) := by
  decide +kernel

end DirectoryScript
