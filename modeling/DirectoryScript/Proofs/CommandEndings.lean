import DirectoryScript.Execution
import DirectoryScript.Proofs.PlacementSafety

namespace DirectoryScript

namespace Workspace

/-- Why a command may be refused where the workspace is as it is. -/
inductive Refuses (w : Workspace) (c : Command) : Refusal → Prop
  | makeTaken {active : Directory} : c.verb = .mkdir → w.root.at? w.position = some active →
      isName c.source = true → active.has c.source = true → Refuses w c .nameTaken
  | enterAbsent {active : Directory} : c.verb = .cd → w.root.at? w.position = some active →
      active.has c.source = false → Refuses w c .notFound
  | ascendRoot : c.verb = .up → w.position = [] → Refuses w c .aboveRoot
  | moveAbsent {active : Directory} : c.verb = .mv → w.root.at? w.position = some active →
      active.has c.source = false → Refuses w c .notFound
  | movePlacement {active : Directory} {why : Refusal} : c.verb = .mv →
      w.root.at? w.position = some active → active.has c.source = true →
      Placement.resolve w.root w.position c.source c.destination = .error why → Refuses w c why

/-- What a command that prints only its echo makes of the workspace. -/
inductive Changes (w : Workspace) (c : Command) : Workspace → Prop
  | made {active : Directory} : c.verb = .mkdir → w.root.at? w.position = some active →
      isName c.source = true → active.child? c.source = none →
      Changes w c ⟨w.root.change (fun _ => active.place c.source .empty) w.position, w.position⟩
  | entered {active : Directory} : c.verb = .cd → w.root.at? w.position = some active →
      active.has c.source = true → Changes w c ⟨w.root, w.position ++ [c.source]⟩
  | ascended : c.verb = .up → w.position ≠ [] → Changes w c ⟨w.root, w.position.dropLast⟩
  | moved {active moved folder : Directory} {target : Placement} : c.verb = .mv →
      w.root.at? w.position = some active → active.child? c.source = some moved →
      Placement.resolve w.root w.position c.source c.destination = .ok target →
      isName target.name = true →
      (w.root.change (fun _ => active.without c.source) w.position).at? target.folder =
        some folder → folder.child? target.name = none →
      Changes w c ⟨(w.root.change (fun _ => active.without c.source) w.position).change
        (fun _ => folder.place target.name moved) target.folder, w.position⟩

/-- Every way in which the attempt at a command ends, with what it leaves. The fields of the
command may be any text, and the position may lead nowhere. -/
inductive Ends (w : Workspace) (c : Command) : Attempt → Prop
  | stray {missing : Missing} : c.verb ≠ .up → w.root.locate w.position = .error missing →
      Ends w c ⟨w, .broken (.strayPosition w.position missing)⟩
  | makeBadName {active : Directory} : c.verb = .mkdir → w.root.at? w.position = some active →
      isName c.source = false → Ends w c ⟨w, .broken (.invalidName { name := c.source })⟩
  | moveBadName {active : Directory} {target : Placement} : c.verb = .mv →
      w.root.at? w.position = some active → active.has c.source = true →
      Placement.resolve w.root w.position c.source c.destination = .ok target →
      isName target.name = false →
      Ends w c ⟨⟨w.root.change (fun _ => active.without c.source) w.position, w.position⟩,
        .broken (.invalidName { name := target.name })⟩
  | listed {active : Directory} : c.verb = .dir → w.root.at? w.position = some active →
      Ends w c ⟨w, .done ["Directory of ".toList ++ w.position.shown ++ ":".toList,
        if active.sortedNames = [] then noSubdirectories else listing active.sortedNames]⟩
  | drawn {active : Directory} : c.verb = .tree → w.root.at? w.position = some active →
      Ends w c ⟨w, .done (("Tree of ".toList ++ w.position.shown ++ ":".toList) :: ".".toList ::
        if active.draw [] = [] then [] else [join '\n' (active.draw [])])⟩
  | refused {why : Refusal} : w.Refuses c why → Ends w c ⟨w, .refused why⟩
  | changed {after : Workspace} : w.Changes c after → Ends w c ⟨after, .done []⟩

variable {w : Workspace} {c : Command}

/-- Every command but the ascent needs its active directory, and ends early without it. -/
theorem withActive_ends {run : Directory → Attempt} (hv : c.verb ≠ .up)
    (h : ∀ active, w.root.at? w.position = some active → w.Ends c (run active)) :
    w.Ends c (w.withActive run) := by
  unfold withActive
  split
  next active ha => exact h active (Directory.at?_eq_some_iff.mpr ha)
  next missing hm => exact .stray hv hm

theorem list_ends (hv : c.verb = .dir) : w.Ends c w.list := by
  refine withActive_ends (by simp [hv]) fun active ha => ?_
  exact .listed hv ha

theorem draw_ends (hv : c.verb = .tree) : w.Ends c w.draw := by
  refine withActive_ends (by simp [hv]) fun active ha => ?_
  exact .drawn hv ha

theorem make_ends (hv : c.verb = .mkdir) : w.Ends c (w.make c.source) := by
  refine withActive_ends (by simp [hv]) fun active ha => ?_
  by_cases hn : isName c.source = true
  · cases hs : active.child? c.source with
    | some inside =>
      have hhas := Directory.has_of_child? hs
      simpa [Directory.insert?, hn, hhas] using Ends.refused (.makeTaken hv ha hn hhas)
    | none =>
      simpa [Directory.insert?, hn, Directory.has, hs] using Ends.changed (.made hv ha hn hs)
  · simpa [Directory.insert?, hn] using Ends.makeBadName hv ha (by simpa using hn)

theorem enter_ends (hv : c.verb = .cd) : w.Ends c (w.enter c.source) := by
  refine withActive_ends (by simp [hv]) fun active ha => ?_
  split
  next hs => exact .changed (.entered hv ha hs)
  next hs => exact .refused (.enterAbsent hv ha (by simpa using hs))

theorem ascend_ends (hv : c.verb = .up) : w.Ends c w.ascend := by
  unfold ascend
  split
  next hp => exact .refused (.ascendRoot hv hp)
  next hp => exact .changed (.ascended hv hp)

/-- A move looks whether the directory is there before anything else, so taking it out succeeds. -/
theorem move_ends (hv : c.verb = .mv) : w.Ends c (w.move c.source c.destination) := by
  refine withActive_ends (by simp [hv]) fun active ha => ?_
  by_cases hhas : active.has c.source = true
  · obtain ⟨moved, hs⟩ := Option.isSome_iff_exists.mp hhas
    have hremove := Directory.remove?_of_child? hs
    simp only [hhas, if_true, hremove]
    split
    next why hr => exact .refused (.movePlacement hv ha hhas hr)
    next target hr =>
      obtain ⟨folder, hf, hfree⟩ := (Placement.resolve_usable hr).survives ha hremove
      by_cases hn : isName target.name = true
      · simpa [attach, hf, Directory.insert?, hn, Directory.has, hfree] using
          Ends.changed (.moved hv ha hs hr hn hf hfree)
      · simpa [attach, hf, Directory.insert?, hn] using
          Ends.moveBadName hv ha hhas hr (by simpa using hn)
  · have habsent : active.has c.source = false := by simpa using hhas
    simpa [habsent] using Ends.refused (.moveAbsent hv ha habsent)

/-- There is no other way for the attempt at a command to end. -/
theorem attempt_ends (w : Workspace) (c : Command) : w.Ends c (w.attempt c) := by
  unfold attempt attemptBy
  split
  next hv => exact list_ends hv
  next hv => exact make_ends hv
  next hv => exact enter_ends hv
  next hv => exact ascend_ends hv
  next hv => exact move_ends hv
  next hv => exact draw_ends hv

theorem withActive_of_at? {run : Directory → Attempt} {active : Directory}
    (ha : w.root.at? w.position = some active) : w.withActive run = run active := by
  simp [withActive, Directory.at?_eq_some_iff.mp ha]

theorem attempt_dir {active : Directory} (hv : c.verb = .dir)
    (ha : w.root.at? w.position = some active) : w.attempt c =
      ⟨w, .done ["Directory of ".toList ++ w.position.shown ++ ":".toList,
        if active.sortedNames = [] then noSubdirectories else listing active.sortedNames]⟩ := by
  simp [attempt, attemptBy, hv, list, withActive_of_at? ha]

theorem attempt_tree {active : Directory} (hv : c.verb = .tree)
    (ha : w.root.at? w.position = some active) : w.attempt c =
      ⟨w, .done (("Tree of ".toList ++ w.position.shown ++ ":".toList) :: ".".toList ::
        if active.draw [] = [] then [] else [join '\n' (active.draw [])])⟩ := by
  simp [attempt, attemptBy, hv, draw, withActive_of_at? ha]

theorem attempt_stray {missing : Missing} (hv : c.verb ≠ .up)
    (hm : w.root.locate w.position = .error missing) :
    w.attempt c = ⟨w, .broken (.strayPosition w.position missing)⟩ := by
  have hstray (run : Directory → Attempt) :
      w.withActive run = ⟨w, .broken (.strayPosition w.position missing)⟩ := by
    simp [withActive, hm]
  unfold attempt attemptBy
  split
  next => exact hstray _
  next => exact hstray _
  next => exact hstray _
  next hup => exact absurd hup hv
  next => exact hstray _
  next => exact hstray _

theorem attempt_makeBadName {active : Directory} (hv : c.verb = .mkdir)
    (ha : w.root.at? w.position = some active) (hn : isName c.source = false) :
    w.attempt c = ⟨w, .broken (.invalidName { name := c.source })⟩ := by
  simp [attempt, attemptBy, hv, make, withActive_of_at? ha, Directory.insert?, hn]

/-- The new name of a move is checked last, when the directory has been taken out. -/
theorem attempt_moveBadName {active : Directory} {target : Placement} (hv : c.verb = .mv)
    (ha : w.root.at? w.position = some active) (hs : active.has c.source = true)
    (hr : Placement.resolve w.root w.position c.source c.destination = .ok target)
    (hn : isName target.name = false) :
    w.attempt c = ⟨⟨w.root.change (fun _ => active.without c.source) w.position, w.position⟩,
      .broken (.invalidName { name := target.name })⟩ := by
  obtain ⟨moved, hm⟩ := Option.isSome_iff_exists.mp hs
  have hremove := Directory.remove?_of_child? hm
  obtain ⟨folder, hf, _⟩ := (Placement.resolve_usable hr).survives ha hremove
  simp [attempt, attemptBy, hv, moveBy, moveTo, withActive_of_at? ha, hs, hremove, hr, attach, hf,
    Directory.insert?, hn]

theorem attempt_refuses {why : Refusal} (h : w.Refuses c why) :
    w.attempt c = ⟨w, .refused why⟩ := by
  cases h with
  | makeTaken hv ha hn hs =>
    simp [attempt, attemptBy, hv, make, withActive_of_at? ha, Directory.insert?, hn, hs]
  | enterAbsent hv ha hs => simp [attempt, attemptBy, hv, enter, withActive_of_at? ha, hs]
  | ascendRoot hv hp => simp [attempt, attemptBy, hv, ascend, hp]
  | moveAbsent hv ha hs => simp [attempt, attemptBy, hv, moveBy, moveTo, withActive_of_at? ha, hs]
  | movePlacement hv ha hs hr =>
    simp [attempt, attemptBy, hv, moveBy, moveTo, withActive_of_at? ha, hs, hr]

theorem attempt_changes {after : Workspace} (h : w.Changes c after) :
    w.attempt c = ⟨after, .done []⟩ := by
  cases h with
  | made hv ha hn hf =>
    simp [attempt, attemptBy, hv, make, withActive_of_at? ha, Directory.insert?, hn, Directory.has,
      hf]
  | entered hv ha hs => simp [attempt, attemptBy, hv, enter, withActive_of_at? ha, hs]
  | ascended hv hp => simp [attempt, attemptBy, hv, ascend, hp]
  | moved hv ha hs hr hn hf hfree =>
    simp [attempt, attemptBy, hv, moveBy, moveTo, withActive_of_at? ha, Directory.remove?, hs, hr,
      attach, hf, Directory.insert?, hn, Directory.has, hfree]

/-- The attempt at a command ends in one way. -/
theorem Ends.attempt_eq {a : Attempt} (h : w.Ends c a) : w.attempt c = a := by
  cases h with
  | stray hv hm => exact attempt_stray hv hm
  | makeBadName hv ha hn => exact attempt_makeBadName hv ha hn
  | moveBadName hv ha hs hr hn => exact attempt_moveBadName hv ha hs hr hn
  | listed hv ha => exact attempt_dir hv ha
  | drawn hv ha => exact attempt_tree hv ha
  | refused h => exact attempt_refuses h
  | changed h => exact attempt_changes h

/-- What is reported of a command is how the attempt at it has ended. -/
theorem execute_ends (w : Workspace) (c : Command) :
    ∃ a, w.Ends c a ∧ w.execute c = a.reported c :=
  ⟨w.attempt c, w.attempt_ends c, rfl⟩

/-- A command that prints only its echo has changed something. -/
theorem changes_of_echoed (h : (w.execute c).blocks = [c.echo]) :
    w.Changes c (w.execute c).workspace := by
  obtain ⟨a, he, hx⟩ := w.execute_ends c
  rw [hx] at h ⊢
  cases he with
  | stray | makeBadName | moveBadName | listed | drawn | refused => simp [Attempt.reported] at h
  | changed hc => exact hc

end Workspace

end DirectoryScript
