import DirectoryScript.Proofs.Relocation
import DirectoryScript.Proofs.SamePaths

namespace DirectoryScript

namespace Placement

variable {root root' : Directory} {home folder : Path} {source : Text}

theorem settle_of_samePaths (h : root.SamePaths root') (folder : Path) (name : Text) :
    settle root home source folder name = settle root' home source folder name := by
  unfold settle
  cases ha : root.at? folder with
  | none => rw [h.at?_none ha]
  | some d =>
    obtain ⟨d', ha', hd⟩ := h.below ha
    simp only [ha', hd.has_eq]

/-- A walk asks only what is there under a name, so the order of the entries does not matter. -/
theorem walk_of_samePaths (h : root.SamePaths root') (steps : List Text) :
    walk root home source folder steps = walk root' home source folder steps := by
  induction steps generalizing folder with
  | nil => exact settle_of_samePaths h folder source
  | cons step steps ih =>
    cases ha : root.at? folder with
    | none => simp only [walk, ha, h.at?_none ha, ih]
    | some d =>
      obtain ⟨d', ha', hd⟩ := h.below ha
      cases hc : d.child? step with
      | none => simp only [walk, ha, ha', hc, hd.child?_none hc, ih, settle_of_samePaths h]
      | some inside =>
        obtain ⟨inside', hc', hinside⟩ := hd.entry hc
        simp only [walk, ha, ha', hc, hc', hinside.has_eq, ih]

theorem resolve_of_samePaths (h : root.SamePaths root') (source destination : Text) :
    resolve root home source destination = resolve root' home source destination :=
  walk_of_samePaths h _

end Placement

namespace Workspace

/-- Two workspaces are at one position and have the same paths. -/
structure Alike (w v : Workspace) : Prop where
  position : w.position = v.position
  paths : w.root.SamePaths v.root

variable {root root' active : Directory} {p : Path} {c : Command}

theorem Refuses.alike {why : Refusal} (h : Refuses ⟨root, p⟩ c why)
    (hpaths : root.SamePaths root') : Refuses ⟨root', p⟩ c why := by
  cases h with
  | makeTaken hv ha hn hs =>
    obtain ⟨active', ha', hactive⟩ := hpaths.below ha
    exact .makeTaken hv ha' hn (by rw [← hactive.has_eq]; exact hs)
  | enterAbsent hv ha hs =>
    obtain ⟨active', ha', hactive⟩ := hpaths.below ha
    exact .enterAbsent hv ha' (by rw [← hactive.has_eq]; exact hs)
  | ascendRoot hv hp => exact .ascendRoot hv hp
  | moveAbsent hv ha hs =>
    obtain ⟨active', ha', hactive⟩ := hpaths.below ha
    exact .moveAbsent hv ha' (by rw [← hactive.has_eq]; exact hs)
  | movePlacement hv ha hs hr =>
    obtain ⟨active', ha', hactive⟩ := hpaths.below ha
    have hr' : Placement.resolve root' p c.source c.destination = .error why := by
      rw [← Placement.resolve_of_samePaths hpaths]
      exact hr
    exact .movePlacement hv ha' (by rw [← hactive.has_eq]; exact hs) hr'

/-- The directories that a change puts in have the same paths when those that it found there had. -/
theorem Changes.alike {after : Workspace} (h : Changes ⟨root, p⟩ c after)
    (hpaths : root.SamePaths root') :
    ∃ after', Changes ⟨root', p⟩ c after' ∧ after.Alike after' := by
  cases h with
  | @made active hv ha hn hf =>
    obtain ⟨active', ha', hactive⟩ := hpaths.below ha
    refine ⟨_, .made hv ha' hn (hactive.child?_none hf), rfl, ?_⟩
    exact hpaths.change ha ha' (hactive.place hf fun _ => Iff.rfl)
  | entered hv ha hs =>
    obtain ⟨active', ha', hactive⟩ := hpaths.below ha
    have hs' : active'.has c.source = true := by
      rw [← hactive.has_eq]
      exact hs
    exact ⟨_, .entered hv ha' hs', rfl, hpaths⟩
  | ascended hv hp => exact ⟨_, .ascended hv hp, rfl, hpaths⟩
  | @moved active moved folder target hv ha hs hr hn hf hfree =>
    obtain ⟨active', ha', hactive⟩ := hpaths.below ha
    obtain ⟨moved', hs', hmoved⟩ := hactive.entry hs
    have hleft : (root.change (fun _ => active.without c.source) p).SamePaths
        (root'.change (fun _ => active'.without c.source) p) :=
      hpaths.change ha ha' (hactive.without c.source)
    obtain ⟨folder', hf', hfolder⟩ := hleft.below hf
    have hr' : Placement.resolve root' p c.source c.destination = .ok target := by
      rw [← Placement.resolve_of_samePaths hpaths]
      exact hr
    refine ⟨_, .moved hv ha' hs' hr' hn hf' (hfolder.child?_none hfree), rfl, ?_⟩
    exact hleft.change hf hf' (hfolder.place hfree hmoved)

/-- A command ends in alike workspaces in the same way and leaves them alike. -/
theorem Ends.alike {a : Attempt} (h : Ends ⟨root, p⟩ c a) (hpaths : root.SamePaths root') :
    ∃ a', Ends ⟨root', p⟩ c a' ∧ a.workspace.Alike a'.workspace ∧ a.verdict = a'.verdict := by
  cases h with
  | stray hv hm => exact ⟨_, .stray hv (hpaths.locate_error hm), ⟨rfl, hpaths⟩, rfl⟩
  | makeBadName hv ha hn =>
    obtain ⟨active', ha', _⟩ := hpaths.below ha
    exact ⟨_, .makeBadName hv ha' hn, ⟨rfl, hpaths⟩, rfl⟩
  | @moveBadName active target hv ha hs hr hn =>
    obtain ⟨active', ha', hactive⟩ := hpaths.below ha
    have hs' : active'.has c.source = true := by
      rw [← hactive.has_eq]
      exact hs
    have hr' : Placement.resolve root' p c.source c.destination = .ok target := by
      rw [← Placement.resolve_of_samePaths hpaths]
      exact hr
    refine ⟨_, .moveBadName hv ha' hs' hr' hn, ⟨rfl, ?_⟩, rfl⟩
    exact hpaths.change ha ha' (hactive.without c.source)
  | listed hv ha =>
    obtain ⟨active', ha', hactive⟩ := hpaths.below ha
    refine ⟨_, .listed hv ha', ⟨rfl, hpaths⟩, ?_⟩
    rw [hactive.sortedNames_eq]
  | drawn hv ha =>
    obtain ⟨active', ha', hactive⟩ := hpaths.below ha
    refine ⟨_, .drawn hv ha', ⟨rfl, hpaths⟩, ?_⟩
    rw [hactive.draw_eq]
  | refused h => exact ⟨_, .refused (h.alike hpaths), ⟨rfl, hpaths⟩, rfl⟩
  | changed h =>
    obtain ⟨after', h', halike⟩ := h.alike hpaths
    exact ⟨_, .changed h', halike, rfl⟩

/-- Two outcomes that cannot be told apart, and leave workspaces that are alike. -/
structure SameOutcome (o o' : Outcome) : Prop where
  workspace : o.workspace.Alike o'.workspace
  blocks : o.blocks = o'.blocks
  fault : o.fault = o'.fault

theorem reported_same {a a' : Attempt} (hw : a.workspace.Alike a'.workspace)
    (hv : a.verdict = a'.verdict) (c : Command) : SameOutcome (a.reported c) (a'.reported c) := by
  obtain ⟨workspace, verdict⟩ := a
  obtain ⟨workspace', verdict'⟩ := a'
  obtain rfl : verdict = verdict' := hv
  cases verdict <;> exact ⟨hw, rfl, rfl⟩

variable {w v : Workspace}

theorem Alike.execute (h : w.Alike v) (c : Command) : SameOutcome (w.execute c) (v.execute c) := by
  obtain ⟨root, p⟩ := w
  obtain ⟨root', p'⟩ := v
  obtain ⟨hposition, hpaths⟩ := h
  obtain rfl : p = p' := hposition
  obtain ⟨a', hends, halike, hverdict⟩ := (attempt_ends ⟨root, p⟩ c).alike hpaths
  rw [Workspace.execute, Workspace.execute, hends.attempt_eq]
  exact reported_same halike hverdict c

/-- The step of the simulation: one line, of any text. -/
theorem Alike.runLine (h : w.Alike v) (raw : Text) :
    SameOutcome (w.runLine raw) (v.runLine raw) := by
  unfold Workspace.runLine
  split
  next c _ => exact h.execute c
  next => exact ⟨h, rfl, rfl⟩

/-- Whole runs cannot tell alike workspaces apart. -/
theorem Alike.runLines (h : w.Alike v) (lines : List Text) :
    SameOutcome (w.runLines lines) (v.runLines lines) := by
  induction lines generalizing w v with
  | nil => exact ⟨h, rfl, rfl⟩
  | cons raw lines ih =>
    have hstep := h.runLine raw
    simp only [Workspace.runLines, ← hstep.fault]
    cases (w.runLine raw).fault with
    | some why => exact hstep
    | none =>
      have hrest := ih hstep.workspace
      refine ⟨hrest.workspace, ?_, hrest.fault⟩
      simp only [hstep.blocks, hrest.blocks]

end Workspace

end DirectoryScript
