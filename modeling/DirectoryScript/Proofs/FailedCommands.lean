import DirectoryScript.Proofs.CommandEndings

namespace DirectoryScript

/-- A place that was taken to be there is not. -/
def Fault.IsLostPlace : Fault → Prop
  | strayPosition _ _ | lostFolder _ _ => True
  | noEntry _ | invalidName _ => False

namespace Workspace

def MakesBadName (w : Workspace) (c : Command) : Prop :=
  c.verb = .mkdir ∧ w.root.Resolves w.position ∧ isName c.source = false

def MovesToBadName (w : Workspace) (c : Command) (target : Placement) : Prop :=
  c.verb = .mv ∧ w.root.Resolves (w.position ++ [c.source]) ∧
    Placement.resolve w.root w.position c.source c.destination = .ok target ∧
    isName target.name = false

variable {w : Workspace} {c : Command} {why : Refusal} {target : Placement}

theorem refused_unchanged (h : (w.execute c).blocks = [c.echo, why.message]) :
    (w.execute c).workspace = w := by
  obtain ⟨a, he, hx⟩ := w.execute_ends c
  rw [hx] at h ⊢
  cases he with
  | listed | drawn | refused => rfl
  | stray | makeBadName | moveBadName | changed => simp [Attempt.reported] at h

theorem view_unchanged (h : c.verb = .dir ∨ c.verb = .tree) : (w.execute c).workspace = w := by
  obtain ⟨a, he, hx⟩ := w.execute_ends c
  rw [hx]
  cases he with
  | stray | makeBadName | listed | drawn | refused => rfl
  | moveBadName hv => simp [hv] at h
  | changed hc =>
    cases hc with
    | made hv | entered hv | ascended hv | moved hv => simp [hv] at h

/-- The place that a command can lose is the position itself, before anything is done. -/
theorem lostPlace_result {fault : Fault} (h : (w.execute c).fault = some fault)
    (hl : fault.IsLostPlace) :
    c.verb ≠ .up ∧ ¬ w.root.Resolves w.position ∧ (w.execute c).workspace = w := by
  obtain ⟨a, he, hx⟩ := w.execute_ends c
  rw [hx] at h ⊢
  cases he with
  | stray hv hm => exact ⟨hv, Directory.not_resolves_of_locate hm, rfl⟩
  | makeBadName | moveBadName =>
    cases Option.some.inj h
    exact hl.elim
  | listed | drawn | refused | changed => simp [Attempt.reported] at h

theorem fault_lostPlace_iff : (∃ fault, (w.execute c).fault = some fault ∧ fault.IsLostPlace) ↔
    c.verb ≠ .up ∧ ¬ w.root.Resolves w.position := by
  constructor
  · rintro ⟨fault, h, hl⟩
    obtain ⟨hv, hr, _⟩ := lostPlace_result h hl
    exact ⟨hv, hr⟩
  · rintro ⟨hv, hr⟩
    obtain ⟨missing, hm⟩ := Directory.locate_of_not_resolves hr
    refine ⟨.strayPosition w.position missing, ?_, trivial⟩
    simp [execute, attempt_stray hv hm, Attempt.reported]

theorem fault_not_lostFolder (folder : Path) (source : Text) :
    (w.execute c).fault ≠ some (.lostFolder folder source) := by
  obtain ⟨a, he, hx⟩ := w.execute_ends c
  rw [hx]
  cases he <;> simp [Attempt.reported]

theorem fault_not_noEntry (name : Text) : (w.execute c).fault ≠ some (.noEntry name) := by
  obtain ⟨a, he, hx⟩ := w.execute_ends c
  rw [hx]
  cases he <;> simp [Attempt.reported]

theorem makesBadName_result (h : w.MakesBadName c) :
    (w.execute c).fault = some (.invalidName { name := c.source }) ∧
      (w.execute c).workspace = w := by
  obtain ⟨hv, hr, hn⟩ := h
  obtain ⟨active, ha⟩ := Directory.resolves_iff.mp hr
  simp [execute, attempt_makeBadName hv ha hn, Attempt.reported]

/-- The name of a move's target is checked only when the directory has been taken out. -/
theorem movesToBadName_result (h : w.MovesToBadName c target) :
    (w.execute c).fault = some (.invalidName { name := target.name }) ∧
      (∀ p, (w.execute c).workspace.root.Resolves p ↔
        w.root.Resolves p ∧ ¬ w.position ++ [c.source] <+: p) ∧
      (w.execute c).workspace.position = w.position := by
  obtain ⟨hv, hs, hr, hn⟩ := h
  obtain ⟨active, ha, hhas⟩ := Directory.exists_has_of_resolves hs
  have hattempt := attempt_moveBadName hv ha hhas hr hn
  simp only [execute, hattempt, Attempt.reported]
  exact ⟨trivial, fun p => Directory.resolves_detach ha, trivial⟩

theorem fault_invalidName_iff : (∃ e, (w.execute c).fault = some (.invalidName e)) ↔
    w.MakesBadName c ∨ ∃ target, w.MovesToBadName c target := by
  constructor
  · rintro ⟨e, h⟩
    obtain ⟨a, he, hx⟩ := w.execute_ends c
    rw [hx] at h
    cases he with
    | makeBadName hv ha hn => exact Or.inl ⟨hv, Directory.resolves_of_at? ha, hn⟩
    | moveBadName hv ha hs hr hn =>
      exact Or.inr ⟨_, hv, (Directory.has_iff_resolves_under ha).mp hs, hr, hn⟩
    | stray | listed | drawn | refused | changed => simp [Attempt.reported] at h
  · rintro (h | ⟨target, h⟩)
    · exact ⟨_, (makesBadName_result h).1⟩
    · exact ⟨_, (movesToBadName_result h).1⟩

theorem changed_ending (h : (w.execute c).workspace ≠ w) :
    ((w.execute c).blocks = [c.echo] ∧ (w.execute c).fault = none) ∨
      ∃ target, w.MovesToBadName c target := by
  obtain ⟨a, he, hx⟩ := w.execute_ends c
  rw [hx] at h ⊢
  cases he with
  | stray | makeBadName | listed | drawn | refused => exact absurd rfl h
  | moveBadName hv ha hs hr hn =>
    exact Or.inr ⟨_, hv, (Directory.has_iff_resolves_under ha).mp hs, hr, hn⟩
  | changed => exact Or.inl ⟨rfl, rfl⟩

/-- A command that fails leaves the workspace as it was, whatever its fields and wherever the
position leads, but for one: a move to an invalid name loses the directory. -/
theorem failed_command_atomic (w : Workspace) (c : Command) :
    (∀ why : Refusal, (w.execute c).blocks = [c.echo, why.message] →
      (w.execute c).workspace = w) ∧
    ((∃ fault, (w.execute c).fault = some fault ∧ fault.IsLostPlace) ↔
      c.verb ≠ .up ∧ ¬ w.root.Resolves w.position) ∧
    (∀ fault, (w.execute c).fault = some fault → fault.IsLostPlace →
      (w.execute c).workspace = w) ∧
    ((∃ e, (w.execute c).fault = some (.invalidName e)) ↔
      w.MakesBadName c ∨ ∃ target, w.MovesToBadName c target) ∧
    (w.MakesBadName c → (w.execute c).workspace = w) ∧
    (∀ target, w.MovesToBadName c target →
      (∀ p, (w.execute c).workspace.root.Resolves p ↔
        w.root.Resolves p ∧ ¬ w.position ++ [c.source] <+: p) ∧
      (w.execute c).workspace.position = w.position) ∧
    (∀ folder source, (w.execute c).fault ≠ some (.lostFolder folder source)) ∧
    (∀ name, (w.execute c).fault ≠ some (.noEntry name)) ∧
    (c.verb = .dir ∨ c.verb = .tree → (w.execute c).workspace = w) ∧
    ((w.execute c).workspace ≠ w →
      ((w.execute c).blocks = [c.echo] ∧ (w.execute c).fault = none) ∨
        ∃ target, w.MovesToBadName c target) := by
  refine ⟨fun why h => refused_unchanged h, fault_lostPlace_iff, ?_, fault_invalidName_iff, ?_, ?_,
    fault_not_lostFolder, fault_not_noEntry, view_unchanged, changed_ending⟩
  · intro fault h hl
    exact (lostPlace_result h hl).2.2
  · intro h
    exact (makesBadName_result h).2
  · intro target h
    exact (movesToBadName_result h).2

theorem move_to_dash_loses_directory :
    MovesToBadName ⟨.entry ['s'] .empty .empty, []⟩ ⟨.mv, ['s'], ['-'], []⟩ ⟨[], ['-']⟩ ∧
      ¬ (execute ⟨.entry ['s'] .empty .empty, []⟩
        ⟨.mv, ['s'], ['-'], []⟩).workspace.root.Resolves [['s']] := by
  have h : MovesToBadName ⟨.entry ['s'] .empty .empty, []⟩ ⟨.mv, ['s'], ['-'], []⟩ ⟨[], ['-']⟩ :=
    ⟨rfl, rfl, rfl, rfl⟩
  obtain ⟨_, _, _, _, _, hlost, _⟩ := failed_command_atomic
    ⟨.entry ['s'] .empty .empty, []⟩ ⟨.mv, ['s'], ['-'], []⟩
  refine ⟨h, fun hr => ?_⟩
  exact (((hlost _ h).1 [['s']]).mp hr).2 (List.prefix_refl _)

end Workspace

end DirectoryScript
