import DirectoryScript.Job
import DirectoryScript.Proofs.SoundRuns
import DirectoryScript.Proofs.Utf8Text
import DirectoryScript.Proofs.WriterOpenings

namespace DirectoryScript

/-- A script can be read if its file holds encoded text. -/
theorem readScript_eq_ok_iff {content : Option Bytes} {lines : List Text} :
    readScript content = .ok lines ↔ ∃ t, content = some (encode t) ∧ lines = scriptLines t := by
  cases content with
  | none => simp [readScript]
  | some bytes =>
    rw [readScript]
    split
    next t ht =>
      constructor
      · intro h
        exact ⟨t, by rw [decode_eq_ok_iff.mp ht], (Except.ok.inj h).symm⟩
      · rintro ⟨u, hbytes, rfl⟩
        rw [decode_eq_ok_iff.mpr (Option.some.inj hbytes)] at ht
        rw [Except.ok.inj ht]
    next problem hfail =>
      constructor
      · intro h
        simp at h
      · rintro ⟨u, hbytes, _⟩
        rw [decode_eq_ok_iff.mpr (Option.some.inj hbytes)] at hfail
        simp at hfail

namespace Job

variable {j : Job} {s : FileStore} {lines : List Text} {place : List Text}

/-- The script is a file that the system lets be read, and holds a text. -/
structure Reads (j : Job) (s : FileStore) (t : Text) : Prop where
  there : s.isFile j.script = .ok true
  readable : s.read j.script = .ok (encode t)

theorem lines_eq_ok_iff : j.lines s = .ok lines ↔ ∃ t, j.Reads s t ∧ lines = scriptLines t := by
  unfold Job.lines
  constructor
  · intro h
    split at h
    next => simp at h
    next =>
      obtain ⟨t, hnone, _⟩ := readScript_eq_ok_iff.mp (mapError_eq_ok_iff.mp h)
      simp at hnone
    next hthere =>
      split at h
      next => simp at h
      next content hread =>
        obtain ⟨t, hcontent, hlines⟩ := readScript_eq_ok_iff.mp (mapError_eq_ok_iff.mp h)
        cases Option.some.inj hcontent
        exact ⟨t, ⟨hthere, hread⟩, hlines⟩
  · rintro ⟨t, ⟨hthere, hread⟩, rfl⟩
    rw [hthere]
    simp only [hread]
    exact mapError_eq_ok_iff.mpr (readScript_eq_ok_iff.mpr ⟨t, rfl, rfl⟩)

theorem lines_of_reads {t : Text} (h : j.Reads s t) : j.lines s = .ok (scriptLines t) :=
  lines_eq_ok_iff.mpr ⟨t, h, rfl⟩

/-- When the system cannot tell whether the script is there, its error is passed on. -/
theorem lines_of_lookup {e : SystemError} (h : s.isFile j.script = .error e) :
    j.lines s = .error (.lookup j.script e) := by
  rw [Job.lines, h]

/-- When the system can tell, the only problem of reading is the script's. -/
theorem lines_of_not_reads {there : Bool} (hthere : s.isFile j.script = .ok there)
    (h : ¬∃ t, j.Reads s t) : ∃ problem, j.lines s = .error (.script problem) := by
  cases there with
  | false => exact ⟨.missing, by rw [Job.lines, hthere]; rfl⟩
  | true =>
    cases hread : s.read j.script with
    | error problem => exact ⟨.unreadable j.script problem, by simp only [Job.lines, hthere, hread]⟩
    | ok content =>
      cases hscript : readScript (some content) with
      | error problem => exact ⟨problem, by simp only [Job.lines, hthere, hread, hscript]; rfl⟩
      | ok lines =>
        obtain ⟨t, hcontent, _⟩ := readScript_eq_ok_iff.mp hscript
        cases Option.some.inj hcontent
        exact absurd ⟨t, hthere, hread⟩ h

theorem lines_ne_nil (h : j.lines s = .ok lines) : lines ≠ [] := by
  obtain ⟨t, _, rfl⟩ := lines_eq_ok_iff.mp h
  exact split_ne_nil '\n' _

theorem newline_notMem_line (h : j.lines s = .ok lines) {raw : Text} (hm : raw ∈ lines) :
    '\n' ∉ raw := by
  obtain ⟨t, _, rfl⟩ := lines_eq_ok_iff.mp h
  exact notMem_of_mem_split hm

/-- Without its lines a run leaves and shows nothing. -/
theorem run_of_unread {strip : Text → Text} {problem : RunProblem} (hl : j.lines s = .error problem) :
    j.run strip s = ⟨s, [], .error problem⟩ := by
  simp only [run, hl]

/-- When there is no script to read, the run fails with the problem of the script, at least if the
system can tell whether it is there. -/
theorem run_of_not_reads (strip : Text → Text) (h : ¬∃ t, j.Reads s t) :
    ∃ problem, j.run strip s = ⟨s, [], .error problem⟩ ∧
      ∀ there, s.isFile j.script = .ok there → ∃ why, problem = .script why := by
  cases hthere : s.isFile j.script with
  | error e => exact ⟨_, run_of_unread (lines_of_lookup hthere), by simp⟩
  | ok there =>
    obtain ⟨why, hl⟩ := lines_of_not_reads hthere h
    exact ⟨_, run_of_unread hl, fun _ _ => ⟨why, rfl⟩⟩

theorem run_of_unopened {strip : Text → Text} {problem : OpenProblem} (hl : j.lines s = .ok lines)
    (hp : s.placeToWrite j.outputPath = .error problem) :
    j.run strip s = ⟨s, [], .error (.output j.outputPath problem)⟩ := by
  have hopened : (j.writer strip s).opened = .error problem := by
    rw [BlockWriter.opened, writer, hp]
    rfl
  simp only [run, hl, hopened]

/-- A run that can read its script and open its output. -/
theorem run_eq (strip : Text → Text) (hl : j.lines s = .ok lines)
    (hp : s.placeToWrite j.outputPath = .ok place) :
    j.run strip s = ⟨s.write place (encode (join '\n' (Workspace.runLines {} lines).blocks)),
      if j.echoes then shownBlocks strip (Workspace.runLines {} lines).blocks else [],
      .ok (Workspace.runLines {} lines).blocks⟩ := by
  have hfault := (Workspace.runLines_keeps_sound Workspace.sound_fresh lines).1
  obtain ⟨o, ho, hpath, hplace, hechoes, hstrip, hshown, hkeeps⟩ :=
    BlockWriter.opened_of_placed (w := j.writer strip s) hp
  have hall := hkeeps.writeAll (Workspace.runLines {} lines).blocks
  have hstore := hall.handed.closed
  rw [(o.writeAll_keeps_target _).2, hplace] at hstore
  have hscreen := o.shown_writeAll (Workspace.runLines {} lines).blocks
  rw [hechoes, hstrip, hshown] at hscreen
  have hleft : (o.writeAll (Workspace.runLines {} lines).blocks).closed.shown =
      (o.writeAll (Workspace.runLines {} lines).blocks).shown := rfl
  simp only [run, hl, ho, hfault, hstore, hleft, hscreen]
  rfl

end Job

end DirectoryScript
