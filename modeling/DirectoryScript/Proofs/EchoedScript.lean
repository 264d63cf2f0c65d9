import DirectoryScript.Proofs.SoundRuns
import DirectoryScript.Proofs.WrittenCommand
import Mathlib.Data.List.Induction

namespace DirectoryScript

namespace Command

def making (name : Text) : Command := { verb := .mkdir, source := name }

def entering (name : Text) : Command := { verb := .cd, source := name }

def ascending : Command := { verb := .up }

def moving (source : Text) (steps : List Text) : Command :=
  { verb := .mv, source, destination := join pathSeparator steps }

theorem spelled_making {name : Text} (h : isName name = true) : (making name).Spelled :=
  ⟨h, rfl⟩

theorem spelled_entering {name : Text} (h : isName name = true) : (entering name).Spelled :=
  ⟨h, rfl⟩

theorem spelled_ascending : ascending.Spelled := ⟨rfl, rfl⟩

theorem spelled_moving {source : Text} {steps : List Text} (h : isName source = true)
    (hne : steps ≠ []) (hsteps : ∀ step ∈ steps, isStep step = true) :
    (moving source steps).Spelled := by
  refine ⟨h, ?_⟩
  intro step hm
  rw [moving, destinationSteps_join hne hsteps] at hm
  exact hsteps step hm

end Command

namespace Workspace

/-- All commands are carried out, and each prints nothing but its echo. -/
def Performs (w : Workspace) (cs : List Command) (after : Workspace) : Prop :=
  w.runLines (cs.map Command.written) = ⟨after, cs.map Command.echo, none⟩

variable {w middle after : Workspace} {c : Command} {cs ds : List Command}

theorem Performs.nil : w.Performs [] w := rfl

/-- Lines after a script that is carried out find the workspace that it leaves. -/
theorem Performs.runLines_append (h : w.Performs cs middle) (more : List Text) :
    w.runLines (cs.map Command.written ++ more) = { middle.runLines more with
      blocks := cs.map Command.echo ++ (middle.runLines more).blocks } := by
  rw [Performs] at h
  rw [Workspace.runLines_append more (by rw [h]), h]

theorem Performs.append (h : w.Performs cs middle) (h' : middle.Performs ds after) :
    w.Performs (cs ++ ds) after := by
  rw [Performs] at h' ⊢
  rw [List.map_append, h.runLines_append, h', List.map_append]

/-- A command that is spelled as it is written changes the same from a line. -/
theorem performs_of_changes (hc : c.Spelled) (h : w.Changes c after) : w.Performs [c] after := by
  have hrun : w.runLine c.written = ⟨after, [c.echo], none⟩ := by
    rw [runLine_of_parse hc.parse_written]
    have hline : w.attempt { c with line := c.written } = w.attempt c := rfl
    rw [execute, hline, attempt_changes h]
    rfl
  simp [Performs, runLines, hrun]

theorem performs_up (root : Directory) (p : Path) (name : Text) :
    Performs ⟨root, p ++ [name]⟩ [.ascending] ⟨root, p⟩ := by
  apply performs_of_changes Command.spelled_ascending
  simpa using Changes.ascended (w := ⟨root, p ++ [name]⟩) (c := .ascending) rfl (by simp)

/-- As many ascents as the path has names lead to the root. -/
theorem performs_ascent (root : Directory) (p : Path) :
    Performs ⟨root, p⟩ (List.replicate p.length .ascending) ⟨root, []⟩ := by
  induction p using List.reverseRecOn with
  | nil => exact .nil
  | append_singleton p name ih =>
    rw [List.length_append, List.length_singleton, List.replicate_succ]
    exact (performs_up root p name).append ih

/-- Names that resolve one after the other can be entered one after the other. -/
theorem performs_descent {root : Directory} (hroot : root.Named fun name => isName name = true)
    (p q : Path) (h : root.Resolves (p ++ q)) :
    Performs ⟨root, p⟩ (q.map .entering) ⟨root, p ++ q⟩ := by
  induction q generalizing p with
  | nil => simpa using Performs.nil
  | cons name q ih =>
    have happend : p ++ name :: q = (p ++ [name]) ++ q := by simp
    rw [happend] at h ⊢
    have hthere := Directory.resolves_of_prefix (List.prefix_append (p ++ [name]) q) h
    have hname := hroot.of_resolves hthere name (by simp)
    obtain ⟨active, ha, hhas⟩ := Directory.exists_has_of_resolves hthere
    have hstep := performs_of_changes (Command.spelled_entering hname)
      (Changes.entered (w := ⟨root, p⟩) rfl ha hhas)
    exact hstep.append (ih (p ++ [name]) h)

theorem performs_descent_from_root {root : Directory}
    (hroot : root.Named fun name => isName name = true) {p : Path} (h : root.Resolves p) :
    Performs ⟨root, []⟩ (p.map .entering) ⟨root, p⟩ := by
  simpa using performs_descent hroot [] p h

end Workspace

end DirectoryScript
