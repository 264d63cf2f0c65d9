import DirectoryScript.Proofs.FailedCommands
import DirectoryScript.Proofs.SoundRuns

namespace DirectoryScript

namespace Directory

theorem descendants_place (d : Directory) (name : Text) (inside : Directory) :
    (d.place name inside).descendants = d.descendants + (1 + inside.descendants) := by
  induction d with
  | empty => simp [place, descendants]
  | entry first content others _ ih =>
    simp only [place, descendants, ih]
    omega

theorem without_of_notMem {d : Directory} {name : Text} (h : name ∉ d.names) :
    d.without name = d := by
  induction d with
  | empty => rfl
  | entry first content others _ ih =>
    rw [names, List.mem_cons, not_or] at h
    rw [without, if_neg (Ne.symm h.1), ih h.2]

/-- What is taken out is counted once, as its name stands only once in the directory. -/
theorem descendants_without {d inside : Directory} {name : Text} (hd : d.names.Nodup)
    (h : d.child? name = some inside) :
    (d.without name).descendants + (1 + inside.descendants) = d.descendants := by
  induction d with
  | empty => simp at h
  | entry first content others _ ih =>
    obtain ⟨hfirst, hothers⟩ := List.nodup_cons.mp hd
    rw [child?] at h
    rw [without]
    split at h
    next he =>
      cases Option.some.inj h
      subst he
      rw [if_pos rfl, without_of_notMem hfirst, descendants]
      omega
    next he =>
      have hrest := ih hothers h
      rw [if_neg he, descendants, descendants]
      omega

theorem descendants_change_entry (f : Directory → Directory) {d content : Directory} {name : Text}
    (h : d.child? name = some content) (rest : Path) :
    (d.change f (name :: rest)).descendants + content.descendants =
      d.descendants + (content.change f rest).descendants := by
  induction d with
  | empty => simp at h
  | entry first inside others _ ih =>
    rw [child?] at h
    rw [change]
    split at h
    next he =>
      cases Option.some.inj h
      rw [if_pos he, descendants, descendants]
      omega
    next he =>
      have hothers := ih h
      rw [if_neg he, descendants, descendants]
      omega

theorem descendants_change {f : Directory → Directory} {d inside : Directory} {p : Path}
    (h : d.at? p = some inside) :
    (d.change f p).descendants + inside.descendants = d.descendants + (f inside).descendants := by
  induction p generalizing d with
  | nil =>
    cases Option.some.inj h
    rw [change]
    omega
  | cons name rest ih =>
    obtain ⟨content, hc, hr⟩ := at?_cons_eq_some_iff.mp h
    have hcontent := ih hr
    have hentry := descendants_change_entry f hc rest
    omega

end Directory

namespace Workspace

/-- A line that parses as the making of a directory and prints nothing but its echo. -/
def creates (w : Workspace) (raw : Text) : Bool :=
  match Command.parse (trim raw) with
  | .ok c => c.verb = .mkdir && (w.runLine raw).blocks = [c.echo]
  | .error _ => false

/-- The number of lines of a script that make a directory. -/
def creations (w : Workspace) : List Text → Nat
  | [] => 0
  | raw :: lines =>
    (if w.creates raw then 1 else 0) + (w.runLine raw).workspace.creations lines

variable {w after : Workspace} {c : Command}

theorem Changes.descendants (h : w.Changes c after) (hw : w.Sound) :
    after.root.descendants = w.root.descendants + if c.verb = .mkdir then 1 else 0 := by
  cases h with
  | @made active hv ha hn hf =>
    have hgrown := Directory.descendants_place active c.source .empty
    have hchange := Directory.descendants_change (f := fun _ => active.place c.source .empty) ha
    rw [Directory.descendants_empty] at hgrown
    rw [if_pos hv]
    dsimp only
    omega
  | entered hv | ascended hv => simp [hv]
  | @moved active moved folder target hv ha hs hr hn hf hfree =>
    have hnodup := (hw.proper.of_at? ha).distinct.nodup
    have hleft := Directory.descendants_without hnodup hs
    have hdetach := Directory.descendants_change (f := fun _ => active.without c.source) ha
    have hgrown := Directory.descendants_place folder target.name moved
    have hattach := Directory.descendants_change (f := fun _ => folder.place target.name moved) hf
    have hverb : c.verb ≠ .mkdir := by simp [hv]
    rw [if_neg hverb]
    dsimp only
    omega

/-- The one failure that changes the directories needs a name that no line can spell. -/
theorem unchanged_of_not_echoed {line : Text} (hp : Command.parse line = .ok c)
    (hb : (w.execute c).blocks ≠ [c.echo]) : (w.execute c).workspace = w := by
  by_cases hw : (w.execute c).workspace = w
  · exact hw
  · rcases changed_ending hw with ⟨h, _⟩ | ⟨target, hv, _, hr, hn⟩
    · exact absurd h hb
    · have hname := Command.parse_target_isName hp hv hr
      simp [hn] at hname

theorem runLine_descendants (hw : w.Sound) (raw : Text) :
    (w.runLine raw).workspace.root.descendants =
      w.root.descendants + if w.creates raw then 1 else 0 := by
  cases hp : Command.parse (trim raw) with
  | error why => simp [runLine, creates, hp]
  | ok c =>
    rw [creates, hp, runLine_of_parse hp]
    by_cases hb : (w.execute c).blocks = [c.echo]
    · have hcount := (changes_of_echoed hb).descendants hw
      by_cases hv : c.verb = .mkdir
      · simpa [hb, hv] using hcount
      · simpa [hb, hv] using hcount
    · rw [unchanged_of_not_echoed hp hb]
      simp [hb]

theorem runLines_descendants (hw : w.Sound) (lines : List Text) :
    (w.runLines lines).workspace.root.descendants = w.root.descendants + w.creations lines := by
  induction lines generalizing w with
  | nil => rfl
  | cons raw lines ih =>
    obtain ⟨hfault, hsound⟩ := runLine_sound hw raw
    have hfirst := runLine_descendants hw raw
    have hrest := ih hsound
    simp only [runLines, hfault, creations]
    omega

/-- No directory is lost or doubled: besides the root there are as many as lines that made one,
and a line that makes none leaves the number as it is. -/
theorem directories_counted (lines : List Text) :
    (runLines {} lines).workspace.root.descendants + 1 = 1 + creations {} lines ∧
    ∀ before raw, (runLines {} (before ++ [raw])).workspace.root.descendants + 1 =
      (runLines {} before).workspace.root.descendants + 1 +
        if (runLines {} before).workspace.creates raw then 1 else 0 := by
  constructor
  · have hcount := runLines_descendants sound_fresh lines
    have hfresh : ({} : Workspace).root.descendants = 0 := rfl
    omega
  · intro before raw
    obtain ⟨hfault, hsound⟩ := runLines_keeps_sound sound_fresh before
    have hstep := runLines_descendants hsound [raw]
    rw [runLines_append [raw] hfault]
    simp only [creations] at hstep
    dsimp only
    omega

end Workspace

end DirectoryScript
