import DirectoryScript.Proofs.AlikeWorkspaces
import DirectoryScript.Proofs.EchoedScript

namespace DirectoryScript

/-- The second letter tells an echo from the message of a refusal. -/
theorem Command.echo_ne_message (c : Command) (why : Refusal) : c.echo ≠ why.message := by
  intro h
  have hsecond : c.echo[1]? = why.message[1]? := by rw [h]
  have hecho : c.echo[1]? = some 'o' := rfl
  rw [hecho] at hsecond
  cases why <;> exact absurd hsecond (by decide)

namespace Workspace

variable {w v : Workspace}

theorem enter_absent {active : Directory} {name : Text} (hname : isName name = true)
    (ha : w.root.at? w.position = some active) (hs : active.has name = false) :
    w.runLine (Command.entering name).written =
      ⟨w, [(Command.entering name).echo, Refusal.notFound.message], none⟩ := by
  have hrefused : w.enter name = ⟨w, .refused .notFound⟩ := by
    simp [enter, withActive_of_at? ha, hs]
  have hattempt : w.attempt { Command.entering name with line := (Command.entering name).written } =
      w.enter name := rfl
  rw [runLine_of_parse (Command.spelled_entering hname).parse_written, execute, hattempt, hrefused]
  rfl

/-- Entering the names of a path in turn prints nothing but echoes only when the path is there. -/
theorem resolves_of_echoes {root : Directory} {p q : Path} (hq : ∀ name ∈ q, isName name = true)
    (hp : root.Resolves p)
    (h : (runLines ⟨root, p⟩ ((q.map Command.entering).map Command.written)).blocks =
      (q.map Command.entering).map Command.echo) : root.Resolves (p ++ q) := by
  induction q generalizing p with
  | nil => simpa using hp
  | cons name q ih =>
    have hname := hq name List.mem_cons_self
    obtain ⟨active, ha⟩ := Directory.resolves_iff.mp hp
    cases hs : active.has name with
    | true =>
      have hthere := (Directory.has_iff_resolves_under ha).mp hs
      have hstep : Performs ⟨root, p⟩ [.entering name] ⟨root, p ++ [name]⟩ :=
        performs_of_changes (Command.spelled_entering hname) (.entered rfl ha hs)
      have hrun := hstep.runLines_append ((q.map Command.entering).map Command.written)
      have hblocks := congrArg Outcome.blocks hrun
      have hrest := ih (fun other hm => hq other (List.mem_cons_of_mem name hm)) hthere
      rw [List.append_assoc] at hrest
      apply hrest
      simpa using hblocks.symm.trans h
    | false =>
      have habsent := enter_absent (w := ⟨root, p⟩) hname ha hs
      simp only [List.map_cons, runLines, habsent, List.cons_append, List.nil_append,
        List.cons.injEq, true_and] at h
      cases q with
      | nil => simp at h
      | cons other q =>
        have hhead := (List.cons.inj h).1
        exact absurd hhead.symm (Command.echo_ne_message _ _)

theorem runLine_dir (hw : w.Sound) : ∃ listed, w.runLine Verb.dir.word =
    ⟨w, [Command.echo { verb := .dir }, "Directory of ".toList ++ w.position.shown ++ ":".toList,
      listed], none⟩ := by
  obtain ⟨active, ha⟩ := Directory.resolves_iff.mp hw.placed
  have hparse : Command.parse (trim Verb.dir.word) =
      .ok { verb := .dir, line := Verb.dir.word } := rfl
  refine ⟨if active.sortedNames = [] then noSubdirectories
    else listing active.sortedNames, ?_⟩
  rw [runLine_of_parse hparse, execute, attempt_dir rfl ha]
  rfl

/-- Workspaces that print the same on every script are at the same position: the list of the
active directory begins with its path. -/
theorem position_of_same_blocks (hw : w.Sound) (hv : v.Sound)
    (h : ∀ lines, (w.runLines lines).blocks = (v.runLines lines).blocks) :
    w.position = v.position := by
  obtain ⟨listed, hrun⟩ := runLine_dir hw
  obtain ⟨listed', hrun'⟩ := runLine_dir hv
  have hblocks := h [Verb.dir.word]
  simp only [runLines, hrun, hrun', List.append_nil, List.cons.injEq, true_and, and_true] at hblocks
  have hheader := List.append_cancel_left (List.append_cancel_right hblocks.1)
  exact (Path.shown_inj (hw.proper.named.of_resolves hw.placed)
    (hv.proper.named.of_resolves hv.placed)).mp hheader

theorem resolves_of_same_blocks (hw : w.Sound) (hv : v.Sound)
    (h : ∀ lines, (w.runLines lines).blocks = (v.runLines lines).blocks) {p : Path}
    (hp : w.root.Resolves p) : v.root.Resolves p := by
  have hposition := position_of_same_blocks hw hv h
  have hup : w.Performs (List.replicate w.position.length .ascending) ⟨w.root, []⟩ :=
    performs_ascent w.root w.position
  have hup' : v.Performs (List.replicate w.position.length .ascending) ⟨v.root, []⟩ := by
    rw [hposition]
    exact performs_ascent v.root v.position
  have hdown := performs_descent_from_root hw.proper.named hp
  have hblocks := h ((List.replicate w.position.length Command.ascending).map Command.written ++
    (p.map Command.entering).map Command.written)
  rw [hup.runLines_append, hup'.runLines_append, hdown] at hblocks
  have hdown' := List.append_cancel_left hblocks
  simpa using resolves_of_echoes (p := []) (hw.proper.named.of_resolves hp)
    (Directory.resolves_nil v.root) hdown'.symm

/-- After any two scripts, all further scripts print the same exactly when the positions and the
paths that resolve are the same. The order in which directories came and went is never seen, and
every other difference is. -/
theorem same_output_iff_same_paths (first second : List Text) :
    (∀ lines, ((runLines {} first).workspace.runLines lines).blocks =
      ((runLines {} second).workspace.runLines lines).blocks) ↔
    (runLines {} first).workspace.position = (runLines {} second).workspace.position ∧
      ∀ p, (runLines {} first).workspace.root.Resolves p ↔
        (runLines {} second).workspace.root.Resolves p := by
  have hfirst := (runLines_keeps_sound sound_fresh first).2
  have hsecond := (runLines_keeps_sound sound_fresh second).2
  constructor
  · intro h
    refine ⟨position_of_same_blocks hfirst hsecond h, fun p => ⟨fun hp => ?_, fun hp => ?_⟩⟩
    · exact resolves_of_same_blocks hfirst hsecond h hp
    · exact resolves_of_same_blocks hsecond hfirst (fun lines => (h lines).symm) hp
  · rintro ⟨hposition, hpaths⟩ lines
    exact (Alike.runLines ⟨hposition, hpaths⟩ lines).blocks

/-- The order in which two directories are made stays in the workspace, though nothing shows it. -/
example : (runLines {} ["mkdir   a".toList, "mkdir   b".toList]).workspace ≠
    (runLines {} ["mkdir   b".toList, "mkdir   a".toList]).workspace := by
  decide

end Workspace

end DirectoryScript
