import DirectoryScript.Proofs.EchoedScript
import DirectoryScript.Proofs.SamePaths
import DirectoryScript.Proofs.WayOverRoot

namespace DirectoryScript

namespace Workspace

/-- What a move does: what stood under the source stands under the target, all else is kept. -/
structure Moves (w : Workspace) (source : Text) (target : Placement) (after : Workspace) :
    Prop where
  usable : target.Usable w.root w.position source
  there : w.root.Resolves (w.position ++ [source])
  relocated : ∀ p, after.root.Resolves p ↔
    (∃ r, p = target.folder ++ target.name :: r ∧ w.root.Resolves (w.position ++ source :: r)) ∨
      w.root.Resolves p ∧ ¬ w.position ++ [source] <+: p
  stays : after.position = w.position

variable {w after : Workspace} {c : Command} {source : Text} {target : Placement}

theorem Changes.moves (h : w.Changes c after) (hv : c.verb = .mv) :
    ∃ target, Placement.resolve w.root w.position c.source c.destination = .ok target ∧
      w.Moves c.source target after := by
  cases h with
  | made hs | entered hs | ascended hs => simp [hv] at hs
  | moved _ ha hs hr _ hf hfree =>
    have hthere := Directory.resolves_of_child? ha hs
    refine ⟨_, hr, Placement.resolve_usable hr, hthere, ?_, rfl⟩
    intro p
    exact Directory.resolves_relocate ha hs hf hfree

theorem exists_moves (hv : c.verb = .mv) (hs : w.root.Resolves (w.position ++ [c.source]))
    (hr : Placement.resolve w.root w.position c.source c.destination = .ok target)
    (hn : isName target.name = true) :
    ∃ after, w.Changes c after ∧ w.Moves c.source target after := by
  obtain ⟨active, ha, hhas⟩ := Directory.exists_has_of_resolves hs
  obtain ⟨moved, hm⟩ := Option.isSome_iff_exists.mp hhas
  obtain ⟨folder, hf, hfree⟩ :=
    (Placement.resolve_usable hr).survives ha (Directory.remove?_of_child? hm)
  refine ⟨_, .moved hv ha hm hr hn hf hfree, Placement.resolve_usable hr, hs, ?_, rfl⟩
  intro p
  exact Directory.resolves_relocate ha hm hf hfree

namespace Moves

theorem target_there (h : w.Moves source target after) :
    after.root.Resolves (target.folder ++ [target.name]) :=
  (h.relocated _).mpr (Or.inl ⟨[], rfl, h.there⟩)

theorem folder_there (h : w.Moves source target after) : after.root.Resolves target.folder :=
  Directory.resolves_of_prefix (List.prefix_append _ _) h.target_there

theorem home_there (h : w.Moves source target after) : after.root.Resolves w.position := by
  have hhome := Directory.resolves_of_prefix (List.prefix_append _ _) h.there
  exact (h.relocated _).mpr (Or.inr ⟨hhome, Path.not_below_self _ _⟩)

/-- Nothing that was there before is where the directory has come to. -/
theorem not_below_target (h : w.Moves source target after) {p : Path} (hp : w.root.Resolves p) :
    ¬ target.folder ++ [target.name] <+: p :=
  fun hb => h.usable.free (Directory.resolves_of_prefix hb hp)

theorem source_gone (h : w.Moves source target after) :
    ¬ after.root.Resolves (w.position ++ [source]) := by
  rw [h.relocated]
  rintro (⟨r, he, _⟩ | ⟨_, hb⟩)
  · exact h.not_below_target h.there ⟨r, by rw [he]; simp⟩
  · exact hb (List.prefix_refl _)

theorem moved_iff (h : w.Moves source target after) (r : Path) :
    after.root.Resolves (target.folder ++ target.name :: r) ↔
      w.root.Resolves (w.position ++ source :: r) := by
  rw [h.relocated]
  constructor
  · rintro (⟨r', he, hr⟩ | ⟨hr, _⟩)
    · have heq : r = r' := by simpa using he
      rwa [heq]
    · exact absurd ⟨r, by simp⟩ (h.not_below_target hr)
  · intro hr
    exact Or.inl ⟨r, rfl, hr⟩

/-- A move from the target back to the source leaves the paths that there were at first. -/
theorem resolves_back {away back : Workspace} (h : w.Moves source target after)
    (haway : away = ⟨after.root, target.folder⟩)
    (h' : away.Moves target.name ⟨w.position, source⟩ back) (p : Path) :
    back.root.Resolves p ↔ w.root.Resolves p := by
  subst haway
  rw [h'.relocated p]
  simp only [h.moved_iff]
  constructor
  · rintro (⟨r, rfl, hr⟩ | ⟨hr, hb⟩)
    · exact hr
    · rcases (h.relocated p).mp hr with ⟨r, rfl, _⟩ | ⟨hp, _⟩
      · exact absurd ⟨r, by simp⟩ hb
      · exact hp
  · intro hp
    by_cases hb : w.position ++ [source] <+: p
    · obtain ⟨r, rfl⟩ := hb
      rw [List.append_assoc] at hp
      exact Or.inl ⟨r, by simp, hp⟩
    · exact Or.inr ⟨(h.relocated p).mpr (Or.inr ⟨hp, hb⟩), h.not_below_target hp⟩

end Moves

/-- The commands that take back a move: to the root, to where the directory has come to, the move
back over the root, and home again. -/
def undoing (home : Path) (source : Text) (target : Placement) : List Command :=
  List.replicate home.length .ascending ++ target.folder.map .entering ++
    [.moving target.name (Placement.overRoot target.folder home source)] ++
    List.replicate target.folder.length .ascending ++ home.map .entering

/-- The way back over the root is accepted, and the directory is put where it came from, behind the
others that stand there. -/
theorem Moves.performs_back {away : Workspace} (hw : w.Sound) (hafter : after.Sound)
    (h : w.Moves source target after) (haway : away = ⟨after.root, target.folder⟩) :
    ∃ back : Directory, away.Performs
        [.moving target.name (Placement.overRoot target.folder w.position source)]
        ⟨back, target.folder⟩ ∧
      back.Proper ∧ back.SamePaths w.root := by
  have hsound : away.Sound := by
    subst haway
    exact ⟨hafter.proper, h.folder_there⟩
  have hnames := hw.proper.named.of_resolves h.there
  have hsource : isName source = true := hnames source (by simp)
  have htarget : isName target.name = true :=
    hafter.proper.named.of_resolves h.target_there target.name (by simp)
  have hresolve := Placement.resolve_overRoot hafter.proper.named h.folder_there htarget hnames
    h.home_there h.source_gone (h.not_below_target h.there)
  obtain ⟨back, hchanges, hmoves⟩ := exists_moves (w := away)
    (c := .moving target.name (Placement.overRoot target.folder w.position source)) rfl
    (by subst haway; exact h.target_there) (by subst haway; exact hresolve) hsource
  have hspelled : (Command.moving target.name
      (Placement.overRoot target.folder w.position source)).Spelled :=
    Command.spelled_moving htarget Placement.overRoot_ne_nil (Placement.overRoot_isStep hnames)
  have hback : back = ⟨back.root, target.folder⟩ := by
    have hposition : back.position = target.folder := by rw [hmoves.stays, haway]
    rw [← hposition]
  refine ⟨back.root, ?_, (hchanges.sound hsound).proper, h.resolves_back haway hmoves⟩
  rw [← hback]
  exact performs_of_changes hspelled hchanges

theorem Moves.performs_undoing (hw : w.Sound) (hafter : after.Sound)
    (h : w.Moves source target after) : ∃ back : Directory,
      after.Performs (undoing w.position source target) ⟨back, w.position⟩ ∧
        back.SamePaths w.root := by
  have hstart : after = ⟨after.root, w.position⟩ := by rw [← h.stays]
  have hup : after.Performs (List.replicate w.position.length .ascending) ⟨after.root, []⟩ := by
    rw [hstart]
    exact performs_ascent after.root w.position
  have hdown := performs_descent_from_root hafter.proper.named h.folder_there
  obtain ⟨back, hback, hproper, hpaths⟩ := h.performs_back hw hafter rfl
  have hupagain := performs_ascent back target.folder
  have hhome := performs_descent_from_root hproper.named ((hpaths w.position).mpr hw.placed)
  exact ⟨back, (((hup.append hdown).append hback).append hupagain).append hhome, hpaths⟩

/-- Every move that prints only its echo can be taken back by a script, each line of which prints
only its echo: the position is again what it was, and the directories are the same but for the
order in which they were attached. -/
theorem move_undone {w : Workspace} {raw : Text} {c : Command} (hw : w.Sound)
    (hp : Command.parse (trim raw) = .ok c) (hv : c.verb = .mv)
    (hb : (w.runLine raw).blocks = [c.echo]) :
    ∃ target, Placement.resolve w.root w.position c.source c.destination = .ok target ∧
      ∃ back : Directory, (w.runLine raw).workspace.runLines
          ((undoing w.position c.source target).map Command.written) =
        ⟨⟨back, w.position⟩, (undoing w.position c.source target).map Command.echo, none⟩ ∧
        back.arranged = w.root.arranged := by
  have hsound := (runLine_sound hw raw).2
  rw [runLine_of_parse hp] at hb hsound ⊢
  obtain ⟨target, hr, hmoves⟩ := (changes_of_echoed hb).moves hv
  obtain ⟨back, hundoing, hpaths⟩ := hmoves.performs_undoing hw hsound
  exact ⟨target, hr, back, hundoing, Directory.arranged_eq_iff.mpr hpaths⟩

theorem move_undone_renamed :
    Sound ⟨.entry ['s'] (.entry ['x'] .empty .empty) (.entry ['a'] .empty .empty), []⟩ ∧
      (runLine ⟨.entry ['s'] (.entry ['x'] .empty .empty) (.entry ['a'] .empty .empty), []⟩
        "mv      s       a\\t".toList).blocks = ["Command: mv      s       a\\t".toList] ∧
      ∃ back : Directory,
        ((runLine ⟨.entry ['s'] (.entry ['x'] .empty .empty) (.entry ['a'] .empty .empty), []⟩
          "mv      s       a\\t".toList).workspace.runLines
            ((undoing [] ['s'] ⟨[['a']], ['t']⟩).map Command.written)).workspace = ⟨back, []⟩ ∧
        back.arranged =
          .entry ['a'] .empty (.entry ['s'] (.entry ['x'] .empty .empty) .empty) := by
  have hw : Sound
      ⟨.entry ['s'] (.entry ['x'] .empty .empty) (.entry ['a'] .empty .empty), []⟩ := by
    refine ⟨⟨?_, ?_⟩, rfl⟩
    · simp [Directory.Distinct, Directory.names]
    · simp [Directory.Named, isName, isNameChar]
  have hp : Command.parse (trim "mv      s       a\\t".toList) =
      .ok ⟨.mv, ['s'], "a\\t".toList, "mv      s       a\\t".toList⟩ := rfl
  have hb : (runLine ⟨.entry ['s'] (.entry ['x'] .empty .empty) (.entry ['a'] .empty .empty), []⟩
      "mv      s       a\\t".toList).blocks = ["Command: mv      s       a\\t".toList] := rfl
  obtain ⟨target, hr, back, hundone, harranged⟩ := move_undone hw hp rfl hb
  have htarget : Placement.resolve
      (.entry ['s'] (.entry ['x'] .empty .empty) (.entry ['a'] .empty .empty)) [] ['s']
        "a\\t".toList = .ok ⟨[['a']], ['t']⟩ := rfl
  cases Except.ok.inj (hr.symm.trans htarget)
  exact ⟨hw, hb, back, congrArg Outcome.workspace hundone, harranged⟩

end Workspace

end DirectoryScript
