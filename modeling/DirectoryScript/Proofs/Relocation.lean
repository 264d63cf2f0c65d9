import DirectoryScript.Proofs.CommandEndings

namespace DirectoryScript

namespace Directory

section

variable {root active moved folder : Directory} {home aim : Path} {source name : Text}

/-- An entry taken out at one path and put in at another takes with it what is below. -/
theorem resolves_relocate (ha : root.at? home = some active)
    (hs : active.child? source = some moved)
    (hf : (root.change (fun _ => active.without source) home).at? aim = some folder)
    (hfree : folder.child? name = none) {p : Path} :
    ((root.change (fun _ => active.without source) home).change
      (fun _ => folder.place name moved) aim).Resolves p ↔
      (∃ r, p = aim ++ name :: r ∧ root.Resolves (home ++ source :: r)) ∨
        root.Resolves p ∧ ¬ home ++ [source] <+: p := by
  have hmoved (r : Path) : root.Resolves (home ++ source :: r) ↔ moved.Resolves r := by
    rw [resolves_append ha, resolves_cons]
    simp [hs]
  simp only [resolves_attach hf hfree, resolves_detach ha, hmoved]
  exact or_comm

theorem at?_relocate (ha : root.at? home = some active) (hs : active.child? source = some moved)
    (hf : (root.change (fun _ => active.without source) home).at? aim = some folder)
    (hfree : folder.child? name = none) :
    ((root.change (fun _ => active.without source) home).change
      (fun _ => folder.place name moved) aim).at? (aim ++ [name]) = root.at? (home ++ [source]) := by
  rw [at?_change_append hf, at?_append root, ha]
  simp [at?_cons, child?_place_self hfree, hs]

end

end Directory

namespace Workspace

theorem Ends.not_lost {w : Workspace} {c : Command} {a : Attempt} (h : w.Ends c a)
    (folder : Path) (source : Text) : a.verdict ≠ .broken (.lostFolder folder source) := by
  cases h <;> simp

/-- A placement found for a move needs no second look: taking the directory out leaves the folder
in place and the name free in it. -/
theorem resolved_placement_safe {root : Directory} {home : Path} {source destination : Text}
    {target : Placement} (h : Placement.resolve root home source destination = .ok target) :
    (∃ folder, root.at? target.folder = some folder ∧ folder.has target.name = false) ∧
    ¬ home ++ [source] <+: target.folder ∧ ¬ (target.folder = home ∧ target.name = source) ∧
    (∀ active moved rest, root.at? home = some active →
      active.remove? source = some (moved, rest) →
        ∃ folder, (root.change (fun _ => rest) home).at? target.folder = some folder ∧
          folder.has target.name = false ∧ folder.insert? target.name moved ≠ .ok none) ∧
    ∀ folder lost, (Workspace.move ⟨root, home⟩ source destination).verdict ≠
      .broken (.lostFolder folder lost) := by
  have hu := Placement.resolve_usable h
  refine ⟨?_, hu.outside, hu.elsewhere, ?_, ?_⟩
  · obtain ⟨folder, hf⟩ := Directory.resolves_iff.mp hu.folder
    have hfree := mt (Directory.has_iff_resolves_under hf).mp hu.free
    exact ⟨folder, hf, by simpa using hfree⟩
  · intro active moved rest ha hr
    obtain ⟨folder, hf, hfree⟩ := hu.survives ha hr
    refine ⟨folder, hf, by simp [Directory.has, hfree], ?_⟩
    unfold Directory.insert?
    split <;> simp [Directory.has, hfree]
  · intro folder lost
    let c : Command := ⟨.mv, source, destination, []⟩
    have he : Ends ⟨root, home⟩ c (Workspace.move ⟨root, home⟩ source destination) :=
      move_ends (c := c) rfl
    exact he.not_lost folder lost

theorem placement_beside_safe :
    Placement.resolve (.entry ['a'] .empty (.entry ['b'] (.entry ['s'] .empty .empty) .empty))
        [['b']] ['s'] "..\\a".toList = .ok ⟨[['a']], ['s']⟩ ∧
      ¬ [['b'], ['s']] <+: [['a']] ∧
      ∃ folder, ((Directory.entry ['a'] .empty (.entry ['b'] (.entry ['s'] .empty .empty)
          .empty)).change (fun _ => .empty) [['b']]).at? [['a']] = some folder ∧
        folder.has ['s'] = false ∧ folder.insert? ['s'] .empty ≠ .ok none := by
  have h : Placement.resolve
      (.entry ['a'] .empty (.entry ['b'] (.entry ['s'] .empty .empty) .empty))
      [['b']] ['s'] "..\\a".toList = .ok ⟨[['a']], ['s']⟩ := rfl
  obtain ⟨_, houtside, _, hsurvives, _⟩ := resolved_placement_safe h
  exact ⟨h, houtside, hsurvives _ _ _ rfl rfl⟩

theorem runLine_of_parse {w : Workspace} {raw : Text} {c : Command}
    (h : Command.parse (trim raw) = .ok c) : w.runLine raw = w.execute c := by
  simp [runLine, h]

/-- A move that prints only its echo takes a directory with all that is in it to a free place
outside of it, and no other path resolves that did not, or fails to resolve that did. -/
theorem move_relocates {w : Workspace} {raw : Text} {c : Command}
    (hp : Command.parse (trim raw) = .ok c) (hv : c.verb = .mv)
    (hb : (w.runLine raw).blocks = [c.echo]) :
    ∃ target, Placement.resolve w.root w.position c.source c.destination = .ok target ∧
      (∀ p, (w.runLine raw).workspace.root.Resolves p ↔
        (∃ r, p = target.folder ++ target.name :: r ∧
          w.root.Resolves (w.position ++ c.source :: r)) ∨
        w.root.Resolves p ∧ ¬ w.position ++ [c.source] <+: p) ∧
      (w.runLine raw).workspace.root.at? (target.folder ++ [target.name]) =
        w.root.at? (w.position ++ [c.source]) ∧
      ¬ w.root.Resolves (target.folder ++ [target.name]) ∧
      ¬ w.position ++ [c.source] <+: target.folder ++ [target.name] ∧
      (w.runLine raw).workspace.position = w.position := by
  obtain ⟨a, he, hx⟩ := w.execute_ends c
  rw [runLine_of_parse hp, hx] at hb ⊢
  cases he with
  | stray | makeBadName | moveBadName | refused => simp [Attempt.reported] at hb
  | listed hs | drawn hs => simp [hv] at hs
  | changed hc =>
    cases hc with
    | made hs | entered hs | ascended hs => simp [hv] at hs
    | moved _ ha hs hr _ hf hfree =>
      have hu := Placement.resolve_usable hr
      refine ⟨_, hr, ?_, ?_, hu.free, hu.not_below, rfl⟩
      · intro p
        exact Directory.resolves_relocate ha hs hf hfree
      · exact Directory.at?_relocate ha hs hf hfree

theorem move_relocates_renamed :
    Command.parse (trim "mv      s       ..\\a\\t".toList) =
        .ok ⟨.mv, ['s'], "..\\a\\t".toList, "mv      s       ..\\a\\t".toList⟩ ∧
      (runLine ⟨.entry ['a'] .empty (.entry ['b'] (.entry ['s'] .empty .empty) .empty), [['b']]⟩
        "mv      s       ..\\a\\t".toList).blocks =
          ["Command: mv      s       ..\\a\\t".toList] ∧
      ∃ target, Placement.resolve
          (.entry ['a'] .empty (.entry ['b'] (.entry ['s'] .empty .empty) .empty)) [['b']] ['s']
          "..\\a\\t".toList = .ok target ∧
        (runLine ⟨.entry ['a'] .empty (.entry ['b'] (.entry ['s'] .empty .empty) .empty), [['b']]⟩
          "mv      s       ..\\a\\t".toList).workspace.root.at? (target.folder ++ [target.name]) =
            some .empty := by
  have hp : Command.parse (trim "mv      s       ..\\a\\t".toList) =
      .ok ⟨.mv, ['s'], "..\\a\\t".toList, "mv      s       ..\\a\\t".toList⟩ := rfl
  have hb : (runLine
      ⟨.entry ['a'] .empty (.entry ['b'] (.entry ['s'] .empty .empty) .empty), [['b']]⟩
      "mv      s       ..\\a\\t".toList).blocks =
        ["Command: mv      s       ..\\a\\t".toList] := rfl
  obtain ⟨target, hr, _, hmoved, _⟩ := move_relocates hp rfl hb
  exact ⟨hp, hb, target, hr, hmoved⟩

end Workspace

end DirectoryScript
