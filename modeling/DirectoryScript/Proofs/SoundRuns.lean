import DirectoryScript.Proofs.ParsedCommand
import DirectoryScript.Proofs.ProperDirectory
import DirectoryScript.Proofs.Relocation

namespace DirectoryScript

namespace Workspace

/-- The directories are proper and the position leads to one of them. -/
structure Sound (w : Workspace) : Prop where
  proper : w.root.Proper
  placed : w.root.Resolves w.position

theorem sound_fresh : Sound {} := ⟨.empty, Directory.resolves_nil _⟩

variable {w after : Workspace} {c : Command}

/-- No change makes an improper directory or leaves the position behind. -/
theorem Changes.sound (h : w.Changes c after) (hw : w.Sound) : after.Sound := by
  obtain ⟨hproper, hplaced⟩ := hw
  cases h with
  | @made active _ ha hn hf =>
    have hactive := hproper.of_at? ha
    have hgrown := hactive.place .empty hn hf
    exact ⟨hproper.change ha hgrown, (Directory.resolves_attach ha hf).mpr (Or.inl hplaced)⟩
  | entered _ ha hs => exact ⟨hproper, (Directory.has_iff_resolves_under ha).mp hs⟩
  | ascended => exact ⟨hproper, Directory.resolves_of_prefix (List.dropLast_prefix _) hplaced⟩
  | @moved active moved folder target _ ha hs _ hn hf hfree =>
    have hactive := hproper.of_at? ha
    have hleft := hproper.change (f := fun _ => active.without c.source) ha hactive.without
    have hfolder := (hleft.of_at? hf).place (hactive.of_child? hs) hn hfree
    refine ⟨hleft.change hf hfolder, ?_⟩
    -- The active directory is not inside what is moved, so its path is kept.
    exact (Directory.resolves_relocate ha hs hf hfree).mpr
      (Or.inr ⟨hplaced, Path.not_below_self w.position c.source⟩)

theorem Ends.sound {a : Attempt} {line : Text} (h : w.Ends c a) (hp : Command.parse line = .ok c)
    (hw : w.Sound) : (a.reported c).fault = none ∧ (a.reported c).workspace.Sound := by
  cases h with
  | stray _ hm => exact absurd hw.placed (Directory.not_resolves_of_locate hm)
  | makeBadName hv _ hbad =>
    have hn := Command.parse_source hp (by rw [hv]; rfl)
    simp [hbad] at hn
  | moveBadName hv _ _ hr hbad =>
    have hn := Command.parse_target_isName hp hv hr
    simp [hbad] at hn
  | listed | drawn | refused => exact ⟨rfl, hw⟩
  | changed hc => exact ⟨rfl, hc.sound hw⟩

/-- A line keeps a sound workspace sound and meets no fault in it. -/
theorem runLine_sound (hw : w.Sound) (raw : Text) :
    (w.runLine raw).fault = none ∧ (w.runLine raw).workspace.Sound := by
  cases hp : Command.parse (trim raw) with
  | error why => simpa [runLine, hp] using hw
  | ok c =>
    obtain ⟨a, he, hx⟩ := w.execute_ends c
    rw [runLine_of_parse hp, hx]
    exact he.sound hp hw

/-- In a sound workspace the run goes on after every line. -/
theorem runLines_cons (hw : w.Sound) (raw : Text) (lines : List Text) :
    w.runLines (raw :: lines) = { (w.runLine raw).workspace.runLines lines with
      blocks := (w.runLine raw).blocks ++ ((w.runLine raw).workspace.runLines lines).blocks } := by
  simp only [runLines, (runLine_sound hw raw).1]

theorem runLines_append {w : Workspace} {lines : List Text} (more : List Text)
    (h : (w.runLines lines).fault = none) :
    w.runLines (lines ++ more) = { (w.runLines lines).workspace.runLines more with
      blocks := (w.runLines lines).blocks ++
        ((w.runLines lines).workspace.runLines more).blocks } := by
  induction lines generalizing w with
  | nil => rfl
  | cons raw lines ih =>
    cases hf : (w.runLine raw).fault with
    | some why => simp [runLines, hf] at h
    | none =>
      simp only [runLines, hf] at h
      simp [runLines, hf, ih h]

theorem runLines_keeps_sound (hw : w.Sound) (lines : List Text) :
    (w.runLines lines).fault = none ∧ (w.runLines lines).workspace.Sound := by
  induction lines generalizing w with
  | nil => exact ⟨rfl, hw⟩
  | cons raw lines ih =>
    rw [runLines_cons hw]
    exact ih (runLine_sound hw raw).2

/-- No script meets a fault, from a fresh workspace or any sound one. After every line all names
are valid, no directory has a name twice, and the position is there. -/
theorem every_run_sound {w : Workspace} (start : w = {} ∨ w.Sound) (lines : List Text) :
    (w.runLines lines).fault = none ∧ (w.runLines lines).workspace.Sound ∧
    ∀ p d, (w.runLines lines).workspace.root.at? p = some d →
      d.names.Nodup ∧ ∀ name ∈ d.names, isName name = true := by
  have hw : w.Sound := by
    rcases start with rfl | hw
    · exact sound_fresh
    · exact hw
  obtain ⟨hfault, hsound⟩ := runLines_keeps_sound hw lines
  refine ⟨hfault, hsound, ?_⟩
  intro p d hd
  have hproper := hsound.proper.of_at? hd
  exact ⟨hproper.distinct.nodup, fun name hm => hproper.named.of_mem hm⟩

theorem run_from_sibling_sound :
    Sound ⟨.entry ['a'] .empty (.entry ['b'] (.entry ['s'] .empty .empty) .empty), [['b']]⟩ ∧
      (runLines ⟨.entry ['a'] .empty (.entry ['b'] (.entry ['s'] .empty .empty) .empty), [['b']]⟩
        ["mv      s       ..\\a".toList, "up".toList]).fault = none := by
  have hw : Sound
      ⟨.entry ['a'] .empty (.entry ['b'] (.entry ['s'] .empty .empty) .empty), [['b']]⟩ := by
    refine ⟨⟨?_, ?_⟩, rfl⟩
    · simp only [Directory.Distinct, Directory.names]
      decide
    · simp [Directory.Named, isName, isNameChar]
  exact ⟨hw, (every_run_sound (Or.inr hw) _).1⟩

end Workspace

end DirectoryScript
