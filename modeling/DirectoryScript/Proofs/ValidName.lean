import DirectoryScript.Proofs.ProperDirectory

namespace DirectoryScript

theorem isName_nameChar {t : Text} (h : isName t = true) : ∀ c ∈ t, isNameChar c = true := by
  simp only [isName, Bool.and_eq_true] at h
  exact List.all_eq_true.mp h.2

theorem isName_length {t : Text} (h : isName t = true) : 1 ≤ t.length ∧ t.length ≤ 6 := by
  simp only [isName, Bool.and_eq_true, decide_eq_true_eq] at h
  exact h.1

theorem isName_ne_nil {t : Text} (h : isName t = true) : t ≠ [] := by
  have hl := (isName_length h).1
  exact List.length_pos_iff.mp hl

theorem isName_ne_here {t : Text} (h : isName t = true) : t ≠ here := by
  rintro rfl
  exact absurd h (by decide)

theorem isName_ne_above {t : Text} (h : isName t = true) : t ≠ above := by
  rintro rfl
  exact absurd h (by decide)

/-- A step that is no dots is a name. -/
theorem isName_of_isStep {t : Text} (h : isStep t = true) (hhere : t ≠ here) (habove : t ≠ above) :
    isName t = true := by
  simpa [isStep, hhere, habove] using h

theorem separator_notMem_name {t : Text} (h : isName t = true) : pathSeparator ∉ t := by
  intro hm
  exact absurd (isName_nameChar h _ hm) (by decide)

theorem separator_notMem_step {t : Text} (h : isStep t = true) : pathSeparator ∉ t := by
  by_cases hhere : t = here
  · subst hhere
    decide
  · by_cases habove : t = above
    · subst habove
      decide
    · exact separator_notMem_name (isName_of_isStep h hhere habove)

/-- Steps have no separator in them, so a destination falls apart into its steps. -/
theorem destinationSteps_join {steps : List Text} (hne : steps ≠ [])
    (h : ∀ step ∈ steps, isStep step = true) :
    destinationSteps (join pathSeparator steps) = steps :=
  split_join hne fun step hm => separator_notMem_step (h step hm)

/-- Paths of valid names are shown alike only when they are the same. -/
theorem Path.shown_inj {p q : Path} (hp : ∀ name ∈ p, isName name = true)
    (hq : ∀ name ∈ q, isName name = true) : p.shown = q.shown ↔ p = q := by
  have split_shown {r : Path} (hr : ∀ name ∈ r, isName name = true) :
      split pathSeparator r.shown = "root".toList :: r := by
    apply split_join (by simp)
    intro name hm
    rcases List.mem_cons.mp hm with rfl | hm
    · decide
    · exact separator_notMem_name (hr name hm)
  refine ⟨fun h => ?_, congrArg Path.shown⟩
  have hs := congrArg (split pathSeparator) h
  rw [split_shown hp, split_shown hq] at hs
  exact (List.cons.inj hs).2

namespace Directory

theorem Named.of_resolves {p : Text → Prop} {d : Directory} {path : Path} (h : d.Named p)
    (hr : d.Resolves path) : ∀ name ∈ path, p name := by
  induction path generalizing d with
  | nil => simp
  | cons first rest ih =>
    obtain ⟨inside, hc, hrest⟩ := resolves_cons.mp hr
    obtain ⟨hfirst, hinside⟩ := h.of_child? hc
    intro name hm
    rcases List.mem_cons.mp hm with rfl | hm
    · exact hfirst
    · exact ih hinside hrest name hm

end Directory

end DirectoryScript
