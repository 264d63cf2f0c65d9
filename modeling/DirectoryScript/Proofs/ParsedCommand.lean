import DirectoryScript.CommandColumns
import DirectoryScript.Proofs.PlacementSafety
import DirectoryScript.Proofs.ValidName

namespace DirectoryScript

namespace Command

theorem parse_eq_ok_iff {line : Text} {c : Command} : parse line = .ok c ↔
    c.line = line ∧ Columns.ofLine line = ⟨c.verb.word, c.source, c.destination⟩ ∧
      (Columns.ofLine line).problem c.verb = none := by
  constructor
  · intro h
    simp only [parse] at h
    split at h
    next => simp at h
    next v hv =>
      split at h
      next => simp at h
      next hn =>
        cases Except.ok.inj h
        exact ⟨rfl, by rw [Verb.word_of_ofWord? hv], hn⟩
  · rintro ⟨rfl, hcolumns, hn⟩
    rw [hcolumns] at hn
    simp [parse, hcolumns, Verb.ofWord?_word, hn]

/-- The error of a line that is no command carries the line. -/
theorem line_of_rejected {line : Text} {rejected : RejectedLine}
    (h : parse line = .error rejected) : rejected.line = line := by
  simp only [parse] at h
  split at h
  next =>
    cases Except.error.inj h
    rfl
  next =>
    split at h
    next =>
      cases Except.error.inj h
      rfl
    next => simp at h

theorem parse_source {line : Text} {c : Command} (h : parse line = .ok c)
    (hv : c.verb.takesSource = true) : isName c.source = true := by
  obtain ⟨_, hcolumns, hn⟩ := parse_eq_ok_iff.mp h
  rw [hcolumns] at hn
  have hp := (Option.or_eq_none_iff.mp hn).1
  rw [if_pos hv] at hp
  exact sourceProblem_eq_none_iff.mp hp

theorem parse_destination {line : Text} {c : Command} (h : parse line = .ok c)
    (hv : c.verb.takesDestination = true) :
    ∀ step ∈ destinationSteps c.destination, isStep step = true := by
  obtain ⟨_, hcolumns, hn⟩ := parse_eq_ok_iff.mp h
  rw [hcolumns] at hn
  have hp := (Option.or_eq_none_iff.mp hn).2
  rw [if_pos hv] at hp
  split at hp
  next => simp at hp
  next => exact destinationProblem_eq_none_iff.mp hp

/-- The name that a move gives is the source or a step of the destination, so it is valid. -/
theorem parse_target_isName {line : Text} {c : Command} {root : Directory} {home : Path}
    {target : Placement} (h : parse line = .ok c) (hv : c.verb = .mv)
    (hr : Placement.resolve root home c.source c.destination = .ok target) :
    isName target.name = true := by
  rcases Placement.walk_name hr with hn | ⟨hm, hhere, habove⟩
  · rw [hn]
    exact parse_source h (by rw [hv]; rfl)
  · have hstep := parse_destination h (by rw [hv]; rfl) target.name hm
    exact isName_of_isStep hstep hhere habove

end Command

end DirectoryScript
