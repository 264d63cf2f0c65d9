import DirectoryScript.CommandColumns
import DirectoryScript.Proofs.TrimmedText

namespace DirectoryScript

theorem nameChar_range {c : Char} (h : isNameChar c = true) :
    0x20 < c.toNat ∧ c.toNat < 0x85 := by
  have toNat_le {a b : Char} (hab : a.val ≤ b.val) : a.toNat ≤ b.toNat :=
    UInt32.le_iff_toNat_le.mp hab
  rcases Bool.or_eq_true_iff.mp h with h | h
  · rcases Bool.or_eq_true_iff.mp h with h | h
    · rcases Bool.or_eq_true_iff.mp h with h | h
      · obtain ⟨hl, hu⟩ := of_decide_eq_true h
        have hrange : 65 ≤ c.toNat ∧ c.toNat ≤ 90 := ⟨toNat_le hl, toNat_le hu⟩
        omega
      · obtain ⟨hl, hu⟩ := Bool.and_eq_true_iff.mp h
        have hrange : 97 ≤ c.toNat ∧ c.toNat ≤ 122 :=
          ⟨toNat_le (of_decide_eq_true hl), toNat_le (of_decide_eq_true hu)⟩
        omega
    · have hrange : 48 ≤ c.toNat ∧ c.toNat ≤ 57 := Char.isDigit_iff_toNat.mp h
      omega
  · have hc : c = '_' := by simpa using h
    subst hc
    decide

theorem isBlank_of_nameChar {c : Char} (h : isNameChar c = true) : isBlank c = false := by
  obtain ⟨hlow, hhigh⟩ := nameChar_range h
  simp only [isBlank, Bool.or_eq_false_iff, Bool.and_eq_false_iff, decide_eq_false_iff_not,
    beq_eq_false_iff_ne]
  omega

theorem trimmed_of_name {t : Text} (h : isName t = true) : Trimmed t :=
  .of_forall fun c hc => isBlank_of_nameChar (isName_nameChar h c hc)

theorem mem_join {sep c : Char} {pieces : List Text} (h : c ∈ join sep pieces) :
    c = sep ∨ ∃ piece ∈ pieces, c ∈ piece := by
  induction pieces with
  | nil => simp [join] at h
  | cons piece pieces ih =>
    by_cases hlast : pieces = []
    · subst hlast
      exact Or.inr ⟨piece, List.mem_cons_self, h⟩
    · rw [join_cons hlast, List.mem_append, List.mem_cons] at h
      rcases h with h | h | h
      · exact Or.inr ⟨piece, List.mem_cons_self, h⟩
      · exact Or.inl h
      · rcases ih h with he | ⟨other, hm, hc⟩
        · exact Or.inl he
        · exact Or.inr ⟨other, List.mem_cons_of_mem piece hm, hc⟩

theorem trimmed_of_steps {destination : Text}
    (h : ∀ step ∈ destinationSteps destination, isStep step = true) : Trimmed destination := by
  apply Trimmed.of_forall
  intro c hc
  rw [← join_split pathSeparator destination] at hc
  rcases mem_join hc with rfl | ⟨step, hm, hc⟩
  · decide
  · by_cases hhere : step = here
    · subst hhere
      cases List.mem_singleton.mp hc
      decide
    · by_cases habove : step = above
      · subst habove
        have hdot : c = '.' := by simpa [above] using hc
        subst hdot
        decide
      · have hname := isName_of_isStep (h step hm) hhere habove
        exact isBlank_of_nameChar (isName_nameChar hname c hc)

/-- The words of the verbs would do as names. -/
theorem Verb.isName_word (v : Verb) : isName v.word = true := by cases v <;> rfl

theorem length_pad {t : Text} {width : Nat} (h : t.length ≤ width) :
    (pad width t).length = width := by
  simp only [pad, List.rightpad, List.length_append, List.length_replicate]
  omega

theorem Verb.length_word_lt (v : Verb) : v.word.length < verbWidth := by
  have hlength := (isName_length v.isName_word).2
  have hwidth : verbWidth = 8 := rfl
  omega

theorem Verb.length_pad_word (v : Verb) : (pad verbWidth v.word).length = verbWidth :=
  length_pad v.length_word_lt.le

theorem Columns.ofLine_word (v : Verb) : ofLine v.word = ⟨v.word, [], []⟩ := by
  cases v <;> rfl

/-- Columns of full width are taken apart where they were put together. -/
theorem Columns.ofLine_append {verb source : Text} (destination : Text)
    (hv : verb.length = verbWidth) (hs : source.length = sourceWidth) :
    ofLine (verb ++ (source ++ destination)) = ⟨trim verb, trim source, trim destination⟩ := by
  have hboth : (verb ++ source).length = verbWidth + sourceWidth := by
    rw [List.length_append, hv, hs]
  have htail : (verb ++ (source ++ destination)).drop (verbWidth + sourceWidth) = destination := by
    rw [← List.append_assoc, ← hboth, List.drop_left]
  rw [ofLine, htail, ← hv, List.take_left, List.drop_left, ← hs, List.take_left]

/-- A last column that is short is not filled up. -/
theorem Columns.ofLine_short {verb source : Text} (hv : verb.length = verbWidth)
    (hs : source.length ≤ sourceWidth) :
    ofLine (verb ++ source) = ⟨trim verb, trim source, []⟩ := by
  have htail : (verb ++ source).drop (verbWidth + sourceWidth) = [] := by
    apply List.drop_eq_nil_of_le
    rw [List.length_append]
    omega
  rw [ofLine, htail, ← hv, List.take_left, List.drop_left, List.take_of_length_le hs]
  rfl

namespace Command

variable {c : Command}

theorem written_trimmed (hs : Trimmed c.source) (hd : Trimmed c.destination) :
    Trimmed c.written := by
  have hv := trimmed_of_name c.verb.isName_word
  have hne := isName_ne_nil c.verb.isName_word
  rw [written]
  by_cases hdestination : c.destination = []
  · by_cases hsource : c.source = []
    · simpa [hsource, hdestination] using hv
    · simpa [hsource, hdestination, pad, List.rightpad] using
        hv.enclose hs hne hsource (List.replicate (verbWidth - c.verb.word.length) ' ')
  · by_cases hsource : c.source = []
    · simpa [hsource, hdestination] using hv.enclose hd hne hdestination _
    · simpa [hsource, hdestination, pad, List.rightpad] using
        hv.enclose hd hne hdestination
          (List.replicate (verbWidth - c.verb.word.length) ' ' ++ pad sourceWidth c.source)

/-- The columns of a written command are read back, but for a destination without a source: that
one is not aligned. -/
theorem ofLine_written (hs : Trimmed c.source) (hl : c.source.length ≤ sourceWidth)
    (hd : Trimmed c.destination) (h : c.source ≠ [] ∨ c.destination = []) :
    Columns.ofLine c.written = ⟨c.verb.word, c.source, c.destination⟩ := by
  have hv := trim_pad (trimmed_of_name c.verb.isName_word) verbWidth
  have hlength := c.verb.length_pad_word
  rw [written]
  by_cases hdestination : c.destination = []
  · by_cases hsource : c.source = []
    · simpa [hsource, hdestination] using Columns.ofLine_word c.verb
    · have hcolumns := Columns.ofLine_short hlength hl
      rw [hv, trim_of_trimmed hs] at hcolumns
      simpa [hsource, hdestination] using hcolumns
  · have hsource := h.resolve_right hdestination
    have hcolumns := Columns.ofLine_append c.destination hlength (length_pad hl)
    rw [hv, trim_pad hs, trim_of_trimmed hd] at hcolumns
    simpa [hsource, hdestination] using hcolumns

/-- A command whose fields fit and break no rule is read back from what is written of it. -/
theorem parse_written (hs : Trimmed c.source) (hl : c.source.length ≤ sourceWidth)
    (hd : Trimmed c.destination) (h : c.source ≠ [] ∨ c.destination = [])
    (hok : (⟨c.verb.word, c.source, c.destination⟩ : Columns).problem c.verb = none) :
    parse (trim c.written) = .ok { c with line := c.written } := by
  rw [trim_of_trimmed (written_trimmed hs hd), parse, ofLine_written hs hl hd h]
  simp [Verb.ofWord?_word, hok]

/-- The source and the destination are valid where the verb takes them, and left out elsewhere. -/
structure Spelled (c : Command) : Prop where
  source : if c.verb.takesSource then isName c.source = true else c.source = []
  destination : if c.verb.takesDestination then
    ∀ step ∈ destinationSteps c.destination, isStep step = true else c.destination = []

theorem Spelled.source_fits (h : c.Spelled) :
    Trimmed c.source ∧ c.source.length ≤ sourceWidth := by
  have hs := h.source
  split at hs
  next =>
    have hwidth : 6 ≤ sourceWidth := by decide
    exact ⟨trimmed_of_name hs, Nat.le_trans (isName_length hs).2 hwidth⟩
  next =>
    rw [hs]
    exact ⟨.of_forall (by simp), Nat.zero_le _⟩

theorem Spelled.destination_trimmed (h : c.Spelled) : Trimmed c.destination := by
  have hd := h.destination
  split at hd
  next => exact trimmed_of_steps hd
  next =>
    rw [hd]
    exact .of_forall (by simp)

theorem Spelled.aligned (h : c.Spelled) : c.source ≠ [] ∨ c.destination = [] := by
  obtain ⟨hs, hd⟩ := h
  cases hv : c.verb <;> simp only [hv, Verb.takesSource, Verb.takesDestination] at hs hd
  case mv => exact Or.inl (isName_ne_nil (by simpa using hs))
  all_goals exact Or.inr (by simpa using hd)

theorem Spelled.problem_eq_none (h : c.Spelled) :
    (⟨c.verb.word, c.source, c.destination⟩ : Columns).problem c.verb = none := by
  obtain ⟨hs, hd⟩ := h
  apply Option.or_eq_none_iff.mpr
  constructor
  · split at hs
    next hv => simpa [hv] using sourceProblem_eq_none_iff.mpr hs
    next hv => simp [hv]
  · split at hd
    next hv =>
      have hne : c.destination ≠ [] := by
        intro he
        rw [he] at hd
        exact absurd (hd [] (by simp [destinationSteps, split])) (by decide)
      simpa [hne] using destinationProblem_eq_none_iff.mpr hd
    next hv => simp [hd, hv]

/-- In particular one is that has exactly what its verb takes. -/
theorem Spelled.parse_written (h : c.Spelled) :
    parse (trim c.written) = .ok { c with line := c.written } := by
  obtain ⟨hs, hl⟩ := h.source_fits
  exact Command.parse_written hs hl h.destination_trimmed h.aligned h.problem_eq_none

end Command

end DirectoryScript
