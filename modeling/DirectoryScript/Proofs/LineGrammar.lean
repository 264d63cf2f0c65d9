import DirectoryScript.Proofs.ParsedCommand
import DirectoryScript.Proofs.WrittenCommand

namespace DirectoryScript

/-- A line cut into its three columns. A column is short only at the end of the line. -/
structure Cut (line first second third : Text) : Prop where
  whole : line = first ++ second ++ third
  first_width : first.length = verbWidth ∨ first.length ≤ verbWidth ∧ second = [] ∧ third = []
  second_width : second.length = sourceWidth ∨ second.length ≤ sourceWidth ∧ third = []

/-- The columns of a line hold a verb, a source and a destination. -/
def LaidOut (line verb source destination : Text) : Prop :=
  ∃ first second third, Cut line first second third ∧
    Holds first verb ∧ Holds second source ∧ Holds third destination

/-- Steps with a separator between any two. -/
def IsRoute (destination : Text) : Prop :=
  ∃ steps, steps ≠ [] ∧ (∀ step ∈ steps, isStep step = true) ∧
    destination = join pathSeparator steps ∧ destinationSteps destination = steps

/-- What a verb may stand with. -/
structure Admits (v : Verb) (source destination : Text) : Prop where
  source : (v = .mkdir ∨ v = .cd ∨ v = .mv) ∧ isName source = true ∨
    (v = .dir ∨ v = .up ∨ v = .tree) ∧ Trimmed source
  destination : IsRoute destination ∨ v ≠ .mv ∧ destination = []

/-- The first rule that a verb, a source and a destination break. -/
inductive Breaks (verb source destination : Text) : Rejection → Prop
  | verb : (∀ v : Verb, v.word ≠ verb) → Breaks verb source destination .unknownVerb
  | noSource {v : Verb} : v.word = verb → (v = .mkdir ∨ v = .cd ∨ v = .mv) → source = [] →
      Breaks verb source destination .missingParameter
  | source {v : Verb} : v.word = verb → (v = .mkdir ∨ v = .cd ∨ v = .mv) → source ≠ [] →
      isName source = false → Breaks verb source destination .invalidSource
  | noDestination {v : Verb} : v.word = verb → isName source = true → v = .mv → destination = [] →
      Breaks verb source destination .missingParameter
  | destination {v : Verb} : v.word = verb →
      (v = .mkdir ∨ v = .cd ∨ v = .mv → isName source = true) → destination ≠ [] →
      ¬ IsRoute destination → Breaks verb source destination .invalidDestination

/-- The two widths leave no choice of where a line is cut. -/
theorem cut_iff {line first second third : Text} : Cut line first second third ↔
    first = line.take verbWidth ∧ second = (line.drop verbWidth).take sourceWidth ∧
      third = line.drop (verbWidth + sourceWidth) := by
  constructor
  · rintro ⟨rfl, hfirst, hsecond⟩
    rcases hfirst with hfirst | ⟨hfirst, rfl, rfl⟩
    · rw [List.append_assoc, List.take_left' hfirst, List.drop_left' hfirst]
      rw [← List.drop_drop, List.drop_left' hfirst]
      rcases hsecond with hsecond | ⟨hsecond, rfl⟩
      · rw [List.take_left' hsecond, List.drop_left' hsecond]
        exact ⟨rfl, rfl, rfl⟩
      · rw [List.append_nil, List.take_of_length_le hsecond, List.drop_eq_nil_of_le hsecond]
        exact ⟨rfl, rfl, rfl⟩
    · rw [List.append_nil, List.append_nil, List.take_of_length_le hfirst,
        List.drop_eq_nil_of_le hfirst, List.drop_eq_nil_of_le (by omega)]
      exact ⟨rfl, rfl, rfl⟩
  · rintro ⟨rfl, rfl, rfl⟩
    refine ⟨?_, ?_, ?_⟩
    · rw [List.append_assoc, ← List.drop_drop, List.take_append_drop, List.take_append_drop]
    · by_cases hlength : verbWidth ≤ line.length
      · exact Or.inl (List.length_take_of_le hlength)
      · have hsecond : line.drop verbWidth = [] := List.drop_eq_nil_of_le (by omega)
        refine Or.inr ⟨List.length_take_le _ _, ?_, List.drop_eq_nil_of_le (by omega)⟩
        rw [hsecond, List.take_nil]
    · by_cases hlength : verbWidth + sourceWidth ≤ line.length
      · apply Or.inl
        rw [List.length_take, List.length_drop]
        omega
      · exact Or.inr ⟨List.length_take_le _ _, List.drop_eq_nil_of_le (by omega)⟩

/-- The columns of a line hold trimmed values just when reading the columns finds them. -/
theorem laidOut_iff {line verb source destination : Text} (hv : Trimmed verb) (hs : Trimmed source)
    (hd : Trimmed destination) : LaidOut line verb source destination ↔
      Columns.ofLine line = ⟨verb, source, destination⟩ := by
  rw [Columns.ofLine, Columns.mk.injEq, trim_eq_iff, trim_eq_iff, trim_eq_iff]
  constructor
  · rintro ⟨first, second, third, hcut, hfirst, hsecond, hthird⟩
    obtain ⟨rfl, rfl, rfl⟩ := cut_iff.mp hcut
    exact ⟨⟨hfirst, hv⟩, ⟨hsecond, hs⟩, hthird, hd⟩
  · rintro ⟨⟨hfirst, _⟩, ⟨hsecond, _⟩, hthird, _⟩
    exact ⟨_, _, _, cut_iff.mpr ⟨rfl, rfl, rfl⟩, hfirst, hsecond, hthird⟩

theorem Columns.ofLine_trimmed (line : Text) : Trimmed (ofLine line).verb ∧
    Trimmed (ofLine line).source ∧ Trimmed (ofLine line).destination :=
  ⟨trimmed_trim _, trimmed_trim _, trimmed_trim _⟩

/-- Splitting a destination at the separators finds the steps that it is made of. -/
theorem isRoute_iff {destination : Text} : IsRoute destination ↔
    ∀ step ∈ destinationSteps destination, isStep step = true := by
  constructor
  · rintro ⟨steps, _, hsteps, _, he⟩
    rwa [he]
  · intro h
    exact ⟨destinationSteps destination, split_ne_nil _ _, h, (join_split _ _).symm, rfl⟩

theorem IsRoute.ne_nil {destination : Text} (h : IsRoute destination) : destination ≠ [] := by
  rintro rfl
  exact absurd (isRoute_iff.mp h [] (by simp [destinationSteps, split])) (by decide)

theorem Verb.takesSource_iff {v : Verb} :
    v.takesSource = true ↔ v = .mkdir ∨ v = .cd ∨ v = .mv := by
  cases v <;> simp [takesSource]

theorem Verb.takesDestination_iff {v : Verb} : v.takesDestination = true ↔ v = .mv := by
  cases v <;> simp [takesDestination]

/-- A verb is known by its word alone. -/
theorem Verb.ofWord?_eq_some_iff {t : Text} {v : Verb} : ofWord? t = some v ↔ v.word = t := by
  constructor
  · exact word_of_ofWord?
  · rintro rfl
    exact ofWord?_word v

theorem Verb.word_injective {v v' : Verb} (h : v.word = v'.word) : v = v' := by
  have hread := ofWord?_eq_some_iff.mpr h
  exact Option.some.inj (hread.symm.trans (ofWord?_word v'))

theorem Verb.ofWord?_eq_none_iff {t : Text} : ofWord? t = none ↔ ∀ v : Verb, v.word ≠ t := by
  constructor
  · intro h v he
    rw [ofWord?_eq_some_iff.mpr he] at h
    simp at h
  · intro h
    cases ho : ofWord? t with
    | none => rfl
    | some v => exact absurd (word_of_ofWord? ho) (h v)

theorem sourceProblem_eq_some_iff {source : Text} {why : Rejection} :
    sourceProblem source = some why ↔ source = [] ∧ why = .missingParameter ∨
      source ≠ [] ∧ isName source = false ∧ why = .invalidSource := by
  unfold sourceProblem
  split
  next he => simp [he, @eq_comm _ _ why]
  next he =>
    split
    next hn => simp [he, hn]
    next hn => simp [he, hn, @eq_comm _ _ why]

theorem destinationProblem_eq_some_iff {destination : Text} {why : Rejection} :
    destinationProblem destination = some why ↔
      ¬ IsRoute destination ∧ why = .invalidDestination := by
  rw [isRoute_iff, ← destinationProblem_eq_none_iff]
  unfold destinationProblem
  split <;> simp [@eq_comm _ _ why]

namespace Columns

variable {v : Verb} {columns : Columns} {why : Rejection}

theorem source_admitted_iff {source : Text} :
    (if v.takesSource = true then sourceProblem source else none) = none ↔
      (v = .mkdir ∨ v = .cd ∨ v = .mv → isName source = true) := by
  rw [← Verb.takesSource_iff]
  split
  next hv => simp [hv, sourceProblem_eq_none_iff]
  next hv => simp [hv]

theorem problem_eq_none_iff : columns.problem v = none ↔
    (v = .mkdir ∨ v = .cd ∨ v = .mv → isName columns.source = true) ∧
      (IsRoute columns.destination ∨ v ≠ .mv ∧ columns.destination = []) := by
  rw [problem, Option.or_eq_none_iff, source_admitted_iff]
  apply and_congr_right
  intro _
  split
  next hd =>
    have hroute : ¬ IsRoute columns.destination := fun h => h.ne_nil hd
    by_cases hv : v.takesDestination = true
    · rw [if_pos hv]
      simp [hroute, Verb.takesDestination_iff.mp hv]
    · rw [if_neg hv]
      simp [hd, Verb.takesDestination_iff.not.mp hv]
  next hd => simp [hd, destinationProblem_eq_none_iff, isRoute_iff]

theorem breaks_of_problem (h : columns.problem v = some why) :
    Breaks v.word columns.source columns.destination why := by
  rw [problem, Option.or_eq_some_iff, source_admitted_iff] at h
  rcases h with h | ⟨hsource, h⟩
  · split at h
    next hv =>
      have hneeds := Verb.takesSource_iff.mp hv
      rcases sourceProblem_eq_some_iff.mp h with ⟨he, rfl⟩ | ⟨hne, hn, rfl⟩
      · exact .noSource rfl hneeds he
      · exact .source rfl hneeds hne hn
    next => simp at h
  · split at h
    next hd =>
      split at h
      next hv =>
        have hmv := Verb.takesDestination_iff.mp hv
        cases Option.some.inj h
        exact .noDestination rfl (hsource (Or.inr (Or.inr hmv))) hmv hd
      next => simp at h
    next hd =>
      obtain ⟨hroute, rfl⟩ := destinationProblem_eq_some_iff.mp h
      exact .destination rfl hsource hd hroute

theorem problem_of_breaks (h : Breaks v.word columns.source columns.destination why) :
    columns.problem v = some why := by
  rw [problem, Option.or_eq_some_iff, source_admitted_iff]
  cases h with
  | verb h => exact absurd rfl (h v)
  | noSource hw hv he =>
    cases Verb.word_injective hw
    left
    rw [if_pos (Verb.takesSource_iff.mpr hv)]
    exact sourceProblem_eq_some_iff.mpr (Or.inl ⟨he, rfl⟩)
  | source hw hv hne hn =>
    cases Verb.word_injective hw
    left
    rw [if_pos (Verb.takesSource_iff.mpr hv)]
    exact sourceProblem_eq_some_iff.mpr (Or.inr ⟨hne, hn, rfl⟩)
  | noDestination hw hn hv hd =>
    cases Verb.word_injective hw
    right
    rw [if_pos hd, if_pos (Verb.takesDestination_iff.mpr hv)]
    exact ⟨fun _ => hn, rfl⟩
  | destination hw hs hd hroute =>
    cases Verb.word_injective hw
    right
    rw [if_neg hd]
    exact ⟨hs, destinationProblem_eq_some_iff.mpr ⟨hroute, rfl⟩⟩

/-- The checks of the fields find the first rule that is broken. -/
theorem problem_eq_some_iff : columns.problem v = some why ↔
    Breaks v.word columns.source columns.destination why :=
  ⟨breaks_of_problem, problem_of_breaks⟩

end Columns

/-- What goes with a verb, said of its source and its destination apart. -/
theorem admits_iff {v : Verb} {source destination : Text} (hs : Trimmed source) :
    Admits v source destination ↔ (v = .mkdir ∨ v = .cd ∨ v = .mv → isName source = true) ∧
      (IsRoute destination ∨ v ≠ .mv ∧ destination = []) := by
  constructor
  · rintro ⟨hsource, hdestination⟩
    refine ⟨fun hv => ?_, hdestination⟩
    rcases hsource with ⟨_, hn⟩ | ⟨hother, _⟩
    · exact hn
    · rcases hv with rfl | rfl | rfl <;> simp at hother
  · rintro ⟨hsource, hdestination⟩
    refine ⟨?_, hdestination⟩
    cases v with
    | mkdir | cd | mv => exact Or.inl ⟨by simp, hsource (by simp)⟩
    | dir | up | tree => exact Or.inr ⟨by simp, hs⟩

theorem Admits.trimmed {v : Verb} {source destination : Text} (h : Admits v source destination) :
    Trimmed source ∧ Trimmed destination := by
  constructor
  · rcases h.source with ⟨_, hn⟩ | ⟨_, hs⟩
    · exact trimmed_of_name hn
    · exact hs
  · rcases h.destination with hroute | ⟨_, hd⟩
    · exact trimmed_of_steps (isRoute_iff.mp hroute)
    · rw [hd]
      exact .of_forall (by simp)

namespace Command

/-- A rejection carries the line as it is and the first rule that it breaks. -/
theorem parse_eq_error_iff {line : Text} {rejected : RejectedLine} :
    parse line = .error rejected ↔ rejected.line = line ∧
      Breaks (Columns.ofLine line).verb (Columns.ofLine line).source
        (Columns.ofLine line).destination rejected.why := by
  constructor
  · intro h
    simp only [parse] at h
    split at h
    next hv =>
      cases Except.error.inj h
      exact ⟨rfl, .verb (Verb.ofWord?_eq_none_iff.mp hv)⟩
    next v hv =>
      split at h
      next hp =>
        cases Except.error.inj h
        rw [← Verb.word_of_ofWord? hv]
        exact ⟨rfl, Columns.problem_eq_some_iff.mp hp⟩
      next => simp at h
  · obtain ⟨found, why⟩ := rejected
    rintro ⟨rfl, h⟩
    cases hv : Verb.ofWord? (Columns.ofLine found).verb with
    | none =>
      have hunknown := Verb.ofWord?_eq_none_iff.mp hv
      cases h with
      | verb => simp [parse, hv]
      | noSource hw | source hw | noDestination hw | destination hw => exact absurd hw (hunknown _)
    | some v =>
      rw [← Verb.word_of_ofWord? hv, ← Columns.problem_eq_some_iff] at h
      simp [parse, hv, h]

/-- A line is a command exactly when its columns hold a verb and what goes with it. Any other
line breaks a rule, and is rejected with the line and the first rule it breaks, both of which the
message tells. -/
theorem parse_follows_grammar (line : Text) :
    (∀ c, parse line = .ok c ↔ c.line = line ∧
      LaidOut line c.verb.word c.source c.destination ∧ Admits c.verb c.source c.destination) ∧
    (∀ rejected, parse line = .error rejected ↔ rejected.line = line ∧
      ∃ verb source destination, LaidOut line verb source destination ∧
        Trimmed verb ∧ Trimmed source ∧ Trimmed destination ∧
        Breaks verb source destination rejected.why) ∧
    ∀ rejected, parse line = .error rejected → rejected.message =
      "Invalid input: ".toList ++ line ++ ". Reason: ".toList ++ rejected.why.text := by
  refine ⟨fun c => ?_, fun rejected => ?_, fun rejected h => ?_⟩
  · rw [parse_eq_ok_iff]
    apply and_congr_right
    intro _
    constructor
    · rintro ⟨hcolumns, hn⟩
      obtain ⟨hv, hs, hd⟩ := Columns.ofLine_trimmed line
      rw [hcolumns] at hv hs hd hn
      exact ⟨(laidOut_iff hv hs hd).mpr hcolumns,
        (admits_iff hs).mpr (Columns.problem_eq_none_iff.mp hn)⟩
    · rintro ⟨hlaid, hadmits⟩
      obtain ⟨hs, hd⟩ := hadmits.trimmed
      have hcolumns := (laidOut_iff (trimmed_of_name c.verb.isName_word) hs hd).mp hlaid
      refine ⟨hcolumns, ?_⟩
      rw [hcolumns]
      exact Columns.problem_eq_none_iff.mpr ((admits_iff hs).mp hadmits)
  · rw [parse_eq_error_iff]
    apply and_congr_right
    intro _
    constructor
    · intro h
      obtain ⟨hv, hs, hd⟩ := Columns.ofLine_trimmed line
      exact ⟨_, _, _, (laidOut_iff hv hs hd).mpr rfl, hv, hs, hd, h⟩
    · rintro ⟨verb, source, destination, hlaid, hv, hs, hd, h⟩
      rw [(laidOut_iff hv hs hd).mp hlaid]
      exact h
  · have hline : rejected.line = line := (parse_eq_error_iff.mp h).1
    rw [← hline]
    rfl

end Command

end DirectoryScript
