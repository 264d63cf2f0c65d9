import DirectoryScript.Command

namespace DirectoryScript

/-- The three columns of a script line, each without the blanks around it. -/
structure Columns where
  verb : Text
  source : Text
  destination : Text
deriving DecidableEq

def Columns.ofLine (line : Text) : Columns where
  verb := trim (line.take verbWidth)
  source := trim ((line.drop verbWidth).take sourceWidth)
  destination := trim (line.drop (verbWidth + sourceWidth))

/-- Why a line is no command. -/
inductive Rejection where
  | unknownVerb
  | missingParameter
  | invalidSource
  | invalidDestination
deriving DecidableEq

def Rejection.text : Rejection → Text
  | unknownVerb => "Invalid Command".toList
  | missingParameter => "Invalid additional parameters".toList
  | invalidSource => "Invalid source".toList
  | invalidDestination => "Invalid destination".toList

/-- A line that is no command, with the first rule that it breaks. -/
structure RejectedLine where
  line : Text
  why : Rejection
deriving DecidableEq

def RejectedLine.message (r : RejectedLine) : Text :=
  "Invalid input: ".toList ++ r.line ++ ". Reason: ".toList ++ r.why.text

def sourceProblem (source : Text) : Option Rejection :=
  if source = [] then some .missingParameter
  else if isName source then none
  else some .invalidSource

def destinationProblem (destination : Text) : Option Rejection :=
  if destination.head? = some pathSeparator ∨ destination.getLast? = some pathSeparator then
    some .invalidDestination
  else if (destinationSteps destination).all isStep then none
  else some .invalidDestination

theorem sourceProblem_eq_none_iff {source : Text} :
    sourceProblem source = none ↔ isName source = true := by
  by_cases hne : source = []
  · subst hne
    decide
  · by_cases hname : isName source = true <;> simp [sourceProblem, hne, hname]

/-- A separator at either end stands beside an empty step, which is no step. -/
theorem exists_bad_step_of_separator {destination : Text}
    (h : destination.head? = some pathSeparator ∨ destination.getLast? = some pathSeparator) :
    ∃ step ∈ destinationSteps destination, isStep step = false := by
  refine ⟨[], ?_, by decide⟩
  rcases h with hfirst | hlast
  · obtain ⟨rest, he⟩ := List.head?_eq_some_iff.mp hfirst
    simp [destinationSteps, he, split]
  · obtain ⟨front, he⟩ := List.getLast?_eq_some_iff.mp hlast
    have hsplit : destinationSteps destination = split pathSeparator front ++ [[]] := by
      rw [destinationSteps, he, split_append_split]
      rfl
    simp [hsplit]

/-- The look at the two ends refuses nothing that the look at every step would not refuse. -/
theorem destinationProblem_eq_none_iff {destination : Text} :
    destinationProblem destination = none ↔
      ∀ step ∈ destinationSteps destination, isStep step = true := by
  unfold destinationProblem
  split
  next hends =>
    obtain ⟨step, hstep, hbad⟩ := exists_bad_step_of_separator hends
    have hsome : ¬ ∀ step ∈ destinationSteps destination, isStep step = true := by
      intro hall
      simp [hall step hstep] at hbad
    simp [hsome]
  next => simp

/-- The first broken rule: the verb is known, the source and the destination that it takes
are there, and what is there is well formed. A destination counts with every verb, a source
only with those that take one. -/
def Columns.problem (v : Verb) (columns : Columns) : Option Rejection :=
  (if v.takesSource then sourceProblem columns.source else none).or
    (if columns.destination = [] then
      if v.takesDestination then some .missingParameter else none
    else destinationProblem columns.destination)

def Command.parse (line : Text) : Except RejectedLine Command :=
  let columns := Columns.ofLine line
  match Verb.ofWord? columns.verb with
  | none => .error ⟨line, .unknownVerb⟩
  | some v =>
    match columns.problem v with
    | some problem => .error ⟨line, problem⟩
    | none => .ok ⟨v, columns.source, columns.destination, line⟩

end DirectoryScript
