import DirectoryScript.Placement
import DirectoryScript.Proofs.StepPaths

namespace DirectoryScript

namespace Placement

section

variable (root : Directory) (home : Path) (source : Text) (steps : List Text)

/-- Why the walk along a destination cannot take a step from where it has come to. -/
inductive Offence (folder : Path) (step : Text) (last : Prop) : Refusal → Prop
  | aboveRoot : step = above → folder = [] → Offence folder step last .aboveRoot
  | intoSource : folder = home → step = source → Offence folder step last .illegalMove
  | missing : isName step = true → ¬ (folder = home ∧ step = source) → ¬ last →
      ¬ root.Resolves (folder ++ [step]) → Offence folder step last .notFound
  | taken : isName step = true → ¬ (folder = home ∧ step = source) → last →
      root.Resolves (folder ++ [step] ++ [source]) → Offence folder step last .nameTaken

def OffendsAt (i : Nat) (why : Refusal) : Prop :=
  ∃ step, steps[i]? = some step ∧
    Offence root home source (home.after steps i) step (i + 1 = steps.length) why

/-- No step before the `i`-th offends. -/
def ClearTo (i : Nat) : Prop := ∀ j < i, ∀ why, ¬ OffendsAt root home source steps j why

/-- No step ascends from the root or leads into what is moved, and every step is taken from a
directory. -/
structure Passable : Prop where
  belowRoot : ∀ i, steps[i]? = some above → home.after steps i ≠ []
  besideSource : ∀ i, steps[i]? = some source → home.after steps i ≠ home
  onTheWay : ∀ i < steps.length, root.Resolves (home.after steps i)

/-- The placement at the end of a destination: in the directory reached, or under a new name. -/
inductive Leads : Placement → Prop
  | into : root.Resolves (home.after steps steps.length) → home.after steps steps.length ≠ home →
      ¬ root.Resolves (home.after steps steps.length ++ [source]) →
      Leads ⟨home.after steps steps.length, source⟩
  | renamed {name : Text} : steps.getLast? = some name → isName name = true →
      ¬ root.Resolves (home.after steps steps.length) →
      Leads ⟨home.after steps (steps.length - 1), name⟩

/-- Why nothing can be placed where all steps have led. -/
inductive Unfit : Refusal → Prop
  | home : home.after steps steps.length = home → Unfit .illegalMove
  | taken : home.after steps steps.length ≠ home →
      root.Resolves (home.after steps steps.length ++ [source]) → Unfit .nameTaken

inductive Means : Except Refusal Placement → Prop
  | placed {target : Placement} : ClearTo root home source steps steps.length →
      Leads root home source steps target → Means (.ok target)
  | offended {i : Nat} {why : Refusal} : OffendsAt root home source steps i why →
      ClearTo root home source steps i → Means (.error why)
  | unfit {why : Refusal} : ClearTo root home source steps steps.length →
      Unfit root home source steps why → Means (.error why)

end

variable {root : Directory} {home : Path} {source : Text} {steps : List Text}

/-- A step offends in one way only. -/
theorem Offence.unique {folder : Path} {step : Text} {last : Prop} {why other : Refusal}
    (hsource : isName source = true) (h : Offence root home source folder step last why)
    (h' : Offence root home source folder step last other) : why = other := by
  have habove : above ≠ source := Ne.symm (isName_ne_above hsource)
  have hname : isName above = false := by decide
  cases h <;> cases h' <;> simp_all

theorem not_offence_here {folder : Path} {last : Prop} {why : Refusal}
    (hsource : isName source = true) : ¬ Offence root home source folder here last why := by
  intro h
  cases h with
  | aboveRoot he => exact absurd he (by decide)
  | intoSource _ he => exact isName_ne_here hsource he.symm
  | missing hn | taken hn => exact absurd hn (by decide)

theorem not_offence_above {folder : Path} {last : Prop} {why : Refusal}
    (hsource : isName source = true) (hfolder : folder ≠ []) :
    ¬ Offence root home source folder above last why := by
  intro h
  cases h with
  | aboveRoot _ he => exact hfolder he
  | intoSource _ he => exact isName_ne_above hsource he.symm
  | missing hn | taken hn => exact absurd hn (by decide)

/-- A name that leads out of what is moved offends only when it is missing on the way or taken at
the end. -/
theorem not_offence_name {folder : Path} {name : Text} {last : Prop} {why : Refusal}
    (hname : isName name = true) (hne : ¬ (folder = home ∧ name = source))
    (hmissing : ¬ last → root.Resolves (folder ++ [name]))
    (htaken : last → ¬ root.Resolves (folder ++ [name] ++ [source])) :
    ¬ Offence root home source folder name last why := by
  intro h
  cases h with
  | aboveRoot he => exact isName_ne_above hname he
  | intoSource hf hs => exact hne ⟨hf, hs⟩
  | missing _ _ hl hr => exact hr (hmissing hl)
  | taken _ _ hl hr => exact htaken hl hr

theorem not_offendsAt {i : Nat} {step : Text} {why : Refusal} (hs : steps[i]? = some step)
    (h : ¬ Offence root home source (home.after steps i) step (i + 1 = steps.length) why) :
    ¬ OffendsAt root home source steps i why := by
  rintro ⟨other, ho, hoff⟩
  cases Option.some.inj (hs.symm.trans ho)
  exact h hoff

theorem OffendsAt.lt_length {i : Nat} {why : Refusal} (h : OffendsAt root home source steps i why) :
    i < steps.length := by
  obtain ⟨step, hs, _⟩ := h
  exact (List.getElem?_eq_some_iff.mp hs).1

theorem ClearTo.succ {i : Nat} (clear : ClearTo root home source steps i)
    (h : ∀ why, ¬ OffendsAt root home source steps i why) :
    ClearTo root home source steps (i + 1) := by
  intro j hj why
  rcases Nat.lt_succ_iff_lt_or_eq.mp hj with hlt | rfl
  · exact clear j hlt why
  · exact h why

theorem ClearTo.mono {i j : Nat} (clear : ClearTo root home source steps j) (h : i ≤ j) :
    ClearTo root home source steps i :=
  fun k hk => clear k (Nat.lt_of_lt_of_le hk h)

theorem Leads.of_last {i : Nat} {name : Text} (hstep : steps[i]? = some name)
    (hname : isName name = true) (hend : i + 1 = steps.length)
    (hfree : ¬ root.Resolves (home.after steps i ++ [name])) :
    Leads root home source steps ⟨home.after steps i, name⟩ := by
  have hi : i = steps.length - 1 := by omega
  have hget : steps.getLast? = some name := by rw [List.getLast?_eq_getElem?, ← hi, hstep]
  have hafter : home.after steps steps.length = home.after steps i ++ [name] := by
    rw [← hend, Path.after_succ hstep, Path.step_name hname]
  have hrenamed : Leads root home source steps ⟨home.after steps (steps.length - 1), name⟩ :=
    .renamed hget hname (by rwa [hafter])
  rwa [← hi] at hrenamed

/-- A destination leads to one placement only. -/
theorem Leads.unique {target other : Placement} (h : Leads root home source steps target)
    (h' : Leads root home source steps other) : target = other := by
  cases h <;> cases h' <;> simp_all

theorem Leads.not_unfit {target : Placement} {why : Refusal} (hhome : root.Resolves home)
    (h : Leads root home source steps target) : ¬ Unfit root home source steps why := by
  intro hu
  cases h with
  | into _ hne hf =>
    cases hu with
    | home he => exact hne he
    | taken _ ht => exact hf ht
  | renamed _ _ hn =>
    cases hu with
    | home he => exact hn (by rwa [he])
    | taken _ ht => exact hn (Directory.resolves_of_prefix (List.prefix_append _ _) ht)

/-- There is one first step that offends. -/
theorem OffendsAt.first_unique (hsource : isName source = true) {i j : Nat} {why other : Refusal}
    (h : OffendsAt root home source steps i why) (hclear : ClearTo root home source steps i)
    (h' : OffendsAt root home source steps j other) (hclear' : ClearTo root home source steps j) :
    why = other := by
  rcases Nat.lt_trichotomy i j with hlt | rfl | hlt
  · exact absurd h (hclear' i hlt why)
  · obtain ⟨step, hs, ho⟩ := h
    obtain ⟨step', hs', ho'⟩ := h'
    cases Option.some.inj (hs.symm.trans hs')
    exact ho.unique hsource ho'
  · exact absurd h' (hclear j hlt other)

/-- The steps mean one result only. -/
theorem Means.unique (hhome : root.Resolves home) (hsource : isName source = true)
    {r r' : Except Refusal Placement} (h : Means root home source steps r)
    (h' : Means root home source steps r') : r = r' := by
  cases h with
  | placed clear hl =>
    cases h' with
    | placed _ hl' => rw [hl.unique hl']
    | offended ho _ => exact absurd ho (clear _ ho.lt_length _)
    | unfit _ hu => exact absurd hu (hl.not_unfit hhome)
  | offended ho hfirst =>
    cases h' with
    | placed clear _ => exact absurd ho (clear _ ho.lt_length _)
    | offended ho' hfirst' => rw [ho.first_unique hsource hfirst ho' hfirst']
    | unfit clear _ => exact absurd ho (clear _ ho.lt_length _)
  | unfit clear hu =>
    cases h' with
    | placed _ hl => exact absurd hu (hl.not_unfit hhome)
    | offended ho _ => exact absurd ho (clear _ ho.lt_length _)
    | unfit _ hu' => cases hu <;> cases hu' <;> simp_all

theorem passable_of_clear (hhome : root.Resolves home) (hsteps : ∀ step ∈ steps, isStep step = true)
    (clear : ClearTo root home source steps steps.length) :
    Passable root home source steps := by
  have not_offendsAt {i : Nat} {why : Refusal} : ¬ OffendsAt root home source steps i why :=
    fun h => clear i h.lt_length why h
  refine ⟨fun i hs he => ?_, fun i hs he => ?_, fun i hi => ?_⟩
  · exact not_offendsAt ⟨above, hs, .aboveRoot rfl he⟩
  · exact not_offendsAt ⟨source, hs, .intoSource he rfl⟩
  · induction i with
    | zero => exact hhome
    | succ i ih =>
      have hprevious := ih (by omega)
      obtain ⟨step, hs⟩ : ∃ step, steps[i]? = some step := ⟨steps[i], by simp⟩
      rw [Path.after_succ hs]
      by_cases hhere : step = here
      · rwa [hhere, Path.step_here]
      · by_cases habove : step = above
        · rw [habove, Path.step_above]
          exact Directory.resolves_of_prefix (List.dropLast_prefix _) hprevious
        · have hname := isName_of_isStep (hsteps step (List.mem_of_getElem? hs)) hhere habove
          rw [Path.step_name hname]
          apply Decidable.byContradiction
          intro hr
          by_cases hinto : home.after steps i = home ∧ step = source
          · exact not_offendsAt ⟨step, hs, .intoSource hinto.1 hinto.2⟩
          · exact not_offendsAt ⟨step, hs, .missing hname hinto (by omega) hr⟩

theorem Leads.clear {target : Placement} (h : Leads root home source steps target)
    (hp : Passable root home source steps) : ClearTo root home source steps steps.length := by
  rintro i hi why ⟨step, hs, ho⟩
  cases ho with
  | aboveRoot hstep he =>
    subst hstep
    exact hp.belowRoot i hs he
  | intoSource he hstep =>
    subst hstep
    exact hp.besideSource i hs he
  | missing hname _ hl hr =>
    have hnext := hp.onTheWay (i + 1) (by omega)
    rw [Path.after_succ hs, Path.step_name hname] at hnext
    exact hr hnext
  | taken hname _ hl ht =>
    have hend : home.after steps steps.length = home.after steps i ++ [step] := by
      rw [← hl, Path.after_succ hs, Path.step_name hname]
    rw [← hend] at ht
    cases h with
    | into _ _ hf => exact hf ht
    | renamed _ _ hn => exact hn (Directory.resolves_of_prefix (List.prefix_append _ _) ht)

end Placement

end DirectoryScript
