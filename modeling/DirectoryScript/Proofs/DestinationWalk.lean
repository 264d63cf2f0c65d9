import DirectoryScript.Proofs.DestinationMeaning

namespace DirectoryScript

namespace Placement

variable {root : Directory} {home : Path} {source : Text} {steps : List Text}

theorem settle_means (hroot : root.Named fun name => isName name = true)
    (hhome : root.Resolves home) (hr : root.Resolves (home.after steps steps.length))
    (clear : ClearTo root home source steps steps.length) :
    Means root home source steps
      (settle root home source (home.after steps steps.length) source) := by
  obtain ⟨d, hd⟩ := Directory.resolves_iff.mp hr
  have hshown := Path.shown_inj (hroot.of_resolves hr) (hroot.of_resolves hhome)
  have hhas : d.has source = true ↔
      root.Resolves (home.after steps steps.length ++ [source]) :=
    Directory.has_iff_resolves_under hd
  simp only [settle, hd, hshown, and_true]
  split
  next he => exact .unfit clear (.home he)
  next hne =>
    split
    next ht => exact .unfit clear (.taken hne (hhas.mp ht))
    next hf => exact .placed clear (.into hr hne (mt hhas.mpr hf))

/-- A name that is there is entered, unless it is the last and has what is moved in it already. -/
theorem enter_means {i : Nat} {name : Text} {rest : List Text} {inside : Directory}
    (hstep : steps[i]? = some name) (hname : isName name = true)
    (hne : ¬ (home.after steps i = home ∧ name = source))
    (hlast : rest = [] ↔ i + 1 = steps.length)
    (hinside : root.at? (home.after steps i ++ [name]) = some inside)
    (clear : ClearTo root home source steps i)
    (onward : ClearTo root home source steps (i + 1) → Means root home source steps
      (walk root home source (home.after steps i ++ [name]) rest)) :
    Means root home source steps (if rest = [] ∧ inside.has source then .error .nameTaken
      else walk root home source (home.after steps i ++ [name]) rest) := by
  have hsource : inside.has source = true ↔
      root.Resolves (home.after steps i ++ [name] ++ [source]) :=
    Directory.has_iff_resolves_under hinside
  have hthere := Directory.resolves_of_at? hinside
  split
  next ht =>
    have htaken := Offence.taken hname hne (hlast.mp ht.1) (hsource.mp ht.2)
    exact .offended ⟨name, hstep, htaken⟩ clear
  next ht =>
    have hfree : i + 1 = steps.length →
        ¬ root.Resolves (home.after steps i ++ [name] ++ [source]) := by
      intro hl hs
      exact ht ⟨hlast.mpr hl, hsource.mpr hs⟩
    exact onward (clear.succ fun why =>
      not_offendsAt hstep (not_offence_name hname hne (fun _ => hthere) hfree))

/-- A name that is not there is a new name if it is the last. -/
theorem rename_means {i : Nat} {name : Text} {rest : List Text} (hstep : steps[i]? = some name)
    (hname : isName name = true) (hne : ¬ (home.after steps i = home ∧ name = source))
    (hlast : rest = [] ↔ i + 1 = steps.length)
    (hfree : ¬ root.Resolves (home.after steps i ++ [name]))
    (hsettle : settle root home source (home.after steps i) name =
      .ok ⟨home.after steps i, name⟩)
    (clear : ClearTo root home source steps i) :
    Means root home source steps
      (if rest = [] then settle root home source (home.after steps i) name
        else .error .notFound) := by
  split
  next hl =>
    have hend := hlast.mp hl
    have hclear := clear.succ fun why =>
      not_offendsAt hstep (not_offence_name hname hne (fun hn => absurd hend hn)
        fun _ hs => hfree (Directory.resolves_of_prefix (List.prefix_append _ _) hs))
    rw [hsettle]
    exact .placed (hclear.mono (by omega)) (.of_last hstep hname hend hfree)
  next hl =>
    have hmissing := Offence.missing hname hne (mt hlast.mpr hl) hfree
    exact .offended ⟨name, hstep, hmissing⟩ clear

theorem walk_name_means (hroot : root.Named fun name => isName name = true)
    (hhome : root.Resolves home) {i : Nat} {name : Text} {rest : List Text}
    (hstep : steps[i]? = some name) (hname : isName name = true)
    (hlast : rest = [] ↔ i + 1 = steps.length) (hr : root.Resolves (home.after steps i))
    (clear : ClearTo root home source steps i)
    (onward : root.Resolves (home.after steps (i + 1)) →
      ClearTo root home source steps (i + 1) →
        Means root home source steps (walk root home source (home.after steps (i + 1)) rest)) :
    Means root home source steps (walk root home source (home.after steps i) (name :: rest)) := by
  have hafter : home.after steps (i + 1) = home.after steps i ++ [name] := by
    rw [Path.after_succ hstep, Path.step_name hname]
  rw [hafter] at onward
  obtain ⟨d, hd⟩ := Directory.resolves_iff.mp hr
  have hshown := Path.shown_inj (hroot.of_resolves hr) (hroot.of_resolves hhome)
  rw [walk, if_neg (isName_ne_here hname), if_neg (isName_ne_above hname)]
  simp only [hd, hshown]
  split
  next he => exact .offended ⟨name, hstep, .intoSource he.1 he.2⟩ clear
  next hne =>
    split
    next inside hc =>
      have hinside : root.at? (home.after steps i ++ [name]) = some inside := by
        simp [Directory.at?_append, hd, Directory.at?_cons, hc]
      exact enter_means hstep hname hne hlast hinside clear
        (onward (Directory.resolves_of_at? hinside))
    next hc =>
      have hfree := (Directory.child?_eq_none_iff_under hd).mp hc
      have hsettle : settle root home source (home.after steps i) name =
          .ok ⟨home.after steps i, name⟩ := by
        simp [settle, hd, hshown, hne, Directory.has_eq_false_iff.mpr hc]
      exact rename_means hstep hname hne hlast hfree hsettle clear

/-- From wherever it has come without offence, the walk ends as the steps mean. -/
theorem walk_means (hroot : root.Named fun name => isName name = true)
    (hhome : root.Resolves home) (hsource : isName source = true)
    (hsteps : ∀ step ∈ steps, isStep step = true) {i : Nat} {rest : List Text}
    (hrest : steps.drop i = rest) (hr : root.Resolves (home.after steps i))
    (clear : ClearTo root home source steps i) :
    Means root home source steps (walk root home source (home.after steps i) rest) := by
  induction rest generalizing i with
  | nil =>
    have hi : steps.length ≤ i := List.drop_eq_nil_iff.mp hrest
    rw [Path.after_of_length_le hi] at hr ⊢
    exact settle_means hroot hhome hr (clear.mono hi)
  | cons step rest ih =>
    have hstep : steps[i]? = some step := by
      rw [← List.head?_drop, hrest, List.head?_cons]
    have hnext : steps.drop (i + 1) = rest := by
      rw [← List.drop_drop, hrest, List.drop_one, List.tail_cons]
    have hlast : rest = [] ↔ i + 1 = steps.length := by
      have hi : i < steps.length := (List.getElem?_eq_some_iff.mp hstep).1
      rw [← hnext, List.drop_eq_nil_iff]
      omega
    have hafter := Path.after_succ (p := home) hstep
    by_cases hhere : step = here
    · subst hhere
      rw [Path.step_here] at hafter
      have hc := clear.succ fun why => not_offendsAt hstep (not_offence_here hsource)
      simpa [walk, hafter] using ih hnext (by rwa [hafter]) hc
    · by_cases habove : step = above
      · subst habove
        rw [Path.step_above] at hafter
        rw [walk, if_neg hhere, if_pos rfl]
        split
        next hroot => exact .offended ⟨above, hstep, .aboveRoot rfl hroot⟩ clear
        next hne =>
          have hc := clear.succ fun why => not_offendsAt hstep (not_offence_above hsource hne)
          have hup := Directory.resolves_of_prefix (List.dropLast_prefix _) hr
          simpa [hafter] using ih hnext (by rwa [hafter]) hc
      · have hname := isName_of_isStep (hsteps step (List.mem_of_getElem? hstep)) hhere habove
        exact walk_name_means hroot hhome hstep hname hlast hr clear (ih hnext)

theorem resolve_means (hroot : root.Named fun name => isName name = true)
    (hhome : root.Resolves home) (hsource : isName source = true) (hne : steps ≠ [])
    (hsteps : ∀ step ∈ steps, isStep step = true) :
    Means root home source steps (resolve root home source (join pathSeparator steps)) := by
  rw [resolve, destinationSteps_join hne hsteps]
  have clear : ClearTo root home source steps 0 := fun j hj => absurd hj (Nat.not_lt_zero j)
  exact walk_means hroot hhome hsource hsteps (i := 0) rfl hhome clear

theorem resolve_ok_iff (hroot : root.Named fun name => isName name = true)
    (hhome : root.Resolves home) (hsource : isName source = true) (hne : steps ≠ [])
    (hsteps : ∀ step ∈ steps, isStep step = true) {target : Placement} :
    resolve root home source (join pathSeparator steps) = .ok target ↔
      Passable root home source steps ∧ Leads root home source steps target := by
  have hmeans := resolve_means hroot hhome hsource hne hsteps
  constructor
  · intro h
    rw [h] at hmeans
    cases hmeans with
    | placed clear hl => exact ⟨passable_of_clear hhome hsteps clear, hl⟩
  · rintro ⟨hp, hl⟩
    exact hmeans.unique hhome hsource (.placed (hl.clear hp) hl)

theorem resolve_error_iff (hroot : root.Named fun name => isName name = true)
    (hhome : root.Resolves home) (hsource : isName source = true) (hne : steps ≠ [])
    (hsteps : ∀ step ∈ steps, isStep step = true) {why : Refusal} :
    resolve root home source (join pathSeparator steps) = .error why ↔
      (∃ i, OffendsAt root home source steps i why ∧ ClearTo root home source steps i) ∨
      ClearTo root home source steps steps.length ∧ Unfit root home source steps why := by
  have hmeans := resolve_means hroot hhome hsource hne hsteps
  constructor
  · intro h
    rw [h] at hmeans
    cases hmeans with
    | offended ho hfirst => exact Or.inl ⟨_, ho, hfirst⟩
    | unfit clear hu => exact Or.inr ⟨clear, hu⟩
  · rintro (⟨i, ho, hfirst⟩ | ⟨clear, hu⟩)
    · exact hmeans.unique hhome hsource (.offended ho hfirst)
    · exact hmeans.unique hhome hsource (.unfit clear hu)

/-- A destination is resolved by the paths that its steps lead through. There is a placement when
every step can be taken and the end is fit; otherwise the first step that cannot be taken says
what is wrong, and without one the end does. -/
theorem resolve_follows_steps {root : Directory} {home : Path} {source : Text} {steps : List Text}
    (hroot : root.Named fun name => isName name = true) (hhome : root.Resolves home)
    (hsource : isName source = true) (hne : steps ≠ [])
    (hsteps : ∀ step ∈ steps, isStep step = true) :
    (∀ target, resolve root home source (join pathSeparator steps) = .ok target ↔
      Passable root home source steps ∧ Leads root home source steps target) ∧
    ∀ why, resolve root home source (join pathSeparator steps) = .error why ↔
      (∃ i, OffendsAt root home source steps i why ∧ ClearTo root home source steps i) ∨
      ClearTo root home source steps steps.length ∧ Unfit root home source steps why := by
  refine ⟨fun target => ?_, fun why => ?_⟩
  · exact resolve_ok_iff hroot hhome hsource hne hsteps
  · exact resolve_error_iff hroot hhome hsource hne hsteps

theorem resolve_passing_home_again :
    Passable (.entry ['a'] .empty (.entry ['s'] .empty .empty)) [] ['s']
        [['a'], above, ['a'], ['t']] ∧
      Leads (.entry ['a'] .empty (.entry ['s'] .empty .empty)) [] ['s']
        [['a'], above, ['a'], ['t']] ⟨[['a']], ['t']⟩ := by
  have hroot : (Directory.entry ['a'] .empty (.entry ['s'] .empty .empty)).Named
      fun name => isName name = true := by
    simp [Directory.Named, isName, isNameChar]
  have hsteps : ∀ step ∈ [['a'], above, ['a'], ['t']], isStep step = true := by decide
  have hhome := Directory.resolves_nil (.entry ['a'] .empty (.entry ['s'] .empty .empty))
  have hsource : isName ['s'] = true := rfl
  exact ((resolve_follows_steps hroot hhome hsource (by simp) hsteps).1 ⟨[['a']], ['t']⟩).mp rfl

end Placement

end DirectoryScript
