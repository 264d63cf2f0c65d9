import DirectoryScript.Proofs.DestinationWalk

namespace DirectoryScript

namespace Placement

variable {root : Directory} {home folder : Path} {source name : Text}

/-- The steps from a directory up to the root and from there down to a name in another. -/
def overRoot (home folder : Path) (name : Text) : List Text :=
  List.replicate home.length above ++ (folder ++ [name])

theorem after_overRoot_up {i : Nat} (h : i ≤ home.length) :
    home.after (overRoot home folder name) i = home.take (home.length - i) := by
  rw [overRoot, Path.after_append_left _ (by simpa using h), Path.after_ascent _ _ h]

theorem after_overRoot_down (h : ∀ t ∈ folder ++ [name], isName t = true) (i : Nat) :
    home.after (overRoot home folder name) (home.length + i) = (folder ++ [name]).take i := by
  have hroot : home.after (List.replicate home.length above) home.length = [] := by
    rw [Path.after_ascent _ _ (Nat.le_refl _), Nat.sub_self, List.take_zero]
  have hdown := Path.after_append_right home (List.replicate home.length above) (folder ++ [name]) i
  rw [List.length_replicate, hroot, Path.after_names _ h, List.nil_append] at hdown
  exact hdown

theorem overRoot_cases {i : Nat} {step : Text} (h : (overRoot home folder name)[i]? = some step) :
    (i < home.length ∧ step = above) ∨
      ∃ j, i = home.length + j ∧ (folder ++ [name])[j]? = some step := by
  by_cases hi : i < home.length
  · rw [overRoot, List.getElem?_append_left (by simpa using hi), List.getElem?_replicate,
      if_pos hi] at h
    exact Or.inl ⟨hi, (Option.some.inj h).symm⟩
  · rw [overRoot, List.getElem?_append_right (by simp; omega), List.length_replicate] at h
    exact Or.inr ⟨i - home.length, by omega, h⟩

theorem overRoot_isStep (h : ∀ t ∈ folder ++ [name], isName t = true) :
    ∀ step ∈ overRoot home folder name, isStep step = true := by
  intro step hm
  rcases List.mem_append.mp hm with hm | hm
  · rw [List.eq_of_mem_replicate hm]
    rfl
  · simp [isStep, h step hm]

theorem overRoot_ne_nil : overRoot home folder name ≠ [] := by simp [overRoot]

/-- Nothing on the way up stops a move, and on the way down only what is moved could. -/
theorem overRoot_passable (hhome : root.Resolves home) (hsource : isName source = true)
    (hnames : ∀ t ∈ folder ++ [name], isName t = true) (hfolder : root.Resolves folder)
    (hbeside : ¬ home ++ [source] <+: folder ++ [name]) :
    Passable root home source (overRoot home folder name) := by
  refine ⟨fun i hs he => ?_, fun i hs he => ?_, fun i hi => ?_⟩
  · rcases overRoot_cases hs with ⟨hi, _⟩ | ⟨j, rfl, hj⟩
    · rw [after_overRoot_up (Nat.le_of_lt hi)] at he
      have hl := congrArg List.length he
      rw [List.length_take, List.length_nil] at hl
      omega
    · exact isName_ne_above (hnames above (List.mem_of_getElem? hj)) rfl
  · rcases overRoot_cases hs with ⟨_, ha⟩ | ⟨j, rfl, hj⟩
    · exact isName_ne_above hsource ha
    · rw [after_overRoot_down hnames] at he
      apply hbeside
      have htake : (folder ++ [name]).take (j + 1) = home ++ [source] := by
        rw [List.take_add_one, he, hj]
        rfl
      rw [← htake]
      exact List.take_prefix _ _
  · by_cases hup : i ≤ home.length
    · rw [after_overRoot_up hup]
      exact Directory.resolves_of_prefix (List.take_prefix _ _) hhome
    · obtain ⟨j, rfl⟩ : ∃ j, i = home.length + j := ⟨i - home.length, by omega⟩
      have hj : j ≤ folder.length := by
        simp only [overRoot, List.length_append, List.length_replicate, List.length_singleton] at hi
        omega
      rw [after_overRoot_down hnames, List.take_append_of_le_length hj]
      exact Directory.resolves_of_prefix (List.take_prefix _ _) hfolder

theorem overRoot_leads (hnames : ∀ t ∈ folder ++ [name], isName t = true)
    (hfree : ¬ root.Resolves (folder ++ [name])) :
    Leads root home source (overRoot home folder name) ⟨folder, name⟩ := by
  have hlength : (overRoot home folder name).length = home.length + (folder ++ [name]).length := by
    simp [overRoot]
  have hlast : (overRoot home folder name).length - 1 = home.length + folder.length := by
    rw [hlength, List.length_append, List.length_singleton]
    omega
  have hend : home.after (overRoot home folder name) (overRoot home folder name).length =
      folder ++ [name] := by
    rw [hlength, after_overRoot_down hnames, List.take_length]
  have hfolder : home.after (overRoot home folder name)
      ((overRoot home folder name).length - 1) = folder := by
    rw [hlast, after_overRoot_down hnames, List.take_left]
  have hget : (overRoot home folder name).getLast? = some name := by simp [overRoot]
  have hleads : Leads root home source (overRoot home folder name) ⟨_, name⟩ :=
    .renamed hget (hnames name (by simp)) (by rwa [hend])
  rwa [hfolder] at hleads

/-- The way over the root leads to any free name that is not inside what is moved. -/
theorem resolve_overRoot (hroot : root.Named fun name => isName name = true)
    (hhome : root.Resolves home) (hsource : isName source = true)
    (hnames : ∀ t ∈ folder ++ [name], isName t = true) (hfolder : root.Resolves folder)
    (hfree : ¬ root.Resolves (folder ++ [name]))
    (hbeside : ¬ home ++ [source] <+: folder ++ [name]) :
    resolve root home source (join pathSeparator (overRoot home folder name)) =
      .ok ⟨folder, name⟩ := by
  apply (resolve_ok_iff hroot hhome hsource overRoot_ne_nil (overRoot_isStep hnames)).mpr
  exact ⟨overRoot_passable hhome hsource hnames hfolder hbeside, overRoot_leads hnames hfree⟩

end Placement

end DirectoryScript
