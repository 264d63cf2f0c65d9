import DirectoryScript.DirectoryEdit

namespace DirectoryScript

theorem Path.not_below_self (p : Path) (name : Text) : ¬ p ++ [name] <+: p := by
  intro h
  have hl := h.length_le
  simp only [List.length_append, List.length_singleton] at hl
  omega

/-- A path with one name more that is at or below an entry is that entry, or was below it already.
-/
theorem Path.below_concat {home folder : Path} {source name : Text}
    (h : home ++ [source] <+: folder ++ [name]) :
    (folder = home ∧ name = source) ∨ home ++ [source] <+: folder := by
  rcases List.prefix_concat_iff.mp h with he | h
  · obtain ⟨hh, hn⟩ := List.append_inj' he rfl
    exact Or.inl ⟨hh.symm, (List.cons.inj hn).1.symm⟩
  · exact Or.inr h

namespace Directory

theorem at?_eq_some_iff {d inside : Directory} {p : Path} :
    d.at? p = some inside ↔ d.locate p = .ok inside := by
  unfold at?
  cases d.locate p <;> simp [Except.toOption]

/-- A path resolves when every name on it is an entry of the directory before it. -/
def Resolves (d : Directory) (p : Path) : Prop := (d.at? p).isSome = true

instance (d : Directory) (p : Path) : Decidable (d.Resolves p) :=
  inferInstanceAs (Decidable (_ = true))

theorem resolves_iff {d : Directory} {p : Path} :
    d.Resolves p ↔ ∃ inside, d.at? p = some inside := Option.isSome_iff_exists

theorem resolves_of_at? {d inside : Directory} {p : Path} (h : d.at? p = some inside) :
    d.Resolves p := resolves_iff.mpr ⟨inside, h⟩

theorem not_resolves_iff {d : Directory} {p : Path} : ¬ d.Resolves p ↔ d.at? p = none := by
  simp [Resolves]

theorem not_resolves_of_locate {d : Directory} {p : Path} {missing : Missing}
    (h : d.locate p = .error missing) : ¬ d.Resolves p := by
  rw [not_resolves_iff]
  simp [at?, h, Except.toOption]

theorem locate_of_not_resolves {d : Directory} {p : Path} (h : ¬ d.Resolves p) :
    ∃ missing, d.locate p = .error missing := by
  rw [not_resolves_iff, at?] at h
  cases hl : d.locate p with
  | error missing => exact ⟨missing, rfl⟩
  | ok inside => simp [hl, Except.toOption] at h

@[simp] theorem resolves_nil (d : Directory) : d.Resolves [] := rfl

/-- A path beyond a directory resolves as the rest of it does from there. -/
theorem resolves_append {d inside : Directory} {p : Path} (h : d.at? p = some inside) (q : Path) :
    d.Resolves (p ++ q) ↔ inside.Resolves q := by
  simp [Resolves, at?_append, h]

theorem resolves_cons {d : Directory} {name : Text} {rest : Path} :
    d.Resolves (name :: rest) ↔ ∃ inside, d.child? name = some inside ∧ inside.Resolves rest := by
  cases h : d.child? name <;> simp [Resolves, at?_cons, h]

/-- Every directory on the way to one that resolves resolves. -/
theorem resolves_of_prefix {d : Directory} {p q : Path} (hp : p <+: q) (h : d.Resolves q) :
    d.Resolves p := by
  obtain ⟨rest, rfl⟩ := hp
  obtain ⟨inside, hi⟩ := resolves_iff.mp h
  rw [at?_append] at hi
  obtain ⟨middle, hm, _⟩ := Option.bind_eq_some_iff.mp hi
  exact resolves_of_at? hm

theorem has_iff_resolves {d : Directory} {name : Text} : d.has name = true ↔ d.Resolves [name] := by
  rw [resolves_cons]
  simp [has, Option.isSome_iff_exists]

theorem has_iff_resolves_under {d inside : Directory} {p : Path} {name : Text}
    (h : d.at? p = some inside) : inside.has name = true ↔ d.Resolves (p ++ [name]) := by
  rw [resolves_append h, has_iff_resolves]

theorem resolves_of_child? {d inside content : Directory} {p : Path} {name : Text}
    (h : d.at? p = some inside) (hc : inside.child? name = some content) :
    d.Resolves (p ++ [name]) :=
  (has_iff_resolves_under h).mp (has_of_child? hc)

theorem child?_eq_none_iff_under {d inside : Directory} {p : Path} {name : Text}
    (h : d.at? p = some inside) : inside.child? name = none ↔ ¬ d.Resolves (p ++ [name]) := by
  rw [← has_eq_false_iff, ← has_iff_resolves_under h, Bool.not_eq_true]

theorem exists_has_of_resolves {d : Directory} {p : Path} {name : Text}
    (h : d.Resolves (p ++ [name])) : ∃ inside, d.at? p = some inside ∧ inside.has name = true := by
  have hp : d.Resolves p := resolves_of_prefix (List.prefix_append p [name]) h
  obtain ⟨inside, hi⟩ := resolves_iff.mp hp
  exact ⟨inside, hi, (has_iff_resolves_under hi).mpr h⟩

/-- Without an entry the paths through it are gone. -/
theorem resolves_without {d : Directory} {name : Text} {p : Path} :
    (d.without name).Resolves p ↔ d.Resolves p ∧ ¬ [name] <+: p := by
  cases p with
  | nil => simp
  | cons first rest =>
    simp only [resolves_cons, List.cons_prefix_cons, List.nil_prefix, and_true]
    by_cases he : first = name
    · subst first
      simp [child?_without_self]
    · simp [child?_without_of_ne he, Ne.symm he]

/-- An entry more under a free name adds its own paths, wherever it stands among the others. -/
theorem resolves_of_added {d grown inside : Directory} {name : Text} {p : Path}
    (h : d.child? name = none) (hself : grown.child? name = some inside)
    (hother : ∀ other, other ≠ name → grown.child? other = d.child? other) :
    grown.Resolves p ↔ d.Resolves p ∨ ∃ rest, p = name :: rest ∧ inside.Resolves rest := by
  cases p with
  | nil => simp
  | cons first rest =>
    by_cases he : first = name
    · subst first
      simp [resolves_cons, hself, h]
    · simp [resolves_cons, hother first he, he]

theorem resolves_place {d inside : Directory} {name : Text} {p : Path}
    (h : d.child? name = none) : (d.place name inside).Resolves p ↔
      d.Resolves p ∨ ∃ rest, p = name :: rest ∧ inside.Resolves rest :=
  resolves_of_added h (child?_place_self h) fun _ => child?_place_of_ne

/-- What a change at a path makes of the paths that resolve. -/
theorem resolves_change {f : Directory → Directory} {d inside : Directory} {p q : Path}
    (h : d.at? p = some inside) : (d.change f p).Resolves q ↔
      (¬ p <+: q ∧ d.Resolves q) ∨ ∃ rest, q = p ++ rest ∧ (f inside).Resolves rest := by
  by_cases hp : p <+: q
  · obtain ⟨rest, rfl⟩ := hp
    simp [Resolves, at?_change_append h]
  · have hne : ∀ rest, q ≠ p ++ rest := fun rest he => hp ⟨rest, he.symm⟩
    simp [Resolves, at?_change_isSome_of_not_below hp, hp, hne]

/-- Detaching an entry takes away what is at it or below it, and nothing else. -/
theorem resolves_detach {d inside : Directory} {p q : Path} {name : Text}
    (h : d.at? p = some inside) : (d.change (fun _ => inside.without name) p).Resolves q ↔
      d.Resolves q ∧ ¬ p ++ [name] <+: q := by
  rw [resolves_change h]
  by_cases hp : p <+: q
  · obtain ⟨rest, rfl⟩ := hp
    simp [resolves_without, resolves_append h, List.prefix_append_right_inj]
  · have hne : ∀ rest, q ≠ p ++ rest := fun rest he => hp ⟨rest, he.symm⟩
    have hn : ¬ p ++ [name] <+: q := fun hq => hp ((List.prefix_append p [name]).trans hq)
    simp [hp, hne, hn]

/-- Attaching under a free name adds what comes with the entry, and nothing else. -/
theorem resolves_attach {d inside moved : Directory} {p q : Path} {name : Text}
    (h : d.at? p = some inside) (hf : inside.child? name = none) :
    (d.change (fun _ => inside.place name moved) p).Resolves q ↔
      d.Resolves q ∨ ∃ rest, q = p ++ name :: rest ∧ moved.Resolves rest := by
  rw [resolves_change h]
  by_cases hp : p <+: q
  · obtain ⟨rest, rfl⟩ := hp
    simp [resolves_place hf, resolves_append h]
  · have hne : ∀ rest, q ≠ p ++ rest := fun rest he => hp ⟨rest, he.symm⟩
    simp [hp, hne]

end Directory

end DirectoryScript
