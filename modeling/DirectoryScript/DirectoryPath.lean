import DirectoryScript.Directory

namespace DirectoryScript

/-- Where the walk along a path ends early: the path walked and the name that is not there. -/
structure Missing where
  under : Path
  name : Text
deriving DecidableEq

namespace Directory

def locate : Directory → Path → Except Missing Directory
  | d, [] => .ok d
  | d, name :: rest =>
    match d.child? name with
    | none => .error ⟨[], name⟩
    | some inside => (inside.locate rest).mapError fun m => ⟨name :: m.under, m.name⟩

def at? (d : Directory) (p : Path) : Option Directory := (d.locate p).toOption

/-- Changes the directory at a path and leaves all others alone. -/
def change (f : Directory → Directory) : Directory → Path → Directory
  | d, [] => f d
  | empty, _ :: _ => empty
  | entry first content others, name :: rest =>
    if first = name then entry first (content.change f rest) others
    else entry first content (others.change f (name :: rest))

@[simp] theorem at?_nil (d : Directory) : d.at? [] = some d := rfl

theorem at?_cons (d : Directory) (name : Text) (rest : Path) :
    d.at? (name :: rest) = (d.child? name).bind fun inside => inside.at? rest := by
  cases h : d.child? name with
  | none => simp [at?, locate, h, Except.toOption]
  | some inside =>
    have hl : d.locate (name :: rest) =
        (inside.locate rest).mapError fun m => ⟨name :: m.under, m.name⟩ := by
      simp [locate, h]
    rw [at?, hl, Option.bind_some, at?]
    cases inside.locate rest <;> rfl

theorem at?_cons_eq_some_iff {d inside : Directory} {name : Text} {rest : Path} :
    d.at? (name :: rest) = some inside ↔
      ∃ content, d.child? name = some content ∧ content.at? rest = some inside := by
  rw [at?_cons, Option.bind_eq_some_iff]

theorem at?_append (d : Directory) (p q : Path) :
    d.at? (p ++ q) = (d.at? p).bind fun inside => inside.at? q := by
  induction p generalizing d with
  | nil => simp
  | cons name rest ih =>
    rw [List.cons_append, at?_cons, at?_cons]
    cases d.child? name <;> simp [ih]

theorem child?_change_self (f : Directory → Directory) (d : Directory) (name : Text) (rest : Path) :
    (d.change f (name :: rest)).child? name =
      (d.child? name).map fun inside => inside.change f rest := by
  induction d with
  | empty => rfl
  | entry first content others _ ih =>
    rw [change]
    split
    next h => simp [child?, h]
    next h => simpa [child?, h] using ih

theorem child?_change_of_ne {f : Directory → Directory} {d : Directory} {name other : Text}
    {rest : Path} (h : other ≠ name) :
    (d.change f (name :: rest)).child? other = d.child? other := by
  induction d with
  | empty => rfl
  | entry first content others _ ih =>
    rw [change]
    split
    next he => simp [child?, he, Ne.symm h]
    next he =>
      simp only [child?]
      split
      · rfl
      · exact ih

/-- Below the path of a change stands what the change makes of the directory there. -/
theorem at?_change_append {f : Directory → Directory} {d inside : Directory} {p : Path}
    (h : d.at? p = some inside) (q : Path) : (d.change f p).at? (p ++ q) = (f inside).at? q := by
  induction p generalizing d with
  | nil =>
    cases Option.some.inj h
    simp [change]
  | cons name rest ih =>
    obtain ⟨content, hc, hr⟩ := at?_cons_eq_some_iff.mp h
    rw [List.cons_append, at?_cons, child?_change_self, hc]
    exact ih hr

theorem at?_change_self {d inside : Directory} {p : Path} (h : d.at? p = some inside)
    (f : Directory → Directory) : (d.change f p).at? p = some (f inside) := by
  simpa using at?_change_append (f := f) h []

/-- A change adds and removes nothing that is not at its path or below it. -/
theorem at?_change_isSome_of_not_below {f : Directory → Directory} {d : Directory} {p q : Path}
    (h : ¬ p <+: q) : ((d.change f p).at? q).isSome = (d.at? q).isSome := by
  induction p generalizing d q with
  | nil => exact absurd (List.nil_prefix) h
  | cons name rest ih =>
    cases q with
    | nil => rfl
    | cons other q =>
      rw [at?_cons, at?_cons]
      by_cases he : other = name
      · subst other
        rw [child?_change_self]
        cases hc : d.child? name with
        | none => rfl
        | some content =>
          exact ih fun hp => h (List.cons_prefix_cons.mpr ⟨rfl, hp⟩)
      · rw [child?_change_of_ne he]

end Directory

end DirectoryScript
