import DirectoryScript.Text

namespace DirectoryScript

/-- The names from the root down to a directory; the root itself is the empty path. -/
abbrev Path := List Text

def isNameChar (c : Char) : Bool := c.isAlphanum || c == '_'

/-- A directory name is one to six letters, digits or underscores, all of ASCII. -/
def isName (t : Text) : Bool := 1 ≤ t.length && t.length ≤ 6 && t.all isNameChar

def here : Text := ['.']

def above : Text := ['.', '.']

/-- A step of a destination stays, ascends or names a directory. -/
def isStep (t : Text) : Bool := t == here || t == above || isName t

def pathSeparator : Char := '\\'

def destinationSteps (destination : Text) : List Text := split pathSeparator destination

/-- How a path is shown. Two paths of odd names may look alike. -/
def Path.shown (p : Path) : Text := join pathSeparator ("root".toList :: p)

/-- A directory is its entries, in the order in which they were attached. -/
inductive Directory where
  | empty
  | entry (name : Text) (inside : Directory) (others : Directory)
deriving DecidableEq, Inhabited

namespace Directory

def names : Directory → List Text
  | empty => []
  | entry name _ others => name :: others.names

def child? : Directory → Text → Option Directory
  | empty, _ => none
  | entry name inside others, wanted => if name = wanted then some inside else others.child? wanted

def has (d : Directory) (name : Text) : Bool := (d.child? name).isSome

/-- The number of directories at any depth inside this one. -/
def descendants : Directory → Nat
  | empty => 0
  | entry _ inside others => 1 + inside.descendants + others.descendants

/-- Adds an entry after all others. -/
def place : Directory → Text → Directory → Directory
  | empty, name, inside => entry name inside empty
  | entry first content others, name, inside => entry first content (others.place name inside)

def without : Directory → Text → Directory
  | empty, _ => empty
  | entry first content others, name =>
    if first = name then others.without name else entry first content (others.without name)

/-- No name stands twice in this directory or in any one below it. -/
def Distinct : Directory → Prop
  | empty => True
  | entry name inside others => inside.Distinct ∧ others.Distinct ∧ name ∉ others.names

/-- Every name at every depth satisfies a condition. -/
def Named (p : Text → Prop) : Directory → Prop
  | empty => True
  | entry name inside others => p name ∧ inside.Named p ∧ others.Named p

theorem has_of_child? {d inside : Directory} {name : Text} (h : d.child? name = some inside) :
    d.has name = true := by
  simp [has, h]

theorem has_eq_false_iff {d : Directory} {name : Text} :
    d.has name = false ↔ d.child? name = none := by
  simp [has]

@[simp] theorem child?_empty (name : Text) : empty.child? name = none := rfl

@[simp] theorem descendants_empty : empty.descendants = 0 := rfl

theorem has_iff_mem_names (d : Directory) (name : Text) : d.has name = true ↔ name ∈ d.names := by
  induction d with
  | empty => simp [has, names]
  | entry first content others _ ih =>
    by_cases h : first = name
    · simp [has, child?, names, h]
    · simpa [has, child?, names, h, Ne.symm h] using ih

theorem child?_eq_none_iff {d : Directory} {name : Text} :
    d.child? name = none ↔ name ∉ d.names := by
  rw [← has_iff_mem_names, ← has_eq_false_iff, Bool.not_eq_true]

theorem child?_place_self {d : Directory} {name : Text} {inside : Directory}
    (h : d.child? name = none) : (d.place name inside).child? name = some inside := by
  induction d with
  | empty => simp [place, child?]
  | entry first content others _ ih =>
    have hne : first ≠ name := by
      intro he
      simp [child?, he] at h
    simpa [place, child?, hne] using ih (by simpa [child?, hne] using h)

theorem child?_place_of_ne {d : Directory} {name other : Text} {inside : Directory}
    (h : other ≠ name) : (d.place name inside).child? other = d.child? other := by
  induction d with
  | empty => simp [place, child?, Ne.symm h]
  | entry first content others _ ih =>
    simp only [place, child?]
    split
    · rfl
    · exact ih

@[simp] theorem names_place (d : Directory) (name : Text) (inside : Directory) :
    (d.place name inside).names = d.names ++ [name] := by
  induction d with
  | empty => rfl
  | entry first content others _ ih => rw [place, names, ih, names, List.cons_append]

theorem child?_without_self (d : Directory) (name : Text) :
    (d.without name).child? name = none := by
  induction d with
  | empty => rfl
  | entry first content others _ ih =>
    unfold without
    split
    · exact ih
    · simp [child?, *]

theorem child?_without_of_ne {d : Directory} {name other : Text} (h : other ≠ name) :
    (d.without name).child? other = d.child? other := by
  induction d with
  | empty => rfl
  | entry first content others _ ih =>
    unfold without
    split
    next he => simpa [child?, he, Ne.symm h] using ih
    next he =>
      simp only [child?]
      split
      · rfl
      · exact ih

theorem mem_names_without {d : Directory} {name other : Text} :
    other ∈ (d.without name).names ↔ other ∈ d.names ∧ other ≠ name := by
  induction d with
  | empty => simp [without, names]
  | entry first content others _ ih =>
    rw [without]
    split
    next h => rw [ih, names, List.mem_cons, h]; grind
    next h => rw [names, names, List.mem_cons, List.mem_cons, ih]; grind

theorem distinct_place {d inside : Directory} {name : Text} (hd : d.Distinct)
    (hi : inside.Distinct) (h : name ∉ d.names) : (d.place name inside).Distinct := by
  induction d with
  | empty => exact ⟨hi, trivial, by simp [names]⟩
  | entry first content others _ ih =>
    obtain ⟨hcontent, hothers, hfirst⟩ := hd
    rw [names, List.mem_cons, not_or] at h
    refine ⟨hcontent, ih hothers h.2, ?_⟩
    rw [names_place, List.mem_append, List.mem_singleton, not_or]
    exact ⟨hfirst, Ne.symm h.1⟩

theorem distinct_without {d : Directory} {name : Text} (hd : d.Distinct) :
    (d.without name).Distinct := by
  induction d with
  | empty => exact trivial
  | entry first content others _ ih =>
    obtain ⟨hcontent, hothers, hfirst⟩ := hd
    rw [without]
    split
    · exact ih hothers
    · exact ⟨hcontent, ih hothers, fun hm => hfirst (mem_names_without.mp hm).1⟩

end Directory

end DirectoryScript
