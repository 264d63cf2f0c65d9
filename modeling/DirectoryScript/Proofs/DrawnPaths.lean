import DirectoryScript.Proofs.SamePaths
import Mathlib.Logic.Basic

namespace DirectoryScript

namespace Directory

/-- The paths of the directories inside, each before those that are below it. -/
def paths : Directory → List Path
  | empty => []
  | entry name inside others => [name] :: inside.paths.map (name :: ·) ++ others.paths

/-- No name beside the last one of a path is greater. -/
def EndsLast (d : Directory) (p : Path) : Prop :=
  ∀ other, d.Resolves (p.dropLast ++ [other]) → ¬ p.getLastD [] < other

variable {d inside others : Directory} {name other : Text} {p q : Path}

theorem endsLast_iff : d.EndsLast p ↔
    ∀ other ∈ ((d.at? p.dropLast).map names).getD [], ¬ p.getLastD [] < other := by
  cases ha : d.at? p.dropLast with
  | none =>
    have hnone (other : Text) : ¬ d.Resolves (p.dropLast ++ [other]) := by
      intro hr
      have hplaced := resolves_of_prefix (List.prefix_append _ _) hr
      exact not_resolves_iff.mpr ha hplaced
    simp [EndsLast, hnone]
  | some inside =>
    simp only [EndsLast, resolves_append ha, ← has_iff_resolves, has_iff_mem_names,
      Option.map_some, Option.getD_some]

instance (d : Directory) (p : Path) : Decidable (d.EndsLast p) :=
  decidable_of_iff' _ endsLast_iff

/-- What stands beside the directories below a path. -/
def guide (d : Directory) (p : Path) : Text := if d.EndsLast p then gap else bar

/-- What stands in front of the last name of a path. -/
def branch (d : Directory) (p : Path) : Text := if d.EndsLast p then corner else tee

/-- The line of a path: after the margin a guide for every directory on the way, then the branch
and the name. -/
def lineOf (d : Directory) (margin : Text) (p : Path) : Text :=
  margin ++ ((List.range (p.length - 1)).flatMap fun i => d.guide (p.take (i + 1))) ++ d.branch p ++
    p.getLastD []

/-- The paths listed are those that resolve, but for the empty one. -/
theorem mem_paths (h : d.Ordered) : p ∈ d.paths ↔ p ≠ [] ∧ d.Resolves p := by
  induction d generalizing p with
  | empty => cases p <;> simp [paths, resolves_cons]
  | entry name inside others ihinside ihothers =>
    rw [paths, List.cons_append, List.mem_cons, List.mem_append, List.mem_map,
      ihothers h.2.1]
    cases p with
    | nil => simp
    | cons first rest =>
      by_cases hfirst : first = name
      · subst hfirst
        rw [resolves_entry_self]
        by_cases hrest : rest = []
        · simp [hrest]
        · simp [ihinside h.1, hrest, h.not_resolves_again]
      · simp [resolves_entry_of_ne hfirst, hfirst, Ne.symm hfirst]

theorem paths_head (h : d.Ordered) (hp : p ∈ d.paths) :
    ∃ first rest, p = first :: rest ∧ first ∈ d.names := by
  obtain ⟨hne, hr⟩ := (mem_paths h).mp hp
  obtain ⟨first, rest, rfl⟩ := List.exists_cons_of_ne_nil hne
  exact ⟨first, rest, rfl, mem_names_of_resolves hr⟩

/-- Names ascend in every directory, so the paths ascend too, each before its extensions. -/
theorem paths_ascend (h : d.Ordered) : d.paths.Pairwise (· < ·) := by
  induction d with
  | empty => exact .nil
  | entry name inside others ihinside ihothers =>
    have hlater {rest : Path} : ∀ p ∈ others.paths, name :: rest < p := by
      intro p hp
      obtain ⟨first, more, rfl, hm⟩ := paths_head h.2.1 hp
      exact List.Lex.rel (h.2.2 first hm)
    rw [paths, List.cons_append]
    apply List.pairwise_cons.mpr
    constructor
    · intro p hp
      rcases List.mem_append.mp hp with hp | hp
      · obtain ⟨q, hq, rfl⟩ := List.mem_map.mp hp
        obtain ⟨first, rest, rfl, _⟩ := paths_head h.1 hq
        exact List.Lex.cons List.Lex.nil
      · exact hlater p hp
    · apply List.pairwise_append.mpr
      refine ⟨?_, ihothers h.2.1, ?_⟩
      · exact (ihinside h.1).map _ fun p q hlt => List.Lex.cons hlt
      · intro p hp
        obtain ⟨q, _, rfl⟩ := List.mem_map.mp hp
        exact hlater

theorem endsLast_first (h : (entry name inside others).Ordered) :
    (entry name inside others).EndsLast [name] ↔ others = empty := by
  constructor
  · intro hlast
    cases others with
    | empty => rfl
    | entry next content more =>
      have hnext : next ∈ (entry name inside (entry next content more)).names := by simp [names]
      exact absurd (h.2.2 next (by simp [names])) (hlast next (resolves_of_mem_names hnext))
  · rintro rfl other hr
    have hother : other = name := by simpa [names] using mem_names_of_resolves hr
    rw [hother]
    exact List.lt_irrefl name

theorem endsLast_inside (hp : p ≠ []) :
    (entry name inside others).EndsLast (name :: p) ↔ inside.EndsLast p := by
  obtain ⟨first, rest, rfl⟩ := List.exists_cons_of_ne_nil hp
  simp only [EndsLast, List.dropLast_cons_of_ne_nil hp, List.cons_append, resolves_entry_self,
    List.getLastD_cons]

theorem endsLast_others (h : (entry name inside others).Ordered) (hm : other ∈ others.names) :
    (entry name inside others).EndsLast (other :: p) ↔ others.EndsLast (other :: p) := by
  have hlt := h.2.2 other hm
  have hne : other ≠ name := by
    rintro rfl
    exact List.lt_irrefl _ hlt
  cases p with
  | nil =>
    constructor
    · intro hlast last hr
      have hlastname : last ≠ name := by
        rintro rfl
        exact h.not_resolves_again hr
      exact hlast last ((resolves_entry_of_ne hlastname).mpr hr)
    · intro hlast last hr
      by_cases hfirst : last = name
      · rw [hfirst]
        exact List.lt_asymm hlt
      · exact hlast last ((resolves_entry_of_ne hfirst).mp hr)
  | cons next rest =>
    simp only [EndsLast, List.dropLast_cons_cons, List.cons_append, resolves_entry_of_ne hne]

theorem lineOf_first (h : (entry name inside others).Ordered) (margin : Text) :
    (entry name inside others).lineOf margin [name] =
      margin ++ (if others = empty then corner else tee) ++ name := by
  simp [lineOf, branch, endsLast_first h]

theorem lineOf_inside (h : (entry name inside others).Ordered) (margin : Text) (hp : p ≠ []) :
    (entry name inside others).lineOf margin (name :: p) =
      inside.lineOf (margin ++ if others = empty then gap else bar) p := by
  have hfirst : (entry name inside others).guide [name] = if others = empty then gap else bar :=
    if_congr (endsLast_first h) rfl rfl
  have hguide (q : Path) (hq : q ≠ []) :
      (entry name inside others).guide (name :: q) = inside.guide q :=
    if_congr (endsLast_inside hq) rfl rfl
  have hbranch : (entry name inside others).branch (name :: p) = inside.branch p :=
    if_congr (endsLast_inside hp) rfl rfl
  obtain ⟨next, rest, rfl⟩ := List.exists_cons_of_ne_nil hp
  have hguides : ((List.range (rest.length + 1)).flatMap fun i =>
      (entry name inside others).guide ((name :: next :: rest).take (i + 1))) =
        (if others = empty then gap else bar) ++
          (List.range rest.length).flatMap fun i => inside.guide ((next :: rest).take (i + 1)) := by
    rw [List.range_succ_eq_map, List.flatMap_cons, List.flatMap_map]
    simp [hfirst, hguide]
  simp only [lineOf, hbranch, List.length_cons, Nat.add_sub_cancel, hguides, List.append_assoc,
    List.getLastD_cons]

theorem lineOf_others (h : (entry name inside others).Ordered) (margin : Text)
    (hm : other ∈ others.names) :
    (entry name inside others).lineOf margin (other :: p) = others.lineOf margin (other :: p) := by
  have hguide (q : Path) : (entry name inside others).guide (other :: q) =
      others.guide (other :: q) := if_congr (endsLast_others h hm) rfl rfl
  have hbranch : (entry name inside others).branch (other :: p) = others.branch (other :: p) :=
    if_congr (endsLast_others h hm) rfl rfl
  simp only [lineOf, hguide, hbranch, List.take_succ_cons]

/-- The lines of a drawing are the lines of the paths. -/
theorem drawEntries_eq_map_paths (h : d.Ordered) (margin : Text) :
    d.drawEntries margin = d.paths.map (d.lineOf margin) := by
  induction d generalizing margin with
  | empty => rfl
  | entry name inside others ihinside ihothers =>
    have hinside : ∀ p ∈ inside.paths, (entry name inside others).lineOf margin (name :: p) =
        inside.lineOf (margin ++ if others = empty then gap else bar) p := fun p hp =>
      lineOf_inside h margin ((mem_paths h.1).mp hp).1
    have hothers : ∀ p ∈ others.paths, (entry name inside others).lineOf margin p =
        others.lineOf margin p := by
      intro p hp
      obtain ⟨first, rest, rfl, hm⟩ := paths_head h.2.1 hp
      exact lineOf_others h margin hm
    rw [drawEntries_entry, ihinside h.1, ihothers h.2.1, paths, List.map_append, List.map_cons,
      List.map_map, lineOf_first h, List.map_congr_left hothers]
    rw [← List.map_congr_left hinside]
    rfl

/-- In an ordered directory the last entry is the one with the greatest name. -/
theorem drawEntries_eq_flatMap (h : d.Ordered) (margin : Text) :
    d.drawEntries margin = d.names.flatMap fun name =>
      let last := d.names.getLast? = some name
      (margin ++ (if last then corner else tee) ++ name) ::
        ((d.child? name).getD empty).drawEntries (margin ++ if last then gap else bar) := by
  induction d with
  | empty => rfl
  | entry first inside others _ ih =>
    have hfirst : (entry first inside others).names.getLast? = some first ↔ others = empty := by
      cases others with
      | empty => simp [names]
      | entry next content more =>
        have hmem := List.mem_of_getLast? (l := next :: more.names) (a := first)
        have hne : first ∉ next :: more.names := fun hm => List.lt_irrefl first (h.2.2 first hm)
        simp only [names, List.getLast?_cons_cons, reduceCtorEq, iff_false]
        exact fun hlast => hne (hmem hlast)
    have hlast (name : Text) (hm : name ∈ others.names) :
        ((entry first inside others).names.getLast? = some name ↔
          others.names.getLast? = some name) := by
      obtain ⟨next, more, hnames⟩ := List.exists_cons_of_ne_nil (List.ne_nil_of_mem hm)
      rw [names, hnames, List.getLast?_cons_cons]
    have hother (name : Text) (hm : name ∈ others.names) :
        (entry first inside others).child? name = others.child? name := by
      have hne : first ≠ name := fun he => List.lt_irrefl first (h.2.2 first (he ▸ hm))
      rw [child?, if_neg hne]
    have hself : (entry first inside others).child? first = some inside := by simp [child?]
    rw [drawEntries_entry, ih h.2.1]
    show _ = List.flatMap _ (first :: others.names)
    rw [List.flatMap_cons, List.flatMap_def, List.flatMap_def]
    congr 1
    · simp only [hfirst, hself, Option.getD_some]
    · congr 1
      apply List.map_congr_left
      intro name hm
      simp only [hlast name hm, hother name hm]

theorem lineOf_arranged (d : Directory) (margin : Text) (p : Path) :
    d.arranged.lineOf margin p = d.lineOf margin p := by
  have hlast (q : Path) : d.arranged.EndsLast q ↔ d.EndsLast q := by
    simp only [EndsLast, resolves_arranged]
  simp only [lineOf, guide, branch, hlast]

/-- A directory is drawn entry by entry in the order of the names, which is the order of its sorted
copy at every depth. -/
theorem draw_eq_flatMap (d : Directory) (margin : Text) :
    d.draw margin = d.sortedNames.flatMap fun name =>
      let last := d.sortedNames.getLast? = some name
      (margin ++ (if last then corner else tee) ++ name) ::
        ((d.child? name).getD empty).draw (margin ++ if last then gap else bar) := by
  have hcontent (name : Text) : (((d.child? name).getD empty).arranged) =
      (d.arranged.child? name).getD empty := by
    rw [child?_arranged]
    cases d.child? name <;> rfl
  simp only [draw, hcontent, sortedNames]
  exact drawEntries_eq_flatMap (ordered_arranged d) margin

/-- The drawing of a directory has one line for every directory inside, in the order of their paths:
names by their characters, a path before its extensions. -/
theorem drawing_follows_paths (d : Directory) (margin : Text) :
    ∃ ps : List Path, ps.Pairwise (· < ·) ∧ (∀ p, p ∈ ps ↔ p ≠ [] ∧ d.Resolves p) ∧
      d.draw margin = ps.map (d.lineOf margin) := by
  have h := ordered_arranged d
  refine ⟨d.arranged.paths, paths_ascend h, ?_, ?_⟩
  · intro p
    rw [mem_paths h, resolves_arranged]
  · rw [draw, drawEntries_eq_map_paths h, funext (lineOf_arranged d margin)]

example : (entry ['y'] empty (entry [] (entry ['x'] empty empty) empty)).draw ['>'] =
    [">├── ".toList, ">│   └── x".toList, ">└── y".toList] := by decide

end Directory

end DirectoryScript
