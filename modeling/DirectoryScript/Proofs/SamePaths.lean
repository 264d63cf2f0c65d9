import DirectoryScript.Proofs.ProperDirectory
import DirectoryScript.Views

namespace DirectoryScript

namespace Directory

/-- Names ascend strictly in this directory and in every one below it. -/
def Ordered : Directory → Prop
  | empty => True
  | entry name inside others =>
    inside.Ordered ∧ others.Ordered ∧ ∀ other ∈ others.names, name < other

variable {d e inside others : Directory} {name : Text} {rest : Path}

theorem resolves_entry_self :
    (entry name inside others).Resolves (name :: rest) ↔ inside.Resolves rest := by
  simp [resolves_cons, child?]

theorem resolves_entry_of_ne {other : Text} (h : other ≠ name) :
    (entry name inside others).Resolves (other :: rest) ↔ others.Resolves (other :: rest) := by
  simp [resolves_cons, child?, Ne.symm h]

theorem mem_names_of_resolves (h : d.Resolves (name :: rest)) : name ∈ d.names := by
  have hfirst : d.Resolves [name] := resolves_of_prefix ⟨rest, rfl⟩ h
  rw [← has_iff_resolves, has_iff_mem_names] at hfirst
  exact hfirst

theorem resolves_of_mem_names (h : name ∈ d.names) : d.Resolves [name] := by
  rw [← has_iff_resolves, has_iff_mem_names]
  exact h

theorem child?_placeInOrder_self (h : d.child? name = none) :
    (d.placeInOrder name inside).child? name = some inside := by
  induction d with
  | empty => simp [placeInOrder, child?]
  | entry first content others _ ih =>
    have hne : first ≠ name := by
      intro he
      simp [child?, he] at h
    unfold placeInOrder
    split
    · simp [child?]
    · simpa [child?, hne] using ih (by simpa [child?, hne] using h)

theorem child?_placeInOrder_of_ne {other : Text} (h : other ≠ name) :
    (d.placeInOrder name inside).child? other = d.child? other := by
  induction d with
  | empty => simp [placeInOrder, child?, Ne.symm h]
  | entry first content others _ ih =>
    unfold placeInOrder
    split
    · simp [child?, Ne.symm h]
    · simp only [child?]
      split
      · rfl
      · exact ih

theorem mem_names_placeInOrder {other : Text} :
    other ∈ (d.placeInOrder name inside).names ↔ other = name ∨ other ∈ d.names := by
  induction d with
  | empty => simp [placeInOrder, names]
  | entry first content others _ ih =>
    rw [placeInOrder]
    split
    · simp [names]
    · simp only [names, List.mem_cons, ih]
      exact or_left_comm

/-- A new name is put before the first one that is greater. -/
theorem ordered_placeInOrder (hd : d.Ordered) (hi : inside.Ordered) (h : name ∉ d.names) :
    (d.placeInOrder name inside).Ordered := by
  induction d with
  | empty => exact ⟨hi, trivial, by simp [names]⟩
  | entry first content others _ ih =>
    obtain ⟨hcontent, hothers, hfirst⟩ := hd
    rw [names, List.mem_cons, not_or] at h
    rw [placeInOrder]
    split
    next hlt =>
      refine ⟨hi, ⟨hcontent, hothers, hfirst⟩, ?_⟩
      intro other hm
      rcases List.mem_cons.mp hm with rfl | hm
      · exact hlt
      · exact List.lt_trans hlt (hfirst other hm)
    next hlt =>
      refine ⟨hcontent, ih hothers h.2, ?_⟩
      intro other hm
      rcases mem_names_placeInOrder.mp hm with rfl | hm
      · rcases Std.lt_trichotomy other first with hl | he | hg
        · exact absurd hl hlt
        · exact absurd he h.1
        · exact hg
      · exact hfirst other hm

theorem ordered_without (hd : d.Ordered) : (d.without name).Ordered := by
  induction d with
  | empty => exact trivial
  | entry first content others _ ih =>
    obtain ⟨hcontent, hothers, hfirst⟩ := hd
    rw [without]
    split
    · exact ih hothers
    · exact ⟨hcontent, ih hothers, fun other hm => hfirst other (mem_names_without.mp hm).1⟩

/-- Sorting sorts, whatever the directory. -/
theorem ordered_arranged (d : Directory) : d.arranged.Ordered := by
  induction d with
  | empty => exact trivial
  | entry name inside others ihinside ihothers =>
    apply ordered_placeInOrder (ordered_without ihothers) ihinside
    simp [mem_names_without]

namespace Ordered

/-- Names that ascend strictly do so throughout the directory. -/
theorem ascending (h : d.Ordered) : d.names.Pairwise (· < ·) := by
  induction d with
  | empty => exact .nil
  | entry name inside others _ ih =>
    obtain ⟨_, hothers, hfirst⟩ := h
    exact List.pairwise_cons.mpr ⟨hfirst, ih hothers⟩

theorem not_resolves_again (h : (entry name inside others).Ordered) :
    ¬ others.Resolves (name :: rest) := by
  intro hr
  exact List.lt_irrefl name (h.2.2 name (mem_names_of_resolves hr))

theorem first_name_le {other : Text} (h : (entry name inside others).Ordered)
    (hm : other ∈ (entry name inside others).names) : other = name ∨ name < other := by
  rcases List.mem_cons.mp hm with he | hm
  · exact Or.inl he
  · exact Or.inr (h.2.2 other hm)

theorem first_name_eq {name' : Text} {inside' others' : Directory}
    (hd : (entry name inside others).Ordered) (he : (entry name' inside' others').Ordered)
    (h : ∀ p, (entry name inside others).Resolves p ↔ (entry name' inside' others').Resolves p) :
    name = name' := by
  have hr := (h [name]).mp (resolves_of_mem_names List.mem_cons_self)
  have hr' := (h [name']).mpr (resolves_of_mem_names List.mem_cons_self)
  rcases he.first_name_le (mem_names_of_resolves hr) with heq | hlt
  · exact heq
  · rcases hd.first_name_le (mem_names_of_resolves hr') with heq | hlt'
    · exact heq.symm
    · exact absurd (List.lt_trans hlt hlt') (List.lt_irrefl name')

/-- The names of one directory ascend, so the paths that resolve leave no choice in the entries. -/
theorem eq_of_resolves_iff (hd : d.Ordered) (he : e.Ordered)
    (h : ∀ p, d.Resolves p ↔ e.Resolves p) : d = e := by
  induction d generalizing e with
  | empty =>
    cases e with
    | empty => rfl
    | entry name inside others =>
      have hr := (h [name]).mpr (resolves_of_mem_names List.mem_cons_self)
      simpa [names] using mem_names_of_resolves hr
  | entry name inside others ihinside ihothers =>
    cases e with
    | empty =>
      have hr := (h [name]).mp (resolves_of_mem_names List.mem_cons_self)
      simpa [names] using mem_names_of_resolves hr
    | entry name' inside' others' =>
      have hname : name = name' := hd.first_name_eq he h
      subst hname
      have hinside : inside = inside' := by
        apply ihinside hd.1 he.1
        intro p
        have hp := h (name :: p)
        rwa [resolves_entry_self, resolves_entry_self] at hp
      have hothers : others = others' := by
        apply ihothers hd.2.1 he.2.1
        intro p
        cases p with
        | nil => simp
        | cons other rest =>
          by_cases hne : other = name
          · subst hne
            simp [hd.not_resolves_again, he.not_resolves_again]
          · have hp := h (other :: rest)
            rwa [resolves_entry_of_ne hne, resolves_entry_of_ne hne] at hp
      rw [hinside, hothers]

end Ordered

/-- In what order entries are listed does not matter to the paths. -/
theorem resolves_arranged {p : Path} : d.arranged.Resolves p ↔ d.Resolves p := by
  induction d generalizing p with
  | empty => rfl
  | entry name inside others ihinside ihothers =>
    have hfree := child?_without_self others.arranged name
    rw [arranged, resolves_of_added hfree (child?_placeInOrder_self hfree)
      fun _ => child?_placeInOrder_of_ne, resolves_without, ihothers]
    cases p with
    | nil => simp
    | cons first rest =>
      by_cases hfirst : first = name
      · subst hfirst
        simp [resolves_entry_self, ihinside]
      · simp [resolves_entry_of_ne hfirst, hfirst, Ne.symm hfirst]

/-- Sorting makes two directories equal exactly when they have the same paths: what is left out is
the order in which the entries were attached. -/
theorem arranged_eq_iff : d.arranged = e.arranged ↔ ∀ p, d.Resolves p ↔ e.Resolves p := by
  constructor
  · intro h p
    rw [← resolves_arranged, h, resolves_arranged]
  · intro h
    apply (ordered_arranged d).eq_of_resolves_iff (ordered_arranged e)
    intro p
    rw [resolves_arranged, h, resolves_arranged]

/-- Sorting leaves every name its content, sorted too. -/
theorem child?_arranged (d : Directory) (name : Text) :
    d.arranged.child? name = (d.child? name).map arranged := by
  induction d with
  | empty => rfl
  | entry first inside others _ ih =>
    have hfree := child?_without_self others.arranged first
    rw [arranged, child?]
    split
    next hfirst =>
      subst hfirst
      rw [child?_placeInOrder_self hfree]
      rfl
    next hfirst =>
      have hne : name ≠ first := Ne.symm hfirst
      rw [child?_placeInOrder_of_ne hne, child?_without_of_ne hne, ih]

theorem named_placeInOrder {p : Text → Prop} (hd : d.Named p) (hn : p name)
    (hi : inside.Named p) : (d.placeInOrder name inside).Named p := by
  induction d with
  | empty => exact ⟨hn, hi, trivial⟩
  | entry first content others _ ih =>
    obtain ⟨hfirst, hcontent, hothers⟩ := hd
    rw [placeInOrder]
    split
    · exact ⟨hn, hi, hfirst, hcontent, hothers⟩
    · exact ⟨hfirst, hcontent, ih hothers⟩

theorem named_arranged {p : Text → Prop} (h : d.Named p) : d.arranged.Named p := by
  induction d with
  | empty => exact trivial
  | entry name inside others ihinside ihothers =>
    obtain ⟨hname, hinside, hothers⟩ := h
    exact named_placeInOrder (named_without (ihothers hothers)) hname (ihinside hinside)

/-- No name is lost in sorting, and none is added. -/
theorem mem_sortedNames : name ∈ d.sortedNames ↔ name ∈ d.names := by
  rw [sortedNames, ← has_iff_mem_names, ← has_iff_mem_names, has, has, child?_arranged,
    Option.isSome_map]

theorem sortedNames_ascending (d : Directory) : d.sortedNames.Pairwise (· < ·) :=
  (ordered_arranged d).ascending

/-- Two directories have the same paths. Their entries may stand in any order, at every depth. -/
def SamePaths (d e : Directory) : Prop := ∀ p, d.Resolves p ↔ e.Resolves p

namespace SamePaths

theorem symm (h : d.SamePaths e) : e.SamePaths d := fun p => (h p).symm

theorem sortedNames_eq (h : d.SamePaths e) : d.sortedNames = e.sortedNames :=
  congrArg names (arranged_eq_iff.mpr h)

theorem draw_eq (h : d.SamePaths e) (margin : Text) : d.draw margin = e.draw margin :=
  congrArg (drawEntries margin) (arranged_eq_iff.mpr h)

/-- A name is taken in both or in neither. -/
theorem has_eq (h : d.SamePaths e) (name : Text) : d.has name = e.has name := by
  rw [Bool.eq_iff_iff, has_iff_resolves, has_iff_resolves]
  exact h [name]

theorem at?_none {p : Path} (h : d.SamePaths e) (ha : d.at? p = none) : e.at? p = none := by
  rw [← not_resolves_iff, ← h p, not_resolves_iff]
  exact ha

/-- Below a common path the same paths are found again. -/
theorem below {p : Path} (h : d.SamePaths e) (ha : d.at? p = some inside) :
    ∃ inside', e.at? p = some inside' ∧ inside.SamePaths inside' := by
  obtain ⟨inside', ha'⟩ := resolves_iff.mp ((h p).mp (resolves_of_at? ha))
  refine ⟨inside', ha', fun q => ?_⟩
  rw [← resolves_append ha, ← resolves_append ha']
  exact h (p ++ q)

theorem entry {inside : Directory} (h : d.SamePaths e) (hc : d.child? name = some inside) :
    ∃ inside', e.child? name = some inside' ∧ inside.SamePaths inside' := by
  have hat (d : Directory) : d.at? [name] = d.child? name := by
    rw [at?_cons]
    cases d.child? name <;> rfl
  obtain ⟨inside', ha', hinside⟩ := h.below ((hat d).trans hc)
  exact ⟨inside', (hat e).symm.trans ha', hinside⟩

theorem child?_none (h : d.SamePaths e) (hc : d.child? name = none) : e.child? name = none := by
  rw [← has_eq_false_iff, ← h.has_eq name, has_eq_false_iff]
  exact hc

/-- A path that leads nowhere ends early in both, and at the same name. -/
theorem locate_error {p : Path} {missing : Missing} (h : d.SamePaths e)
    (hm : d.locate p = .error missing) : e.locate p = .error missing := by
  induction p generalizing d e missing with
  | nil => simp [locate] at hm
  | cons name rest ih =>
    cases hc : d.child? name with
    | none => simpa [locate, hc, h.child?_none hc] using hm
    | some inside =>
      obtain ⟨inside', hc', hinside⟩ := h.entry hc
      simp only [locate, hc] at hm
      simp only [locate, hc']
      cases hl : inside.locate rest with
      | ok found =>
        rw [hl] at hm
        have hfound : Except.ok found = Except.error missing := hm
        simp at hfound
      | error early =>
        rw [hl] at hm
        rw [ih hinside hl]
        exact hm

theorem without (h : d.SamePaths e) (name : Text) :
    (d.without name).SamePaths (e.without name) := by
  intro p
  rw [resolves_without, resolves_without, h p]

/-- What is attached under a free name may differ in the order of its entries as well. -/
theorem place {inside' : Directory} (h : d.SamePaths e) (hc : d.child? name = none)
    (hinside : inside.SamePaths inside') :
    (d.place name inside).SamePaths (e.place name inside') := by
  intro p
  simp only [resolves_place hc, resolves_place (h.child?_none hc), h p, hinside _]

/-- A change keeps paths the same if it does so at its own path. -/
theorem change {f g : Directory → Directory} {inside' : Directory} {p : Path}
    (h : d.SamePaths e) (ha : d.at? p = some inside) (ha' : e.at? p = some inside')
    (hnew : (f inside).SamePaths (g inside')) : (d.change f p).SamePaths (e.change g p) := by
  intro q
  simp only [resolves_change ha, resolves_change ha', h q, hnew _]

end SamePaths

end Directory

end DirectoryScript
