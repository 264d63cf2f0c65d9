import DirectoryScript.Proofs.Resolving

namespace DirectoryScript

namespace Directory

/-- Every name at every depth is valid, and none stands twice in one directory. -/
structure Proper (d : Directory) : Prop where
  distinct : d.Distinct
  named : d.Named fun name => isName name = true

/-- Names that are distinct at every depth are so in the directory itself. -/
theorem Distinct.nodup {d : Directory} (h : d.Distinct) : d.names.Nodup := by
  induction d with
  | empty => exact .nil
  | entry name inside others _ ih =>
    obtain ⟨_, hothers, hname⟩ := h
    exact List.nodup_cons.mpr ⟨hname, ih hothers⟩

theorem Named.of_mem {p : Text → Prop} {d : Directory} {name : Text} (h : d.Named p)
    (hm : name ∈ d.names) : p name := by
  induction d with
  | empty => simp [names] at hm
  | entry first inside others _ ih =>
    rcases List.mem_cons.mp hm with rfl | hm
    · exact h.1
    · exact ih h.2.2 hm

theorem Named.mono {p q : Text → Prop} {d : Directory} (h : d.Named p)
    (hpq : ∀ name, p name → q name) : d.Named q := by
  induction d with
  | empty => exact trivial
  | entry first inside others ihinside ihothers =>
    obtain ⟨hfirst, hinside, hothers⟩ := h
    exact ⟨hpq first hfirst, ihinside hinside, ihothers hothers⟩

theorem Distinct.of_child? {d inside : Directory} {name : Text} (h : d.Distinct)
    (hc : d.child? name = some inside) : inside.Distinct := by
  induction d with
  | empty => simp at hc
  | entry first content others _ ih =>
    rw [child?] at hc
    split at hc
    next =>
      cases Option.some.inj hc
      exact h.1
    next => exact ih h.2.1 hc

theorem Distinct.of_at? {d inside : Directory} {p : Path} (h : d.Distinct)
    (ha : d.at? p = some inside) : inside.Distinct := by
  induction p generalizing d with
  | nil =>
    cases Option.some.inj ha
    exact h
  | cons name rest ih =>
    obtain ⟨content, hc, hr⟩ := at?_cons_eq_some_iff.mp ha
    exact ih (h.of_child? hc) hr

theorem Named.of_child? {p : Text → Prop} {d inside : Directory} {name : Text} (h : d.Named p)
    (hc : d.child? name = some inside) : p name ∧ inside.Named p := by
  induction d with
  | empty => simp at hc
  | entry first content others _ ih =>
    rw [child?] at hc
    split at hc
    next he =>
      subst he
      cases Option.some.inj hc
      exact ⟨h.1, h.2.1⟩
    next => exact ih h.2.2 hc

/-- What holds of all names holds of those below any path. -/
theorem Named.of_at? {holds : Text → Prop} {d inside : Directory} {p : Path} (h : d.Named holds)
    (ha : d.at? p = some inside) : inside.Named holds := by
  induction p generalizing d with
  | nil =>
    cases Option.some.inj ha
    exact h
  | cons name rest ih =>
    obtain ⟨content, hc, hr⟩ := at?_cons_eq_some_iff.mp ha
    exact ih (h.of_child? hc).2 hr

theorem named_place {p : Text → Prop} {d inside : Directory} {name : Text} (hd : d.Named p)
    (hn : p name) (hi : inside.Named p) : (d.place name inside).Named p := by
  induction d with
  | empty => exact ⟨hn, hi, trivial⟩
  | entry first content others _ ih =>
    obtain ⟨hf, hc, ho⟩ := hd
    exact ⟨hf, hc, ih ho⟩

theorem named_without {p : Text → Prop} {d : Directory} {name : Text} (hd : d.Named p) :
    (d.without name).Named p := by
  induction d with
  | empty => exact trivial
  | entry first content others _ ih =>
    obtain ⟨hf, hc, ho⟩ := hd
    rw [without]
    split
    · exact ih ho
    · exact ⟨hf, hc, ih ho⟩

/-- A change further in leaves the names in place. -/
theorem names_change (f : Directory → Directory) (d : Directory) (name : Text) (rest : Path) :
    (d.change f (name :: rest)).names = d.names := by
  induction d with
  | empty => rfl
  | entry first content others _ ih =>
    rw [change]
    split
    · rfl
    · rw [names, names, ih]

theorem distinct_change_entry {f : Directory → Directory} {d content : Directory} {name : Text}
    {rest : Path} (h : d.Distinct) (hc : d.child? name = some content)
    (hf : (content.change f rest).Distinct) : (d.change f (name :: rest)).Distinct := by
  induction d with
  | empty => simp at hc
  | entry first inside others _ ih =>
    obtain ⟨hinside, hothers, hfirst⟩ := h
    rw [child?] at hc
    rw [change]
    split at hc
    next he =>
      cases Option.some.inj hc
      rw [if_pos he]
      exact ⟨hf, hothers, hfirst⟩
    next he =>
      rw [if_neg he]
      refine ⟨hinside, ih hothers hc, ?_⟩
      rw [names_change]
      exact hfirst

/-- A change keeps names distinct if it does so at its own path. -/
theorem distinct_change {f : Directory → Directory} {d inside : Directory} {p : Path}
    (h : d.Distinct) (ha : d.at? p = some inside) (hf : (f inside).Distinct) :
    (d.change f p).Distinct := by
  induction p generalizing d with
  | nil =>
    cases Option.some.inj ha
    rwa [change]
  | cons name rest ih =>
    obtain ⟨content, hc, hr⟩ := at?_cons_eq_some_iff.mp ha
    exact distinct_change_entry h hc (ih (h.of_child? hc) hr)

theorem named_change_entry {holds : Text → Prop} {f : Directory → Directory}
    {d content : Directory} {name : Text} {rest : Path} (h : d.Named holds)
    (hc : d.child? name = some content) (hf : (content.change f rest).Named holds) :
    (d.change f (name :: rest)).Named holds := by
  induction d with
  | empty => simp at hc
  | entry first inside others _ ih =>
    obtain ⟨hfirst, hinside, hothers⟩ := h
    rw [child?] at hc
    rw [change]
    split at hc
    next he =>
      cases Option.some.inj hc
      rw [if_pos he]
      exact ⟨hfirst, hf, hothers⟩
    next he =>
      rw [if_neg he]
      exact ⟨hfirst, hinside, ih hothers hc⟩

/-- Likewise for what holds of all names. -/
theorem named_change {holds : Text → Prop} {f : Directory → Directory} {d inside : Directory}
    {p : Path} (h : d.Named holds) (ha : d.at? p = some inside) (hf : (f inside).Named holds) :
    (d.change f p).Named holds := by
  induction p generalizing d with
  | nil =>
    cases Option.some.inj ha
    rwa [change]
  | cons name rest ih =>
    obtain ⟨content, hc, hr⟩ := at?_cons_eq_some_iff.mp ha
    exact named_change_entry h hc (ih (h.of_child? hc).2 hr)

namespace Proper

theorem empty : Directory.empty.Proper := ⟨trivial, trivial⟩

theorem of_entry {name : Text} {inside others : Directory} (h : (entry name inside others).Proper) :
    inside.Proper ∧ others.Proper :=
  ⟨⟨h.distinct.1, h.named.2.1⟩, ⟨h.distinct.2.1, h.named.2.2⟩⟩

theorem of_child? {d inside : Directory} {name : Text} (h : d.Proper)
    (hc : d.child? name = some inside) : inside.Proper :=
  ⟨h.distinct.of_child? hc, (h.named.of_child? hc).2⟩

theorem of_at? {d inside : Directory} {p : Path} (h : d.Proper) (ha : d.at? p = some inside) :
    inside.Proper :=
  ⟨h.distinct.of_at? ha, h.named.of_at? ha⟩

/-- A valid and free name is all that attaching needs. -/
theorem place {d inside : Directory} {name : Text} (h : d.Proper) (hi : inside.Proper)
    (hn : isName name = true) (hf : d.child? name = none) : (d.place name inside).Proper :=
  ⟨distinct_place h.distinct hi.distinct (child?_eq_none_iff.mp hf),
    named_place h.named hn hi.named⟩

theorem without {d : Directory} {name : Text} (h : d.Proper) : (d.without name).Proper :=
  ⟨distinct_without h.distinct, named_without h.named⟩

/-- A directory stays proper when what a change makes at its path is proper. -/
theorem change {f : Directory → Directory} {d inside : Directory} {p : Path} (h : d.Proper)
    (ha : d.at? p = some inside) (hf : (f inside).Proper) : (d.change f p).Proper :=
  ⟨distinct_change h.distinct ha hf.distinct, named_change h.named ha hf.named⟩

end Proper

end Directory

end DirectoryScript
