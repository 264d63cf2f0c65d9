import DirectoryScript.Proofs.EchoedScript

namespace DirectoryScript

namespace Directory

/-- The entries of one directory and after them those of another. -/
def append : Directory → Directory → Directory
  | empty, more => more
  | entry name inside others, more => entry name inside (others.append more)

variable {d inside : Directory} {f g : Directory → Directory} {p : Path} {name : Text}

theorem append_empty (d : Directory) : d.append empty = d := by
  induction d with
  | empty => rfl
  | entry name inside others _ ih => rw [append, ih]

theorem place_append (d inside others : Directory) (name : Text) :
    (d.place name inside).append others = d.append (entry name inside others) := by
  induction d with
  | empty => rfl
  | entry first content more _ ih => rw [place, append, append, ih]

theorem change_place_self (h : name ∉ d.names) :
    (d.place name inside).change f [name] = d.place name (f inside) := by
  induction d with
  | empty => simp [place, change]
  | entry first content others _ ih =>
    rw [names, List.mem_cons, not_or] at h
    rw [place, place, change, if_neg (Ne.symm h.1), ih h.2]

/-- A change at the end of a path is a change at its beginning of what is there. -/
theorem change_append (f : Directory → Directory) (d : Directory) (p q : Path) :
    d.change f (p ++ q) = d.change (fun inside => inside.change f q) p := by
  induction p generalizing d with
  | nil => simp [change]
  | cons name rest ih =>
    induction d with
    | empty => rfl
    | entry first content others _ ihothers =>
      rw [List.cons_append, change, change, ih content]
      rw [List.cons_append] at ihothers
      rw [ihothers]

/-- Two changes at one path are one change. -/
theorem change_change (f g : Directory → Directory) (d : Directory) (p : Path) :
    (d.change f p).change g p = d.change (fun inside => g (f inside)) p := by
  induction p generalizing d with
  | nil => simp [change]
  | cons name rest ih =>
    induction d with
    | empty => rfl
    | entry first content others _ ihothers =>
      by_cases hfirst : first = name
      · simp [change, hfirst, ih content]
      · simp [change, hfirst, ihothers]

theorem change_congr (ha : d.at? p = some inside) (h : f inside = g inside) :
    d.change f p = d.change g p := by
  induction p generalizing d with
  | nil =>
    cases Option.some.inj ha
    simpa [change] using h
  | cons name rest ih =>
    obtain ⟨content, hc, hr⟩ := at?_cons_eq_some_iff.mp ha
    have hcontent := ih hr
    clear ha
    induction d with
    | empty => rfl
    | entry first inner others _ ihothers =>
      rw [child?] at hc
      split at hc
      next hfirst =>
        cases Option.some.inj hc
        simp [change, hfirst, hcontent]
      next hfirst => simp [change, hfirst, ihothers hc]

theorem change_of_same (ha : d.at? p = some inside) (h : f inside = inside) : d.change f p = d := by
  have hid : d.change f p = d.change id p := change_congr ha h
  rw [hid]
  clear hid ha
  induction p generalizing d with
  | nil => simp [change]
  | cons name rest ih =>
    induction d with
    | empty => rfl
    | entry first content others _ ihothers => rw [change, ih, ihothers, ite_self]

end Directory

namespace Workspace

/-- The commands that make in the active directory what another directory holds, and end where
they began. -/
def building : Directory → List Command
  | .empty => []
  | .entry name inside others =>
    [.making name, .entering name] ++ building inside ++ [.ascending] ++ building others

theorem verb_building {d : Directory} {c : Command} (h : c ∈ building d) :
    c.verb = .mkdir ∨ c.verb = .cd ∨ c.verb = .up := by
  induction d with
  | empty => simp [building] at h
  | entry name inside others ihinside ihothers =>
    simp only [building, List.mem_append, List.mem_cons, List.not_mem_nil, or_false] at h
    rcases h with (((rfl | rfl) | h) | rfl) | h
    · exact Or.inl rfl
    · exact Or.inr (Or.inl rfl)
    · exact ihinside h
    · exact Or.inr (Or.inr rfl)
    · exact ihothers h

theorem performs_making {root active : Directory} {p : Path} {name : Text}
    (ha : root.at? p = some active) (hname : isName name = true) (hfree : name ∉ active.names) :
    Performs ⟨root, p⟩ [.making name, .entering name]
      ⟨root.change (fun _ => active.place name .empty) p, p ++ [name]⟩ := by
  have hchild := Directory.child?_eq_none_iff.mpr hfree
  have hmade := performs_of_changes (Command.spelled_making hname)
    (Changes.made (w := ⟨root, p⟩) rfl ha hname hchild)
  have hthere : (root.change (fun _ => active.place name .empty) p).at? p =
      some (active.place name .empty) := Directory.at?_change_self ha _
  have hhas : (active.place name .empty).has name = true :=
    Directory.has_of_child? (Directory.child?_place_self hchild)
  exact hmade.append (performs_of_changes (Command.spelled_entering hname)
    (.entered rfl hthere hhas))

/-- Where none of its names is taken, the entries of the directory come after those that are
there. -/
theorem performs_building {d root active : Directory} {p : Path} (hd : d.Proper)
    (ha : root.at? p = some active) (hfree : ∀ name ∈ d.names, name ∉ active.names) :
    Performs ⟨root, p⟩ (building d) ⟨root.change (fun active => active.append d) p, p⟩ := by
  induction d generalizing root active p with
  | empty =>
    rw [Directory.change_of_same ha (Directory.append_empty active)]
    exact .nil
  | entry name inside others ihinside ihothers =>
    obtain ⟨hinside, hothers⟩ := hd.of_entry
    have hnew : name ∉ active.names := hfree name List.mem_cons_self
    have hmaking := performs_making ha hd.named.1 hnew
    have hchild : (active.place name .empty).at? [name] = some .empty := by
      rw [Directory.at?_cons, Directory.child?_place_self (Directory.child?_eq_none_iff.mpr hnew)]
      rfl
    have hmade : (root.change (fun _ => active.place name .empty) p).at? (p ++ [name]) =
        some .empty := by
      rw [Directory.at?_change_append ha, hchild]
    have hfilling := ihinside hinside hmade (by simp [Directory.names])
    -- What is put into the new entry is what would have come with it.
    have hfilled : (root.change (fun _ => active.place name .empty) p).change
        (fun active => active.append inside) (p ++ [name]) =
          root.change (fun _ => active.place name inside) p := by
      rw [Directory.change_append, Directory.change_change]
      simp only [Directory.change_place_self hnew]
      rfl
    rw [hfilled] at hfilling
    have hthere := Directory.at?_change_self ha fun _ => active.place name inside
    have hrest := ihothers hothers hthere (by
      intro other hm
      rw [Directory.names_place, List.mem_append, List.mem_singleton, not_or]
      have hne : other ≠ name := fun he => hd.distinct.2.2 (he ▸ hm)
      exact ⟨hfree other (List.mem_cons_of_mem name hm), hne⟩)
    have hall : (root.change (fun _ => active.place name inside) p).change
        (fun active => active.append others) p =
          root.change (fun active => active.append (.entry name inside others)) p := by
      rw [Directory.change_change]
      exact Directory.change_congr ha (Directory.place_append active inside others name)
    rw [hall] at hrest
    have hup := performs_up (root.change (fun _ => active.place name inside) p) p name
    exact ((hmaking.append hfilling).append hup).append hrest

/-- From a fresh workspace any proper directory can be made. -/
theorem performs_building_fresh {d : Directory} (hd : d.Proper) :
    Performs {} (building d) ⟨d, []⟩ := by
  have hroot : Directory.empty.at? [] = some .empty := rfl
  have hfree : ∀ name ∈ d.names, name ∉ Directory.empty.names := by simp [Directory.names]
  exact performs_building hd hroot hfree

/-- The sound workspaces are exactly those that a script of making, entering and ascending leads to
from a fresh one, each line printing nothing but its echo. -/
theorem sound_iff_built {w : Workspace} : w.Sound ↔ ∃ cs : List Command,
    (∀ c ∈ cs, c.verb = .mkdir ∨ c.verb = .cd ∨ c.verb = .up) ∧
      runLines {} (cs.map Command.written) = ⟨w, cs.map Command.echo, none⟩ := by
  constructor
  · intro hw
    refine ⟨building w.root ++ w.position.map .entering, ?_, ?_⟩
    · intro c hc
      rcases List.mem_append.mp hc with hc | hc
      · exact verb_building hc
      · obtain ⟨name, _, rfl⟩ := List.mem_map.mp hc
        exact Or.inr (Or.inl rfl)
    · have hdown := performs_descent_from_root hw.proper.named hw.placed
      exact (performs_building_fresh hw.proper).append hdown
  · rintro ⟨cs, _, hrun⟩
    have hsound := (runLines_keeps_sound sound_fresh (cs.map Command.written)).2
    rwa [hrun] at hsound

end Workspace

end DirectoryScript
