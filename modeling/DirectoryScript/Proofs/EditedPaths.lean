import DirectoryScript.Proofs.Relocation
import DirectoryScript.Proofs.SamePaths

namespace DirectoryScript

namespace Directory

/-- What attaching a directory at a path answers, and what it makes of the paths. -/
structure Attaches (d : Directory) (p : Path) (name : Text) (inside : Directory)
    (e : Edit (Except InvalidName Bool)) : Prop where
  badName : e.answer = .error { name } ↔ isName name = false
  taken : e.answer = .ok false ↔ isName name = true ∧ d.Resolves (p ++ [name])
  free : e.answer = .ok true ↔ isName name = true ∧ ¬ d.Resolves (p ++ [name])
  kept : e.answer ≠ .ok true → e.root = d
  grown : e.answer = .ok true → ∀ q, e.root.Resolves q ↔
    d.Resolves q ∨ ∃ r, q = p ++ [name] ++ r ∧ inside.Resolves r

/-- What detaching a directory at a path answers, and what it makes of the paths. What has been
detached can be attached again, and then all is as it was but for the order of the entries. -/
structure Detaches (d : Directory) (p : Path) (name : Text) (e : Edit (Option Directory)) :
    Prop where
  absent : e.answer = none ↔ ¬ d.Resolves (p ++ [name])
  kept : e.answer = none → e.root = d
  found : ∀ removed, e.answer = some removed →
    ∀ r, removed.Resolves r ↔ d.Resolves (p ++ [name] ++ r)
  pruned : e.answer ≠ none → ∀ q, e.root.Resolves q ↔ d.Resolves q ∧ ¬ p ++ [name] <+: q
  restored : isName name = true → ∀ removed, e.answer = some removed → ∃ back,
    e.root.insertAt p name removed = .ok ⟨.ok true, back⟩ ∧ back.arranged = d.arranged

variable {d active inside removed : Directory} {p : Path} {name : Text}

theorem insertAt_badName (ha : d.at? p = some active) (hn : isName name = false)
    (inside : Directory) : d.insertAt p name inside = .ok ⟨.error { name }, d⟩ := by
  simp [insertAt, at?_eq_some_iff.mp ha, Except.map, insert?, hn]

theorem insertAt_taken {content : Directory} (ha : d.at? p = some active)
    (hn : isName name = true) (hs : active.child? name = some content) (inside : Directory) :
    d.insertAt p name inside = .ok ⟨.ok false, d⟩ := by
  simp [insertAt, at?_eq_some_iff.mp ha, Except.map, insert?, hn, has_of_child? hs]

theorem insertAt_free (ha : d.at? p = some active) (hn : isName name = true)
    (hs : active.child? name = none) (inside : Directory) : d.insertAt p name inside =
      .ok ⟨.ok true, d.change (fun _ => active.place name inside) p⟩ := by
  simp [insertAt, at?_eq_some_iff.mp ha, Except.map, insert?, hn, has_eq_false_iff.mpr hs]

theorem removeAt_absent (ha : d.at? p = some active) (hs : active.child? name = none) :
    d.removeAt p name = .ok ⟨none, d⟩ := by
  simp [removeAt, at?_eq_some_iff.mp ha, Except.map, remove?, hs]

theorem removeAt_there (ha : d.at? p = some active) (hs : active.child? name = some removed) :
    d.removeAt p name = .ok ⟨some removed, d.change (fun _ => active.without name) p⟩ := by
  simp [removeAt, at?_eq_some_iff.mp ha, Except.map, remove?_of_child? hs]

/-- Attaching has an answer for every name and every content. -/
theorem insertAt_attaches (ha : d.at? p = some active) (name : Text) (inside : Directory) :
    ∃ e, d.insertAt p name inside = .ok e ∧ Attaches d p name inside e := by
  by_cases hn : isName name = true
  · cases hs : active.child? name with
    | some content =>
      have hthere := resolves_of_child? ha hs
      refine ⟨_, insertAt_taken ha hn hs inside, ?_⟩
      constructor <;> simp [hn, hthere]
    | none =>
      have hnew := (child?_eq_none_iff_under ha).mp hs
      refine ⟨_, insertAt_free ha hn hs inside, ?_⟩
      constructor
      case grown =>
        intro _ q
        rw [resolves_attach ha hs]
        simp
      all_goals simp [hn, hnew]
  · have hbad : isName name = false := by simpa using hn
    refine ⟨_, insertAt_badName ha hbad inside, ?_⟩
    constructor <;> simp [hbad]

/-- An entry that is put in again where it has been taken out is where it was, as the last one. -/
theorem reinserted (ha : d.at? p = some active) (hs : active.child? name = some removed)
    (hn : isName name = true) : ∃ back,
      (d.change (fun _ => active.without name) p).insertAt p name removed =
        .ok ⟨.ok true, back⟩ ∧ back.arranged = d.arranged := by
  have hleft := at?_change_self ha fun _ => active.without name
  have hfree := child?_without_self active name
  refine ⟨_, insertAt_free hleft hn hfree removed, ?_⟩
  rw [arranged_eq_iff]
  intro q
  rw [resolves_relocate ha hs hleft hfree]
  constructor
  · rintro (⟨r, rfl, hr⟩ | ⟨hq, _⟩)
    · exact hr
    · exact hq
  · intro hq
    by_cases hb : p ++ [name] <+: q
    · obtain ⟨r, rfl⟩ := hb
      rw [List.append_assoc] at hq ⊢
      exact Or.inl ⟨r, rfl, hq⟩
    · exact Or.inr ⟨hq, hb⟩

theorem removeAt_detaches (ha : d.at? p = some active) (name : Text) :
    ∃ e, d.removeAt p name = .ok e ∧ Detaches d p name e := by
  cases hs : active.child? name with
  | none =>
    have hnew := (child?_eq_none_iff_under ha).mp hs
    refine ⟨_, removeAt_absent ha hs, ?_⟩
    constructor <;> simp [hnew]
  | some removed =>
    have hthere := resolves_of_child? ha hs
    refine ⟨_, removeAt_there ha hs, ?_⟩
    constructor
    case absent => simp [hthere]
    case kept => simp
    case found =>
      rintro _ ⟨⟩ r
      rw [List.append_assoc, resolves_append ha]
      simp [resolves_cons, hs]
    case pruned => exact fun _ q => resolves_detach ha
    case restored =>
      rintro hn _ ⟨⟩
      exact reinserted ha hs hn

/-- An edit at a path adds and removes what is at or below the entry that it names, and leaves all
other paths as they are. A refused edit changes nothing. -/
theorem edits_below_entry {d : Directory} {p : Path} (hp : d.Resolves p) (name : Text)
    (inside : Directory) :
    (∃ e, d.insertAt p name inside = .ok e ∧ Attaches d p name inside e) ∧
      ∃ e, d.removeAt p name = .ok e ∧ Detaches d p name e := by
  obtain ⟨active, ha⟩ := resolves_iff.mp hp
  exact ⟨insertAt_attaches ha name inside, removeAt_detaches ha name⟩

theorem taken_out_and_put_back :
    let d := entry ['a'] empty (entry "a b".toList
      (entry ['x'] (entry ['y'] empty empty) (entry ['z'] empty empty)) empty)
    d.Resolves ["a b".toList] ∧
      (∃ e, d.insertAt ["a b".toList] ['x'] empty = .ok e ∧ e.answer = .ok false ∧ e.root = d) ∧
      ∃ e, d.removeAt ["a b".toList] ['x'] = .ok e ∧ e.answer = some (entry ['y'] empty empty) ∧
        ¬ e.root.Resolves ["a b".toList, ['x'], ['y']] ∧ e.root.Resolves ["a b".toList, ['z']] ∧
        ∃ back, e.root.insertAt ["a b".toList] ['x'] (entry ['y'] empty empty) =
          .ok ⟨.ok true, back⟩ ∧ back.arranged = d.arranged := by
  intro d
  have hp : d.Resolves ["a b".toList] := rfl
  have hname : isName ['x'] = true := by decide
  obtain ⟨⟨e, he, hattaches⟩, e', he', hdetaches⟩ := edits_below_entry hp ['x'] empty
  have hanswer := hattaches.taken.mpr ⟨hname, rfl⟩
  have hkept := hattaches.kept (by simp [hanswer])
  have hremoved : e'.answer = some (entry ['y'] empty empty) := by
    cases Except.ok.inj he'
    rfl
  have hpaths := hdetaches.pruned (by simp [hremoved])
  have hback := hdetaches.restored hname _ hremoved
  refine ⟨hp, ⟨e, he, hanswer, hkept⟩, e', he', hremoved, ?_, ?_, hback⟩
  · rw [hpaths]
    decide
  · rw [hpaths]
    decide

end Directory

end DirectoryScript
