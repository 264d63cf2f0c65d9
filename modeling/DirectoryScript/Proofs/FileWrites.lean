import DirectoryScript.FileStore
import Mathlib.Data.List.Infix

namespace DirectoryScript

theorem lookup_filter_ne {β : Type} {place other : List Text} (h : other ≠ place)
    (entries : List (List Text × β)) :
    (entries.filter fun entry => entry.1 ≠ place).lookup other = entries.lookup other := by
  induction entries with
  | nil => rfl
  | cons entry entries ih =>
    obtain ⟨listed, value⟩ := entry
    by_cases hplace : listed = place
    · have hother : (other == listed) = false := beq_eq_false_iff_ne.mpr (hplace ▸ h)
      rw [List.filter_cons_of_neg (by simpa using hplace), ih, List.lookup_cons, hother]
    · rw [List.filter_cons_of_pos (by simpa using hplace), List.lookup_cons, List.lookup_cons, ih]

namespace FileStore

variable {s : FileStore} {place other : List Text} {content : Bytes} {p : Text}

/-- Places that are folders unless they are listed. -/
def Above (s : FileStore) (place : List Text) : Prop :=
  place <+: s.home ∨ ∃ entry ∈ s.nodes, place <+: entry.1

theorem Above.mono (h : s.Above place) (ho : other <+: place) : s.Above other := by
  rcases h with hhome | ⟨entry, hm, hentry⟩
  · exact Or.inl (ho.trans hhome)
  · exact Or.inr ⟨entry, hm, ho.trans hentry⟩

theorem above_iff : (place.isPrefixOf s.home ||
    s.nodes.any fun entry => place.isPrefixOf entry.1) = true ↔ s.Above place := by
  simp only [Bool.or_eq_true, List.any_eq_true, List.isPrefixOf_iff_prefix, Above]

theorem node?_of_above (hl : s.nodes.lookup place = none) (ha : s.Above place) :
    s.node? place = some .folder := by
  rw [node?, hl]
  exact if_pos (above_iff.mpr ha)

theorem node?_of_not_above (hl : s.nodes.lookup place = none) (ha : ¬s.Above place) :
    s.node? place = none := by
  rw [node?, hl]
  exact if_neg (mt above_iff.mp ha)

theorem above_of_folder (h : s.node? place = some .folder) : s.Above place := by
  cases hl : s.nodes.lookup place with
  | some node =>
    obtain ⟨before, after, hnodes, _⟩ := List.lookup_eq_some_iff.mp hl
    refine Or.inr ⟨(place, node), ?_, List.prefix_refl place⟩
    rw [hnodes]
    exact List.mem_append_right before List.mem_cons_self
  | none =>
    by_contra ha
    rw [node?_of_not_above hl ha] at h
    simp at h

theorem stepTo_above (from_ : List Text) (part : Text) :
    stepTo from_ part <+: from_ ∨ stepTo from_ part = from_ ++ [part] := by
  unfold stepTo
  split
  · exact Or.inl (List.prefix_refl _)
  · split
    · exact Or.inl (List.dropLast_prefix _)
    · exact Or.inr rfl

/-- A path is followed from folder to folder, as long as nothing objects. -/
theorem follow_cons_eq_ok_iff {start : List Text} {part : Text} {parts : List Text} :
    s.follow start (part :: parts) = .ok place ↔ s.node? start = some .folder ∧
      s.permits (.part start part) = .ok () ∧ s.follow (stepTo start part) parts = .ok place := by
  rw [follow]
  constructor
  · intro h
    split at h
    next => simp at h
    next => simp at h
    next hfolder =>
      split at h
      next => simp at h
      next hpermits => exact ⟨hfolder, hpermits, h⟩
  · rintro ⟨hfolder, hpermits, h⟩
    rw [hfolder]
    simp only [hpermits]
    exact h

/-- A path that leads somewhere has led through the folders above. -/
theorem follow_above {start : List Text} {parts : List Text} (hne : parts ≠ [])
    (h : s.follow start parts = .ok place) (ho : other <+: place) (hother : other ≠ place) :
    s.Above other := by
  induction parts generalizing start with
  | nil => exact absurd rfl hne
  | cons part parts ih =>
    obtain ⟨hfolder, _, hrest⟩ := follow_cons_eq_ok_iff.mp h
    by_cases hlast : parts = []
    · subst hlast
      have hplace : stepTo start part = place := Except.ok.inj hrest
      subst hplace
      apply (above_of_folder hfolder).mono
      rcases stepTo_above start part with hstep | hstep
      · exact ho.trans hstep
      · rw [hstep] at ho hother
        exact (List.prefix_concat_iff.mp ho).resolve_left hother
    · exact ih hlast hrest

theorem placeOf_eq_ok_iff : s.placeOf p = .ok place ↔ nullChar ∉ p ∧
    s.permits (.path p) = .ok () ∧
      s.follow (if p.head? = some '/' then [] else s.home) (split '/' p) = .ok place := by
  unfold placeOf
  split
  next hnull => simp [hnull]
  next hnull =>
    cases hpermits : s.permits (.path p) with
    | error problem => simp
    | ok => simp [hnull]

theorem map_permits_eq_ok_iff {α : Type} {a : Access} {x y : α} :
    (s.permits a).map (fun () => x) = .ok y ↔ s.permits a = .ok () ∧ x = y := by
  cases s.permits a <;> simp [Except.map]

/-- A path can be opened for writing if it leads to no folder and nothing objects. -/
theorem placeToWrite_eq_ok_iff : s.placeToWrite p = .ok place ↔
    s.placeOf p = .ok place ∧ s.node? place ≠ some .folder ∧
      s.permits (.write place) = .ok () := by
  unfold placeToWrite
  cases hp : s.placeOf p with
  | error problem => simp
  | ok found =>
    by_cases hfolder : s.node? found = some .folder
    · simp only [hfolder, if_true, reduceCtorEq, Except.ok.injEq, false_iff]
      rintro ⟨rfl, hne, _⟩
      exact hne hfolder
    · simp only [hfolder, if_false, map_permits_eq_ok_iff, Except.ok.injEq]
      constructor
      · rintro ⟨hpermits, rfl⟩
        exact ⟨rfl, hfolder, hpermits⟩
      · rintro ⟨rfl, _, hpermits⟩
        exact ⟨hpermits, rfl⟩

theorem read_eq_ok_iff {content : Bytes} : s.read p = .ok content ↔ ∃ place,
    s.placeOf p = .ok place ∧ s.node? place = some (.file content) ∧
      s.permits (.read place) = .ok () := by
  unfold read
  cases hp : s.placeOf p with
  | error problem => simp
  | ok place =>
    cases hnode : s.node? place with
    | none => simp [hnode]
    | some node =>
      cases node with
      | folder => simp [hnode]
      | file found =>
        simp only [map_permits_eq_ok_iff, Except.ok.injEq, exists_eq_left', hnode,
          Option.some.injEq, Node.file.injEq]
        exact and_comm

/-- What can be read is what the file holds. -/
theorem content?_of_read {content : Bytes} (h : s.read p = .ok content) :
    s.content? p = some content := by
  obtain ⟨place, hplace, hnode, _⟩ := read_eq_ok_iff.mp h
  rw [content?, hplace]
  simp only [hnode]

theorem node?_write (s : FileStore) (place : List Text) (content : Bytes) :
    (s.write place content).node? place = some (.file content) := by
  simp [node?, write]

theorem above_write_iff (h : s.placeToWrite p = .ok place) (hother : other ≠ place) :
    (s.write place content).Above other ↔ s.Above other := by
  obtain ⟨hplace, _, _⟩ := placeToWrite_eq_ok_iff.mp h
  obtain ⟨_, _, hfollow⟩ := placeOf_eq_ok_iff.mp hplace
  constructor
  · rintro (hhome | ⟨entry, hm, hentry⟩)
    · exact Or.inl hhome
    · rcases List.mem_cons.mp hm with rfl | hm
      -- The place may be new, but the path to it has been through what is above it.
      · exact follow_above (split_ne_nil '/' p) hfollow hentry hother
      · exact Or.inr ⟨entry, (List.mem_filter.mp hm).1, hentry⟩
  · rintro (hhome | ⟨entry, hm, hentry⟩)
    · exact Or.inl hhome
    · by_cases hat : entry.1 = place
      · exact Or.inr ⟨(place, .file content), List.mem_cons_self, hat ▸ hentry⟩
      · refine Or.inr ⟨entry, List.mem_cons_of_mem _ (List.mem_filter.mpr ⟨hm, ?_⟩), hentry⟩
        simpa using hat

/-- Writing changes what is at one place. -/
theorem node?_write_other (h : s.placeToWrite p = .ok place) (hother : other ≠ place) :
    (s.write place content).node? other = s.node? other := by
  have hlookup : (s.write place content).nodes.lookup other = s.nodes.lookup other := by
    rw [write, List.lookup_cons, beq_eq_false_iff_ne.mpr hother]
    exact lookup_filter_ne hother s.nodes
  cases hl : s.nodes.lookup other with
  | some node => rw [node?, node?, hlookup, hl]
  | none =>
    by_cases ha : s.Above other
    · rw [node?_of_above hl ha]
      exact node?_of_above (hlookup.trans hl) ((above_write_iff h hother).mpr ha)
    · rw [node?_of_not_above hl ha]
      exact node?_of_not_above (hlookup.trans hl) (mt (above_write_iff h hother).mp ha)

/-- A path that leads somewhere still leads there when a file has been written. -/
theorem follow_write (h : s.placeToWrite p = .ok place) {start : List Text} {parts : List Text}
    {reached : List Text} (hf : s.follow start parts = .ok reached) :
    (s.write place content).follow start parts = .ok reached := by
  induction parts generalizing start with
  | nil => exact hf
  | cons part parts ih =>
    obtain ⟨hfolder, hpermits, hrest⟩ := follow_cons_eq_ok_iff.mp hf
    have hstart : start ≠ place := by
      rintro rfl
      exact (placeToWrite_eq_ok_iff.mp h).2.1 hfolder
    refine follow_cons_eq_ok_iff.mpr ⟨?_, hpermits, ih hrest⟩
    rw [node?_write_other h hstart, hfolder]

theorem placeOf_write (h : s.placeToWrite p = .ok place) :
    (s.write place content).placeOf p = .ok place := by
  obtain ⟨hnull, hpermits, hfollow⟩ := placeOf_eq_ok_iff.mp (placeToWrite_eq_ok_iff.mp h).1
  exact placeOf_eq_ok_iff.mpr ⟨hnull, hpermits, follow_write h hfollow⟩

/-- The path that was opened for writing holds what was written. -/
theorem content?_write (h : s.placeToWrite p = .ok place) :
    (s.write place content).content? p = some content := by
  rw [content?, placeOf_write h]
  simp only [node?_write]

theorem placeToWrite_write (h : s.placeToWrite p = .ok place) :
    (s.write place content).placeToWrite p = .ok place :=
  placeToWrite_eq_ok_iff.mpr
    ⟨placeOf_write h, by simp [node?_write], (placeToWrite_eq_ok_iff.mp h).2.2⟩

theorem write_write (s : FileStore) (place : List Text) (content later : Bytes) :
    (s.write place content).write place later = s.write place later := by
  simp [write]

/-- What is added to what was written might have been written with it. -/
theorem extend_write (s : FileStore) (place : List Text) (content more : Bytes) :
    (s.write place content).extend place more = s.write place (content ++ more) := by
  rw [extend, node?_write]
  exact write_write s place content (content ++ more)

end FileStore

end DirectoryScript
