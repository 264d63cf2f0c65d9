import DirectoryScript.Proofs.ResultLines
import Mathlib.Data.List.DropRight

namespace DirectoryScript

/-- Pieces of one width, cut off a list one after the other. -/
def pieces {α : Type} (width count : Nat) (l : List α) : List (List α) :=
  (List.range count).map fun i => (l.drop (width * i)).take width

def cellsOf (line : Text) : List Text := pieces cellWidth (line.length / cellWidth) line

def withoutSpaces (t : Text) : Text := t.rdropWhile fun c => c = ' '

/-- The names that a grid shows, as far as it shows them: its lines are cut into cells, and the
spaces at the end of a cell are left out. -/
def shownNames (grid : Text) : List Text := ((split '\n' grid).flatMap cellsOf).map withoutSpaces

variable {α : Type} {width count : Nat} {names : List Text} {name : Text}

theorem pieces_succ (l : List α) :
    pieces width (count + 1) l = l.take width :: pieces width count (l.drop width) := by
  have hdrop (i : Nat) : width * (i + 1) = width + width * i := by rw [Nat.mul_succ, Nat.add_comm]
  simp [pieces, List.range_succ_eq_map, hdrop, Function.comp_def]

/-- Enough pieces of one width make up the whole list. -/
theorem flatten_pieces {l : List α} (h : l.length ≤ width * count) :
    (pieces width count l).flatten = l := by
  induction count generalizing l with
  | zero =>
    rw [Nat.mul_zero, Nat.le_zero, List.length_eq_zero_iff] at h
    rw [h]
    rfl
  | succ count ih =>
    have hrest : (l.drop width).length ≤ width * count := by
      rw [Nat.mul_succ] at h
      rw [List.length_drop]
      omega
    rw [pieces_succ, List.flatten_cons, ih hrest, List.take_append_drop]

/-- A list put together of pieces of one width is cut into the same pieces. -/
theorem pieces_flatten {ts : List (List α)} (h : ∀ t ∈ ts, t.length = width) :
    pieces width ts.length ts.flatten = ts := by
  induction ts with
  | nil => rfl
  | cons t ts ih =>
    have ht := h t List.mem_cons_self
    rw [List.length_cons, pieces_succ, List.flatten_cons, List.take_left' ht, List.drop_left' ht,
      ih fun other hm => h other (List.mem_cons_of_mem t hm)]

theorem length_flatten_of_width {ts : List (List α)} (h : ∀ t ∈ ts, t.length = width) :
    ts.flatten.length = width * ts.length := by
  induction ts with
  | nil => rfl
  | cons t ts ih =>
    rw [List.flatten_cons, List.length_append, h t List.mem_cons_self,
      ih fun other hm => h other (List.mem_cons_of_mem t hm), List.length_cons, Nat.mul_succ,
      Nat.add_comm]

theorem cellsOf_flatten {ts : List Text} (h : ∀ t ∈ ts, t.length = cellWidth) :
    cellsOf ts.flatten = ts := by
  have hwidth : 0 < cellWidth := by decide
  rw [cellsOf, length_flatten_of_width h, Nat.mul_div_cancel_left _ hwidth]
  exact pieces_flatten h

theorem length_cell (name : Text) : (cell name).length = cellWidth :=
  length_pad (List.length_take_le _ _)

/-- What fills a cell is not taken for a part of the name. -/
theorem withoutSpaces_pad (width : Nat) (t : Text) :
    withoutSpaces (pad width t) = withoutSpaces t := by
  have hspaces (n : Nat) : withoutSpaces (t ++ List.replicate n ' ') = withoutSpaces t := by
    induction n with
    | zero => simp
    | succ n ih =>
      rw [List.replicate_succ', ← List.append_assoc, withoutSpaces,
        List.rdropWhile_concat_pos _ _ _ (by decide)]
      exact ih
  exact hspaces _

theorem withoutSpaces_cell (name : Text) :
    withoutSpaces (cell name) = withoutSpaces (name.take cellWidth) :=
  withoutSpaces_pad cellWidth _

/-- A valid name fits into its cell and ends with no space. -/
theorem shown_of_name (h : isName name = true) : withoutSpaces (name.take cellWidth) = name := by
  have hlength := (isName_length h).2
  have hwidth : cellWidth = 8 := rfl
  rw [List.take_of_length_le (by omega), withoutSpaces, List.rdropWhile_eq_self_iff]
  intro hne hspace
  have hlast := isName_nameChar h _ (List.getLast_mem hne)
  rw [of_decide_eq_true hspace] at hlast
  exact absurd hlast (by decide)

/-- The cells of each line of a listing. -/
def cellRows (names : List Text) : List (List Text) :=
  pieces cellsPerRow (rowCount names.length) (names.map cell)

theorem flatten_cellRows (names : List Text) : (cellRows names).flatten = names.map cell := by
  apply flatten_pieces
  rw [List.length_map, rowCount, cellsPerRow]
  omega

theorem length_of_mem_cellRows {cells : List Text} (h : cells ∈ cellRows names) :
    ∀ t ∈ cells, t.length = cellWidth := by
  intro t ht
  have hm : t ∈ names.map cell := by
    rw [← flatten_cellRows]
    exact List.mem_flatten.mpr ⟨cells, h, ht⟩
  obtain ⟨name, _, rfl⟩ := List.mem_map.mp hm
  exact length_cell name

theorem map_flatten_cellRows (names : List Text) : (cellRows names).map List.flatten =
    (List.range (rowCount names.length)).map (row (names.map cell)) := by
  rw [cellRows, pieces, List.map_map]
  rfl

theorem split_listing (hne : names ≠ []) (h : ∀ name ∈ names, '\n' ∉ name) :
    split '\n' (listing names) = (cellRows names).map List.flatten := by
  rw [map_flatten_cellRows]
  apply split_join (rows_ne_nil hne)
  intro line hm
  obtain ⟨i, _, rfl⟩ := List.mem_map.mp hm
  exact newline_notMem_row h i

theorem length_split_listing (hne : names ≠ []) (h : ∀ name ∈ names, '\n' ∉ name) :
    (split '\n' (listing names)).length = rowCount names.length := by
  rw [split_listing hne h, map_flatten_cellRows, List.length_map, List.length_range]

theorem length_line {i : Nat} {line : Text} (hne : names ≠ []) (h : ∀ name ∈ names, '\n' ∉ name)
    (hi : (split '\n' (listing names))[i]? = some line) : line.length =
      if i + 1 = (split '\n' (listing names)).length then
        cellWidth * ((names.length - 1) % cellsPerRow + 1)
      else cellWidth * cellsPerRow := by
  rw [length_split_listing hne h]
  rw [split_listing hne h, List.getElem?_map, Option.map_eq_some_iff] at hi
  obtain ⟨cells, hcells, rfl⟩ := hi
  rw [length_flatten_of_width (length_of_mem_cellRows (List.mem_of_getElem? hcells))]
  rw [cellRows, pieces, List.getElem?_map, Option.map_eq_some_iff] at hcells
  obtain ⟨j, hj, rfl⟩ := hcells
  obtain ⟨hlt, rfl⟩ : i < rowCount names.length ∧ i = j := by
    simpa [List.getElem?_eq_some_iff] using hj
  rw [List.length_take, List.length_drop, List.length_map]
  have hpos := List.length_pos_iff.mpr hne
  by_cases hlast : i + 1 = rowCount names.length
  · rw [if_pos hlast]
    simp only [rowCount, cellsPerRow] at hlt hlast ⊢
    congr 1
    omega
  · rw [if_neg hlast]
    simp only [rowCount, cellsPerRow] at hlt hlast ⊢
    congr 1
    omega

/-- Cutting a listing into cells gives back the names in order, as far as the cells show them. -/
theorem shownNames_listing (hne : names ≠ []) (h : ∀ name ∈ names, '\n' ∉ name) :
    shownNames (listing names) = names.map fun name => withoutSpaces (name.take cellWidth) := by
  have hcells : ((cellRows names).map List.flatten).flatMap cellsOf = names.map cell := by
    have hrow : ∀ cells ∈ cellRows names, cellsOf cells.flatten = cells := fun cells hm =>
      cellsOf_flatten (length_of_mem_cellRows hm)
    rw [← flatten_cellRows, List.flatMap_map, List.flatMap_def, List.map_congr_left hrow,
      List.map_id']
  rw [shownNames, split_listing hne h, hcells, List.map_map]
  exact List.map_congr_left fun name _ => withoutSpaces_cell name

/-- Whatever is listed, the lines are as long as a number of cells, unlike this message. -/
theorem listing_ne_noSubdirectories (hne : names ≠ []) (h : ∀ name ∈ names, '\n' ∉ name) :
    listing names ≠ noSubdirectories := by
  intro he
  have hlines : split '\n' (listing names) = [noSubdirectories] := by
    rw [he]
    exact split_of_notMem (by decide)
  have hlength := length_line (i := 0) hne h (by rw [hlines]; rfl)
  have hmessage : noSubdirectories.length = 17 := rfl
  rw [hmessage] at hlength
  split at hlength
  · simp only [cellWidth] at hlength
    omega
  · exact absurd hlength (by decide)

theorem Directory.Named.of_mem_sortedNames {d : Directory}
    (h : d.Named fun name => isName name = true) : ∀ name ∈ d.sortedNames, isName name = true :=
  fun _ hm => h.of_mem (mem_sortedNames.mp hm)

theorem newline_notMem_names {names : List Text} (h : ∀ name ∈ names, isName name = true) :
    ∀ name ∈ names, '\n' ∉ name := fun name hm => notMem_name (h name hm) (by decide)

theorem shownNames_of_names {names : List Text} (h : ∀ name ∈ names, isName name = true)
    (hne : names ≠ []) : shownNames (listing names) = names := by
  have hshown : ∀ name ∈ names, withoutSpaces (name.take cellWidth) = name := fun name hm =>
    shown_of_name (h name hm)
  rw [shownNames_listing hne (newline_notMem_names h), List.map_congr_left hshown, List.map_id']

namespace Workspace

variable {w : Workspace} {c : Command}

theorem execute_dir {active : Directory} (hv : c.verb = .dir)
    (ha : w.root.at? w.position = some active) : (w.execute c).blocks =
      [c.echo, "Directory of ".toList ++ w.position.shown ++ ":".toList,
        if active.sortedNames = [] then noSubdirectories else listing active.sortedNames] := by
  rw [execute, attempt_dir hv ha]
  rfl

theorem mem_sortedNames_iff_resolves {active : Directory} {name : Text}
    (ha : w.root.at? w.position = some active) :
    name ∈ active.sortedNames ↔ w.root.Resolves (w.position ++ [name]) := by
  rw [← Directory.has_iff_resolves_under ha, Directory.has_iff_mem_names,
    Directory.mem_sortedNames]

/-- What is listed is sorted, in whatever order it was attached. -/
theorem Sound.listed_names (hw : w.Sound) (hv : c.verb = .dir) : ∃ header listed,
    (w.execute c).blocks = [c.echo, header, listed] ∧
    (listed = noSubdirectories ↔ ∀ name, ¬ w.root.Resolves (w.position ++ [name])) ∧
    (listed ≠ noSubdirectories → (shownNames listed).Pairwise (· < ·) ∧ ∀ name,
      name ∈ shownNames listed ↔ w.root.Resolves (w.position ++ [name])) := by
  obtain ⟨active, ha⟩ := Directory.resolves_iff.mp hw.placed
  have hnames := (hw.proper.of_at? ha).named.of_mem_sortedNames
  refine ⟨_, _, execute_dir hv ha, ?_⟩
  simp only [← mem_sortedNames_iff_resolves ha]
  by_cases hne : active.sortedNames = []
  · simp [hne]
  · have hlisted := listing_ne_noSubdirectories hne (newline_notMem_names hnames)
    obtain ⟨first, hfirst⟩ := List.exists_mem_of_ne_nil _ hne
    rw [if_neg hne, shownNames_of_names hnames hne]
    refine ⟨⟨fun he => absurd he hlisted, fun hnone => absurd hfirst (hnone first)⟩, ?_⟩
    exact fun _ => ⟨active.sortedNames_ascending, fun _ => Iff.rfl⟩

end Workspace

/-- A listing has ten cells in every line but the last and shows of every name what fits into its
cell. What a session lists is one message when there is nothing, and else it shows exactly the
names that are there, in ascending order. -/
theorem listing_shows_names :
    (∀ names : List Text, names ≠ [] → (∀ name ∈ names, '\n' ∉ name) →
      (split '\n' (listing names)).length = (names.length + 9) / 10 ∧
      (∀ i line, (split '\n' (listing names))[i]? = some line → line.length =
        if i + 1 = (split '\n' (listing names)).length then 8 * ((names.length - 1) % 10 + 1)
        else 80) ∧
      shownNames (listing names) = names.map fun name => withoutSpaces (name.take 8)) ∧
    ∀ (lines : List Text) (c : Command), c.verb = .dir →
      let w := (Workspace.runLines {} lines).workspace
      ∃ header listed, (w.execute c).blocks = [c.echo, header, listed] ∧
        (listed = "No subdirectories".toList ↔ ∀ name, ¬ w.root.Resolves (w.position ++ [name])) ∧
        (listed ≠ "No subdirectories".toList → (shownNames listed).Pairwise (· < ·) ∧ ∀ name,
          name ∈ shownNames listed ↔ w.root.Resolves (w.position ++ [name])) := by
  constructor
  · intro names hne h
    exact ⟨length_split_listing hne h, fun i line => length_line hne h, shownNames_listing hne h⟩
  · intro lines c hv
    exact (Workspace.runLines_keeps_sound Workspace.sound_fresh lines).2.listed_names hv

theorem cut_name_in_first_of_eleven :
    let names := "too long for its cell".toList :: List.replicate 10 "a ".toList
    names ≠ [] ∧ (∀ name ∈ names, '\n' ∉ name) ∧ (split '\n' (listing names)).length = 2 ∧
      shownNames (listing names) = "too long".toList :: List.replicate 10 "a".toList := by
  intro names
  have hne : names ≠ [] := List.cons_ne_nil _ _
  have h : ∀ name ∈ names, '\n' ∉ name := by decide
  obtain ⟨hlines, _, hshown⟩ := listing_shows_names.1 names hne h
  exact ⟨hne, h, hlines.trans (by decide), hshown⟩

end DirectoryScript
