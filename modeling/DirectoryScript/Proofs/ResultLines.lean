import DirectoryScript.Proofs.SamePaths
import DirectoryScript.Proofs.SoundRuns
import DirectoryScript.Proofs.WrittenCommand

namespace DirectoryScript

def rejectionLabel : Text := "Invalid input: ".toList

def isEcho (t : Text) : Bool := echoLabel.isPrefixOf t

def isRejection (t : Text) : Bool := rejectionLabel.isPrefixOf t

/-- What a line of a script prints begins with the echo of a command or with a rejection. -/
def opensResult (t : Text) : Bool := isEcho t || isRejection t

/-- No line of a block is like the beginning of what a line of a script prints. -/
def Continues (block : Text) : Prop := ∀ line ∈ split '\n' block, opensResult line = false

theorem opensResult_iff {t : Text} : opensResult t = true ↔
    ∃ label rest, (label = echoLabel ∨ label = rejectionLabel) ∧ t = label ++ rest := by
  rw [opensResult, Bool.or_eq_true_iff, isEcho, isRejection, List.isPrefixOf_iff_prefix,
    List.isPrefixOf_iff_prefix]
  constructor
  · rintro (⟨rest, rfl⟩ | ⟨rest, rfl⟩)
    · exact ⟨_, rest, Or.inl rfl, rfl⟩
    · exact ⟨_, rest, Or.inr rfl, rfl⟩
  · rintro ⟨label, rest, rfl | rfl, rfl⟩
    · exact Or.inl (List.prefix_append _ _)
    · exact Or.inr (List.prefix_append _ _)

/-- The labels have a letter at the seventh place, which the cells of a listing leave blank. -/
theorem letters_of_opensResult {t : Text} (h : opensResult t = true) :
    (t.head? = some 'C' ∨ t.head? = some 'I') ∧ t[6]? = some 'd' := by
  obtain ⟨label, rest, rfl | rfl, rfl⟩ := opensResult_iff.mp h
  · exact ⟨Or.inl rfl, rfl⟩
  · exact ⟨Or.inr rfl, rfl⟩

theorem not_opens_of_head {c : Char} {t : Text} (hC : c ≠ 'C') (hI : c ≠ 'I') :
    opensResult (c :: t) = false := by
  apply Bool.eq_false_iff.mpr
  intro h
  rcases (letters_of_opensResult h).1 with he | he
  · exact hC (Option.some.inj he)
  · exact hI (Option.some.inj he)

/-- Names are too short for either label, so their cells have a space where a label has a letter. -/
theorem not_opens_of_space {t : Text} (h : t[6]? = some ' ') : opensResult t = false := by
  apply Bool.eq_false_iff.mpr
  intro ho
  rw [(letters_of_opensResult ho).2] at h
  exact absurd h (by decide)

theorem continues_of_line {t : Text} (hn : '\n' ∉ t) (ho : opensResult t = false) :
    Continues t := by
  intro line hm
  rw [split_of_notMem hn, List.mem_singleton] at hm
  rwa [hm]

/-- Lines that open no result make a block that opens none, however it is cut. -/
theorem continues_of_lines {lines : List Text} (hne : lines ≠ [])
    (h : ∀ line ∈ lines, '\n' ∉ line ∧ opensResult line = false) : Continues (join '\n' lines) := by
  intro line hm
  rw [split_join hne fun line hm => (h line hm).1] at hm
  exact (h line hm).2

/-- The labels have no line feed, so a block that opens a result has a line that does. -/
theorem Continues.not_opens {block : Text} (h : Continues block) : opensResult block = false := by
  apply Bool.eq_false_iff.mpr
  intro ho
  obtain ⟨label, rest, hlabel, rfl⟩ := opensResult_iff.mp ho
  have hn : '\n' ∉ label := by
    rcases hlabel with rfl | rfl <;> decide
  obtain ⟨first, more, _, hsplit⟩ := split_append_left hn rest
  have hfirst := h (label ++ first) (by rw [hsplit]; exact List.mem_cons_self)
  rw [opensResult_iff.mpr ⟨label, first, hlabel, rfl⟩] at hfirst
  simp at hfirst

theorem notMem_name {t : Text} {c : Char} (h : isName t = true) (hc : isNameChar c = false) :
    c ∉ t := by
  intro hm
  simp [isName_nameChar h c hm] at hc

theorem newline_notMem_shown {p : Path} (h : ∀ name ∈ p, isName name = true) :
    '\n' ∉ p.shown := by
  intro hm
  rcases mem_join hm with he | ⟨piece, hp, hc⟩
  · exact absurd he (by decide)
  · rcases List.mem_cons.mp hp with rfl | hp
    · exact absurd hc (by decide)
    · exact notMem_name (h piece hp) (by decide) hc

theorem mem_pad {t : Text} {width : Nat} {c : Char} (h : c ∈ pad width t) : c ∈ t ∨ c = ' ' :=
  (List.mem_append.mp h).imp_right List.eq_of_mem_replicate

theorem Refusal.message_continues (why : Refusal) : Continues why.message := by
  apply continues_of_line
  · cases why <;> decide
  · cases why <;> rfl

/-- The line above a listing or a drawing. -/
theorem header_continues {c : Char} {title : Text} {p : Path}
    (h : ∀ name ∈ p, isName name = true) (hC : c ≠ 'C') (hI : c ≠ 'I') (hn : '\n' ∉ c :: title) :
    Continues (c :: title ++ p.shown ++ ":".toList) := by
  apply continues_of_line
  · simp only [List.mem_append, not_or]
    exact ⟨⟨hn, newline_notMem_shown h⟩, by decide⟩
  · exact not_opens_of_head hC hI

theorem newline_notMem_pad {t : Text} (h : '\n' ∉ t) (width : Nat) : '\n' ∉ pad width t := by
  intro hm
  rcases mem_pad hm with hm | he
  · exact h hm
  · exact absurd he (by decide)

theorem newline_notMem_row {names : List Text} (h : ∀ name ∈ names, '\n' ∉ name) (i : Nat) :
    '\n' ∉ row (names.map cell) i := by
  intro hm
  obtain ⟨t, ht, hn⟩ := List.mem_flatten.mp hm
  obtain ⟨name, hname, rfl⟩ := List.mem_map.mp (List.mem_of_mem_drop (List.mem_of_mem_take ht))
  have hcut : '\n' ∉ name.take cellWidth := fun hc => h name hname (List.mem_of_mem_take hc)
  exact newline_notMem_pad hcut cellWidth hn

theorem space_in_cell {name : Text} (h : isName name = true) : (cell name)[6]? = some ' ' := by
  have hlength := (isName_length h).2
  have hwidth : cellWidth = 8 := rfl
  rw [cell, List.take_of_length_le (by omega), pad, List.rightpad,
    List.getElem?_append_right hlength, List.getElem?_replicate, if_pos (by omega)]

theorem row_of_names {names : List Text} (h : ∀ name ∈ names, isName name = true) {i : Nat}
    (hi : i < rowCount names.length) :
    '\n' ∉ row (names.map cell) i ∧ opensResult (row (names.map cell) i) = false := by
  refine ⟨newline_notMem_row (fun name hm => notMem_name (h name hm) (by decide)) i, ?_⟩
  apply not_opens_of_space
  have hstart : cellsPerRow * i < (names.map cell).length := by
    rw [List.length_map]
    simp only [rowCount, cellsPerRow] at hi ⊢
    omega
  obtain ⟨first, more, hdrop⟩ := List.exists_cons_of_ne_nil (List.drop_eq_nil_iff.not.mpr
    (Nat.not_le_of_gt hstart))
  have hmem : first ∈ names.map cell := by
    apply List.mem_of_mem_drop
    rw [hdrop]
    exact List.mem_cons_self
  obtain ⟨name, hname, rfl⟩ := List.mem_map.mp hmem
  have hfirst := space_in_cell (h name hname)
  have htake : (cell name :: more).take cellsPerRow = cell name :: more.take 9 := rfl
  rw [row, hdrop, htake, List.flatten_cons,
    List.getElem?_append_left (List.getElem?_eq_some_iff.mp hfirst).1]
  exact hfirst

theorem rows_ne_nil {names : List Text} (hne : names ≠ []) :
    (List.range (rowCount names.length)).map (row (names.map cell)) ≠ [] := by
  have hlength := List.length_pos_iff.mpr hne
  intro hrows
  have hcount := congrArg List.length hrows
  simp only [List.length_map, List.length_range, List.length_nil, rowCount, cellsPerRow] at hcount
  omega

/-- A listing is never mistaken for the beginning of a result. -/
theorem listing_continues {names : List Text} (h : ∀ name ∈ names, isName name = true)
    (hne : names ≠ []) : Continues (listing names) := by
  apply continues_of_lines (rows_ne_nil hne)
  intro line hm
  obtain ⟨i, hi, rfl⟩ := List.mem_map.mp hm
  exact row_of_names h (List.mem_range.mp hi)

theorem newline_notMem_guide {guide : Text} (h : guide ∈ [tee, corner, bar, gap]) :
    '\n' ∉ guide := by
  revert guide
  decide

theorem Directory.branch_mark (others : Directory) :
    (if others = .empty then corner else tee) ∈ [tee, corner, bar, gap] := by
  split <;> simp

theorem Directory.guide_mark (others : Directory) :
    (if others = .empty then gap else bar) ∈ [tee, corner, bar, gap] := by
  split <;> simp

/-- Every line of a drawing goes on after its margin with one of four guides. -/
theorem Directory.mem_drawEntries {d : Directory} (h : d.Named fun name => '\n' ∉ name)
    {margin line : Text} (hm : line ∈ d.drawEntries margin) :
    ∃ guide ∈ [tee, corner, bar, gap], ∃ rest, line = margin ++ guide ++ rest ∧ '\n' ∉ rest := by
  induction d generalizing margin with
  | empty => simp [drawEntries] at hm
  | entry name inside others ihinside ihothers =>
    obtain ⟨hname, hinside, hothers⟩ := h
    rw [drawEntries_entry, List.cons_append, List.mem_cons, List.mem_append] at hm
    rcases hm with rfl | hm | hm
    · exact ⟨_, branch_mark others, name, rfl, hname⟩
    · obtain ⟨guide, hg, rest, rfl, hn⟩ := ihinside hinside hm
      refine ⟨_, guide_mark others, guide ++ rest, by simp, ?_⟩
      rw [List.mem_append, not_or]
      exact ⟨newline_notMem_guide hg, hn⟩
    · exact ihothers hothers hm

theorem guide_not_opens {guide : Text} (h : guide ∈ [tee, corner, bar, gap]) (rest : Text) :
    opensResult (guide ++ rest) = false := by
  simp only [List.mem_cons, List.not_mem_nil, or_false] at h
  rcases h with rfl | rfl | rfl | rfl
  all_goals exact not_opens_of_head (by decide) (by decide)

/-- Nor is a drawing, as each of its lines begins with a guide. -/
theorem drawing_continues {d : Directory} (h : d.Named fun name => isName name = true)
    (hne : d.draw [] ≠ []) : Continues (join '\n' (d.draw [])) := by
  apply continues_of_lines hne
  intro line hm
  have hplain := h.mono fun name hname => notMem_name (c := '\n') hname (by decide)
  obtain ⟨guide, hg, rest, rfl, hn⟩ :=
    Directory.mem_drawEntries (Directory.named_arranged hplain) hm
  rw [List.nil_append]
  refine ⟨?_, guide_not_opens hg rest⟩
  rw [List.mem_append, not_or]
  exact ⟨newline_notMem_guide hg, hn⟩

namespace Workspace

/-- What a line of a script prints: a rejection, or an echo and blocks that are like neither. -/
inductive Prints (raw : Text) : List Text → Prop
  | rejected {rejected : RejectedLine} : Command.parse (trim raw) = .error rejected →
      Prints raw [rejected.message]
  | echoed {c : Command} {results : List Text} : Command.parse (trim raw) = .ok c →
      (∀ block ∈ results, Continues block) → Prints raw (c.echo :: results)

variable {w : Workspace} {c : Command}

theorem Ends.continues {a : Attempt} {line : Text} (h : w.Ends c a)
    (hp : Command.parse line = .ok c) (hw : w.Sound) :
    ∃ results, (a.reported c).blocks = c.echo :: results ∧
      ∀ block ∈ results, Continues block := by
  have hposition := hw.proper.named.of_resolves hw.placed
  have hfault := (h.sound hp hw).1
  cases h with
  | stray | makeBadName | moveBadName => simp [Attempt.reported] at hfault
  | changed => exact ⟨[], rfl, by simp⟩
  | @refused why =>
    refine ⟨[why.message], rfl, ?_⟩
    intro block hm
    rw [List.mem_singleton.mp hm]
    exact why.message_continues
  | @listed active _ ha =>
    refine ⟨_, rfl, ?_⟩
    intro block hm
    rw [List.mem_cons, List.mem_singleton] at hm
    rcases hm with rfl | rfl
    · exact header_continues hposition (by decide) (by decide) (by decide)
    · split
      next => exact continues_of_line (by decide) rfl
      next hne =>
        have hnamed := (hw.proper.of_at? ha).named
        exact listing_continues
          (fun name hn => hnamed.of_mem (Directory.mem_sortedNames.mp hn)) hne
  | @drawn active _ ha =>
    refine ⟨_, rfl, ?_⟩
    intro block hm
    rw [List.mem_cons, List.mem_cons] at hm
    rcases hm with rfl | rfl | hm
    · exact header_continues hposition (by decide) (by decide) (by decide)
    · exact continues_of_line (by decide) rfl
    · split at hm
      next => simp at hm
      next hne =>
        rw [List.mem_singleton.mp hm]
        exact drawing_continues (hw.proper.of_at? ha).named hne

/-- Every line of a script prints something, and begins it with an echo or a rejection. -/
theorem runLine_prints (hw : w.Sound) (raw : Text) : Prints raw (w.runLine raw).blocks := by
  cases hp : Command.parse (trim raw) with
  | error rejected => simpa [runLine, hp] using Prints.rejected hp
  | ok c =>
    obtain ⟨a, he, hx⟩ := w.execute_ends c
    obtain ⟨results, hblocks, hresults⟩ := he.continues hp hw
    rw [runLine_of_parse hp, hx, hblocks]
    exact .echoed hp hresults

theorem Prints.ne_nil {raw : Text} {blocks : List Text} (h : Prints raw blocks) : blocks ≠ [] := by
  cases h <;> simp

theorem runLines_blocks_ne_nil (hw : w.Sound) {lines : List Text} (hne : lines ≠ []) :
    (w.runLines lines).blocks ≠ [] := by
  obtain ⟨raw, lines, rfl⟩ := List.exists_cons_of_ne_nil hne
  rw [runLines_cons hw]
  exact List.append_ne_nil_of_left_ne_nil (runLine_prints hw raw).ne_nil _

end Workspace

end DirectoryScript
