import DirectoryScript.Proofs.JobFiles
import DirectoryScript.Proofs.ResultLines
import Mathlib.Data.List.SplitBy

namespace DirectoryScript

/-- Cuts lines of output before each one that opens a result. -/
def cutResults (output : List Text) : List (List Text) :=
  output.splitBy fun _ line => !opensResult line

/-- Lines of output that are one result. -/
def IsResult (lines : List Text) : Prop :=
  ∃ first rest, lines = first :: rest ∧ opensResult first = true ∧
    ∀ line ∈ rest, opensResult line = false

theorem IsResult.countP {lines : List Text} (h : IsResult lines) :
    lines.countP opensResult = 1 := by
  obtain ⟨first, rest, rfl, hfirst, hrest⟩ := h
  have hnone : rest.countP opensResult = 0 := by
    apply List.countP_eq_zero.mpr
    intro line hm
    simp [hrest line hm]
  rw [List.countP_cons_of_pos hfirst, hnone]

theorem IsResult.isChain {lines : List Text} (h : IsResult lines) :
    lines.IsChain fun _ line => !opensResult line := by
  obtain ⟨first, rest, rfl, -, hrest⟩ := h
  induction rest generalizing first with
  | nil => exact List.isChain_singleton first
  | cons line rest ih =>
    refine List.isChain_cons_cons.mpr ⟨by simp [hrest line List.mem_cons_self], ?_⟩
    exact ih line fun other hm => hrest other (List.mem_cons_of_mem line hm)

/-- Every result has one line that opens it. -/
theorem countP_results {groups : List (List Text)} (h : ∀ group ∈ groups, IsResult group) :
    groups.flatten.countP opensResult = groups.length := by
  induction groups with
  | nil => rfl
  | cons group groups ih =>
    have hrest := ih fun other hm => h other (List.mem_cons_of_mem group hm)
    rw [List.flatten_cons, List.countP_append, (h group List.mem_cons_self).countP, hrest,
      List.length_cons, Nat.add_comm]

/-- Results that stand after one another are cut where they meet. -/
theorem cutResults_flatten {groups : List (List Text)} (h : ∀ group ∈ groups, IsResult group) :
    cutResults groups.flatten = groups := by
  apply List.splitBy_flatten
  · intro hm
    obtain ⟨first, rest, he, _⟩ := h [] hm
    simp at he
  · intro group hm
    exact (h group hm).isChain
  · apply List.isChain_iff_getElem.mpr
    intro i hi
    obtain ⟨first, rest, he, _⟩ := h groups[i] (List.getElem_mem _)
    obtain ⟨next, more, he', hnext, _⟩ := h groups[i + 1] (List.getElem_mem _)
    refine ⟨by simp [he], by simp [he'], ?_⟩
    simp [he', hnext]

theorem newline_notMem_column {line : Text} (h : '\n' ∉ line) :
    '\n' ∉ (Columns.ofLine line).source ∧ '\n' ∉ (Columns.ofLine line).destination := by
  constructor
  · intro hm
    exact h (List.mem_of_mem_drop (List.mem_of_mem_take (mem_of_mem_trim hm)))
  · intro hm
    exact h (List.mem_of_mem_drop (mem_of_mem_trim hm))

theorem Verb.newline_notMem_word (v : Verb) : '\n' ∉ v.word := by
  cases v <;> decide

theorem Command.newline_notMem_echo {c : Command} (hs : '\n' ∉ c.source)
    (hd : '\n' ∉ c.destination) : '\n' ∉ c.echo := by
  have hverb := c.verb.newline_notMem_word
  rw [echo, written]
  simp only [List.mem_append, not_or]
  refine ⟨by decide, ⟨?_, ?_⟩, hd⟩
  · split
    · exact hverb
    · exact newline_notMem_pad hverb _
  · split
    · exact hs
    · exact newline_notMem_pad hs _

theorem RejectedLine.newline_notMem_message {rejected : RejectedLine}
    (h : '\n' ∉ rejected.line) : '\n' ∉ rejected.message := by
  have htext : '\n' ∉ rejected.why.text := by
    cases rejected.why <;> decide
  unfold message
  simp only [List.mem_append, not_or]
  exact ⟨⟨⟨by decide, h⟩, by decide⟩, htext⟩

namespace Workspace

variable {w : Workspace}

/-- The first block is one line, so only the line that it is opens a result. -/
theorem Prints.isResult {raw : Text} {blocks : List Text} (h : Prints raw blocks)
    (hn : '\n' ∉ raw) : IsResult (blocks.flatMap (split '\n')) := by
  have hline : '\n' ∉ trim raw := fun hm => hn (mem_of_mem_trim hm)
  cases h with
  | @rejected rejected hp =>
    have hkept : '\n' ∉ rejected.line := by
      rw [Command.line_of_rejected hp]
      exact hline
    refine ⟨rejected.message, [], ?_, rfl, by simp⟩
    rw [List.flatMap_singleton, split_of_notMem (rejected.newline_notMem_message hkept)]
  | @echoed c results hp hresults =>
    obtain ⟨_, hcolumns, _⟩ := Command.parse_eq_ok_iff.mp hp
    obtain ⟨hs, hd⟩ := newline_notMem_column hline
    rw [hcolumns] at hs hd
    refine ⟨c.echo, results.flatMap (split '\n'), ?_, rfl, ?_⟩
    · rw [List.flatMap_cons, split_of_notMem (Command.newline_notMem_echo hs hd),
        List.singleton_append]
    · intro line hm
      obtain ⟨block, hb, hl⟩ := List.mem_flatMap.mp hm
      exact hresults block hb line hl

/-- The blocks that each line prints, after the lines before it. -/
def blocksByLine (w : Workspace) : List Text → List (List Text)
  | [] => []
  | raw :: lines => (w.runLine raw).blocks :: (w.runLine raw).workspace.blocksByLine lines

theorem length_blocksByLine (w : Workspace) (lines : List Text) :
    (w.blocksByLine lines).length = lines.length := by
  induction lines generalizing w with
  | nil => rfl
  | cons raw lines ih => simp [blocksByLine, ih]

/-- A run prints what its lines print, one after the other. -/
theorem runLines_blocks (hw : w.Sound) (lines : List Text) :
    (w.runLines lines).blocks = (w.blocksByLine lines).flatten := by
  induction lines generalizing w with
  | nil => rfl
  | cons raw lines ih =>
    rw [runLines_cons hw, blocksByLine, List.flatten_cons]
    exact congrArg _ (ih (runLine_sound hw raw).2)

theorem blocksByLine_getElem? (hw : w.Sound) {lines : List Text} {i : Nat} {raw : Text}
    (h : lines[i]? = some raw) :
    (w.blocksByLine lines)[i]? =
      some ((w.runLines (lines.take i)).workspace.runLine raw).blocks := by
  induction lines generalizing w i with
  | nil => simp at h
  | cons first lines ih =>
    cases i with
    | zero =>
      cases Option.some.inj h
      rfl
    | succ i =>
      rw [blocksByLine, List.getElem?_cons_succ, List.take_succ_cons, runLines_cons hw]
      exact ih (runLine_sound hw first).2 h

theorem blocksByLine_isResult (hw : w.Sound) {lines : List Text}
    (hn : ∀ raw ∈ lines, '\n' ∉ raw) :
    ∀ blocks ∈ w.blocksByLine lines, blocks ≠ [] ∧ IsResult (blocks.flatMap (split '\n')) := by
  induction lines generalizing w with
  | nil => simp [blocksByLine]
  | cons raw lines ih =>
    intro blocks hm
    rcases List.mem_cons.mp hm with rfl | hm
    · have hprints := runLine_prints hw raw
      exact ⟨hprints.ne_nil, hprints.isResult (hn raw List.mem_cons_self)⟩
    · exact ih (runLine_sound hw raw).2 (fun other ho => hn other (List.mem_cons_of_mem raw ho))
        blocks hm

/-- The lines of the output are the lines of the results. -/
theorem split_runLines (hw : w.Sound) {lines : List Text} (hne : lines ≠ []) :
    split '\n' (join '\n' (w.runLines lines).blocks) =
      ((w.blocksByLine lines).map fun blocks => blocks.flatMap (split '\n')).flatten := by
  rw [split_join_flatMap (runLines_blocks_ne_nil hw hne), runLines_blocks hw, List.flatMap_def,
    List.map_flatten, List.flatten_flatten, List.map_map]
  rfl

end Workspace

namespace Job

variable {j : Job} {s : FileStore} {lines : List Text} {place : List Text}

/-- The output file tells what each line of the script has printed, whatever the script says. -/
theorem output_cuts_into_results (strip : Text → Text) (hl : j.lines s = .ok lines)
    (hp : s.placeToWrite j.outputPath = .ok place) :
    ∃ content output, (j.run strip s).store.content? j.outputPath = some content ∧
      decode content = .ok output ∧
      (split '\n' output).countP opensResult = lines.length ∧
      (cutResults (split '\n' output)).length = lines.length ∧
      ∀ i raw, lines[i]? = some raw → ∃ result,
        (cutResults (split '\n' output))[i]? = some result ∧
        IsResult result ∧
        join '\n' result = join '\n'
          ((Workspace.runLines {} (lines.take i)).workspace.runLine raw).blocks := by
  have hw := Workspace.sound_fresh
  have hn : ∀ raw ∈ lines, '\n' ∉ raw := fun raw hm => newline_notMem_line hl hm
  have hresults := Workspace.blocksByLine_isResult hw hn
  have hsplit := Workspace.split_runLines hw (lines_ne_nil hl)
  have hlength := Workspace.length_blocksByLine {} lines
  have hall : ∀ result ∈ (Workspace.blocksByLine {} lines).map fun blocks =>
      blocks.flatMap (split '\n'), IsResult result := by
    intro result hm
    obtain ⟨blocks, hb, rfl⟩ := List.mem_map.mp hm
    exact (hresults blocks hb).2
  -- The results are put together of whole lines, so cutting the lines gives them back.
  refine ⟨_, join '\n' (Workspace.runLines {} lines).blocks, ?_, decode_eq_ok_iff.mpr rfl, ?_⟩
  · rw [run_eq strip hl hp]
    exact FileStore.content?_write hp
  · rw [hsplit, countP_results hall, cutResults_flatten hall, List.length_map, hlength]
    refine ⟨rfl, rfl, ?_⟩
    intro i raw hraw
    have hblocks := Workspace.blocksByLine_getElem? hw hraw
    have hresult := hresults _ (List.mem_of_getElem? hblocks)
    refine ⟨_, ?_, hresult.2, ?_⟩
    · rw [List.getElem?_map, hblocks]
      rfl
    · rw [← split_join_flatMap hresult.1, join_split]

theorem forged_labels_cut :
    let j : Job := ⟨"in".toList, some "out".toList, 1, true⟩
    let s : FileStore :=
      { home := [], nodes := [(["in".toList], .file (encode "Command: x\ntree\nup".toList))] }
    j.lines s = .ok ["Command: x".toList, "tree".toList, "up".toList] ∧
      s.placeToWrite j.outputPath = .ok ["out".toList] ∧
      ∃ content output, (j.run (fun t => t) s).store.content? j.outputPath = some content ∧
        decode content = .ok output ∧ (cutResults (split '\n' output)).length = 3 := by
  intro j s
  have hl : j.lines s = .ok ["Command: x".toList, "tree".toList, "up".toList] :=
    lines_of_reads (t := "Command: x\ntree\nup".toList) ⟨rfl, rfl⟩
  have hp : s.placeToWrite j.outputPath = .ok ["out".toList] := rfl
  obtain ⟨content, output, hcontent, hdecode, _, hlength, _⟩ := output_cuts_into_results _ hl hp
  exact ⟨hl, hp, content, output, hcontent, hdecode, hlength⟩

end Job

end DirectoryScript
