import DirectoryScript.Proofs.DrawnPaths
import DirectoryScript.Proofs.ResultLines

namespace DirectoryScript

namespace Directory

/-- The first of some lines has neither a guide nor a branch after a margin, so that a drawing with
this margin ends before it. -/
def Beside (margin : Text) (lines : List Text) : Prop :=
  ∀ line, lines.head? = some line → ∀ mark ∈ [tee, corner, bar, gap], ¬ margin ++ mark <+: line

variable {d e others : Directory} {margin mark mark' : Text} {lines rest rest' : List Text}

theorem length_mark (h : mark ∈ [tee, corner, bar, gap]) : mark.length = 4 := by
  revert mark
  decide

/-- All marks are of one length, so a line is marked in one way. -/
theorem mark_unique (h : mark ∈ [tee, corner, bar, gap]) (h' : mark' ∈ [tee, corner, bar, gap])
    {after : Text} (hp : margin ++ mark <+: margin ++ mark' ++ after) : mark = mark' := by
  have hlength : mark.length = mark'.length := by rw [length_mark h, length_mark h']
  rw [List.append_assoc, List.prefix_append_right_inj] at hp
  have hshort := List.prefix_of_prefix_length_le hp (List.prefix_append mark' after) hlength.le
  exact hshort.eq_of_length hlength

theorem beside_nil (margin : Text) : Beside margin [] := by simp [Beside]

theorem Beside.deeper (h : Beside margin lines) (hm : mark ∈ [tee, corner, bar, gap]) :
    Beside (margin ++ mark) lines := by
  intro line hline inner _ hp
  exact h line hline mark hm ((List.prefix_append _ _).trans hp)

theorem guide_ne_branch (others more : Directory) :
    (if others = empty then gap else bar) ≠ if more = empty then corner else tee := by
  split <;> split <;> decide

/-- What follows the directories inside an entry begins with the branch of the next entry, and a
branch is no guide. -/
theorem Beside.after_inside (h : Beside margin rest) (others more : Directory) :
    Beside (margin ++ if others = empty then gap else bar) (more.drawEntries margin ++ rest) := by
  have hguide := guide_mark others
  cases more with
  | empty => exact h.deeper hguide
  | entry name inside last =>
    intro line hline mark _ hp
    rw [drawEntries_entry, List.cons_append, List.cons_append, List.head?_cons] at hline
    cases Option.some.inj hline
    have hsame := mark_unique hguide (branch_mark last) ((List.prefix_append _ _).trans hp)
    exact guide_ne_branch others last hsame

theorem branch_inj {more : Directory} {name name' : Text}
    (h : margin ++ (if others = empty then corner else tee) ++ name =
      margin ++ (if more = empty then corner else tee) ++ name') :
    (others = empty ↔ more = empty) ∧ name = name' := by
  have hbranch := mark_unique (branch_mark others) (branch_mark more) ⟨name, h⟩
  rw [hbranch] at h
  refine ⟨?_, List.append_cancel_left h⟩
  have hne : corner ≠ tee := by decide
  by_cases hothers : others = empty
  · by_cases hmore : more = empty
    · simp [hothers, hmore]
    · rw [if_pos hothers, if_neg hmore] at hbranch
      exact absurd hbranch hne
  · by_cases hmore : more = empty
    · rw [if_neg hothers, if_pos hmore] at hbranch
      exact absurd hbranch hne.symm
    · simp [hothers, hmore]

theorem not_beside_entry (margin name : Text) (inside others : Directory) (rest : List Text) :
    ¬ Beside margin ((entry name inside others).drawEntries margin ++ rest) := by
  intro h
  rw [drawEntries_entry, List.cons_append, List.cons_append] at h
  exact h _ rfl _ (branch_mark others) (List.prefix_append _ name)

/-- A drawing tells what is drawn, and where it ends among the lines of a larger one. -/
theorem drawEntries_append_injective (hrest : Beside margin rest) (hrest' : Beside margin rest')
    (h : d.drawEntries margin ++ rest = e.drawEntries margin ++ rest') : d = e ∧ rest = rest' := by
  induction d generalizing margin e rest rest' with
  | empty =>
    cases e with
    | empty => exact ⟨rfl, h⟩
    | entry name inside others =>
      rw [drawEntries, List.nil_append] at h
      exact absurd (h ▸ hrest) (not_beside_entry margin name inside others rest')
  | entry name inside others ihinside ihothers =>
    cases e with
    | empty =>
      have hlines : (entry name inside others).drawEntries margin ++ rest = rest' := h
      exact absurd (hlines ▸ hrest') (not_beside_entry margin name inside others rest)
    | entry name' inside' others' =>
      simp only [drawEntries_entry, List.cons_append] at h
      obtain ⟨hline, hlines⟩ := List.cons.inj h
      obtain ⟨hends, rfl⟩ := branch_inj hline
      -- The same branch means the same guide, so both insides are drawn with one margin.
      rw [if_congr hends.symm rfl rfl, List.append_assoc, List.append_assoc] at hlines
      obtain ⟨rfl, hbelow⟩ := ihinside (hrest.after_inside others others)
        (hrest'.after_inside others others') hlines
      obtain ⟨rfl, hafter⟩ := ihothers hrest hrest' hbelow
      exact ⟨rfl, hafter⟩

theorem drawEntries_injective (h : d.drawEntries margin = e.drawEntries margin) : d = e :=
  (drawEntries_append_injective (beside_nil margin) (beside_nil margin)
    (congrArg (· ++ []) h)).1

theorem draw_eq_iff : d.draw margin = e.draw margin ↔ ∀ p, d.Resolves p ↔ e.Resolves p := by
  rw [← arranged_eq_iff]
  constructor
  · exact drawEntries_injective
  · intro h
    rw [draw, draw, h]

theorem newline_notMem_draw (h : d.Named fun name => '\n' ∉ name) :
    ∀ line ∈ d.draw [], '\n' ∉ line := by
  intro line hm
  obtain ⟨mark, hmark, after, rfl, hn⟩ := mem_drawEntries (named_arranged h) hm
  rw [List.nil_append, List.mem_append, not_or]
  exact ⟨newline_notMem_guide hmark, hn⟩

end Directory

/-- Lines as the one block that they are printed in, if there are any. -/
def lineBlock (lines : List Text) : List Text := if lines = [] then [] else [join '\n' lines]

theorem lineBlock_injective {lines lines' : List Text} (hn : ∀ line ∈ lines, '\n' ∉ line)
    (hn' : ∀ line ∈ lines', '\n' ∉ line) (h : lineBlock lines = lineBlock lines') :
    lines = lines' := by
  unfold lineBlock at h
  split at h
  next he =>
    split at h
    next he' => rw [he, he']
    next => simp at h
  next hne =>
    split at h
    next => simp at h
    next hne' =>
      have hsplit := congrArg (split '\n') (List.cons.inj h).1
      rwa [split_join hne hn, split_join hne' hn'] at hsplit

namespace Workspace

variable {w : Workspace} {c : Command}

theorem execute_tree {active : Directory} (hv : c.verb = .tree)
    (ha : w.root.at? w.position = some active) : (w.execute c).blocks =
      [c.echo, "Tree of ".toList ++ w.position.shown ++ ":".toList, ".".toList] ++
        lineBlock (active.draw []) := by
  rw [execute, attempt_tree hv ha]
  rfl

end Workspace

namespace Directory

/-- Directories are drawn alike only when they have the same paths, whatever their names are and in
whatever order their entries were attached. As long as no name has a line feed, the one block that a
drawing is printed in tells them apart as well. -/
theorem drawn_alike_iff (d e : Directory) :
    (∀ margin, d.draw margin = e.draw margin ↔ ∀ p, d.Resolves p ↔ e.Resolves p) ∧
    ∀ (c c' : Command) (p q : Path) (inside inside' : Directory), c.verb = .tree →
      c'.verb = .tree → d.at? p = some inside → e.at? q = some inside' →
      (inside.Named fun name => '\n' ∉ name) → (inside'.Named fun name => '\n' ∉ name) →
      ∃ blocks blocks',
        (Workspace.execute ⟨d, p⟩ c).blocks =
          [c.echo, "Tree of ".toList ++ p.shown ++ ":".toList, ".".toList] ++ blocks ∧
        (Workspace.execute ⟨e, q⟩ c').blocks =
          [c'.echo, "Tree of ".toList ++ q.shown ++ ":".toList, ".".toList] ++ blocks' ∧
        (blocks = blocks' ↔ ∀ r, inside.Resolves r ↔ inside'.Resolves r) := by
  constructor
  · intro margin
    exact draw_eq_iff
  · intro c c' p q inside inside' hv hv' hp hq hn hn'
    refine ⟨_, _, Workspace.execute_tree (w := ⟨d, p⟩) hv hp,
      Workspace.execute_tree (w := ⟨e, q⟩) hv' hq, ?_⟩
    have hdrawn : inside.draw [] = inside'.draw [] ↔ ∀ r, inside.Resolves r ↔ inside'.Resolves r :=
      draw_eq_iff
    rw [← hdrawn]
    constructor
    · intro h
      exact lineBlock_injective (newline_notMem_draw hn) (newline_notMem_draw hn') h
    · intro h
      rw [h]

/-- One directory has a name that looks like the branch of the other. -/
theorem branch_in_name_drawn_apart :
    let d := entry [] (entry ['b'] empty empty) empty
    let e := entry "└── b".toList empty (entry [] empty empty)
    d.at? [] = some d ∧ e.at? [] = some e ∧
      (d.Named fun name => '\n' ∉ name) ∧ (e.Named fun name => '\n' ∉ name) ∧
      ∃ blocks blocks',
        (Workspace.execute ⟨d, []⟩ { verb := .tree }).blocks =
          ["Command: tree".toList, "Tree of root:".toList, ".".toList] ++ blocks ∧
        (Workspace.execute ⟨e, []⟩ { verb := .tree }).blocks =
          ["Command: tree".toList, "Tree of root:".toList, ".".toList] ++ blocks' ∧
        blocks ≠ blocks' := by
  intro d e
  have hd : d.Named fun name => '\n' ∉ name := by
    simp only [d, Named]
    decide
  have he : e.Named fun name => '\n' ∉ name := by
    simp only [e, Named]
    decide
  obtain ⟨blocks, blocks', hblocks, hblocks', halike⟩ :=
    (drawn_alike_iff d e).2 { verb := .tree } { verb := .tree } [] [] d e rfl rfl rfl rfl hd he
  refine ⟨rfl, rfl, hd, he, blocks, blocks', hblocks, hblocks', ?_⟩
  intro h
  exact absurd (halike.mp h [[], ['b']]) (by decide)

end Directory

end DirectoryScript
