import DirectoryScript.Job
import Mathlib.Data.List.Forall2

namespace DirectoryScript

def escapeChar : Char := '\x1b'

/-- Text without its sequences, which are looked for from the left. -/
inductive Stripped (sequence : Text → Prop) : Text → Text → Prop
  | done : Stripped sequence [] []
  | removed {t rest shown : Text} : sequence t → Stripped sequence rest shown →
      Stripped sequence (t ++ rest) shown
  | kept {c : Char} {rest shown : Text} : (∀ t after, sequence t → c :: rest ≠ t ++ after) →
      Stripped sequence rest shown → Stripped sequence (c :: rest) (c :: shown)

/-- What is relied on of a screen that shows no sequences. Whatever the sequences are, each of them
begins with an escape and stays within a line. -/
structure StripsSequences (strip : Text → Text) (sequence : Text → Prop) : Prop where
  stripped : ∀ t, Stripped sequence t (strip t)
  escaped : ∀ t, sequence t → t.head? = some escapeChar
  within : ∀ t, sequence t → '\n' ∉ t

namespace StripsSequences

variable {strip : Text → Text} {sequence : Text → Prop} {t shown : Text}

/-- A text without an escape is shown as it is. -/
theorem plain (h : StripsSequences strip sequence) (hs : Stripped sequence t shown)
    (hplain : escapeChar ∉ t) : shown = t := by
  induction hs with
  | done => rfl
  | removed hsequence _ _ =>
    have hm := List.mem_of_mem_head? (h.escaped _ hsequence)
    exact absurd (List.mem_append_left _ hm) hplain
  | kept _ _ ih =>
    rw [List.mem_cons, not_or] at hplain
    rw [ih hplain.2]

/-- The line feed after a block is shown, because no sequence that begins in the block takes it. -/
theorem line (h : StripsSequences strip sequence) {block : Text} (ht : t = block ++ ['\n'])
    (hs : Stripped sequence t shown) :
    ∃ visible, Stripped sequence block visible ∧ shown = visible ++ ['\n'] := by
  induction hs generalizing block with
  | done =>
    have hlength := congrArg List.length ht
    simp at hlength
  | @removed u rest _ hsequence _ ih =>
    rcases List.append_eq_append_iff.mp ht with ⟨more, hblock, hrest⟩ | ⟨beyond, hu, hlast⟩
    · obtain ⟨visible, hvisible, hshown⟩ := ih hrest
      exact ⟨visible, hblock ▸ .removed hsequence hvisible, hshown⟩
    · rcases List.append_eq_singleton_iff.mp hlast.symm with ⟨hbeyond, hrest⟩ | ⟨hbeyond, _⟩
      · have hfeed : rest = [] ++ ['\n'] := hrest
        obtain ⟨visible, hvisible, hshown⟩ := ih hfeed
        have hblock : block = u ++ [] := by rw [hu, hbeyond, List.append_nil, List.append_nil]
        exact ⟨visible, hblock ▸ .removed hsequence hvisible, hshown⟩
      · have hm : '\n' ∈ u := by simp [hu, hbeyond]
        exact absurd hm (h.within u hsequence)
  | @kept c rest _ hnone hrest ih =>
    cases block with
    | nil =>
      obtain ⟨hc, hempty⟩ := List.cons.inj ht
      have hplain := h.plain hrest (by simp [hempty])
      exact ⟨[], .done, by rw [hplain, hempty, hc, List.nil_append]⟩
    | cons d block =>
      obtain ⟨hc, htail⟩ : c = d ∧ rest = block ++ ['\n'] := List.cons.inj ht
      obtain ⟨visible, hvisible, hshown⟩ := ih htail
      refine ⟨d :: visible, .kept ?_ hvisible, by rw [hshown, hc, List.cons_append]⟩
      intro u after hsequence hopen
      apply hnone u (after ++ ['\n']) hsequence
      rw [← List.append_assoc, ← hopen, hc, htail, List.cons_append]

end StripsSequences

end DirectoryScript
