import DirectoryScript.Proofs.ValidName
import Mathlib.Data.List.Basic
import Mathlib.Data.List.TakeWhile

namespace DirectoryScript

/-- No blank stands at either end. -/
structure Trimmed (t : Text) : Prop where
  head : ∀ c, t.head? = some c → isBlank c = false
  last : ∀ c, t.getLast? = some c → isBlank c = false

theorem Trimmed.of_forall {t : Text} (h : ∀ c ∈ t, isBlank c = false) : Trimmed t :=
  ⟨fun c hc => h c (List.mem_of_mem_head? hc), fun c hc => h c (List.mem_of_getLast? hc)⟩

/-- Only the ends count, whatever stands between them. -/
theorem Trimmed.enclose {t u : Text} (ht : Trimmed t) (hu : Trimmed u) (hne : t ≠ [])
    (hne' : u ≠ []) (middle : Text) : Trimmed (t ++ middle ++ u) := by
  constructor
  · intro c hc
    rw [List.append_assoc, List.head?_append_of_ne_nil _ hne] at hc
    exact ht.head c hc
  · intro c hc
    rw [List.getLast?_append_of_ne_nil _ hne'] at hc
    exact hu.last c hc

/-- Blanks, if any, then a value, then blanks, if any. -/
def Holds (field value : Text) : Prop :=
  ∃ before after, (∀ c ∈ before, isBlank c = true) ∧ (∀ c ∈ after, isBlank c = true) ∧
    field = before ++ value ++ after

/-- Dropping stops where the rest begins, if its first character is to be kept. -/
theorem dropWhile_append_of_head {p : Char → Bool} {front rest : Text}
    (hf : ∀ c ∈ front, p c = true) (hr : ∀ c, rest.head? = some c → p c = false) :
    (front ++ rest).dropWhile p = rest := by
  rw [List.dropWhile_append_of_pos hf]
  cases rest with
  | nil => rfl
  | cons c rest => simp [List.dropWhile, hr c rfl]

theorem trimRight_append {t after : Text} (ht : ∀ c, t.getLast? = some c → isBlank c = false)
    (ha : ∀ c ∈ after, isBlank c = true) : trimRight (t ++ after) = t := by
  have hdrop : (after.reverse ++ t.reverse).dropWhile isBlank = t.reverse := by
    apply dropWhile_append_of_head
    · intro c hc
      exact ha c (List.mem_reverse.mp hc)
    · intro c hc
      exact ht c (by rwa [← List.head?_reverse])
  rw [trimRight, List.reverse_append, hdrop, List.reverse_reverse]

/-- The blanks around a trimmed value are what trimming takes away. -/
theorem trim_of_holds {field value : Text} (h : Holds field value) (hv : Trimmed value) :
    trim field = value := by
  obtain ⟨before, after, hbefore, hafter, rfl⟩ := h
  rw [trim, trimLeft, List.append_assoc]
  by_cases hne : value = []
  · subst hne
    rw [List.nil_append, List.dropWhile_append_of_pos hbefore, List.dropWhile_eq_nil_iff.mpr hafter]
    rfl
  · have hleft : (before ++ (value ++ after)).dropWhile isBlank = value ++ after := by
      apply dropWhile_append_of_head hbefore
      intro c hc
      rw [List.head?_append_of_ne_nil _ hne] at hc
      exact hv.head c hc
    rw [hleft, trimRight_append hv.last hafter]

theorem holds_trim (t : Text) : Holds t (trim t) := by
  have hright : trimLeft t =
      trim t ++ ((trimLeft t).reverse.takeWhile isBlank).reverse := by
    rw [trim, trimRight, ← List.reverse_append, List.takeWhile_append_dropWhile,
      List.reverse_reverse]
  refine ⟨t.takeWhile isBlank, ((trimLeft t).reverse.takeWhile isBlank).reverse, ?_, ?_, ?_⟩
  · intro c hc
    exact List.mem_takeWhile_imp hc
  · intro c hc
    exact List.mem_takeWhile_imp (List.mem_reverse.mp hc)
  · rw [List.append_assoc, ← hright, trimLeft, List.takeWhile_append_dropWhile]

theorem head_dropWhile {p : Char → Bool} {t : Text} {c : Char}
    (h : (t.dropWhile p).head? = some c) : p c = false := by
  have hnot := List.head?_dropWhile_not p t
  rwa [h] at hnot

theorem trimmed_trim (t : Text) : Trimmed (trim t) := by
  constructor
  · intro c hc
    have hprefix : trim t <+: trimLeft t := by
      rw [← List.reverse_suffix, trim, trimRight, List.reverse_reverse]
      exact List.dropWhile_suffix isBlank
    obtain ⟨after, ha⟩ := hprefix
    have hleft : (trimLeft t).head? = some c := by
      rw [← ha, List.head?_append, hc, Option.some_or]
    exact head_dropWhile hleft
  · intro c hc
    rw [trim, trimRight, List.getLast?_reverse] at hc
    exact head_dropWhile hc

theorem mem_of_mem_trim {t : Text} {c : Char} (h : c ∈ trim t) : c ∈ t := by
  obtain ⟨before, after, _, _, ht⟩ := holds_trim t
  rw [ht]
  exact List.mem_append_left after (List.mem_append_right before h)

theorem length_trim_le (t : Text) : (trim t).length ≤ t.length := by
  obtain ⟨before, after, _, _, ht⟩ := holds_trim t
  have hlength := congrArg List.length ht
  simp only [List.length_append] at hlength
  omega

/-- Trimming finds the only trimmed value that a text holds. -/
theorem trim_eq_iff {t value : Text} : trim t = value ↔ Holds t value ∧ Trimmed value := by
  constructor
  · rintro rfl
    exact ⟨holds_trim t, trimmed_trim t⟩
  · rintro ⟨h, hv⟩
    exact trim_of_holds h hv

theorem trim_ne_nil {t : Text} {c : Char} (hm : c ∈ t) (hc : isBlank c = false) : trim t ≠ [] := by
  intro hnil
  obtain ⟨before, after, hbefore, hafter, ht⟩ := holds_trim t
  rw [hnil, List.append_nil] at ht
  rw [ht] at hm
  rcases List.mem_append.mp hm with hm | hm
  · simp [hbefore c hm] at hc
  · simp [hafter c hm] at hc

theorem trim_of_trimmed {t : Text} (h : Trimmed t) : trim t = t :=
  trim_of_holds ⟨[], [], by simp, by simp, by simp⟩ h

/-- A field may be filled to its width without a change of its value. -/
theorem trim_pad {t : Text} (h : Trimmed t) (width : Nat) : trim (pad width t) = t := by
  have hspace : isBlank ' ' = true := by decide
  apply trim_of_holds _ h
  refine ⟨[], List.replicate (width - t.length) ' ', by simp, ?_, rfl⟩
  intro c hc
  rw [List.eq_of_mem_replicate hc, hspace]

end DirectoryScript
