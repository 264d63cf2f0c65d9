namespace DirectoryScript

/-- Text is a list of code points, so every width, cut and comparison counts code points. -/
abbrev Text := List Char

/-- Stripping removes the white space of Unicode and the four information separators,
but neither zero width space nor the byte order mark. -/
def isBlank (c : Char) : Bool :=
  let n := c.toNat
  (0x09 ≤ n && n ≤ 0x0D) || (0x1C ≤ n && n ≤ 0x20) || n == 0x85 || n == 0xA0 || n == 0x1680 ||
    (0x2000 ≤ n && n ≤ 0x200A) || n == 0x2028 || n == 0x2029 || n == 0x202F || n == 0x205F ||
    n == 0x3000

def trimLeft (t : Text) : Text := t.dropWhile isBlank

def trimRight (t : Text) : Text := (t.reverse.dropWhile isBlank).reverse

def trim (t : Text) : Text := trimRight (trimLeft t)

/-- Fills with spaces up to a width; longer text is left as it is. -/
def pad (width : Nat) (t : Text) : Text := t.rightpad width ' '

/-- Lower case hexadecimal digits, filled with zeros to a width. -/
def hexadecimal (width n : Nat) : Text := (Nat.toDigits 16 n).leftpad width '0'

def decimal (n : Nat) : Text := Nat.toDigits 10 n

def signedDecimal (n : Int) : Text := if n < 0 then '-' :: decimal n.natAbs else decimal n.natAbs

/-- The pieces between the separators: one more than there are separators, empty ones included. -/
def split (sep : Char) : Text → List Text
  | [] => [[]]
  | c :: rest =>
    if c = sep then [] :: split sep rest
    else match split sep rest with
      | [] => [[c]]
      | piece :: pieces => (c :: piece) :: pieces

def join (sep : Char) : List Text → Text
  | [] => []
  | [piece] => piece
  | piece :: pieces => piece ++ sep :: join sep pieces

theorem split_ne_nil (sep : Char) (t : Text) : split sep t ≠ [] := by
  cases t with
  | nil => simp [split]
  | cons c rest =>
    unfold split
    split
    · simp
    · split <;> simp

theorem join_cons {sep : Char} {piece : Text} {pieces : List Text} (h : pieces ≠ []) :
    join sep (piece :: pieces) = piece ++ sep :: join sep pieces := by
  cases pieces with
  | nil => exact absurd rfl h
  | cons _ _ => rfl

theorem join_cons_head {sep c : Char} {piece : Text} {pieces : List Text} :
    join sep ((c :: piece) :: pieces) = c :: join sep (piece :: pieces) := by
  cases pieces <;> rfl

theorem join_split (sep : Char) (t : Text) : join sep (split sep t) = t := by
  induction t with
  | nil => rfl
  | cons c rest ih =>
    unfold split
    split
    next h => rw [join_cons (split_ne_nil sep rest), ih, h]; rfl
    next h =>
      split
      next hn => exact absurd hn (split_ne_nil sep rest)
      next piece pieces hs => rw [join_cons_head, ← hs, ih]

/-- Text without the separator goes in front of the first piece of what follows. -/
theorem split_append_left {sep : Char} {t : Text} (h : sep ∉ t) (rest : Text) :
    ∃ first more, split sep rest = first :: more ∧
      split sep (t ++ rest) = (t ++ first) :: more := by
  induction t with
  | nil =>
    obtain ⟨first, more, hs⟩ := List.exists_cons_of_ne_nil (split_ne_nil sep rest)
    exact ⟨first, more, hs, hs⟩
  | cons c t ih =>
    rw [List.mem_cons, not_or] at h
    obtain ⟨first, more, hs, happend⟩ := ih h.2
    refine ⟨first, more, hs, ?_⟩
    rw [List.cons_append, split, if_neg (Ne.symm h.1), happend]
    rfl

theorem split_of_notMem {sep : Char} {t : Text} (h : sep ∉ t) : split sep t = [t] := by
  obtain ⟨first, more, hs, happend⟩ := split_append_left h []
  cases hs
  simpa using happend

theorem split_append_split (sep : Char) (t rest : Text) :
    split sep (t ++ sep :: rest) = split sep t ++ split sep rest := by
  induction t with
  | nil => simp [split]
  | cons c t ih =>
    obtain ⟨first, more, hs⟩ := List.exists_cons_of_ne_nil (split_ne_nil sep t)
    rw [hs] at ih
    by_cases hc : c = sep
    · rw [List.cons_append, split, if_pos hc, ih, split, if_pos hc, hs]
      rfl
    · rw [List.cons_append, split, if_neg hc, ih, split, if_neg hc, hs]
      rfl

theorem notMem_of_mem_split {sep : Char} {t piece : Text} (h : piece ∈ split sep t) :
    sep ∉ piece := by
  induction t generalizing piece with
  | nil =>
    rw [split, List.mem_singleton] at h
    simp [h]
  | cons c t ih =>
    obtain ⟨first, more, hs⟩ := List.exists_cons_of_ne_nil (split_ne_nil sep t)
    rw [hs] at ih
    unfold split at h
    split at h
    next =>
      rcases List.mem_cons.mp h with rfl | h
      · simp
      · exact ih (hs ▸ h)
    next hc =>
      rw [hs] at h
      rcases List.mem_cons.mp h with rfl | h
      · rw [List.mem_cons, not_or]
        exact ⟨Ne.symm hc, ih List.mem_cons_self⟩
      · exact ih (List.mem_cons_of_mem first h)

theorem split_join_flatMap {sep : Char} {pieces : List Text} (hne : pieces ≠ []) :
    split sep (join sep pieces) = pieces.flatMap (split sep) := by
  induction pieces with
  | nil => exact absurd rfl hne
  | cons piece pieces ih =>
    by_cases hlast : pieces = []
    · subst hlast
      simp [join]
    · rw [join_cons hlast, split_append_split, ih hlast, List.flatMap_cons]

/-- Pieces without the separator are found again in what they are joined to. -/
theorem split_join {sep : Char} {pieces : List Text} (hne : pieces ≠ [])
    (h : ∀ piece ∈ pieces, sep ∉ piece) : split sep (join sep pieces) = pieces := by
  induction pieces with
  | nil => exact absurd rfl hne
  | cons piece pieces ih =>
    have hpiece : sep ∉ piece := h piece List.mem_cons_self
    by_cases hlast : pieces = []
    · subst hlast
      exact split_of_notMem hpiece
    · rw [join_cons hlast, split_append_split, split_of_notMem hpiece]
      rw [ih hlast fun other hm => h other (List.mem_cons_of_mem piece hm)]
      rfl

end DirectoryScript
