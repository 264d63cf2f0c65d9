import DirectoryScript.Proofs.Utf8Text

namespace DirectoryScript

theorem encodeChar_eq_utf8 (c : Char) : encodeChar c = String.utf8EncodeChar c := by
  have hrange := char_range c
  have hval : c.val.toNat = c.toNat := rfl
  rw [encodeChar, String.utf8EncodeChar, hval]
  generalize c.toNat = n at hrange
  by_cases h1 : n < 0x80
  · rw [if_pos h1, if_pos (by omega)]
    rfl
  by_cases h2 : n < 0x800
  · rw [if_neg h1, if_pos h2, if_neg (by omega), if_pos (by omega)]
    simp only [List.map_cons, List.map_nil]
    rw [Nat.mod_eq_of_lt (a := n / 64) (by omega), Nat.add_comm 0xC0, Nat.add_comm 0x80]
  by_cases h3 : n < 0x10000
  · rw [if_neg h1, if_neg h2, if_pos h3, if_neg (by omega), if_neg (by omega), if_pos (by omega)]
    simp only [List.map_cons, List.map_nil]
    rw [Nat.mod_eq_of_lt (a := n / 4096) (by omega), Nat.add_comm 0xE0, Nat.add_comm 0x80,
      Nat.add_comm 0x80]
  · rw [if_neg h1, if_neg h2, if_neg h3, if_neg (by omega), if_neg (by omega), if_neg (by omega)]
    simp only [List.map_cons, List.map_nil]
    rw [Nat.mod_eq_of_lt (a := n / 262144) (by omega), Nat.add_comm 0xF0, Nat.add_comm 0x80,
      Nat.add_comm 0x80, Nat.add_comm 0x80]

/-- The encoding is the one that the standard library has. -/
theorem encode_eq_utf8 (t : Text) : encode t = t.flatMap String.utf8EncodeChar := by
  rw [encode, funext encodeChar_eq_utf8]

/-- Bytes that are the characters of some text, one after the other. -/
def WellFormed (bytes : Bytes) : Prop := ∃ t : Text, bytes = t.flatMap String.utf8EncodeChar

/-- The longest beginning of some bytes that is well formed. -/
structure LongestText (bytes front : Bytes) : Prop where
  begins : front <+: bytes
  wellFormed : WellFormed front
  longest : ∀ other, other <+: bytes → WellFormed other → other.length ≤ front.length

theorem wellFormed_iff {bytes : Bytes} : WellFormed bytes ↔ ∃ t, bytes = encode t := by
  simp only [WellFormed, encode_eq_utf8]

theorem wellFormed_nil : WellFormed [] := ⟨[], rfl⟩

theorem WellFormed.char_append {bytes : Bytes} (h : WellFormed bytes) (c : Char) :
    WellFormed (encodeChar c ++ bytes) := by
  obtain ⟨t, rfl⟩ := wellFormed_iff.mp h
  exact wellFormed_iff.mpr ⟨c :: t, rfl⟩

theorem WellFormed.exists_char {bytes : Bytes} (h : WellFormed bytes) (hne : bytes ≠ []) :
    ∃ c more, bytes = encodeChar c ++ more ∧ WellFormed more := by
  obtain ⟨t, rfl⟩ := wellFormed_iff.mp h
  cases t with
  | nil => exact absurd rfl hne
  | cons c t => exact ⟨c, encode t, rfl, wellFormed_iff.mpr ⟨t, rfl⟩⟩

/-- Where one character ends can be told from its bytes. -/
theorem encodeChar_append_inj {c c' : Char} {rest rest' : Bytes}
    (h : encodeChar c ++ rest = encodeChar c' ++ rest') : c = c' ∧ rest = rest' := by
  obtain ⟨b, bytes, lead, hbytes, hlead, hread⟩ := encodeChar_reads c rest
  obtain ⟨b', bytes', lead', hbytes', hlead', hread'⟩ := encodeChar_reads c' rest'
  rw [hbytes, hbytes'] at h
  obtain ⟨rfl, rfl⟩ := List.cons.inj h
  cases Option.some.inj (hlead.symm.trans hlead')
  obtain ⟨hvalue, hrest⟩ := Prod.mk.inj (Except.ok.inj (hread.symm.trans hread'))
  refine ⟨?_, hrest⟩
  rw [← Char.ofNat_toNat c, hvalue, Char.ofNat_toNat]

/-- Decoding fails at the first byte or after a character. -/
theorem decodeFrom_cons_error {start : Nat} {b : UInt8} {bytes : Bytes} {m : Malformed}
    (h : decodeFrom start (b :: bytes) = .error m) :
    (m.start = start ∧ ∀ c rest, b :: bytes ≠ encodeChar c ++ rest) ∨
    ∃ c rest, b :: bytes = encodeChar c ++ rest ∧ rest.length < (b :: bytes).length ∧
      decodeFrom (start + (encodeChar c).length) rest = .error m := by
  rw [decodeFrom] at h
  split at h
  next hnone =>
    cases Except.error.inj h
    refine Or.inl ⟨rfl, fun c rest he => ?_⟩
    obtain ⟨b', bytes', lead, hbytes, hlead, _⟩ := encodeChar_reads c rest
    obtain ⟨rfl, rfl⟩ := List.cons.inj (he.trans hbytes)
    simp [hnone] at hlead
  next lead hlead =>
    split at h
    next fitting flaw hfail =>
      cases Except.error.inj h
      refine Or.inl ⟨rfl, fun c rest he => ?_⟩
      obtain ⟨b', bytes', lead', hbytes, hlead', hread⟩ := encodeChar_reads c rest
      obtain ⟨rfl, rfl⟩ := List.cons.inj (he.trans hbytes)
      cases Option.some.inj (hlead.symm.trans hlead')
      simp [hfail] at hread
    next value rest hread =>
      have hbytes := encodeChar_of_reads hlead hread
      have hlength := readFollowing_length hread
      have hchar := congrArg List.length hbytes
      simp only [List.length_cons, List.length_append] at hchar
      have hstart :
          start + (encodeChar (Char.ofNat value)).length = start + lead.following + 1 := by
        omega
      refine Or.inr ⟨Char.ofNat value, rest, hbytes, by simp only [List.length_cons]; omega, ?_⟩
      rw [hstart]
      cases hrest : decodeFrom (start + lead.following + 1) rest with
      | ok tail => simp [hrest, Except.map] at h
      | error m' =>
        rw [hrest] at h
        exact congrArg Except.error (Except.error.inj h)

theorem longestText_nil {bytes : Bytes} (h : ∀ c rest, bytes ≠ encodeChar c ++ rest) :
    LongestText bytes [] := by
  refine ⟨List.nil_prefix, wellFormed_nil, ?_⟩
  rintro other ⟨more, hother⟩ hwell
  by_cases hne : other = []
  · subst hne
    exact Nat.zero_le _
  · obtain ⟨c, tail, rfl, _⟩ := hwell.exists_char hne
    rw [List.append_assoc] at hother
    exact absurd hother.symm (h c _)

theorem LongestText.char_append {bytes front : Bytes} (h : LongestText bytes front) (c : Char) :
    LongestText (encodeChar c ++ bytes) (encodeChar c ++ front) := by
  refine ⟨(List.prefix_append_right_inj _).mpr h.begins, h.wellFormed.char_append c, ?_⟩
  rintro other ⟨more, hother⟩ hwell
  by_cases hne : other = []
  · subst hne
    exact Nat.zero_le _
  · obtain ⟨c', tail, rfl, htail⟩ := hwell.exists_char hne
    rw [List.append_assoc] at hother
    obtain ⟨rfl, hrest⟩ := encodeChar_append_inj hother
    have hlength := h.longest tail ⟨more, hrest⟩ htail
    rw [List.length_append, List.length_append]
    omega

/-- Decoding fails where the longest beginning that is text ends. -/
theorem exists_longestText {start : Nat} {bytes : Bytes} {m : Malformed}
    (h : decodeFrom start bytes = .error m) :
    ∃ front, LongestText bytes front ∧ m.start = start + front.length := by
  induction hn : bytes.length using Nat.strongRecOn generalizing start bytes with
  | ind n ih =>
    cases bytes with
    | nil => simp [decodeFrom] at h
    | cons b bytes =>
      rcases decodeFrom_cons_error h with ⟨hstart, hnone⟩ | ⟨c, rest, hbytes, hlength, hrest⟩
      · exact ⟨[], longestText_nil hnone, hstart⟩
      · obtain ⟨front, hfront, hstart⟩ := ih rest.length (hn ▸ hlength) hrest rfl
        rw [hbytes]
        refine ⟨encodeChar c ++ front, hfront.char_append c, ?_⟩
        rw [hstart, List.length_append, Nat.add_assoc]

end DirectoryScript
