import DirectoryScript.Utf8
import Mathlib.Tactic.SplitIfs

namespace DirectoryScript

/-- The four lengths of a character, by its first byte. -/
theorem lead?_eq_some_iff {b : Nat} {lead : Lead} : lead? b = some lead ↔
    b < 0x80 ∧ lead = ⟨0, 0x80, 0xBF, b⟩ ∨
    0xC2 ≤ b ∧ b < 0xE0 ∧ lead = ⟨1, 0x80, 0xBF, b - 0xC0⟩ ∨
    0xE0 ≤ b ∧ b < 0xF0 ∧ lead =
      ⟨2, if b = 0xE0 then 0xA0 else 0x80, if b = 0xED then 0x9F else 0xBF, b - 0xE0⟩ ∨
    0xF0 ≤ b ∧ b < 0xF5 ∧ lead =
      ⟨3, if b = 0xF0 then 0x90 else 0x80, if b = 0xF4 then 0x8F else 0xBF, b - 0xF0⟩ := by
  unfold lead?
  grind

theorem readFollowing_zero {low high value n : Nat} {bytes rest : Bytes} :
    readFollowing 0 low high value bytes = .ok (n, rest) ↔ n = value ∧ rest = bytes := by
  simp [readFollowing, eq_comm]

/-- Saying an error otherwise leaves a result as it is. -/
theorem mapError_eq_ok_iff {ε ε' α : Type} {f : ε → ε'} {read : Except ε α} {result : α} :
    read.mapError f = .ok result ↔ read = .ok result := by
  cases read with
  | ok found =>
    constructor
    · intro h
      rw [Except.ok.inj h]
    · intro h
      rw [Except.ok.inj h]
      rfl
  | error e => exact ⟨nofun, nofun⟩

/-- A following byte is in its range and gives six bits to the value. -/
theorem readFollowing_succ {left low high value : Nat} {bytes : Bytes} {result : Nat × Bytes} :
    readFollowing (left + 1) low high value bytes = .ok result ↔
      ∃ b rest, bytes = b :: rest ∧ low ≤ b.toNat ∧ b.toNat ≤ high ∧
        readFollowing left 0x80 0xBF (value * 0x40 + (b.toNat - 0x80)) rest = .ok result := by
  constructor
  · intro h
    cases bytes with
    | nil => simp [readFollowing] at h
    | cons b rest =>
      rw [readFollowing] at h
      split at h
      next hrange =>
        rw [mapError_eq_ok_iff] at h
        exact ⟨b, rest, rfl, hrange.1, hrange.2, h⟩
      next => simp at h
  · rintro ⟨b, rest, rfl, hlow, hhigh, h⟩
    rw [readFollowing, if_pos ⟨hlow, hhigh⟩, mapError_eq_ok_iff]
    exact h

theorem decodeFrom_cons {start : Nat} {b : UInt8} {bytes : Bytes} {t : Text} :
    decodeFrom start (b :: bytes) = .ok t ↔ ∃ lead value rest tail,
      lead? b.toNat = some lead ∧
      readFollowing lead.following lead.low lead.high lead.value bytes = .ok (value, rest) ∧
      decodeFrom (start + lead.following + 1) rest = .ok tail ∧ t = Char.ofNat value :: tail := by
  rw [decodeFrom]
  constructor
  · intro h
    split at h
    next => simp at h
    next lead hlead =>
      split at h
      next => simp at h
      next value rest hread =>
        cases htail : decodeFrom (start + lead.following + 1) rest with
        | error m => simp [htail, Except.map] at h
        | ok tail =>
          rw [htail] at h
          exact ⟨lead, value, rest, tail, hlead, hread, htail, (Except.ok.inj h).symm⟩
  · rintro ⟨lead, value, rest, tail, hlead, hread, htail, rfl⟩
    split
    next hnone => simp [hlead] at hnone
    next lead' hlead' =>
      cases Option.some.inj (hlead.symm.trans hlead')
      split
      next hfail => simp [hread] at hfail
      next value' rest' hread' =>
        cases Except.ok.inj (hread.symm.trans hread')
        rw [htail]
        rfl

theorem toNat_ofNat_of_lt {n : Nat} (h : n < 0x100) : (UInt8.ofNat n).toNat = n :=
  UInt8.toNat_ofNat_of_lt' h

theorem readFollowing_byte {left low high value x : Nat} {rest : Bytes} {result : Nat × Bytes}
    (hlow : low ≤ 0x80 + x) (hhigh : 0x80 + x ≤ high) (hx : x < 0x40)
    (h : readFollowing left 0x80 0xBF (value * 0x40 + x) rest = .ok result) :
    readFollowing (left + 1) low high value (UInt8.ofNat (0x80 + x) :: rest) = .ok result := by
  have hbyte : (UInt8.ofNat (0x80 + x)).toNat = 0x80 + x := toNat_ofNat_of_lt (by omega)
  refine readFollowing_succ.mpr ⟨_, rest, rfl, by omega, by omega, ?_⟩
  rwa [hbyte, Nat.add_sub_cancel_left]

theorem char_range (c : Char) :
    c.toNat < 0xD800 ∨ 0xDFFF < c.toNat ∧ c.toNat < 0x110000 := c.valid

/-- The bytes of a character are read back as its number, whatever comes after them. -/
theorem encodeChar_reads (c : Char) (rest : Bytes) : ∃ b bytes lead,
    encodeChar c ++ rest = b :: bytes ∧ lead? b.toNat = some lead ∧
      readFollowing lead.following lead.low lead.high lead.value bytes = .ok (c.toNat, rest) := by
  have hrange := char_range c
  rw [encodeChar]
  generalize c.toNat = n at hrange
  split_ifs with h1 h2 h3
  · refine ⟨_, _, ⟨0, 0x80, 0xBF, n⟩, rfl, ?_, rfl⟩
    rw [toNat_ofNat_of_lt (by omega)]
    exact lead?_eq_some_iff.mpr (Or.inl ⟨h1, rfl⟩)
  · refine ⟨_, _, ⟨1, 0x80, 0xBF, n / 0x40⟩, rfl, ?_, ?_⟩
    · rw [toNat_ofNat_of_lt (by omega)]
      refine lead?_eq_some_iff.mpr (Or.inr (Or.inl ⟨by omega, by omega, ?_⟩))
      rw [Nat.add_sub_cancel_left]
    · dsimp only
      apply readFollowing_byte (by omega) (by omega) (by omega)
      exact readFollowing_zero.mpr ⟨by omega, rfl⟩
  · refine ⟨_, _, ⟨2, if 0xE0 + n / 0x1000 = 0xE0 then 0xA0 else 0x80,
      if 0xE0 + n / 0x1000 = 0xED then 0x9F else 0xBF, n / 0x1000⟩, rfl, ?_, ?_⟩
    · rw [toNat_ofNat_of_lt (by omega)]
      refine lead?_eq_some_iff.mpr (Or.inr (Or.inr (Or.inl ⟨by omega, by omega, ?_⟩)))
      rw [Nat.add_sub_cancel_left]
    · dsimp only
      apply readFollowing_byte (by split <;> omega) (by split <;> omega) (by omega)
      apply readFollowing_byte (by omega) (by omega) (by omega)
      exact readFollowing_zero.mpr ⟨by omega, rfl⟩
  · refine ⟨_, _, ⟨3, if 0xF0 + n / 0x40000 = 0xF0 then 0x90 else 0x80,
      if 0xF0 + n / 0x40000 = 0xF4 then 0x8F else 0xBF, n / 0x40000⟩, rfl, ?_, ?_⟩
    · rw [toNat_ofNat_of_lt (by omega)]
      refine lead?_eq_some_iff.mpr (Or.inr (Or.inr (Or.inr ⟨by omega, by omega, ?_⟩)))
      rw [Nat.add_sub_cancel_left]
    · dsimp only
      apply readFollowing_byte (by split <;> omega) (by split <;> omega) (by omega)
      apply readFollowing_byte (by omega) (by omega) (by omega)
      apply readFollowing_byte (by omega) (by omega) (by omega)
      exact readFollowing_zero.mpr ⟨by omega, rfl⟩

theorem toNat_ofNat_of_range {n : Nat} (h : n < 0xD800 ∨ 0xDFFF < n ∧ n < 0x110000) :
    (Char.ofNat n).toNat = n := by
  rw [Char.ofNat, dif_pos h]
  rfl

theorem ofNat_of_toNat {b : UInt8} {n : Nat} (h : n = b.toNat) : UInt8.ofNat n = b := by
  rw [h, UInt8.ofNat_toNat]

/-- Bytes that can be read as a number are the bytes of that character, so there is no other way
to write it. -/
theorem encodeChar_of_reads {b : UInt8} {bytes rest : Bytes} {lead : Lead} {value : Nat}
    (hl : lead? b.toNat = some lead)
    (hr : readFollowing lead.following lead.low lead.high lead.value bytes = .ok (value, rest)) :
    b :: bytes = encodeChar (Char.ofNat value) ++ rest := by
  rcases lead?_eq_some_iff.mp hl with
    ⟨h, rfl⟩ | ⟨hlow, hhigh, rfl⟩ | ⟨hlow, hhigh, rfl⟩ | ⟨hlow, hhigh, rfl⟩
  · obtain ⟨hvalue, rfl⟩ := readFollowing_zero.mp hr
    dsimp only at hvalue
    rw [encodeChar, toNat_ofNat_of_range (by omega), if_pos (by omega)]
    simp [hvalue]
  · obtain ⟨b1, bytes, rfl, hlow1, hhigh1, hr⟩ := readFollowing_succ.mp hr
    obtain ⟨hvalue, rfl⟩ := readFollowing_zero.mp hr
    dsimp only at hlow1 hhigh1 hvalue
    rw [encodeChar, toNat_ofNat_of_range (by omega), if_neg (by omega), if_pos (by omega)]
    simp only [List.map_cons, List.map_nil, List.cons_append, List.nil_append]
    rw [ofNat_of_toNat (b := b) (by omega), ofNat_of_toNat (b := b1) (by omega)]
  · obtain ⟨b1, bytes, rfl, hlow1, hhigh1, hr⟩ := readFollowing_succ.mp hr
    obtain ⟨b2, bytes, rfl, hlow2, hhigh2, hr⟩ := readFollowing_succ.mp hr
    obtain ⟨hvalue, rfl⟩ := readFollowing_zero.mp hr
    dsimp only at hlow1 hhigh1 hvalue
    obtain ⟨hb1, hrange⟩ : (0x80 ≤ b1.toNat ∧ b1.toNat ≤ 0xBF) ∧
        0x800 ≤ value ∧ (value < 0xD800 ∨ 0xDFFF < value) ∧ value < 0x10000 := by
      split at hlow1 <;> split at hhigh1 <;> omega
    rw [encodeChar, toNat_ofNat_of_range (by omega), if_neg (by omega), if_neg (by omega),
      if_pos (by omega)]
    simp only [List.map_cons, List.map_nil, List.cons_append, List.nil_append]
    rw [ofNat_of_toNat (b := b) (by omega), ofNat_of_toNat (b := b1) (by omega),
      ofNat_of_toNat (b := b2) (by omega)]
  · obtain ⟨b1, bytes, rfl, hlow1, hhigh1, hr⟩ := readFollowing_succ.mp hr
    obtain ⟨b2, bytes, rfl, hlow2, hhigh2, hr⟩ := readFollowing_succ.mp hr
    obtain ⟨b3, bytes, rfl, hlow3, hhigh3, hr⟩ := readFollowing_succ.mp hr
    obtain ⟨hvalue, rfl⟩ := readFollowing_zero.mp hr
    dsimp only at hlow1 hhigh1 hvalue
    obtain ⟨hb1, hrange⟩ : (0x80 ≤ b1.toNat ∧ b1.toNat ≤ 0xBF) ∧
        0x10000 ≤ value ∧ value < 0x110000 := by
      split at hlow1 <;> split at hhigh1 <;> omega
    rw [encodeChar, toNat_ofNat_of_range (by omega), if_neg (by omega), if_neg (by omega),
      if_neg (by omega)]
    simp only [List.map_cons, List.map_nil, List.cons_append, List.nil_append]
    rw [ofNat_of_toNat (b := b) (by omega), ofNat_of_toNat (b := b1) (by omega),
      ofNat_of_toNat (b := b2) (by omega), ofNat_of_toNat (b := b3) (by omega)]

theorem decodeFrom_encode (start : Nat) (t : Text) : decodeFrom start (encode t) = .ok t := by
  induction t generalizing start with
  | nil => simp [encode, decodeFrom]
  | cons c t ih =>
    obtain ⟨b, bytes, lead, hbytes, hlead, hread⟩ := encodeChar_reads c (encode t)
    rw [encode, List.flatMap_cons, ← encode, hbytes]
    refine decodeFrom_cons.mpr ⟨lead, c.toNat, encode t, t, hlead, hread, ih _, ?_⟩
    rw [Char.ofNat_toNat]

theorem encode_of_decodeFrom {start : Nat} {bytes : Bytes} {t : Text}
    (h : decodeFrom start bytes = .ok t) : encode t = bytes := by
  induction t generalizing start bytes with
  | nil =>
    cases bytes with
    | nil => rfl
    | cons b bytes =>
      obtain ⟨_, _, _, _, _, _, _, ht⟩ := decodeFrom_cons.mp h
      simp at ht
  | cons c t ih =>
    cases bytes with
    | nil => simp [decodeFrom] at h
    | cons b bytes =>
      obtain ⟨lead, value, rest, tail, hlead, hread, htail, ht⟩ := decodeFrom_cons.mp h
      cases ht
      rw [encodeChar_of_reads hlead hread, encode, List.flatMap_cons, ← encode, ih htail]

/-- Decoding inverts encoding, and succeeds on nothing else. -/
theorem decode_eq_ok_iff {bytes : Bytes} {t : Text} : decode bytes = .ok t ↔ bytes = encode t := by
  constructor
  · intro h
    exact (encode_of_decodeFrom h).symm
  · rintro rfl
    exact decodeFrom_encode 0 t

end DirectoryScript
