import DirectoryScript.Text

namespace DirectoryScript

abbrev Bytes := List UInt8

def encodeChar (c : Char) : Bytes :=
  let n := c.toNat
  (if n < 0x80 then [n]
    else if n < 0x800 then [0xC0 + n / 0x40, 0x80 + n % 0x40]
    else if n < 0x10000 then [0xE0 + n / 0x1000, 0x80 + n / 0x40 % 0x40, 0x80 + n % 0x40]
    else [0xF0 + n / 0x40000, 0x80 + n / 0x1000 % 0x40, 0x80 + n / 0x40 % 0x40, 0x80 + n % 0x40]).map
    UInt8.ofNat

def encode (t : Text) : Bytes := t.flatMap encodeChar

/-- What the first byte of a character tells: how many bytes follow, the range of the next one
and the part of the code point that it holds itself. -/
structure Lead where
  following : Nat
  low : Nat
  high : Nat
  value : Nat
deriving DecidableEq

/-- The narrower ranges keep out overlong forms, surrogates and numbers above the last code
point. -/
def lead? (b : Nat) : Option Lead :=
  if b < 0x80 then some ⟨0, 0x80, 0xBF, b⟩
  else if b < 0xC2 then none
  else if b < 0xE0 then some ⟨1, 0x80, 0xBF, b - 0xC0⟩
  else if b = 0xE0 then some ⟨2, 0xA0, 0xBF, 0⟩
  else if b = 0xED then some ⟨2, 0x80, 0x9F, 0xD⟩
  else if b < 0xF0 then some ⟨2, 0x80, 0xBF, b - 0xE0⟩
  else if b = 0xF0 then some ⟨3, 0x90, 0xBF, 0⟩
  else if b < 0xF4 then some ⟨3, 0x80, 0xBF, b - 0xF0⟩
  else if b = 0xF4 then some ⟨3, 0x80, 0x8F, 4⟩
  else none

inductive Flaw where
  | invalidStart
  | invalidContinuation
  | unexpectedEnd
deriving DecidableEq

def Flaw.text : Flaw → Text
  | invalidStart => "invalid start byte".toList
  | invalidContinuation => "invalid continuation byte".toList
  | unexpectedEnd => "unexpected end of data".toList

/-- The first bytes that are no character: the longest run of them that could have begun one. -/
structure Malformed where
  start : Nat
  length : Nat
  first : UInt8
  flaw : Flaw
deriving DecidableEq

def Malformed.message (m : Malformed) : Text :=
  "'utf-8' codec can't decode ".toList ++
    (if m.length = 1 then
      "byte 0x".toList ++ hexadecimal 2 m.first.toNat ++ " in position ".toList ++ decimal m.start
    else
      "bytes in position ".toList ++ decimal m.start ++ '-' :: decimal (m.start + m.length - 1)) ++
    ": ".toList ++ m.flaw.text

/-- Reads the bytes that follow a first byte. A failure tells how many of them fit. -/
def readFollowing : Nat → Nat → Nat → Nat → Bytes → Except (Nat × Flaw) (Nat × Bytes)
  | 0, _, _, value, rest => .ok (value, rest)
  | _ + 1, _, _, _, [] => .error (0, .unexpectedEnd)
  | left + 1, low, high, value, b :: rest =>
    if low ≤ b.toNat ∧ b.toNat ≤ high then
      (readFollowing left 0x80 0xBF (value * 0x40 + (b.toNat - 0x80)) rest).mapError
        fun (fitting, flaw) => (fitting + 1, flaw)
    else .error (0, .invalidContinuation)

theorem readFollowing_length {left low high value end_ : Nat} {bytes rest : Bytes}
    (h : readFollowing left low high value bytes = .ok (end_, rest)) :
    rest.length + left = bytes.length := by
  induction left generalizing low high value bytes with
  | zero =>
    cases h
    rfl
  | succ left ih =>
    cases bytes with
    | nil => simp [readFollowing] at h
    | cons b bytes =>
      unfold readFollowing at h
      split at h
      next =>
        cases hr : readFollowing left 0x80 0xBF (value * 0x40 + (b.toNat - 0x80)) bytes with
        | error e =>
          rw [hr] at h
          nomatch h
        | ok r =>
          rw [hr] at h
          have he : r = (end_, rest) := Except.ok.inj h
          have := ih (he ▸ hr)
          simp only [List.length_cons]
          omega
      next => simp at h

def decodeFrom (start : Nat) : Bytes → Except Malformed Text
  | [] => .ok []
  | b :: bytes =>
    match lead? b.toNat with
    | none => .error ⟨start, 1, b, .invalidStart⟩
    | some lead =>
      match h : readFollowing lead.following lead.low lead.high lead.value bytes with
      | .error (fitting, flaw) => .error ⟨start, fitting + 1, b, flaw⟩
      | .ok (value, rest) =>
        (decodeFrom (start + lead.following + 1) rest).map (Char.ofNat value :: ·)
termination_by bytes => bytes.length
decreasing_by
  have := readFollowing_length h
  simp only [List.length_cons]
  omega

def decode (bytes : Bytes) : Except Malformed Text := decodeFrom 0 bytes

end DirectoryScript
