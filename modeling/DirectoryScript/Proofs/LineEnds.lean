import DirectoryScript.Proofs.JobFiles
import DirectoryScript.Proofs.WellFormedBytes

namespace DirectoryScript

inductive LineEnd where
  | lineFeed
  | carriageReturn
  | both
deriving DecidableEq

def LineEnd.text : LineEnd → Text
  | lineFeed => ['\n']
  | carriageReturn => ['\r']
  | both => ['\r', '\n']

/-- Lines with a line end in front of every line but the first. -/
def laidOut (first : Text) (further : List (LineEnd × Text)) : Text :=
  first ++ further.flatMap fun line => line.1.text ++ line.2

/-- With nothing between them, a carriage return and a line feed would be one line end. -/
def Unmerged (further : List (LineEnd × Text)) : Prop :=
  ∀ line, ¬ [(.carriageReturn, []), (.lineFeed, line)] <:+: further

/-- A line holds no character of a line end. -/
def IsLine (t : Text) : Prop := '\r' ∉ t ∧ '\n' ∉ t

theorem laidOut_cons (first line : Text) (e : LineEnd) (further : List (LineEnd × Text)) :
    laidOut first ((e, line) :: further) = first ++ (e.text ++ laidOut line further) := by
  simp [laidOut]

theorem unifyLineEnds_cons {c : Char} {rest : Text} (h : c = '\r' → rest.head? ≠ some '\n') :
    unifyLineEnds (c :: rest) = (if c = '\r' then '\n' else c) :: unifyLineEnds rest := by
  rw [unifyLineEnds]
  rintro after rfl rfl
  exact h rfl rfl

theorem unifyLineEnds_append {line : Text} (h : '\r' ∉ line) (rest : Text) :
    unifyLineEnds (line ++ rest) = line ++ unifyLineEnds rest := by
  induction line with
  | nil => rfl
  | cons c line ih =>
    rw [List.mem_cons, not_or] at h
    rw [List.cons_append, unifyLineEnds_cons fun hc => absurd hc.symm h.1, if_neg (Ne.symm h.1),
      ih h.2, List.cons_append]

theorem unifyLineEnds_lineEnd {e : LineEnd} {rest : Text}
    (h : e = .carriageReturn → rest.head? ≠ some '\n') :
    unifyLineEnds (e.text ++ rest) = '\n' :: unifyLineEnds rest := by
  cases e with
  | lineFeed => exact unifyLineEnds_cons fun hc => absurd hc (by decide)
  | carriageReturn => exact unifyLineEnds_cons fun _ => h rfl
  | both => rfl

theorem Unmerged.tail {line : LineEnd × Text} {further : List (LineEnd × Text)}
    (h : Unmerged (line :: further)) : Unmerged further :=
  fun other hi => h other (hi.trans (List.infix_cons List.infix_rfl))

/-- Only a line feed after no line at all can follow a carriage return at once. -/
theorem laidOut_head {line : Text} {further : List (LineEnd × Text)} (hline : IsLine line)
    (h : (laidOut line further).head? = some '\n') :
    line = [] ∧ ∃ next more, further = (.lineFeed, next) :: more := by
  cases line with
  | cons c line =>
    cases Option.some.inj h
    exact absurd List.mem_cons_self hline.2
  | nil =>
    cases further with
    | nil => simp [laidOut] at h
    | cons entry more =>
      obtain ⟨e, next⟩ := entry
      rw [laidOut_cons] at h
      cases e with
      | lineFeed => exact ⟨rfl, next, more, rfl⟩
      | carriageReturn | both => exact absurd (Option.some.inj h) (by decide)

/-- Whatever ends the lines, line feeds stand between them afterwards. -/
theorem unifyLineEnds_laidOut {first : Text} {further : List (LineEnd × Text)}
    (hlines : ∀ line ∈ first :: further.map (·.2), IsLine line) (h : Unmerged further) :
    unifyLineEnds (laidOut first further) = join '\n' (first :: further.map (·.2)) := by
  have hfirst := hlines first List.mem_cons_self
  induction further generalizing first with
  | nil =>
    have hplain := unifyLineEnds_append hfirst.1 []
    simpa [laidOut, unifyLineEnds, join] using hplain
  | cons entry further ih =>
    obtain ⟨e, line⟩ := entry
    have hmore : ∀ other ∈ line :: further.map (·.2), IsLine other :=
      fun other hm => hlines other (List.mem_cons_of_mem first hm)
    have hline := hmore line List.mem_cons_self
    have hapart : e = .carriageReturn → (laidOut line further).head? ≠ some '\n' := by
      rintro rfl hhead
      obtain ⟨rfl, next, more, rfl⟩ := laidOut_head hline hhead
      exact h next (List.prefix_append [_, _] more).isInfix
    rw [laidOut_cons, unifyLineEnds_append hfirst.1, unifyLineEnds_lineEnd hapart,
      ih hmore h.tail hline, List.map_cons, ← join_cons (List.cons_ne_nil _ _)]

theorem scriptLines_laidOut {first : Text} {further : List (LineEnd × Text)}
    (hlines : ∀ line ∈ first :: further.map (·.2), IsLine line) (h : Unmerged further) :
    scriptLines (laidOut first further) = first :: further.map (·.2) := by
  rw [scriptLines, unifyLineEnds_laidOut hlines h]
  exact split_join (List.cons_ne_nil _ _) fun line hm => (hlines line hm).2

theorem Unmerged.cons {line : LineEnd × Text} {further : List (LineEnd × Text)}
    (h : Unmerged further)
    (hfirst : ∀ next more, line = (.carriageReturn, []) → further ≠ (.lineFeed, next) :: more) :
    Unmerged (line :: further) := by
  intro next hi
  rcases List.infix_cons_iff.mp hi with hp | hi
  · obtain ⟨hline, more, hmore⟩ := List.cons_prefix_cons.mp hp
    exact hfirst next more hline.symm hmore.symm
  · exact h next hi

/-- Every text is laid out in some way. -/
theorem exists_laidOut (t : Text) : ∃ first further, t = laidOut first further ∧
    (∀ line ∈ first :: further.map (·.2), IsLine line) ∧ Unmerged further := by
  have hempty : IsLine [] := ⟨List.not_mem_nil, List.not_mem_nil⟩
  induction t using unifyLineEnds.induct with
  | case1 =>
    refine ⟨[], [], rfl, by simpa using hempty, ?_⟩
    intro line hi
    simp at hi
  | case2 rest ih =>
    obtain ⟨first, further, rfl, hlines, h⟩ := ih
    refine ⟨[], (.both, first) :: further, rfl, List.forall_mem_cons.mpr ⟨hempty, hlines⟩, ?_⟩
    exact h.cons (by simp)
  | case3 c rest hnext ih =>
    obtain ⟨first, further, rfl, hlines, h⟩ := ih
    by_cases hreturn : c = '\r'
    · subst hreturn
      refine ⟨[], (.carriageReturn, first) :: further, rfl,
        List.forall_mem_cons.mpr ⟨hempty, hlines⟩, ?_⟩
      apply h.cons
      rintro next more he rfl
      cases he
      exact hnext (laidOut next more) rfl rfl
    · by_cases hfeed : c = '\n'
      · subst hfeed
        refine ⟨[], (.lineFeed, first) :: further, rfl,
          List.forall_mem_cons.mpr ⟨hempty, hlines⟩, ?_⟩
        exact h.cons (by simp)
      · obtain ⟨hfirst, hmore⟩ := List.forall_mem_cons.mp hlines
        refine ⟨c :: first, further, rfl, List.forall_mem_cons.mpr ⟨?_, hmore⟩, h⟩
        simp [IsLine, hfirst.1, hfirst.2, Ne.symm hreturn, Ne.symm hfeed]

/-- A message that names a byte, or a run of bytes from there on, as no UTF-8. -/
def NamesPosition (message : Text) (position : Nat) : Prop :=
  ∃ what c rest, message = "Cannot read input file: ".toList ++
      ("'utf-8' codec can't decode ".toList ++ what ++ decimal position ++ c :: rest) ∧
    (what = "bytes in position ".toList ∨
      ∃ b : UInt8, what = "byte 0x".toList ++ hexadecimal 2 b.toNat ++ " in position ".toList) ∧
    c.isDigit = false

theorem undecodable_message (m : Malformed) :
    NamesPosition (ScriptProblem.undecodable m).message m.start := by
  have hcolon : ": ".toList = ':' :: " ".toList := rfl
  unfold NamesPosition ScriptProblem.message Malformed.message
  dsimp only
  split
  · refine ⟨"byte 0x".toList ++ hexadecimal 2 m.first.toNat ++ " in position ".toList, ':',
      " ".toList ++ m.flaw.text, ?_, Or.inr ⟨m.first, rfl⟩, rfl⟩
    simp only [hcolon, List.append_assoc, List.cons_append]
  · refine ⟨"bytes in position ".toList, '-',
      decimal (m.start + m.length - 1) ++ ": ".toList ++ m.flaw.text, ?_, Or.inl rfl, rfl⟩
    simp only [List.append_assoc, List.cons_append]

/-- A script is read exactly from encoded lines with line ends of any kind between them. From other
bytes nothing is read, and the message tells where the text in them ends. -/
theorem script_read_by_lines (content : Bytes) :
    (∀ lines, readScript (some content) = .ok lines ↔
      lines ≠ [] ∧ (∀ line ∈ lines, '\r' ∉ line ∧ '\n' ∉ line) ∧
      ∃ first further, lines = first :: further.map (·.2) ∧ Unmerged further ∧
        content = (laidOut first further).flatMap String.utf8EncodeChar) ∧
    (¬ WellFormed content → ∃ problem front, readScript (some content) = .error problem ∧
      LongestText content front ∧ NamesPosition problem.message front.length) := by
  constructor
  · intro lines
    rw [readScript_eq_ok_iff]
    constructor
    · rintro ⟨t, hcontent, rfl⟩
      obtain ⟨first, further, rfl, hlines, h⟩ := exists_laidOut t
      rw [scriptLines_laidOut hlines h]
      refine ⟨List.cons_ne_nil _ _, hlines, first, further, rfl, h, ?_⟩
      rw [Option.some.inj hcontent, encode_eq_utf8]
    · rintro ⟨-, hlines, first, further, rfl, h, rfl⟩
      exact ⟨_, by rw [encode_eq_utf8], (scriptLines_laidOut hlines h).symm⟩
  · intro hbad
    cases hd : decode content with
    | ok t => exact absurd (wellFormed_iff.mpr ⟨t, decode_eq_ok_iff.mp hd⟩) hbad
    | error m =>
      obtain ⟨front, hfront, hstart⟩ := exists_longestText hd
      rw [Nat.zero_add] at hstart
      refine ⟨.undecodable m, front, by simp only [readScript, hd], hfront, ?_⟩
      rw [← hstart]
      exact undecodable_message m

theorem truncated_script_refused :
    ¬ WellFormed [0x61, 0x0D, 0xE2, 0x82] ∧
      readScript (some [0x61, 0x0D, 0xE2, 0x82]) =
        .error (.undecodable ⟨2, 2, 0xE2, .unexpectedEnd⟩) ∧
      ∃ front, LongestText [0x61, 0x0D, 0xE2, 0x82] front ∧
        NamesPosition (ScriptProblem.undecodable ⟨2, 2, 0xE2, .unexpectedEnd⟩).message
          front.length := by
  have hd : decode [0x61, 0x0D, 0xE2, 0x82] = .error ⟨2, 2, 0xE2, .unexpectedEnd⟩ := by
    simp [decode, decodeFrom, lead?, readFollowing, Except.map, Except.mapError]
  have hbad : ¬ WellFormed [0x61, 0x0D, 0xE2, 0x82] := by
    intro h
    obtain ⟨t, ht⟩ := wellFormed_iff.mp h
    rw [decode_eq_ok_iff.mpr ht] at hd
    simp at hd
  have hread : readScript (some [0x61, 0x0D, 0xE2, 0x82]) =
      .error (.undecodable ⟨2, 2, 0xE2, .unexpectedEnd⟩) := by
    simp only [readScript, hd]
  obtain ⟨problem, front, hproblem, hfront, hnames⟩ := (script_read_by_lines _).2 hbad
  cases Except.error.inj (hread.symm.trans hproblem)
  exact ⟨hbad, hread, front, hfront, hnames⟩

end DirectoryScript
