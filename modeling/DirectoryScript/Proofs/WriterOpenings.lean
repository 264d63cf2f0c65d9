import DirectoryScript.BlockWriter
import DirectoryScript.Proofs.FileWrites

namespace DirectoryScript

theorem encode_append (t u : Text) : encode (t ++ u) = encode t ++ encode u :=
  List.flatMap_append

theorem join_concat {sep : Char} {pieces : List Text} (hne : pieces ≠ []) (last : Text) :
    join sep (pieces ++ [last]) = join sep pieces ++ sep :: last := by
  induction pieces with
  | nil => exact absurd rfl hne
  | cons piece pieces ih =>
    by_cases hnext : pieces = []
    · subst hnext
      rfl
    · rw [List.cons_append, join_cons (by simp), ih hnext, join_cons hnext]
      simp

/-- A text as a string. -/
def asString (t : Text) : List CodePoint := t.map .char

theorem charactersFrom_asString (start : Nat) (t : Text) :
    charactersFrom start (asString t) = .ok t := by
  induction t generalizing start with
  | nil => rfl
  | cons c t ih =>
    have hrest := ih (start + 1)
    rw [asString, List.map_cons, charactersFrom, ← asString, hrest]
    rfl

namespace OpenWriter

variable {o : OpenWriter} {s : FileStore} {bytes : Bytes} {blocks : List Text}

/-- The bytes that have been handed over since the writer was opened. Some of them are in its file,
and the others wait; nothing else in the store has changed. -/
def Handed (o : OpenWriter) (s : FileStore) (bytes : Bytes) : Prop :=
  ∃ front, o.store = s.write o.place front ∧ front ++ o.waiting = bytes

/-- What is let through leaves the buffer and is added to the file. -/
theorem Handed.put (h : o.Handed s bytes) (t : Text) : (o.put t).Handed s (bytes ++ encode t) := by
  obtain ⟨front, hstore, rfl⟩ := h
  let waiting := o.waiting ++ encode t
  let passed := o.store.passes o.handed
  refine ⟨front ++ waiting.take passed, ?_, ?_⟩
  · show o.store.extend o.place (waiting.take passed) = _
    rw [hstore, FileStore.extend_write]
    rfl
  · show front ++ waiting.take passed ++ waiting.drop passed = _
    rw [List.append_assoc, List.take_append_drop, List.append_assoc]

theorem Handed.closed (h : o.Handed s bytes) : o.closed.store = s.write o.place bytes := by
  obtain ⟨front, hstore, rfl⟩ := h
  show o.store.extend o.place o.waiting = _
  rw [hstore, FileStore.extend_write]

/-- The writer has handed over some blocks, joined by line feeds, and has counted them. -/
structure Keeps (o : OpenWriter) (s : FileStore) (blocks : List Text) : Prop where
  handed : o.Handed s (encode (join '\n' blocks))
  written : o.written = blocks.length

/-- The separator depends on the count alone, so an empty first block is followed by one too. -/
theorem Keeps.separate (h : o.Keeps s blocks) : o.separate.Handed s
    (encode (join '\n' blocks ++ if blocks = [] then [] else ['\n'])) := by
  rw [OpenWriter.separate]
  by_cases hnone : blocks = []
  · have hcount : o.written = 0 := by rw [h.written, hnone, List.length_nil]
    rw [if_pos hcount, if_pos hnone, List.append_nil]
    exact h.handed
  · have hcount : o.written ≠ 0 := by
      rw [h.written]
      exact List.length_eq_zero_iff.not.mpr hnone
    rw [if_neg hcount, if_neg hnone, encode_append]
    exact h.handed.put ['\n']

theorem separate_fields (o : OpenWriter) : o.separate.place = o.place ∧ o.separate.path = o.path ∧
    o.separate.echoes = o.echoes ∧ o.separate.strip = o.strip ∧ o.separate.shown = o.shown ∧
    o.separate.written = o.written := by
  unfold separate
  split
  · exact ⟨rfl, rfl, rfl, rfl, rfl, rfl⟩
  · exact ⟨rfl, rfl, rfl, rfl, rfl, rfl⟩

theorem Keeps.write (h : o.Keeps s blocks) (block : Text) :
    (o.write block).Keeps s (blocks ++ [block]) := by
  have hput := h.separate.put block
  have hjoin : join '\n' blocks ++ (if blocks = [] then [] else ['\n']) ++ block =
      join '\n' (blocks ++ [block]) := by
    by_cases hnone : blocks = []
    · subst hnone
      rfl
    · rw [if_neg hnone, join_concat hnone, List.append_assoc]
      rfl
  rw [← encode_append, hjoin] at hput
  refine ⟨hput, ?_⟩
  have hcount : o.separate.written = o.written := (separate_fields o).2.2.2.2.2
  show o.separate.written + 1 = (blocks ++ [block]).length
  rw [hcount, h.written, List.length_append, List.length_singleton]

theorem Keeps.writeAll (h : o.Keeps s blocks) (more : List Text) :
    (o.writeAll more).Keeps s (blocks ++ more) := by
  induction more generalizing o blocks with
  | nil => simpa [OpenWriter.writeAll] using h
  | cons block more ih => simpa [OpenWriter.writeAll] using ih (h.write block)

/-- An open writer goes on writing to its own place under its own path. -/
theorem writeAll_keeps_target (o : OpenWriter) (blocks : List Text) :
    (o.writeAll blocks).path = o.path ∧ (o.writeAll blocks).place = o.place := by
  induction blocks generalizing o with
  | nil => exact ⟨rfl, rfl⟩
  | cons block blocks ih =>
    obtain ⟨hplace, hpath, _⟩ := separate_fields o
    obtain ⟨hpath', hplace'⟩ := ih (o.write block)
    exact ⟨hpath'.trans hpath, hplace'.trans hplace⟩

theorem shown_write (o : OpenWriter) (block : Text) : (o.write block).shown =
    if o.echoes then o.shown ++ shownBlock o.strip block else o.shown := by
  obtain ⟨_, _, hechoes, hstrip, hshown, _⟩ := separate_fields o
  show (if o.separate.echoes then o.separate.shown ++ shownBlock o.separate.strip block
    else o.separate.shown) = _
  rw [hechoes, hstrip, hshown]

theorem shown_writeAll (o : OpenWriter) (blocks : List Text) : (o.writeAll blocks).shown =
    o.shown ++ if o.echoes then shownBlocks o.strip blocks else [] := by
  induction blocks generalizing o with
  | nil => simp [writeAll, shownBlocks]
  | cons block blocks ih =>
    obtain ⟨_, _, hechoes, hstrip, _⟩ := separate_fields o
    have hechoes' : (o.write block).echoes = o.echoes := hechoes
    have hstrip' : (o.write block).strip = o.strip := hstrip
    rw [writeAll, List.foldl_cons, ← writeAll, ih (o.write block), hechoes', hstrip', shown_write]
    by_cases he : o.echoes = true
    · simp [he, shownBlocks]
    · simp [he]

/-- Strings without surrogates are written like the texts that they are. -/
theorem writeStrings_asString (o : OpenWriter) (blocks : List Text) :
    o.writeStrings (blocks.map asString) = (o.writeAll blocks, none) := by
  induction blocks generalizing o with
  | nil => rfl
  | cons block blocks ih =>
    rw [List.map_cons, writeStrings, characters, charactersFrom_asString]
    exact ih (o.write block)

/-- Whatever strings are written, and however far it comes, the writer keeps to its file. -/
theorem writeStrings_keeps_target (h : o.Keeps s blocks) (strings : List (List CodePoint)) :
    (∃ bytes, (o.writeStrings strings).1.Handed s bytes) ∧
      (o.writeStrings strings).1.place = o.place ∧ (o.writeStrings strings).1.path = o.path := by
  induction strings generalizing o blocks with
  | nil => exact ⟨⟨_, h.handed⟩, rfl, rfl⟩
  | cons string strings ih =>
    obtain ⟨hplace, hpath, _⟩ := separate_fields o
    rw [writeStrings]
    split
    next block _ =>
      obtain ⟨hhanded, hplace', hpath'⟩ := ih (h.write block)
      exact ⟨hhanded, hplace'.trans hplace, hpath'.trans hpath⟩
    next => exact ⟨⟨_, h.separate⟩, hplace, hpath⟩

end OpenWriter

namespace BlockWriter

variable {w first between : BlockWriter} {o : OpenWriter} {place : List Text}

theorem opened_of_placed (h : w.store.placeToWrite w.path = .ok place) :
    ∃ o, w.opened = .ok o ∧ o.path = w.path ∧ o.place = place ∧ o.echoes = w.echoes ∧
      o.strip = w.strip ∧ o.shown = w.shown ∧ o.Keeps w.store [] := by
  refine ⟨⟨{ w with store := w.store.write place [], written := 0 }, place, []⟩, ?_, rfl, rfl, rfl,
    rfl, rfl, ⟨[], rfl, rfl⟩, rfl⟩
  rw [opened, h]
  rfl

/-- A writer before its next opening. What it has written so far will be gone when it has written
again. -/
structure Follows (w first : BlockWriter) (place : List Text) : Prop where
  path : w.path = first.path
  placed : w.store.placeToWrite w.path = .ok place
  store : ∀ content, w.store.write place content = first.store.write place content

/-- What an open writer has done that has written some blocks since it was opened: its file holds
the beginning of them until it is closed, and then all of them. Its store is the one that a first
opening would have led to. -/
structure HasWritten (first : BlockWriter) (place : List Text) (blocks : List Text)
    (o : OpenWriter) : Prop where
  begun : ∃ front, o.store.content? first.path = some front ∧ front <+: encode (join '\n' blocks)
  text : o.closed.store.content? first.path = some (encode (join '\n' blocks))
  count : o.written = blocks.length
  afresh : o.closed.store = first.store.write place (encode (join '\n' blocks))
  others : ∀ other, other ≠ place → o.store.node? other = first.store.node? other ∧
    o.closed.store.node? other = first.store.node? other

/-- What is handed over in a later opening is in the store of the first one as if it had been handed
over there. -/
theorem Follows.handed {bytes : Bytes} (h : w.Follows first place) (hplace : o.place = place)
    (ho : o.Handed w.store bytes) : o.Handed first.store bytes := by
  obtain ⟨front, hstore, hbytes⟩ := ho
  refine ⟨front, ?_, hbytes⟩
  rw [hstore, hplace, h.store]

theorem Follows.closed {bytes : Bytes} (hfirst : first.store.placeToWrite first.path = .ok place)
    (hpath : o.path = first.path) (hplace : o.place = place) (ho : o.Handed first.store bytes) :
    o.closed.Follows first place := by
  have hstore : o.closed.store = first.store.write place bytes := by rw [ho.closed, hplace]
  refine ⟨hpath, ?_, fun content => ?_⟩
  · have hclosed : o.closed.path = first.path := hpath
    rw [hstore, hclosed]
    exact FileStore.placeToWrite_write hfirst
  · rw [hstore]
    exact FileStore.write_write _ _ _ _

theorem hasWritten_of_keeps (hfirst : first.store.placeToWrite first.path = .ok place)
    {blocks : List Text} (hplace : o.place = place) (ho : o.Keeps first.store blocks) :
    HasWritten first place blocks o := by
  have hclosed := ho.handed.closed
  obtain ⟨front, hstore, hfront⟩ := ho.handed
  rw [hplace] at hclosed hstore
  constructor
  case begun =>
    refine ⟨front, ?_, ⟨o.waiting, hfront⟩⟩
    rw [hstore]
    exact FileStore.content?_write hfirst
  case text =>
    rw [hclosed]
    exact FileStore.content?_write hfirst
  case count => exact ho.written
  case afresh => exact hclosed
  case others =>
    intro other hother
    rw [hstore, hclosed]
    exact ⟨FileStore.node?_write_other hfirst hother, FileStore.node?_write_other hfirst hother⟩

theorem Follows.opening (hfirst : first.store.placeToWrite first.path = .ok place)
    (h : w.Follows first place) : ∃ o, w.opened = .ok o ∧ o.written = 0 ∧
      (∀ blocks, HasWritten first place blocks (o.writeAll blocks)) ∧
      ∀ strings, (o.writeStrings strings).1.closed.Follows first place := by
  obtain ⟨o, ho, hpath, hplace, _, _, _, hkeeps⟩ := opened_of_placed h.placed
  refine ⟨o, ho, hkeeps.written, fun blocks => ?_, fun strings => ?_⟩
  · have hall := hkeeps.writeAll blocks
    have hplace' := (o.writeAll_keeps_target blocks).2.trans hplace
    rw [List.nil_append] at hall
    exact hasWritten_of_keeps hfirst hplace' ⟨h.handed hplace' hall.handed, hall.written⟩
  · obtain ⟨⟨bytes, hbytes⟩, hplace', hpath'⟩ := OpenWriter.writeStrings_keeps_target hkeeps strings
    have hsame : (o.writeStrings strings).1.path = first.path := by rw [hpath', hpath, h.path]
    exact .closed hfirst hsame (hplace'.trans hplace) (h.handed (hplace'.trans hplace) hbytes)

theorem openings_follow (hfirst : first.store.placeToWrite first.path = .ok place)
    (h : w.Follows first place) (before : List (List (List CodePoint))) :
    ∃ between, w.openings before = .ok between ∧ between.Follows first place := by
  induction before generalizing w with
  | nil => exact ⟨w, rfl, h⟩
  | cons strings more ih =>
    obtain ⟨o, ho, _, _, hclosed⟩ := h.opening hfirst
    obtain ⟨between, hmore, hbetween⟩ := ih (hclosed strings)
    exact ⟨between, by simp only [openings, ho, hmore], hbetween⟩

theorem openings_concat {before : List (List (List CodePoint))}
    (h : w.openings before = .ok between) (ho : between.opened = .ok o) (blocks : List Text) :
    w.openings (before ++ [blocks.map asString]) = .ok (o.writeAll blocks).closed := by
  induction before generalizing w with
  | nil =>
    cases Except.ok.inj h
    simp only [List.nil_append, openings, ho, OpenWriter.writeStrings_asString]
  | cons earlier more ih =>
    rw [openings] at h
    rw [List.cons_append, openings]
    split at h
    next => simp at h
    next => exact ih h

/-- However often a writer has been opened, whatever was in its file before, and also when an
earlier opening ended at a string that has no encoding: once an opening is closed the file holds the
blocks written in it, joined by line feeds. Until then it holds a beginning of that. The count of
blocks begins at zero each time and counts every block. -/
theorem each_opening_joined {w : BlockWriter} {place : List Text}
    (h : w.store.placeToWrite w.path = .ok place) (before : List (List (List CodePoint))) :
    ∃ between o, w.openings before = .ok between ∧ between.opened = .ok o ∧ o.written = 0 ∧
      ∀ blocks, HasWritten w place blocks (o.writeAll blocks) ∧
        o.writeStrings (blocks.map asString) = (o.writeAll blocks, none) ∧
        (o.writeAll blocks).shown =
          o.shown ++ (if o.echoes then shownBlocks o.strip blocks else []) ∧
        w.openings (before ++ [blocks.map asString]) = .ok (o.writeAll blocks).closed := by
  obtain ⟨between, hbetween, hfollows⟩ := openings_follow h ⟨rfl, h, fun _ => rfl⟩ before
  obtain ⟨o, ho, hcount, hall, _⟩ := hfollows.opening h
  refine ⟨between, o, hbetween, ho, hcount, fun blocks => ⟨hall blocks, ?_, ?_, ?_⟩⟩
  · exact o.writeStrings_asString blocks
  · exact o.shown_writeAll blocks
  · exact openings_concat hbetween ho blocks

/-- Neither bytes that are no text nor an earlier opening leave a trace, not even one that ended at
a surrogate, and an empty block counts. -/
theorem empty_block_after_reopening :
    let w : BlockWriter :=
      { path := "out".toList, echoes := false, strip := id, written := 7
        store := { home := [], nodes := [(["out".toList], .file [0xFF])] } }
    w.store.placeToWrite w.path = .ok ["out".toList] ∧
      ∃ between o, w.openings [[asString "stale".toList, [.surrogate 0]], []] = .ok between ∧
        between.opened = .ok o ∧ o.written = 0 ∧
        (o.writeAll [[]]).closed.store.content? w.path = some [] ∧
        (o.writeAll [[], "a\nb".toList]).closed.store.content? w.path =
          some (encode "\na\nb".toList) ∧
        (o.writeAll [[], "a\nb".toList]).written = 2 := by
  intro w
  have hplaced : w.store.placeToWrite w.path = .ok ["out".toList] := rfl
  obtain ⟨between, o, hbetween, ho, hcount, hall⟩ :=
    each_opening_joined hplaced [[asString "stale".toList, [.surrogate 0]], []]
  have hfirst := (hall [[]]).1
  have hboth := (hall [[], "a\nb".toList]).1
  exact ⟨hplaced, between, o, hbetween, ho, hcount, hfirst.text, hboth.text, hboth.count⟩

/-- A short block waits until the writer is closed, and a surrogate is found out only when the line
feed before it has been handed over. -/
theorem block_waits_and_surrogate_fails :
    let w : BlockWriter :=
      { path := "out".toList, echoes := false, strip := id, store := { home := [] } }
    ∃ o, w.opened = .ok o ∧
      (o.writeAll ["a".toList]).store.content? w.path ≠ some (encode (join '\n' ["a".toList])) ∧
      o.writeStrings [asString "a".toList, [.surrogate 0]] =
        ((o.write "a".toList).separate, some ⟨0, 1, 0⟩) ∧
      (o.write "a".toList).separate.written = 1 ∧
      (o.write "a".toList).separate.closed.store.content? w.path = some (encode "a\n".toList) := by
  intro w
  exact ⟨_, rfl, by decide, rfl, rfl, rfl⟩

end BlockWriter

end DirectoryScript
