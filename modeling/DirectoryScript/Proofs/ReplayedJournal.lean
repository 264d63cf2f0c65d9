import DirectoryScript.Proofs.LineGrammar
import DirectoryScript.Proofs.ResultLines

namespace DirectoryScript

/-- The line has a source, or no destination, if it is a command. -/
def Aligned (raw : Text) : Prop :=
  ∀ c, Command.parse (trim raw) = .ok c → c.source ≠ [] ∨ c.destination = []

/-- The commands that are echoed among some blocks, as lines of a script. -/
def journal (blocks : List Text) : List Text :=
  (blocks.filter isEcho).map fun block => block.drop echoLabel.length

def withoutRejections (blocks : List Text) : List Text :=
  blocks.filter fun block => !isRejection block

theorem journal_append (before after : List Text) :
    journal (before ++ after) = journal before ++ journal after := by
  simp [journal]

theorem withoutRejections_append (before after : List Text) :
    withoutRejections (before ++ after) = withoutRejections before ++ withoutRejections after := by
  simp [withoutRejections]

theorem journal_rejection (rejected : RejectedLine) : journal [rejected.message] = [] := rfl

theorem withoutRejections_rejection (rejected : RejectedLine) :
    withoutRejections [rejected.message] = [] := rfl

theorem Continues.not_echo {block : Text} (h : Continues block) : isEcho block = false :=
  (Bool.or_eq_false_iff.mp h.not_opens).1

theorem Continues.not_rejection {block : Text} (h : Continues block) : isRejection block = false :=
  (Bool.or_eq_false_iff.mp h.not_opens).2

/-- The results of a command are never taken for an echo, so only the command is found again. -/
theorem journal_echo (c : Command) {results : List Text} (h : ∀ block ∈ results, Continues block) :
    journal (c.echo :: results) = [c.written] := by
  have hnone : results.filter isEcho = [] := by
    apply List.filter_eq_nil_iff.mpr
    intro block hm
    simp [(h block hm).not_echo]
  have hecho : isEcho c.echo = true := rfl
  rw [journal, List.filter_cons_of_pos hecho, hnone]
  rfl

theorem withoutRejections_echo (c : Command) {results : List Text}
    (h : ∀ block ∈ results, Continues block) :
    withoutRejections (c.echo :: results) = c.echo :: results := by
  apply List.filter_eq_self.mpr
  intro block hm
  rcases List.mem_cons.mp hm with rfl | hm
  · rfl
  · simp [(h block hm).not_rejection]

theorem Command.fields_of_parse {line : Text} {c : Command} (h : parse line = .ok c) :
    Trimmed c.source ∧ c.source.length ≤ sourceWidth ∧ Trimmed c.destination := by
  obtain ⟨_, hcolumns, _⟩ := parse_eq_ok_iff.mp h
  obtain ⟨_, hs, hd⟩ := Columns.ofLine_trimmed line
  have hlength : (Columns.ofLine line).source.length ≤ sourceWidth :=
    Nat.le_trans (length_trim_le _) (List.length_take_le _ _)
  rw [hcolumns] at hs hd hlength
  exact ⟨hs, hlength, hd⟩

theorem Command.parse_written_of_parse {line : Text} {c : Command} (h : parse line = .ok c)
    (ha : c.source ≠ [] ∨ c.destination = []) :
    parse (trim c.written) = .ok { c with line := c.written } := by
  obtain ⟨_, hcolumns, hn⟩ := parse_eq_ok_iff.mp h
  obtain ⟨hs, hlength, hd⟩ := fields_of_parse h
  rw [hcolumns] at hn
  exact parse_written hs hlength hd ha hn

namespace Workspace

variable {w : Workspace} {raw : Text}

/-- A command does what it does whatever line it was read from. -/
theorem execute_line (w : Workspace) (c : Command) (line : Text) :
    w.execute { c with line } = w.execute c := rfl

/-- A line does what is written of its command does. -/
theorem runLine_written {c : Command} (hp : Command.parse (trim raw) = .ok c)
    (ha : Aligned raw) : w.runLine c.written = w.runLine raw := by
  rw [runLine_of_parse (Command.parse_written_of_parse hp (ha c hp)), execute_line,
    runLine_of_parse hp]

/-- The journal of a line is the line again, so far as it does anything. -/
theorem runLines_journal_line (hw : w.Sound) (ha : Aligned raw) (more : List Text) :
    w.runLines (journal (w.runLine raw).blocks ++ more) =
      { (w.runLine raw).workspace.runLines more with
        blocks := withoutRejections (w.runLine raw).blocks ++
          ((w.runLine raw).workspace.runLines more).blocks } := by
  have hprints := runLine_prints hw raw
  generalize hb : (w.runLine raw).blocks = blocks at hprints ⊢
  cases hprints with
  | @rejected rejected hp =>
    have hrun : w.runLine raw = ⟨w, [rejected.message], none⟩ := by simp [runLine, hp]
    rw [hrun, journal_rejection, withoutRejections_rejection]
    rfl
  | @echoed c results hp hresults =>
    have hwritten := runLine_written hp ha (w := w)
    rw [journal_echo c hresults, withoutRejections_echo c hresults, List.singleton_append,
      runLines_cons hw, hwritten, hb]

/-- The journal of a run does what the run did, from where the run began. -/
theorem runLines_journal (hw : w.Sound) {lines : List Text} (h : ∀ raw ∈ lines, Aligned raw) :
    w.runLines (journal (w.runLines lines).blocks) =
      { w.runLines lines with blocks := withoutRejections (w.runLines lines).blocks } := by
  induction lines generalizing w with
  | nil => rfl
  | cons raw lines ih =>
    have hsound := (runLine_sound hw raw).2
    have hrest := ih hsound fun other hm => h other (List.mem_cons_of_mem raw hm)
    rw [runLines_cons hw, journal_append, withoutRejections_append,
      runLines_journal_line hw (h raw List.mem_cons_self), hrest]

/-- The echoes of a session, run as a script, bring about the same directories and the same
position, and print what the session printed but for its rejections. -/
theorem journal_replays {lines : List Text} (h : ∀ raw ∈ lines, Aligned raw) :
    (runLines {} (journal (runLines {} lines).blocks)).workspace =
        (runLines {} lines).workspace ∧
      (runLines {} (journal (runLines {} lines).blocks)).blocks =
        withoutRejections (runLines {} lines).blocks ∧
      (runLines {} (journal (runLines {} lines).blocks)).fault = none := by
  rw [runLines_journal sound_fresh h]
  exact ⟨rfl, rfl, (runLines_keeps_sound sound_fresh lines).1⟩

theorem padded_session_replays :
    (∀ raw ∈ ["mkdir    a  ".toList, "cd".toList, "mkdir   a".toList, "tree    x y".toList],
        Aligned raw) ∧
      (runLines {} (journal (runLines {} ["mkdir    a  ".toList, "cd".toList, "mkdir   a".toList,
        "tree    x y".toList]).blocks)).blocks =
        ["Command: mkdir   a".toList, "Command: mkdir   a".toList,
          "Subdirectory already exists".toList, "Command: tree    x y".toList,
          "Tree of root:".toList, ".".toList, "└── a".toList] := by
  have h : ∀ raw ∈ ["mkdir    a  ".toList, "cd".toList, "mkdir   a".toList, "tree    x y".toList],
      Aligned raw := by
    intro raw hm c hp
    simp only [List.mem_cons, List.not_mem_nil, or_false] at hm
    rcases hm with rfl | rfl | rfl | rfl
    · cases hp
      exact Or.inr rfl
    · cases hp
    · cases hp
      exact Or.inr rfl
    · cases hp
      exact Or.inr rfl
  exact ⟨h, (journal_replays h).2.1⟩

end Workspace

end DirectoryScript
