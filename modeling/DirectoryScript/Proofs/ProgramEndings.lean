import DirectoryScript.CommandLine
import DirectoryScript.Proofs.JobFiles

namespace DirectoryScript

namespace Job

variable {j : Job} {s : FileStore}

/-- The script can be read and the output opened. -/
def Runnable (j : Job) (s : FileStore) : Prop :=
  (∃ t, j.Reads s t) ∧ ∃ place, s.placeToWrite j.outputPath = .ok place

theorem run_of_runnable (strip : Text → Text) (h : j.Runnable s) :
    ∃ blocks, (j.run strip s).result = .ok blocks := by
  obtain ⟨⟨t, ht⟩, place, hp⟩ := h
  exact ⟨_, by rw [run_eq strip (lines_of_reads ht) hp]⟩

theorem run_of_not_runnable (strip : Text → Text) (h : ¬j.Runnable s) :
    ∃ problem, j.run strip s = ⟨s, [], .error problem⟩ := by
  by_cases hreads : ∃ t, j.Reads s t
  · obtain ⟨t, ht⟩ := hreads
    cases hp : s.placeToWrite j.outputPath with
    | error problem => exact ⟨_, run_of_unopened (lines_of_reads ht) hp⟩
    | ok place => exact absurd ⟨⟨t, ht⟩, place, hp⟩ h
  · obtain ⟨problem, hrun, _⟩ := run_of_not_reads strip hreads
    exact ⟨problem, hrun⟩

theorem requested_empty (script : Text) (c : Clock) :
    requested script (some []) c = requested script none c := rfl

end Job

/-- The setting names a level once it is in upper case. -/
def KnownLevel (setting : Option Text) : Prop := levelName setting ∈ Level.named.map (·.1)

instance (setting : Option Text) : Decidable (KnownLevel setting) :=
  inferInstanceAs (Decidable (_ ∈ _))

theorem knownLevel_iff {setting : Option Text} :
    KnownLevel setting ↔ ∃ level, Level.ofName? (levelName setting) = some level := by
  simp only [KnownLevel, Level.ofName?, ← Option.isSome_iff_exists, Option.isSome_map,
    List.find?_isSome, List.mem_map, decide_eq_true_eq]

def doubleDash : Text := ['-', '-']

def helpOption : Text := "--help".toList

/-- An argument that is no option: one without a dash in front, or the dash alone. -/
def IsWord (arg : Text) : Prop := arg.head? ≠ some '-' ∨ arg = ['-']

instance (arg : Text) : Decidable (IsWord arg) := inferInstanceAs (Decidable (_ ∨ _))

/-- The arguments among which there may be options. The double dash ends them. -/
def beforeDashes (args : List Text) : List Text := args.takeWhile (· ≠ doubleDash)

/-- The arguments that are words whatever they begin with. -/
def afterDashes (args : List Text) : List Text := (args.dropWhile (· ≠ doubleDash)).drop 1

/-- A path under which there is no folder, and no file either that must not be read. -/
def MayBeFile (s : FileStore) (p : Text) : Prop :=
  nullChar ∉ p ∧ s.isFolder p = false ∧ (s.content? p = none ∨ (s.read p).isOk = true)

instance (s : FileStore) (p : Text) : Decidable (MayBeFile s p) :=
  inferInstanceAs (Decidable (_ ∧ _ ∧ _))

/-- The help option is among the arguments, and no other option. -/
structure AsksHelp (args : List Text) : Prop where
  options : ∀ arg ∈ beforeDashes args, IsWord arg ∨ arg = helpOption
  help : helpOption ∈ beforeDashes args

/-- One word or two and no option, and each word may be the path of a file. -/
structure AsksRun (s : FileStore) (args : List Text) (script : Text) (output : Option Text) :
    Prop where
  options : ∀ arg ∈ beforeDashes args, IsWord arg
  words : beforeDashes args ++ afterDashes args = script :: output.toList
  script : MayBeFile s script
  output : ∀ p, output = some p → MayBeFile s p

/-- What is relied on of reading the arguments: when the program is asked for help, and when for a
run. What help is, and what is said of arguments that ask for neither, is left open. -/
structure ReadsArguments (read : FileStore → List Text → Request) : Prop where
  help : ∀ s args, (∃ shown, read s args = .help shown) ↔ AsksHelp args
  run : ∀ s args script output, read s args = .run script output ↔ AsksRun s args script output

/-- The program can do what it is asked for. -/
def Answerable (s : FileStore) (setting : Option Text) (c : Clock) (args : List Text) : Prop :=
  AsksHelp args ∨ ∃ script output, AsksRun s args script output ∧ KnownLevel setting ∧
    (Job.requested script output c).Runnable s

namespace Ending

/-- The program has reported a fault, and nothing else has come of it. -/
structure Fails (s : FileStore) (e : Ending) : Prop where
  status : e.status ≠ 0
  store : e.store = s
  shown : e.shown = []

/-- The program has shown its help. -/
structure Helps (s : FileStore) (e : Ending) (shown : Text) : Prop where
  status : e.status = 0
  store : e.store = s
  shown : e.shown = shown

/-- The program has done a run and ends as the run does. -/
structure Completes (strip : Text → Text) (j : Job) (s : FileStore) (e : Ending) : Prop where
  status : e.status = 0
  run : ∃ blocks, j.run strip s = ⟨e.store, e.shown, .ok blocks⟩

end Ending

theorem Report.ending_of_error (s : FileStore) (problem : RunProblem) (strip : Text → Text)
    (log : Text) : ((⟨s, [], .error problem⟩ : Report).ending strip log).Fails s := by
  cases hsaid : problem.reported with
  | none =>
    simp only [Report.ending, hsaid]
    exact ⟨nofun, rfl, rfl⟩
  | some said =>
    simp only [Report.ending, hsaid]
    exact ⟨nofun, rfl, rfl⟩

variable {k : Toolkit} {s : FileStore} {setting : Option Text} {c : Clock} {args : List Text}
  {script : Text} {output : Option Text} {shown : Text}

theorem invoke_of_help (h : k.read s args = .help shown) :
    (invoke k s setting c args).Helps s shown := by
  simp only [invoke, h]
  exact ⟨rfl, rfl, rfl⟩

/-- Once a run is asked for, the level is looked up and the run is done, in this order. -/
theorem invoke_of_run (h : k.read s args = .run script output) {level : Level}
    (hlevel : Level.ofName? (levelName setting) = some level) :
    ∃ log, invoke k s setting c args =
      ((Job.requested script output c).run k.strip s).ending k.strip log := by
  simp only [invoke, h, hlevel]
  exact ⟨_, rfl⟩

theorem invoke_completes (h : k.read s args = .run script output) (hlevel : KnownLevel setting)
    (hrun : (Job.requested script output c).Runnable s) :
    (invoke k s setting c args).Completes k.strip (Job.requested script output c) s := by
  obtain ⟨level, hlevel⟩ := knownLevel_iff.mp hlevel
  obtain ⟨blocks, hblocks⟩ := Job.run_of_runnable k.strip hrun
  obtain ⟨log, hinvoke⟩ := invoke_of_run (c := c) h hlevel
  rw [hinvoke]
  simp only [Report.ending, hblocks]
  exact ⟨rfl, blocks, by rw [← hblocks]⟩

theorem invoke_fails (hk : ReadsArguments k.read) (h : ¬Answerable s setting c args) :
    (invoke k s setting c args).Fails s := by
  obtain ⟨hhelp, hrun⟩ := not_or.mp h
  cases hread : k.read s args with
  | misused complaint =>
    simp only [invoke, hread]
    exact ⟨nofun, rfl, rfl⟩
  | failed message =>
    simp only [invoke, hread]
    exact ⟨nofun, rfl, rfl⟩
  | help shown => exact absurd ((hk.help s args).mp ⟨shown, hread⟩) hhelp
  | run script output =>
    cases hlevel : Level.ofName? (levelName setting) with
    | none =>
      simp only [invoke, hread, hlevel]
      exact ⟨nofun, rfl, rfl⟩
    | some level =>
      have hasks := (hk.run s args script output).mp hread
      have hknown : KnownLevel setting := knownLevel_iff.mpr ⟨level, hlevel⟩
      obtain ⟨problem, hproblem⟩ := Job.run_of_not_runnable k.strip fun hrunnable =>
        hrun ⟨script, output, hasks, hknown, hrunnable⟩
      obtain ⟨log, hinvoke⟩ := invoke_of_run (c := c) hread hlevel
      rw [hinvoke, hproblem]
      exact Report.ending_of_error s problem k.strip log

theorem status_eq_zero_iff (hk : ReadsArguments k.read) :
    (invoke k s setting c args).status = 0 ↔ Answerable s setting c args := by
  constructor
  · intro h
    by_contra hnone
    exact (invoke_fails hk hnone).status h
  · intro h
    rcases h with hhelp | ⟨script, output, hasks, hlevel, hrunnable⟩
    · obtain ⟨shown, hread⟩ := (hk.help s args).mpr hhelp
      exact (invoke_of_help hread).status
    · have hread := (hk.run s args script output).mpr hasks
      exact (invoke_completes hread hlevel hrunnable).status

/-- Arguments that ask for a run ask for no other and for no help. -/
theorem ReadsArguments.answerable_iff (hk : ReadsArguments k.read)
    (hasks : AsksRun s args script output) : Answerable s setting c args ↔
      KnownLevel setting ∧ (Job.requested script output c).Runnable s := by
  have hread := (hk.run s args script output).mpr hasks
  constructor
  · intro h
    rcases h with hhelp | ⟨script', output', hasks', hdone⟩
    · obtain ⟨shown, hshown⟩ := (hk.help s args).mpr hhelp
      simp [hread] at hshown
    · have hread' := (hk.run s args script' output').mpr hasks'
      obtain ⟨rfl, rfl⟩ := Request.run.inj (hread'.symm.trans hread)
      exact hdone
  · intro hdone
    exact Or.inr ⟨script, output, hasks, hdone⟩

/-- A program that fails leaves the files as they were and shows nothing. Otherwise it has shown its
help, or leaves and shows what the run does that it was asked for. A run that was asked for is done
if the level is known, the script can be read and the output opened, and an empty output path is as
good as none. -/
theorem program_ends {k : Toolkit} (hk : ReadsArguments k.read) (s : FileStore)
    (setting : Option Text) (c : Clock) (args : List Text) :
    let e := invoke k s setting c args
    (e.status ≠ 0 → e.store = s ∧ e.shown = []) ∧
    (e.status = 0 → (AsksHelp args ∧ ∃ shown, k.read s args = .help shown ∧ e.Helps s shown) ∨
      ∃ script output, AsksRun s args script output ∧
        e.Completes k.strip (Job.requested script output c) s) ∧
    (∀ script output, AsksRun s args script output →
      (e.status = 0 ↔ KnownLevel setting ∧ (Job.requested script output c).Runnable s)) ∧
    ∀ script args', AsksRun s args script (some []) → AsksRun s args' script none →
      e = invoke k s setting c args' := by
  intro e
  refine ⟨?_, ?_, ?_, ?_⟩
  · intro hstatus
    have hfails : e.Fails s := invoke_fails hk (mt (status_eq_zero_iff hk).mpr hstatus)
    exact ⟨hfails.store, hfails.shown⟩
  · intro hstatus
    obtain hhelp | ⟨script, output, hasks, hlevel, hrunnable⟩ := (status_eq_zero_iff hk).mp hstatus
    · obtain ⟨shown, hread⟩ := (hk.help s args).mpr hhelp
      exact Or.inl ⟨hhelp, shown, hread, invoke_of_help hread⟩
    · have hread := (hk.run s args script output).mpr hasks
      exact Or.inr ⟨script, output, hasks, invoke_completes hread hlevel hrunnable⟩
  · intro script output hasks
    exact (status_eq_zero_iff hk).trans (hk.answerable_iff hasks)
  · intro script args' hasks hasks'
    have hread := (hk.run s args script (some [])).mpr hasks
    have hread' := (hk.run s args' script none).mpr hasks'
    show invoke k s setting c args = invoke k s setting c args'
    simp only [invoke, hread, hread', Job.requested_empty]

def usage : Text := "SCRIPT [OUTPUT]".toList

/-- A reader of arguments that says as little as it can. -/
def readPlainly (s : FileStore) (args : List Text) : Request :=
  if ∀ arg ∈ beforeDashes args, IsWord arg then
    match beforeDashes args ++ afterDashes args with
    | [script] => if MayBeFile s script then .run script none else .misused usage
    | [script, output] =>
      if MayBeFile s script ∧ MayBeFile s output then .run script (some output)
      else .misused usage
    | _ => .misused usage
  else if ∀ arg ∈ beforeDashes args, IsWord arg ∨ arg = helpOption then .help usage
  else .misused usage

theorem readPlainly_eq_run_iff :
    readPlainly s args = .run script output ↔ AsksRun s args script output := by
  constructor
  · intro h
    unfold readPlainly at h
    split at h
    next hoptions =>
      split at h
      next first hwords =>
        split at h
        next hfirst =>
          obtain ⟨rfl, rfl⟩ := Request.run.inj h
          exact ⟨hoptions, hwords, hfirst, nofun⟩
        next => simp at h
      next first second hwords =>
        split at h
        next hboth =>
          obtain ⟨rfl, rfl⟩ := Request.run.inj h
          refine ⟨hoptions, hwords, hboth.1, ?_⟩
          intro p hp
          exact Option.some.inj hp ▸ hboth.2
        next => simp at h
      next => simp at h
    next =>
      split at h
      next => simp at h
      next => simp at h
  · intro h
    rw [readPlainly, if_pos h.options, h.words]
    cases output with
    | none => exact if_pos h.script
    | some p => exact if_pos ⟨h.script, h.output p rfl⟩

theorem not_isWord_helpOption : ¬IsWord helpOption := by decide

theorem readPlainly_eq_help_iff : (∃ shown, readPlainly s args = .help shown) ↔ AsksHelp args := by
  constructor
  · intro h
    obtain ⟨shown, h⟩ := h
    unfold readPlainly at h
    split at h
    next =>
      split at h
      next => split at h <;> simp at h
      next => split at h <;> simp at h
      next => simp at h
    next hoption =>
      split at h
      next hoptions =>
        refine ⟨hoptions, ?_⟩
        by_contra hnone
        apply hoption
        intro arg hm
        exact (hoptions arg hm).resolve_right fun he => hnone (he ▸ hm)
      next => simp at h
  · intro h
    have hoption : ¬∀ arg ∈ beforeDashes args, IsWord arg := fun hall =>
      not_isWord_helpOption (hall helpOption h.help)
    exact ⟨usage, by rw [readPlainly, if_neg hoption, if_pos h.options]⟩

/-- Behind a double dash a path may begin with a dash. -/
theorem dashed_script_run :
    let k : Toolkit := ⟨readPlainly, fun t => t⟩
    let s : FileStore := ⟨[], [(["-s".toList], .file (encode "up".toList))], fun _ => none,
      fun _ => 0⟩
    let setting := some "warn".toList
    let args := ["--".toList, "-s".toList, "o".toList]
    ReadsArguments k.read ∧
    (AsksRun s args "-s".toList (some "o".toList) ∧ KnownLevel setting ∧
      (Job.requested "-s".toList (some "o".toList) {}).Runnable s ∧
      (invoke k s setting {} args).status = 0) ∧
    (invoke k s setting {} (args.drop 1)).status ≠ 0 ∧
      (invoke k s setting {} (args.drop 1)).store = s := by
  intro k s setting args
  have hk : ReadsArguments k.read :=
    ⟨fun _ _ => readPlainly_eq_help_iff, fun _ _ _ _ => readPlainly_eq_run_iff⟩
  have hasks : AsksRun s args "-s".toList (some "o".toList) :=
    readPlainly_eq_run_iff.mp rfl
  have hlevel : KnownLevel setting := by decide +kernel
  have hrunnable : (Job.requested "-s".toList (some "o".toList) {}).Runnable s :=
    ⟨⟨"up".toList, rfl, rfl⟩, ["o".toList], rfl⟩
  have hread : k.read s (args.drop 1) = .misused usage := rfl
  have hfailed : (invoke k s setting {} (args.drop 1)).status ≠ 0 := by
    simp only [invoke, hread]
    decide
  refine ⟨hk, ⟨hasks, hlevel, hrunnable, ?_⟩, hfailed, ?_⟩
  · exact ((program_ends hk s setting {} args).2.2.1 _ _ hasks).mpr ⟨hlevel, hrunnable⟩
  · exact ((program_ends hk s setting {} (args.drop 1)).1 hfailed).1

end DirectoryScript
