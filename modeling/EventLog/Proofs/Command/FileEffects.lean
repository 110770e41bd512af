import EventLog.Command.Plan
import EventLog.Proofs.Files.Places
import EventLog.Proofs.Snapshot.Rewrite

/-!
# What a command line does to files

Of the three commands only that of the table writes a file, and it does so as its last step.
`runCommand_files` says what follows for the files of every run that ends. It rests on two facts
about plans: what holds of files and is kept by each write that a plan may make holds after its run
(`WritesOnly.invariant`, by induction on the plan), and the run of a table has one of three ends,
according to the first step that fails. Paths are compared by the places that they lead to, so
nothing depends on how a path is spelled, or on whether the table is written over the store or over
the settings.
-/

namespace EventLog

/-! ## Changes to some files only -/

/-- Files that differ from earlier ones in what is written at some paths, and in nothing else. -/
structure Files.ChangedOnly (paths : String → Prop) (before after : Files) : Prop where
  directories : before.SameDirectories after
  content : ∀ place, (∀ path, paths path → before.locateOutput path ≠ .ok place) →
    after.content? place = before.content? place

theorem Files.ChangedOnly.refl (paths : String → Prop) (files : Files) :
    files.ChangedOnly paths files :=
  ⟨.refl files, fun _ _ => rfl⟩

/-- Writing a file at one of the paths changes no other. -/
theorem Files.ChangedOnly.write {paths : String → Prop} {before files written : Files}
    {path : String} {content : ByteArray} (h : before.ChangedOnly paths files)
    (hpath : paths path) (hwrite : files.write path content = .ok written) :
    before.ChangedOnly paths written := by
  refine ⟨h.directories.trans (sameDirectories_of_write hwrite), fun place hplace => ?_⟩
  obtain ⟨target, htarget, rfl⟩ := write_eq_ok.1 hwrite
  have hne : place ≠ target := by
    rintro rfl
    exact hplace path hpath (h.directories.locateOutput_iff.1 htarget)
  rw [content?_put_of_ne files hne, h.content place hplace]

namespace Plan

/-! ## Plans that write some files only -/

/-- A plan that writes files at some paths only, whatever it finds in those that it reads. -/
inductive WritesOnly (paths : String → Prop) : Plan → Prop where
  | exit (code : Nat) (complaint : String) : WritesOnly paths (.exit code complaint)
  | print (text : String) {next : Plan} (hnext : WritesOnly paths next) :
    WritesOnly paths (.print text next)
  | read (path : String) {next : Except FileFault ByteArray → Plan}
    (hnext : ∀ content, WritesOnly paths (next content)) : WritesOnly paths (.read path next)
  | write {path : String} (hpath : paths path) (content : String) {next : Option FileFault → Plan}
    (hnext : ∀ fault, WritesOnly paths (next fault)) : WritesOnly paths (.write path content next)
  | monitor (path : String) (settings : MonitorSettings) :
    WritesOnly paths (.monitor path settings)

/-- What every write of a plan keeps holds after its run. -/
theorem WritesOnly.invariant {paths : String → Prop} {P : Files → Prop}
    (hwrite : ∀ {files written path content}, paths path → P files →
      files.write path content = .ok written → P written)
    {plan : Plan} (hplan : plan.WritesOnly paths) {files : Files} {outcome : Outcome}
    (hfiles : P files) (hrun : plan.run files = some outcome) : P outcome.files := by
  induction hplan generalizing files outcome with
  | exit code complaint =>
    cases hrun
    exact hfiles
  | print text _ ih =>
    rw [run] at hrun
    obtain ⟨later, hlater, rfl⟩ := Option.map_eq_some_iff.1 hrun
    change P later.files
    exact ih hfiles hlater
  | read path _ ih => exact ih (files.read path) hfiles hrun
  | @write path hpath content next _ ih =>
    rw [run] at hrun
    split at hrun
    · next written hwritten => exact ih none (hwrite hpath hfiles hwritten) hrun
    · next fault _ => exact ih (some fault) hfiles hrun
  | monitor path settings =>
    rw [run] at hrun
    obtain ⟨ended, -, hended⟩ := Option.bind_eq_some_iff.1 hrun
    split at hended <;> (cases hended; exact hfiles)

/-- Such a plan changes no file at another path. -/
theorem WritesOnly.changedOnly {paths : String → Prop} {plan : Plan} {files : Files}
    {outcome : Outcome} (hplan : plan.WritesOnly paths) (hrun : plan.run files = some outcome) :
    files.ChangedOnly paths outcome.files :=
  hplan.invariant (fun hpath h => h.write hpath) (.refl paths files) hrun

/-- A plan that writes at no path leaves the files as they are. -/
theorem WritesOnly.files_eq {paths : String → Prop} (hnone : ∀ path, ¬ paths path) {plan : Plan}
    {files : Files} {outcome : Outcome} (hplan : plan.WritesOnly paths)
    (hrun : plan.run files = some outcome) : outcome.files = files :=
  hplan.invariant (P := (· = files)) (fun hpath => absurd hpath (hnone _)) rfl hrun

/-- To go on with a result or to end with its failure adds no write. -/
theorem writesOnly_attempt {α : Type} {paths : String → Prop} (result : Except Failure α)
    {next : α → Plan} (hnext : ∀ a, (next a).WritesOnly paths) :
    (attempt result next).WritesOnly paths := by
  cases result with
  | error failure => exact .exit _ _
  | ok a => exact hnext a

end Plan

/-- The paths at which a command writes. -/
def Command.outputs : Command → List String
  | .timewarp _ => []
  | .dump arguments => [arguments.output]
  | .monitor _ => []

namespace Plan

/-- A command writes at its own paths only. -/
theorem writesOnly_ofCommand (command : Command) (settings : Settings) :
    (ofCommand command settings).WritesOnly (· ∈ command.outputs) := by
  cases command with
  | timewarp arguments =>
    refine .print _ (.read _ fun content => ?_)
    exact writesOnly_attempt _ fun entries => .print _ (.exit _ _)
  | dump arguments =>
    refine .read _ fun content => writesOnly_attempt _ fun root => .print _ ?_
    refine .write (List.mem_singleton_self _) _ fun fault => ?_
    cases fault with
    | none => exact .print _ (.exit _ _)
    | some fault => exact .exit _ _
  | monitor arguments => exact .monitor _ _

/-- Loading the settings adds no write. -/
theorem writesOnly_ofInvocation (invocation : Invocation) :
    (ofInvocation invocation).WritesOnly (· ∈ invocation.command.outputs) := by
  rw [ofInvocation]
  split
  · exact writesOnly_ofCommand _ _
  · exact .read _ fun content => writesOnly_attempt _ fun settings => writesOnly_ofCommand _ _

end Plan

/-! ## Runs -/

/-- The settings of a run: those of the file, if there is one, or else the defaults, with the
arguments of the command on top. -/
def Invocation.settings (invocation : Invocation) (files : Files) : Except Failure Settings :=
  match invocation.config with
  | none => .ok (invocation.command.apply .default)
  | some path => (loadSettings path (files.read path)).map invocation.command.apply

namespace Plan

variable {invocation : Invocation} {files : Files}

/-- Settings that cannot be loaded end the run before anything else is done. -/
theorem run_ofInvocation_of_error {failure : Failure}
    (h : invocation.settings files = .error failure) :
    (ofInvocation invocation).run files = some ⟨1, [], complaint failure, files⟩ := by
  obtain ⟨config, debug, command⟩ := invocation
  cases config with
  | none => cases h
  | some path =>
    simp only [Invocation.settings] at h
    simp only [ofInvocation, run]
    cases hload : loadSettings path (files.read path) with
    | ok settings =>
      rw [hload] at h
      cases h
    | error failure' =>
      rw [hload] at h
      cases h
      rfl

/-- With its settings a command is carried out. -/
theorem run_ofInvocation_of_ok {settings : Settings}
    (h : invocation.settings files = .ok settings) :
    (ofInvocation invocation).run files = (ofCommand invocation.command settings).run files := by
  obtain ⟨config, debug, command⟩ := invocation
  cases config with
  | none =>
    cases h
    rfl
  | some path =>
    simp only [Invocation.settings] at h
    simp only [ofInvocation, run]
    cases hload : loadSettings path (files.read path) with
    | error failure =>
      rw [hload] at h
      cases h
    | ok settings' =>
      rw [hload] at h
      cases h
      rfl

variable {arguments : DumpArguments} {settings : Settings}

/-- Without a store there is no table. -/
theorem run_dump_of_storeError {failure : Failure}
    (h : loadStore arguments.input (files.read arguments.input) = .error failure) :
    (dump arguments settings).run files = some ⟨1, [], complaint failure, files⟩ := by
  rw [dump, run, h, attempt, fail, run]

/-- If the output cannot be written, everything stays as it is. -/
theorem run_dump_of_outputError {root : Node} {fault : FileFault}
    (hstore : loadStore arguments.input (files.read arguments.input) = .ok root)
    (hwrite : files.write arguments.output
      (tableText (exportLines settings.table root)).toUTF8 = .error fault) :
    (dump arguments settings).run files =
      some (Outcome.after
        ("Dumping contents as simple text columns in " ++ arguments.output ++ "\n")
        ⟨1, [], complaint (.outputWrite arguments.output fault), files⟩) := by
  rw [dump, run, hstore, attempt, run, run, hwrite]
  rfl

/-- With a store and an output the table is written. -/
theorem run_dump_of_ok {root : Node} {written : Files}
    (hstore : loadStore arguments.input (files.read arguments.input) = .ok root)
    (hwrite : files.write arguments.output
      (tableText (exportLines settings.table root)).toUTF8 = .ok written) :
    (dump arguments settings).run files =
      some (Outcome.after
        ("Dumping contents as simple text columns in " ++ arguments.output ++ "\n")
        (.after ("Dumped contents to " ++ arguments.output ++ "\n") ⟨0, [], "", written⟩)) := by
  rw [dump, run, hstore, attempt, run, run, hwrite]
  rfl

end Plan

/-! ## The table -/

/-- The text of a table has each line with a line feed behind it. -/
theorem tableText_eq_join (ls : List Line) :
    tableText ls = String.join (ls.map fun line => line.text ++ "\n") := by
  rw [tableText, Text.unlines, List.map_map]
  rfl

/-- What a table is made from, and where it is written: the settings can be loaded, the store can be
opened, and the output can be created. -/
structure TableSource (invocation : Invocation) (arguments : DumpArguments) (files : Files)
    (settings : Settings) (root : Node) (place : Place) : Prop where
  settings : invocation.settings files = .ok settings
  store : loadStore arguments.input (files.read arguments.input) = .ok root
  output : files.locateOutput arguments.output = .ok place

/-- A run that makes a table ends in one of two ways: with all that the table needs it is written,
and otherwise nothing is. -/
theorem run_ofInvocation_dump {invocation : Invocation} {arguments : DumpArguments}
    (hcommand : invocation.command = .dump arguments) (files : Files) :
    ∃ outcome, (Plan.ofInvocation invocation).run files = some outcome ∧
      ((outcome.code = 0 ∧ ∃ settings root place,
          TableSource invocation arguments files settings root place ∧
            files.write arguments.output
              (tableText (exportLines settings.table root)).toUTF8 = .ok outcome.files) ∨
        (outcome.code = 1 ∧ outcome.files = files ∧
          ∀ settings root place,
            ¬ TableSource invocation arguments files settings root place)) := by
  cases hsettings : invocation.settings files with
  | error failure =>
    refine ⟨_, Plan.run_ofInvocation_of_error hsettings, .inr ⟨rfl, rfl, ?_⟩⟩
    rintro settings root place ⟨h, -, -⟩
    cases hsettings.symm.trans h
  | ok settings =>
    rw [Plan.run_ofInvocation_of_ok hsettings, hcommand, Plan.ofCommand]
    cases hstore : loadStore arguments.input (files.read arguments.input) with
    | error failure =>
      refine ⟨_, Plan.run_dump_of_storeError hstore, .inr ⟨rfl, rfl, ?_⟩⟩
      rintro settings root place ⟨-, h, -⟩
      cases hstore.symm.trans h
    | ok root =>
      cases hwrite : files.write arguments.output
          (tableText (exportLines settings.table root)).toUTF8 with
      | error fault =>
        refine ⟨_, Plan.run_dump_of_outputError hstore hwrite, .inr ⟨rfl, rfl, ?_⟩⟩
        rintro _ _ place ⟨-, -, h⟩
        cases hwrite.symm.trans (Files.write_eq_ok.2 ⟨place, h, rfl⟩)
      | ok written =>
        obtain ⟨place, hplace, -⟩ := Files.write_eq_ok.1 hwrite
        exact ⟨_, Plan.run_dump_of_ok hstore hwrite,
          .inl ⟨rfl, settings, root, place, ⟨hsettings, hstore, hplace⟩, hwrite⟩⟩

/-- A table has one source. -/
theorem TableSource.unique {invocation : Invocation} {arguments : DumpArguments} {files : Files}
    {settings settings' : Settings} {root root' : Node} {place place' : Place}
    (h : TableSource invocation arguments files settings root place)
    (h' : TableSource invocation arguments files settings' root' place') :
    settings = settings' ∧ root = root' ∧ place = place' :=
  ⟨Except.ok.inj (h.settings.symm.trans h'.settings), Except.ok.inj (h.store.symm.trans h'.store),
    Except.ok.inj (h.output.symm.trans h'.output)⟩

/-- A command line that is accepted, on any files. A run that ends has changed no file but what can
be written at the path of a table, and none at all if it is one of the other two commands or ends
with an error. Settings that cannot be loaded are such an error. The command of the table always
ends, and without an error exactly if the settings can be loaded, the store can be opened and the
output can be created; then every path to the place of the output leads to the lines of the store
under these settings, with a line feed behind each, also where that was the store itself. -/
theorem runCommand_files {words : List String} {invocation : Invocation}
    (h : Invocation.read words = .ok invocation) (files : Files) :
    (∀ outcome, runCommand words files = some outcome →
      files.ChangedOnly (· ∈ invocation.command.outputs) outcome.files ∧
        ((∀ arguments, invocation.command ≠ .dump arguments) ∨ outcome.code ≠ 0 →
          outcome.files = files)) ∧
      (∀ failure, invocation.settings files = .error failure →
        ∃ outcome, runCommand words files = some outcome ∧ outcome.code ≠ 0) ∧
      ∀ arguments, invocation.command = .dump arguments →
        ∃ outcome, runCommand words files = some outcome ∧
          (outcome.code = 0 ↔
            ∃ settings root place, TableSource invocation arguments files settings root place) ∧
          ∀ settings root place, TableSource invocation arguments files settings root place →
            ∀ path, files.locate path = .ok place →
              outcome.files.read path = .ok (String.join
                ((exportLines settings.table root).map fun line => line.text ++ "\n")).toUTF8 := by
  have hrun : runCommand words files = (Plan.ofInvocation invocation).run files := by
    rw [runCommand, Plan.ofWords, h]
  have hplan := Plan.writesOnly_ofInvocation invocation
  rw [hrun]
  refine ⟨fun outcome houtcome => ⟨hplan.changedOnly houtcome, ?_⟩, fun failure hfailure => ?_,
    fun arguments hcommand => ?_⟩
  · intro hcase
    cases hcommand : invocation.command with
    | timewarp arguments =>
      rw [hcommand] at hplan
      exact hplan.files_eq (fun path => List.not_mem_nil) houtcome
    | monitor arguments =>
      rw [hcommand] at hplan
      exact hplan.files_eq (fun path => List.not_mem_nil) houtcome
    | dump arguments =>
      have hcode : outcome.code ≠ 0 := hcase.resolve_left fun hno => hno arguments hcommand
      obtain ⟨ended, hended, ⟨hzero, -⟩ | ⟨-, hfiles, -⟩⟩ := run_ofInvocation_dump hcommand files
      · cases houtcome.symm.trans hended
        exact absurd hzero hcode
      · cases houtcome.symm.trans hended
        exact hfiles
  · exact ⟨_, Plan.run_ofInvocation_of_error hfailure, Nat.one_ne_zero⟩
  · obtain ⟨outcome, houtcome, hends⟩ := run_ofInvocation_dump hcommand files
    refine ⟨outcome, houtcome, ?_⟩
    rcases hends with ⟨hzero, settings, root, place, hsource, hwrite⟩ | ⟨hone, -, hnone⟩
    · refine ⟨iff_of_true hzero ⟨settings, root, place, hsource⟩, ?_⟩
      intro settings' root' place' hsource' path hpath
      obtain ⟨rfl, rfl, rfl⟩ := hsource.unique hsource'
      rw [← tableText_eq_join]
      exact Files.read_of_write hwrite hsource.output hpath
    · refine ⟨iff_of_false (by omega) fun ⟨settings, root, place, hsource⟩ => ?_, ?_⟩
      · exact hnone settings root place hsource
      · intro settings root place hsource
        exact absurd hsource (hnone settings root place)

/-- The text of a snapshot of two list elements. -/
def Snapshot.textTwoElements : String :=
  "[\"/\",[[\"dig_7\",[[\"list-b\",[],[[[2,20,3,4],[]]]],[\"list-a\",[],[[[1,10,3,4],[]]]]]]]]"

/-- The tree of that snapshot. -/
def Snapshot.twoElements : Node :=
  ⟨"/", [⟨"dig_7", [
    ⟨"list-b", [], some ⟨[.flat [.integer 2, .integer 20, .integer 3, .integer 4], .flat []]⟩⟩,
    ⟨"list-a", [], some ⟨[.flat [.integer 1, .integer 10, .integer 3, .integer 4], .flat []]⟩⟩],
    none⟩], none⟩

/-- A directory with that snapshot and with settings for tables. -/
def Files.storeAndSettings : Files :=
  ⟨["tmp", "w"], [(["tmp", "w", "out.json"], Snapshot.textTwoElements.toUTF8),
    (["tmp", "w", "table.toml"], "[export]\ninclude_global_time = true\n".toUTF8)]⟩

/-- The arguments of a table over its own store, which is given by another path. -/
def DumpArguments.overStore : DumpArguments :=
  ⟨"out.json", "../w/out.json", none, none⟩

/-- The words of that command line. -/
def Invocation.wordsOverStore : List String :=
  ["--config", "table.toml", "dump", "out.json", "../w/out.json"]

/-- A table that is written over its own store. -/
theorem runCommand_files_overStore :
    Invocation.read Invocation.wordsOverStore =
        .ok ⟨some "table.toml", false, .dump .overStore⟩ ∧
      ∃ outcome, runCommand Invocation.wordsOverStore .storeAndSettings = some outcome ∧
        outcome.code = 0 ∧
        outcome.files.read "out.json" = .ok
          ("          list-b        7        2               20        3        4\n" ++
            "          list-a        7        1               10        3        4\n").toUTF8 := by
  have hwords : Invocation.read Invocation.wordsOverStore =
      .ok ⟨some "table.toml", false, .dump .overStore⟩ := by decide
  have htree : Snapshot.read Snapshot.textTwoElements = .ok Snapshot.twoElements := by cbv
  have htoml : Settings.read "[export]\ninclude_global_time = true\n" =
      .ok ⟨.default, ⟨true, false⟩, .default⟩ := by cbv
  have hlocate : Files.storeAndSettings.locate "out.json" = .ok ["tmp", "w", "out.json"] := rfl
  have hstore : Files.storeAndSettings.read "out.json" = .ok Snapshot.textTwoElements.toUTF8 :=
    Files.read_eq_ok.2 ⟨_, hlocate, by decide, by simp [Files.content?, Files.storeAndSettings]⟩
  have hconfig : Files.storeAndSettings.read "table.toml" =
      .ok "[export]\ninclude_global_time = true\n".toUTF8 :=
    Files.read_eq_ok.2 ⟨["tmp", "w", "table.toml"], rfl, by decide,
      by simp [Files.content?, Files.storeAndSettings, List.lookup_cons]⟩
  have hsource : TableSource ⟨some "table.toml", false, .dump .overStore⟩ .overStore
      .storeAndSettings ⟨.default, ⟨true, false⟩, .default⟩ Snapshot.twoElements
      ["tmp", "w", "out.json"] := by
    refine ⟨?_, ?_, by decide +kernel⟩
    · simp only [Invocation.settings, hconfig, loadSettings, fileText_toUTF8, htoml]
      rfl
    · simp only [DumpArguments.overStore, hstore, loadStore, fileText_toUTF8, htree]
      rfl
  have hlines :
      (exportLines ⟨true, false⟩ Snapshot.twoElements).map (fun line => line.text ++ "\n") = [
        "          list-b        7        2               20        3        4\n",
        "          list-a        7        1               10        3        4\n"] := by
    decide
  obtain ⟨-, -, hdump⟩ := runCommand_files hwords .storeAndSettings
  obtain ⟨outcome, hrun, hzero, htable⟩ := hdump .overStore rfl
  refine ⟨hwords, outcome, hrun, hzero.2 ⟨_, _, _, hsource⟩, ?_⟩
  rw [htable _ _ _ hsource "out.json" hlocate, hlines]
  rfl

end EventLog
