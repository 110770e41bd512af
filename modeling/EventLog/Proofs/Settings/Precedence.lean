import EventLog.Proofs.Command.FileEffects
import EventLog.Proofs.Settings.Document

/-!
# What arguments override

`settings_precedence`: whichever commands are applied one after the other to loaded settings, each
setting has the value of the last argument that gave it, else the value in the document, else its
default. A command is applied as one equation for all settings (`Setting.value?_apply`): the value
that an argument gives, or else the value before. For a sequence of commands the equation is
repeated (`Setting.value?_override`), and everything else about the order of commands follows from
it, because settings are what every setting is set to (`Settings.eq_of_value?`).
-/

namespace EventLog

/-! ## What an argument gives -/

/-- The section whose settings a command overrides. -/
def Command.home : Command → SettingsSection
  | .timewarp _ => .warp
  | .dump _ => .table
  | .monitor _ => .monitor

namespace Setting

variable {p : SettingsSection}

/-- The value that the arguments of a command give to a setting. -/
def given? : (setting : Setting p) → Command → Option setting.Value
  | .tolerance, .timewarp arguments => arguments.tolerance
  | .scanLimit, .timewarp arguments => arguments.limit
  | .includeGlobalTime, .dump arguments => arguments.globalTime
  | .sortOutput, .dump arguments => arguments.sort
  | .intervalSeconds, .monitor arguments => arguments.interval
  | .iterations, .monitor arguments => arguments.iterations
  | _, _ => none

/-- The value that the last of the commands gives to a setting that gives one at all. -/
def lastGiven? (setting : Setting p) (commands : List Command) : Option setting.Value :=
  commands.reverse.findSome? setting.given?

/-- Arguments give values only to the settings of the section of their command. -/
theorem given?_eq_none {setting : Setting p} {command : Command} (h : p ≠ command.home) :
    setting.given? command = none := by
  cases setting <;> cases command <;> first | rfl | exact absurd rfl h

/-- Behind a command, a setting has the value that the command gives, or else the value before. -/
theorem value?_apply (setting : Setting p) (command : Command) (s : Settings) :
    setting.value? (command.apply s) = (setting.given? command).or (setting.value? s) := by
  cases command with
  | timewarp arguments =>
    obtain ⟨dump, tolerance, limit, format⟩ := arguments
    cases setting with
    | tolerance => cases tolerance <;> rfl
    | _ => rfl
  | dump arguments =>
    obtain ⟨input, output, globalTime, sort⟩ := arguments
    cases setting with
    | includeGlobalTime => cases globalTime <;> rfl
    | sortOutput => cases sort <;> rfl
    | _ => rfl
  | monitor arguments =>
    obtain ⟨input, interval, iterations⟩ := arguments
    cases setting with
    | intervalSeconds => cases interval <;> rfl
    | _ => rfl

end Setting

/-! ## Commands one after the other -/

/-- Settings with the arguments of commands, one after the other. -/
def Settings.override (s : Settings) (commands : List Command) : Settings :=
  commands.foldl (fun s command => command.apply s) s

section
variable {p : SettingsSection}

/-- Behind commands, a setting has the value that was given last, or else the value before. -/
theorem Setting.value?_override (setting : Setting p) (commands : List Command) (s : Settings) :
    setting.value? (s.override commands) =
      (setting.lastGiven? commands).or (setting.value? s) := by
  induction commands generalizing s with
  | nil => rfl
  | cons command rest ih =>
    change setting.value? ((command.apply s).override rest) = _
    rw [ih, setting.value?_apply, Setting.lastGiven?, Setting.lastGiven?, List.reverse_cons,
      List.findSome?_append, Option.or_assoc, List.findSome?_singleton]

theorem Settings.override_append (s : Settings) (front rear : List Command) :
    s.override (front ++ rear) = (s.override front).override rear :=
  List.foldl_append

/-- A command leaves the sections of other commands as they are. -/
theorem Command.of_apply {command : Command} (h : p ≠ command.home) (s : Settings) :
    p.of (command.apply s) = p.of s := by
  cases command <;> cases p <;> first | rfl | exact absurd rfl h

/-- Commands with different sections can be applied in either order. -/
theorem Command.apply_comm {first second : Command} (h : first.home ≠ second.home) (s : Settings) :
    first.apply (second.apply s) = second.apply (first.apply s) := by
  refine Settings.eq_of_value? fun {p} setting => ?_
  rw [setting.value?_apply, setting.value?_apply, setting.value?_apply, setting.value?_apply]
  by_cases hp : p = first.home
  · rw [Setting.given?_eq_none (hp ▸ h : p ≠ second.home), Option.none_or, Option.none_or]
  · rw [Setting.given?_eq_none hp, Option.none_or, Option.none_or]

/-- A command that is applied again changes nothing. -/
theorem Command.apply_apply (command : Command) (s : Settings) :
    command.apply (command.apply s) = command.apply s := by
  refine Settings.eq_of_value? fun setting => ?_
  rw [setting.value?_apply, setting.value?_apply]
  cases setting.given? command <;> rfl

end

/-! ## From the document to the command -/

/-- The settings that hold in front of all arguments: those of a document, if there is one, or else
the defaults. -/
def Settings.ofDocument : Option (List (String × Toml)) → Except SettingsFault Settings
  | none => .ok .default
  | some entries => ofEntries entries

/-- What a command line finds in its settings file, or that it is given none. -/
inductive Invocation.Finds (files : Files) (invocation : Invocation) :
    Option (List (String × Toml)) → Prop where
  | nothing (hconfig : invocation.config = none) : Finds files invocation none
  | document {path text : String} {entries : List (String × Toml)}
    (hconfig : invocation.config = some path) (hfile : files.read path = .ok text.toUTF8)
    (hread : Toml.read text = some entries) : Finds files invocation (some entries)

section
variable {document : Option (List (String × Toml))} {loaded : Settings}

/-- The arguments of a command line are applied to what its settings file holds. -/
theorem Invocation.settings_eq_ok {files : Files} {invocation : Invocation}
    (hfinds : invocation.Finds files document)
    (hloaded : Settings.ofDocument document = .ok loaded) :
    invocation.settings files = .ok (loaded.override [invocation.command]) := by
  cases hfinds with
  | nothing hconfig =>
    cases hloaded
    rw [Invocation.settings, hconfig]
    rfl
  | document hconfig hfile hread =>
    rw [Settings.ofDocument] at hloaded
    rw [Invocation.settings, hconfig]
    simp only [loadSettings, hfile, fileText_toUTF8, Settings.read, hread, hloaded]
    rfl

/-- Settings can be loaded from every document of known sections with known keys in their range. -/
theorem Settings.exists_ofDocument (h : ∀ entries ∈ document, SettingsDocument entries) :
    ∃ loaded, Settings.ofDocument document = .ok loaded := by
  cases document with
  | none => exact ⟨.default, rfl⟩
  | some entries => exact (h entries rfl).exists_ofEntries

theorem Setting.value?_ofDocument {p : SettingsSection}
    (h : ∀ entries ∈ document, SettingsDocument entries)
    (hloaded : Settings.ofDocument document = .ok loaded) (setting : Setting p) :
    setting.value? loaded = (document.bind setting.inDocument?).or setting.default? := by
  cases document with
  | none =>
    cases hloaded
    exact setting.value?_default
  | some entries => exact (h entries rfl).value?_ofEntries hloaded setting

end

/-- A document of known sections with known keys in their range, or none at all, gives settings that
any commands can be applied to, and a command line is carried out with its own command applied to
them. Behind any commands, each of the six settings has the value of the last argument that gave
one, else the value in the document, else its default. A command leaves the sections of other
commands as they are, so that commands with different sections can be applied in either order, and
the last command of a sequence can be applied again without a change. -/
theorem settings_precedence (document : Option (List (String × Toml)))
    (h : ∀ entries ∈ document, SettingsDocument entries) :
    ∃ loaded, Settings.ofDocument document = .ok loaded ∧
      (∀ (files : Files) (invocation : Invocation), invocation.Finds files document →
        (Plan.ofInvocation invocation).run files =
          (Plan.ofCommand invocation.command (loaded.override [invocation.command])).run files) ∧
      (∀ (commands : List Command) {p : SettingsSection} (setting : Setting p),
        setting.value? (loaded.override commands) =
          (setting.lastGiven? commands).or
            ((document.bind setting.inDocument?).or setting.default?)) ∧
      (∀ (commands : List Command) (last : Command) {p : SettingsSection}, p ≠ last.home →
        p.of (loaded.override (commands ++ [last])) = p.of (loaded.override commands)) ∧
      (∀ (front rear : List Command) (first second : Command), first.home ≠ second.home →
        loaded.override (front ++ first :: second :: rear) =
          loaded.override (front ++ second :: first :: rear)) ∧
      ∀ (commands : List Command) (last : Command),
        loaded.override (commands ++ [last, last]) = loaded.override (commands ++ [last]) := by
  obtain ⟨loaded, hloaded⟩ := Settings.exists_ofDocument h
  refine ⟨loaded, hloaded, fun files invocation hfinds => ?_, fun commands p setting => ?_,
    fun commands last p hp => ?_, fun front rear first second hne => ?_, fun commands last => ?_⟩
  · exact Plan.run_ofInvocation_of_ok (invocation.settings_eq_ok hfinds hloaded)
  · rw [setting.value?_override, setting.value?_ofDocument h hloaded]
  · rw [Settings.override_append]
    exact last.of_apply hp _
  · rw [Settings.override_append, Settings.override_append]
    exact congrArg (Settings.override · rear) (Command.apply_comm hne.symm _)
  · rw [Settings.override_append, Settings.override_append]
    exact last.apply_apply _

/-- A document without one of the sections and with a key that no setting has. -/
def Settings.sampleDocument : List (String × Toml) :=
  [("monitor", .table [("interval_secs", .integer 5)]),
    ("warp", .table [("tolerance", .integer 25), ("note", .string "slow"),
      ("scan_limit", .integer 9000)])]

/-- Commands that override some settings of that document, one of them twice. -/
def Command.samples : List Command :=
  [.timewarp ⟨"dump.txt", some 4, none, .text⟩, .dump ⟨"out.json", "out.txt", some true, none⟩,
    .timewarp ⟨"dump.txt", some 7, none, .json⟩, .monitor ⟨"out.json", none, some 3⟩]

/-- Settings from a document and from arguments, and one that neither sets. -/
theorem settings_precedence_samples :
    SettingsDocument Settings.sampleDocument ∧
      ∃ loaded, Settings.ofDocument (some Settings.sampleDocument) = .ok loaded ∧
        loaded.override Command.samples = ⟨⟨7, some 9000⟩, ⟨true, false⟩, ⟨5, some 3⟩⟩ := by
  have hmonitor : SectionTable .monitor [("interval_secs", .integer 5)] := by
    refine ⟨by decide, fun setting value hmem => ?_⟩
    cases setting with
    | intervalSeconds =>
      obtain rfl : value = .integer 5 := by simpa [Setting.key] using hmem
      exact ⟨(5 : UInt64), rfl⟩
    | iterations => simp [Setting.key] at hmem
  have hwarp : SectionTable .warp [("tolerance", .integer 25), ("note", .string "slow"),
      ("scan_limit", .integer 9000)] := by
    refine ⟨by decide, fun setting value hmem => ?_⟩
    cases setting with
    | tolerance =>
      obtain rfl : value = .integer 25 := by simpa [Setting.key] using hmem
      exact ⟨(25 : UInt64), rfl⟩
    | scanLimit =>
      obtain rfl : value = .integer 9000 := by simpa [Setting.key] using hmem
      exact ⟨(9000 : UInt64), rfl⟩
  have hdocument : SettingsDocument Settings.sampleDocument := by
    refine ⟨by decide, fun name value hmem => ?_⟩
    simp only [Settings.sampleDocument, List.mem_cons, List.not_mem_nil, or_false,
      Prod.mk.injEq] at hmem
    obtain ⟨rfl, rfl⟩ | ⟨rfl, rfl⟩ := hmem
    · exact ⟨.monitor, _, rfl, rfl, hmonitor⟩
    · exact ⟨.warp, _, rfl, rfl, hwarp⟩
  refine ⟨hdocument, ?_⟩
  obtain ⟨loaded, hloaded, -, hvalue, -⟩ :=
    settings_precedence (some Settings.sampleDocument) fun entries hentries => by
      cases hentries
      exact hdocument
  refine ⟨loaded, hloaded, Settings.eq_of_value? fun setting => ?_⟩
  rw [hvalue]
  cases setting <;> rfl

end EventLog
