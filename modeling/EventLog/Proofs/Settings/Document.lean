import EventLog.Proofs.Lookup
import EventLog.Settings

/-!
# What a settings document sets

`value?_ofEntries`: settings read from a document have the value that the document gives to a
setting, and where it gives none, the default of that setting. A document is read twice by the same
kind of loop, once through its sections and once through the keys of a section, and one statement
carries both: a step through the entries of a table that takes a key to a place, and leaves that
place as it is for every other key, leaves there what the table has for the key
(`Takes.place_foldlM`). Keys are distinct in a table, so it makes no difference in which order they
stand. Which of the two a step does is decided by the lists of fields, which name every setting of a
section and nothing else (`takeKey_key`, `takeKey_of_ne`).
-/

namespace EventLog

/-! ## Keys of a table -/

section
variable {σ β : Type} {step : σ → String × Toml → Except SettingsFault σ}

/-- A step through the entries of a table takes what is read from the value of a key to a place, and
leaves that place as it is for every other key. -/
structure Takes (step : σ → String × Toml → Except SettingsFault σ) (key : String)
    (read : Toml → Except SettingsFault β) (place : σ → Option β) : Prop where
  own : ∀ {s value s'}, step s (key, value) = .ok s' →
    ∃ b, read value = .ok b ∧ place s' = some b
  other : ∀ {s name value s'}, name ≠ key → step s (name, value) = .ok s' → place s' = place s

/-- Behind all entries of a table, a place has what the value of its key gave, or else what it had
in front of them. -/
theorem Takes.place_foldlM {key : String} {read : Toml → Except SettingsFault β}
    {place : σ → Option β} (h : Takes step key read place) {entries : List (String × Toml)}
    (hnames : (entries.map Prod.fst).Nodup) {s s' : σ} (hok : entries.foldlM step s = .ok s') :
    place s' = ((entries.lookup key).bind fun value => (read value).toOption).or (place s) := by
  induction entries generalizing s with
  | nil =>
    cases hok
    rfl
  | cons entry rest ih =>
    obtain ⟨name, value⟩ := entry
    obtain ⟨hname, hrest⟩ := List.nodup_cons.1 hnames
    rw [List.foldlM_cons] at hok
    cases hstep : step s (name, value) with
    | error fault =>
      rw [hstep] at hok
      cases hok
    | ok next =>
      rw [hstep] at hok
      rw [ih hrest hok]
      by_cases hkey : name = key
      · subst hkey
        obtain ⟨b, hread, hplace⟩ := h.own hstep
        rw [lookup_eq_none_of_notMem hname, List.lookup_cons_self, hplace]
        simp [hread, Except.toOption]
      · rw [h.other hkey hstep, List.lookup_cons, beq_false_of_ne (Ne.symm hkey)]

/-- A read that is mapped succeeds where the read does. -/
theorem exists_of_map_eq_ok {ε α : Type} {read : Except ε α} {f : α → β} {b : β}
    (h : read.map f = .ok b) : ∃ a, read = .ok a ∧ f a = b := by
  cases read with
  | error fault => cases h
  | ok a =>
    cases h
    exact ⟨a, rfl, rfl⟩

/-- All entries of a table are taken if each can be, whatever was taken before. -/
theorem exists_foldlM_eq_ok {entries : List (String × Toml)}
    (h : ∀ entry ∈ entries, ∀ s, ∃ s', step s entry = .ok s') (s : σ) :
    ∃ s', entries.foldlM step s = .ok s' := by
  induction entries generalizing s with
  | nil => exact ⟨s, rfl⟩
  | cons entry rest ih =>
    obtain ⟨hentry, hrest⟩ := List.forall_mem_cons.1 h
    obtain ⟨next, hnext⟩ := hentry s
    rw [List.foldlM_cons, hnext]
    exact ih hrest next

end

/-! ## Sections and settings -/

/-- The sections of a settings document. -/
inductive SettingsSection where
  | warp
  | table
  | monitor
  deriving DecidableEq, Repr

namespace SettingsSection

/-- What a section holds. -/
def Content : SettingsSection → Type
  | .warp => WarpSettings
  | .table => TableSettings
  | .monitor => MonitorSettings

/-- The name of a section in a document. -/
def name : SettingsSection → String
  | .warp => "warp"
  | .table => "export"
  | .monitor => "monitor"

/-- What a section is read as. -/
def expected : SettingsSection → String
  | .warp => "struct WarpConfig"
  | .table => "struct ExportConfig"
  | .monitor => "struct MonitorConfig"

/-- The keys of a section. -/
def fields : (p : SettingsSection) → List (String × Settings.Setter p.Content)
  | .warp => Settings.warpFields
  | .table => Settings.tableFields
  | .monitor => Settings.monitorFields

/-- What a section holds where a document does not say. -/
def default : (p : SettingsSection) → p.Content
  | .warp => WarpSettings.default
  | .table => TableSettings.default
  | .monitor => MonitorSettings.default

/-- Reads a section. -/
def read (p : SettingsSection) : Toml → Except SettingsFault p.Content :=
  Settings.readSection p.expected p.fields p.default

/-- What settings have in a section. -/
def of : (p : SettingsSection) → Settings → p.Content
  | .warp => Settings.warp
  | .table => Settings.table
  | .monitor => Settings.monitor

/-- Settings with another section. -/
def put : (p : SettingsSection) → Settings → p.Content → Settings
  | .warp => fun s (content : WarpSettings) => { s with warp := content }
  | .table => fun s (content : TableSettings) => { s with table := content }
  | .monitor => fun s (content : MonitorSettings) => { s with monitor := content }

variable {p q : SettingsSection}

@[simp] theorem of_put (s : Settings) (content : p.Content) : p.of (p.put s content) = content := by
  cases p <;> rfl

theorem of_put_of_ne (h : p ≠ q) (s : Settings) (content : q.Content) :
    p.of (q.put s content) = p.of s := by
  cases p <;> cases q <;> first | rfl | exact absurd rfl h

theorem name_injective (h : p.name = q.name) : p = q := by
  cases p <;> cases q <;> first | rfl | simp [name] at h

end SettingsSection

/-- The settings, each in its section. -/
inductive Setting : SettingsSection → Type where
  | tolerance : Setting .warp
  | scanLimit : Setting .warp
  | includeGlobalTime : Setting .table
  | sortOutput : Setting .table
  | intervalSeconds : Setting .monitor
  | iterations : Setting .monitor
  deriving DecidableEq, Repr

namespace Setting

variable {p : SettingsSection}

/-- The settings of a section. -/
def all : (p : SettingsSection) → List (Setting p)
  | .warp => [.tolerance, .scanLimit]
  | .table => [.includeGlobalTime, .sortOutput]
  | .monitor => [.intervalSeconds, .iterations]

/-- What a setting is set to: a switch or a counter. -/
def Value : Setting p → Type
  | .includeGlobalTime | .sortOutput => Bool
  | .tolerance | .scanLimit | .intervalSeconds | .iterations => UInt64

/-- The key of a setting in its section. -/
def key : Setting p → String
  | .tolerance => "tolerance"
  | .scanLimit => "scan_limit"
  | .includeGlobalTime => "include_global_time"
  | .sortOutput => "sort_output"
  | .intervalSeconds => "interval_secs"
  | .iterations => "iterations"

/-- What a section has for a setting. The two limits may be without a value. -/
def place : (setting : Setting p) → p.Content → Option setting.Value
  | .tolerance => fun (s : WarpSettings) => some s.tolerance
  | .scanLimit => fun (s : WarpSettings) => s.scanLimit
  | .includeGlobalTime => fun (s : TableSettings) => some s.includeGlobalTime
  | .sortOutput => fun (s : TableSettings) => some s.sortOutput
  | .intervalSeconds => fun (s : MonitorSettings) => some s.intervalSeconds
  | .iterations => fun (s : MonitorSettings) => s.iterations

/-- A section with a value for a setting. -/
def put : (setting : Setting p) → p.Content → setting.Value → p.Content
  | .tolerance => fun (s : WarpSettings) (n : UInt64) => { s with tolerance := n }
  | .scanLimit => fun (s : WarpSettings) (n : UInt64) => { s with scanLimit := some n }
  | .includeGlobalTime => fun (s : TableSettings) (b : Bool) => { s with includeGlobalTime := b }
  | .sortOutput => fun (s : TableSettings) (b : Bool) => { s with sortOutput := b }
  | .intervalSeconds => fun (s : MonitorSettings) (n : UInt64) => { s with intervalSeconds := n }
  | .iterations => fun (s : MonitorSettings) (n : UInt64) => { s with iterations := some n }

/-- Reads the value of a setting. -/
def read : (setting : Setting p) → Toml → Except SettingsFault setting.Value
  | .tolerance => Settings.readWord "u64"
  | .scanLimit => Settings.readWord "usize"
  | .includeGlobalTime => Settings.readSwitch
  | .sortOutput => Settings.readSwitch
  | .intervalSeconds => Settings.readWord "u64"
  | .iterations => Settings.readWord "u64"

/-- The value of a setting. -/
def value? (setting : Setting p) (settings : Settings) : Option setting.Value :=
  setting.place (p.of settings)

/-- The value of a setting that nothing sets. -/
def default? : (setting : Setting p) → Option setting.Value
  | .tolerance => some (10 : UInt64)
  | .scanLimit => none
  | .includeGlobalTime => some false
  | .sortOutput => some false
  | .intervalSeconds => some (2 : UInt64)
  | .iterations => none

variable {setting other : Setting p}

@[simp] theorem place_put (s : p.Content) (value : setting.Value) :
    setting.place (setting.put s value) = some value := by
  cases setting <;> rfl

theorem place_put_of_ne (h : setting ≠ other) (s : p.Content) (value : other.Value) :
    setting.place (other.put s value) = setting.place s := by
  cases setting <;> cases other <;> first | rfl | exact absurd rfl h

theorem place_default (setting : Setting p) : setting.place p.default = setting.default? := by
  cases setting <;> rfl

theorem value?_default (setting : Setting p) :
    setting.value? Settings.default = setting.default? := by
  cases setting <;> rfl

end Setting

/-- Settings are what every setting is set to. -/
theorem Settings.eq_of_value? {s t : Settings}
    (h : ∀ {p} (setting : Setting p), setting.value? s = setting.value? t) : s = t := by
  obtain ⟨⟨_, _⟩, ⟨_, _⟩, ⟨_, _⟩⟩ := s
  obtain ⟨⟨_, _⟩, ⟨_, _⟩, ⟨_, _⟩⟩ := t
  have h₁ := Option.some.inj (h .tolerance)
  have h₂ := h .scanLimit
  have h₃ := Option.some.inj (h .includeGlobalTime)
  have h₄ := Option.some.inj (h .sortOutput)
  have h₅ := Option.some.inj (h .intervalSeconds)
  have h₆ := h .iterations
  cases h₁
  cases h₂
  cases h₃
  cases h₄
  cases h₅
  cases h₆
  rfl

/-! ## Steps through the entries -/

namespace Settings

/-- One entry of a section: a known key sets its field, and any other is passed over. -/
def takeKey {σ : Type} (fields : List (String × Setter σ)) (s : σ) (entry : String × Toml) :
    Except SettingsFault σ :=
  match fields.lookup entry.1 with
  | some set => set s entry.2
  | none => .ok s

/-- One section of a document. -/
def takeSection (s : Settings) (entry : String × Toml) : Except SettingsFault Settings :=
  match sections.lookup entry.1 with
  | some set => set s entry.2
  | none => .error (.unknownSection entry.1)

variable {p : SettingsSection}

theorem read_table (p : SettingsSection) (keys : List (String × Toml)) :
    p.read (.table keys) = keys.foldlM (takeKey p.fields) p.default :=
  rfl

theorem ofEntries_eq_foldlM (entries : List (String × Toml)) :
    ofEntries entries = entries.foldlM takeSection default :=
  rfl

theorem takeKey_key (setting : Setting p) (s : p.Content) (value : Toml) :
    takeKey p.fields s (setting.key, value) = (setting.read value).map (setting.put s) := by
  cases setting <;> rfl

theorem map_fst_fields (p : SettingsSection) :
    p.fields.map Prod.fst = (Setting.all p).map Setting.key := by
  cases p <;> rfl

theorem takeKey_of_ne {name : String} (h : ∀ setting : Setting p, name ≠ setting.key)
    (s : p.Content) (value : Toml) : takeKey p.fields s (name, value) = .ok s := by
  have hname : name ∉ p.fields.map Prod.fst := by
    rw [map_fst_fields]
    intro hmem
    obtain ⟨setting, -, hkey⟩ := List.mem_map.1 hmem
    exact h setting hkey.symm
  rw [takeKey, lookup_eq_none_of_notMem hname]

/-- A step through a section takes the value of its key to a setting. -/
theorem takes_setting (setting : Setting p) :
    Takes (takeKey p.fields) setting.key setting.read setting.place where
  own {s value s'} h := by
    rw [takeKey_key] at h
    obtain ⟨b, hread, rfl⟩ := exists_of_map_eq_ok h
    exact ⟨b, hread, setting.place_put s b⟩
  other {s name value s'} hname h := by
    by_cases hkey : ∃ other : Setting p, name = other.key
    · obtain ⟨other, rfl⟩ := hkey
      have hne : setting ≠ other := fun heq => hname (congrArg Setting.key heq.symm)
      rw [takeKey_key] at h
      obtain ⟨b, -, rfl⟩ := exists_of_map_eq_ok h
      exact Setting.place_put_of_ne hne s b
    · rw [takeKey_of_ne (not_exists.1 hkey)] at h
      cases h
      rfl

theorem takeSection_name (p : SettingsSection) (s : Settings) (value : Toml) :
    takeSection s (p.name, value) = (p.read value).map (p.put s) := by
  cases p <;> rfl

theorem map_fst_sections :
    sections.map Prod.fst =
      [SettingsSection.warp, .table, .monitor].map SettingsSection.name :=
  rfl

theorem takeSection_of_ne {name : String} (h : ∀ p : SettingsSection, name ≠ p.name)
    (s : Settings) (value : Toml) :
    takeSection s (name, value) = .error (.unknownSection name) := by
  have hname : name ∉ sections.map Prod.fst := by
    rw [map_fst_sections]
    intro hmem
    obtain ⟨p, -, hp⟩ := List.mem_map.1 hmem
    exact h p hp.symm
  rw [takeSection, lookup_eq_none_of_notMem hname]

/-- A step through a document takes the table of its name to a section. -/
theorem takes_section (p : SettingsSection) :
    Takes takeSection p.name p.read fun s => some (p.of s) where
  own {s value s'} h := by
    rw [takeSection_name] at h
    obtain ⟨content, hread, rfl⟩ := exists_of_map_eq_ok h
    exact ⟨content, hread, congrArg some (p.of_put s content)⟩
  other {s name value s'} hname h := by
    by_cases hsection : ∃ q : SettingsSection, name = q.name
    · obtain ⟨q, rfl⟩ := hsection
      have hne : p ≠ q := fun heq => hname (congrArg SettingsSection.name heq.symm)
      rw [takeSection_name] at h
      obtain ⟨content, -, rfl⟩ := exists_of_map_eq_ok h
      exact congrArg some (SettingsSection.of_put_of_ne hne s content)
    · rw [takeSection_of_ne (not_exists.1 hsection)] at h
      cases h

end Settings

/-! ## Documents with known keys -/

/-- A counter, where a value is one: an integer that fits an unsigned word. -/
def Toml.counter? : Toml → Option UInt64
  | .integer n => if 0 ≤ n ∧ n.toNat < UInt64.size then some (UInt64.ofNat n.toNat) else none
  | _ => none

/-- A switch, where a value is one. -/
def Toml.switch? : Toml → Option Bool
  | .boolean b => some b
  | _ => none

namespace Setting

variable {p : SettingsSection}

/-- The value of a setting in its range, where a value of a document is one. -/
def inRange? : (setting : Setting p) → Toml → Option setting.Value
  | .includeGlobalTime | .sortOutput => Toml.switch?
  | .tolerance | .scanLimit | .intervalSeconds | .iterations => Toml.counter?

/-- The value that a document has for a setting. -/
def inDocument? (setting : Setting p) (entries : List (String × Toml)) : Option setting.Value :=
  match entries.lookup p.name with
  | some (.table keys) => (keys.lookup setting.key).bind setting.inRange?
  | _ => none

end Setting

/-- A table of a document for a section: its keys are distinct, and those that the section knows
have values in their range. -/
structure SectionTable (p : SettingsSection) (keys : List (String × Toml)) : Prop where
  distinct : (keys.map Prod.fst).Nodup
  inRange : ∀ (setting : Setting p) (value : Toml), (setting.key, value) ∈ keys →
    ∃ b, setting.inRange? value = some b

/-- A document whose entries are tables for different sections. -/
structure SettingsDocument (entries : List (String × Toml)) : Prop where
  distinct : (entries.map Prod.fst).Nodup
  sectionTable : ∀ name value, (name, value) ∈ entries →
    ∃ (p : SettingsSection) (keys : List (String × Toml)),
      name = p.name ∧ value = .table keys ∧ SectionTable p keys

section
variable {p : SettingsSection}

theorem readWord_of_counter? {value : Toml} {n : UInt64} (h : value.counter? = some n)
    (expected : String) : Settings.readWord expected value = .ok n := by
  cases value with
  | integer i =>
    rw [Toml.counter?] at h
    split at h
    · next hrange =>
      cases h
      exact if_neg (Int.not_lt.2 hrange.1)
    · cases h
  | _ => cases h

theorem readSwitch_of_switch? {value : Toml} {b : Bool} (h : value.switch? = some b) :
    Settings.readSwitch value = .ok b := by
  cases value with
  | boolean _ =>
    cases h
    rfl
  | _ => cases h

theorem Setting.read_of_inRange? {setting : Setting p} {value : Toml} {b : setting.Value}
    (h : setting.inRange? value = some b) : setting.read value = .ok b := by
  cases setting with
  | tolerance | intervalSeconds | iterations => exact readWord_of_counter? h "u64"
  | scanLimit => exact readWord_of_counter? h "usize"
  | includeGlobalTime | sortOutput => exact readSwitch_of_switch? h

/-- An entry of a section is taken if a known key has a value in its range. -/
theorem Settings.exists_takeKey_eq_ok {name : String} {value : Toml}
    (h : ∀ setting : Setting p, setting.key = name → ∃ b, setting.inRange? value = some b)
    (s : p.Content) : ∃ s', Settings.takeKey p.fields s (name, value) = .ok s' := by
  by_cases hkey : ∃ setting : Setting p, name = setting.key
  · obtain ⟨setting, rfl⟩ := hkey
    obtain ⟨b, hb⟩ := h setting rfl
    refine ⟨setting.put s b, ?_⟩
    rw [Settings.takeKey_key, Setting.read_of_inRange? hb]
    rfl
  · exact ⟨s, Settings.takeKey_of_ne (not_exists.1 hkey) s value⟩

namespace SectionTable

variable {keys : List (String × Toml)}

/-- The table of a section is read. -/
theorem exists_read (h : SectionTable p keys) : ∃ content, p.read (.table keys) = .ok content := by
  rw [Settings.read_table]
  refine exists_foldlM_eq_ok (fun entry hentry s => ?_) p.default
  obtain ⟨name, value⟩ := entry
  refine Settings.exists_takeKey_eq_ok (fun setting hkey => ?_) s
  subst hkey
  exact h.inRange setting value hentry

/-- What is read from the table of a section has the value that the table gives to a setting, or
else its default. -/
theorem place_read (h : SectionTable p keys) {content : p.Content}
    (hread : p.read (.table keys) = .ok content) (setting : Setting p) :
    setting.place content =
      ((keys.lookup setting.key).bind setting.inRange?).or setting.default? := by
  rw [Settings.read_table] at hread
  rw [(Settings.takes_setting setting).place_foldlM h.distinct hread, setting.place_default]
  cases hlookup : keys.lookup setting.key with
  | none => rfl
  | some value =>
    obtain ⟨b, hb⟩ := h.inRange setting value (mem_of_lookup hlookup)
    simp only [Option.bind_some, hb, Setting.read_of_inRange? hb, Except.toOption]

end SectionTable

namespace SettingsDocument

variable {entries : List (String × Toml)}

/-- A document is read. -/
theorem exists_ofEntries (h : SettingsDocument entries) :
    ∃ loaded, Settings.ofEntries entries = .ok loaded := by
  rw [Settings.ofEntries_eq_foldlM]
  refine exists_foldlM_eq_ok (fun entry hentry s => ?_) Settings.default
  obtain ⟨name, value⟩ := entry
  obtain ⟨p, keys, rfl, rfl, htable⟩ := h.sectionTable name value hentry
  obtain ⟨content, hread⟩ := htable.exists_read
  refine ⟨p.put s content, ?_⟩
  rw [Settings.takeSection_name, hread]
  rfl

/-- Settings read from a document have the value that the document gives to a setting, or else its
default. -/
theorem value?_ofEntries (h : SettingsDocument entries) {loaded : Settings}
    (hread : Settings.ofEntries entries = .ok loaded) (setting : Setting p) :
    setting.value? loaded = (setting.inDocument? entries).or setting.default? := by
  rw [Settings.ofEntries_eq_foldlM] at hread
  have hplace := (Settings.takes_section p).place_foldlM h.distinct hread
  rw [Setting.value?, Setting.inDocument?]
  cases hlookup : entries.lookup p.name with
  | none =>
    rw [hlookup] at hplace
    rw [Option.some.inj hplace]
    exact setting.value?_default
  | some value =>
    obtain ⟨q, keys, hname, rfl, htable⟩ := h.sectionTable p.name value (mem_of_lookup hlookup)
    obtain rfl := SettingsSection.name_injective hname
    obtain ⟨content, hcontent⟩ := htable.exists_read
    rw [hlookup, Option.bind_some, hcontent] at hplace
    rw [Option.some.inj hplace]
    exact htable.place_read hcontent setting

end SettingsDocument

end

end EventLog
