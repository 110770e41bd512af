import Mathlib.Data.List.Infix
import EventLog.Files

/-!
# Places of files

Where a path leads depends on the directories alone (`SameDirectories.locate_iff`), and a path that
leads anywhere leads into a directory (`isDirectory_dropLast_of_locate`). So a file can be written
without a change to the directories, and after that every path leads where it led before
(`sameDirectories_put`). What was written is then found behind all paths to its place, however they
are spelled (`read_of_write`).
-/

namespace EventLog.Files

variable {files : Files}

/-! ## Directories -/

/-- The directories are the working directory, those above it, and those with files in them. -/
theorem isDirectory_iff {place : Place} :
    files.isDirectory place = true ↔
      place <+: files.home ∨ ∃ entry ∈ files.entries, place <+: entry.1 ∧ place ≠ entry.1 := by
  simp [isDirectory]

/-- What is above a directory is a directory. -/
theorem isDirectory_of_prefix {above place : Place} (h : files.isDirectory place = true)
    (habove : above <+: place) : files.isDirectory above = true := by
  rw [isDirectory_iff] at h ⊢
  rcases h with hhome | ⟨entry, hentry, hprefix, hne⟩
  · exact .inl (habove.trans hhome)
  · refine .inr ⟨entry, hentry, habove.trans hprefix, fun heq => hne ?_⟩
    exact hprefix.eq_of_length_le (heq ▸ habove.length_le)

/-- The place where a path starts is a directory. -/
theorem isDirectory_start (files : Files) (path : String) :
    files.isDirectory (files.start path) = true := by
  rw [isDirectory_iff, start]
  split
  · exact .inl List.nil_prefix
  · exact .inl List.prefix_rfl

/-- Only directories are entered. -/
theorem enter_eq_ok {place entered : Place} :
    files.enter place = .ok entered ↔ files.isDirectory place = true ∧ place = entered := by
  rw [enter]
  split
  · next h => simp [h]
  · next h => split <;> simp [h]

/-- Segments are followed one after the other, into directories. -/
theorem walk_cons_eq_ok {start place : Place} {segment : String} {rest : List String} :
    files.walk start (segment :: rest) = .ok place ↔
      ∃ next, child start segment = .ok next ∧ files.isDirectory next = true ∧
        files.walk next rest = .ok place := by
  rw [walk, List.foldlM_cons]
  cases hchild : child start segment with
  | error fault => simp [bind, Except.bind]
  | ok next =>
    cases henter : files.enter next with
    | error fault =>
      have hno : ¬ files.isDirectory next = true := fun hdir => by
        rw [enter_eq_ok.2 ⟨hdir, rfl⟩] at henter
        cases henter
      simp [bind, Except.bind, henter, hno]
    | ok entered =>
      obtain ⟨hdir, rfl⟩ := enter_eq_ok.1 henter
      simp [bind, Except.bind, henter, hdir, walk]

/-- Segments lead from a directory to a directory. -/
theorem isDirectory_of_walk {start place : Place} {segments : List String}
    (hstart : files.isDirectory start = true) (h : files.walk start segments = .ok place) :
    files.isDirectory place = true := by
  induction segments generalizing start with
  | nil =>
    cases h
    exact hstart
  | cons segment rest ih =>
    obtain ⟨next, -, hnext, hrest⟩ := walk_cons_eq_ok.1 h
    exact ih hnext hrest

/-- A segment leads from a directory to a place in a directory. -/
theorem isDirectory_dropLast_of_child {directory place : Place} {segment : String}
    (hdir : files.isDirectory directory = true) (h : child directory segment = .ok place) :
    files.isDirectory place.dropLast = true := by
  unfold child at h
  split at h
  · cases h
    exact isDirectory_of_prefix hdir (List.dropLast_prefix _)
  · split at h
    · cases h
      exact isDirectory_of_prefix hdir ((List.dropLast_prefix _).trans (List.dropLast_prefix _))
    · split at h
      · cases h
      · cases h
        rwa [List.dropLast_concat]

/-! ## Paths -/

/-- A path leads along all its segments but the last through directories. -/
theorem locate_eq_ok {path : String} {place : Place} :
    files.locate path = .ok place ↔
      pathFault? path = none ∧ ∃ directory,
        files.walk (files.start path) (segments path).dropLast = .ok directory ∧
          child directory ((segments path).getLast?.getD ".") = .ok place := by
  rw [locate]
  cases pathFault? path with
  | some fault => simp
  | none =>
    cases files.walk (files.start path) (segments path).dropLast with
    | error fault => simp [bind, Except.bind]
    | ok directory => simp [bind, Except.bind]

/-- A path leads to a place in a directory. -/
theorem isDirectory_dropLast_of_locate {path : String} {place : Place}
    (h : files.locate path = .ok place) : files.isDirectory place.dropLast = true := by
  obtain ⟨-, directory, hwalk, hchild⟩ := locate_eq_ok.1 h
  exact isDirectory_dropLast_of_child (isDirectory_of_walk (isDirectory_start files path) hwalk)
    hchild

/-- A file can be written where a path leads, unless that is a directory or should be one. -/
theorem locateOutput_eq_ok {path : String} {place : Place} :
    files.locateOutput path = .ok place ↔
      endsInSlash path = false ∧ files.locate path = .ok place ∧
        files.isDirectory place = false := by
  have hlocated : (do
      let place ← files.locate path
      if files.isDirectory place then .error FileFault.isDirectory else .ok place) = .ok place ↔
      files.locate path = .ok place ∧ files.isDirectory place = false := by
    cases files.locate path with
    | error fault => simp [bind, Except.bind]
    | ok located =>
      by_cases hdir : files.isDirectory located = true
      · simp only [bind, Except.bind, hdir, if_true, reduceCtorEq, Except.ok.injEq, false_iff]
        rintro ⟨rfl, hfalse⟩
        exact Bool.false_ne_true (hfalse.symm.trans hdir)
      · simp only [bind, Except.bind, hdir, Bool.false_eq_true, if_false, Except.ok.injEq]
        exact ⟨fun h => ⟨h, h ▸ Bool.eq_false_iff.2 hdir⟩, And.left⟩
  rw [locateOutput]
  cases hfault : pathFault? path with
  | some fault =>
    have hnone : ∀ place, files.locate path ≠ .ok place := fun place h => by
      rw [(locate_eq_ok.1 h).1] at hfault
      cases hfault
    simp [hlocated, hnone]
  | none =>
    cases hslash : endsInSlash path with
    | false => simp [hlocated]
    | true =>
      cases files.walk (files.start path) (segments path).dropLast.dropLast <;>
        simp [bind, Except.bind]

/-! ## The same directories -/

/-- Files in the same directories, with the same working directory. -/
structure SameDirectories (files other : Files) : Prop where
  home : other.home = files.home
  isDirectory : ∀ place, other.isDirectory place = files.isDirectory place

namespace SameDirectories

variable {other third : Files}

theorem refl (files : Files) : files.SameDirectories files :=
  ⟨rfl, fun _ => rfl⟩

theorem trans (h : files.SameDirectories other) (h' : other.SameDirectories third) :
    files.SameDirectories third :=
  ⟨h'.home.trans h.home, fun place => (h'.isDirectory place).trans (h.isDirectory place)⟩

/-- Segments lead to the same place. -/
theorem walk_iff (h : files.SameDirectories other) {start place : Place} {segments : List String} :
    other.walk start segments = .ok place ↔ files.walk start segments = .ok place := by
  induction segments generalizing start with
  | nil => rfl
  | cons segment rest ih => simp only [walk_cons_eq_ok, h.isDirectory, ih]

/-- A path leads to the same place. -/
theorem locate_iff (h : files.SameDirectories other) {path : String} {place : Place} :
    other.locate path = .ok place ↔ files.locate path = .ok place := by
  have hstart : other.start path = files.start path := by rw [start, start, h.home]
  simp only [locate_eq_ok, hstart, h.walk_iff]

/-- A path leads to the same place for writing. -/
theorem locateOutput_iff (h : files.SameDirectories other) {path : String} {place : Place} :
    other.locateOutput path = .ok place ↔ files.locateOutput path = .ok place := by
  simp only [locateOutput_eq_ok, h.locate_iff, h.isDirectory]

end SameDirectories

/-- A file in a directory is written without a change to the directories. -/
theorem sameDirectories_put {place : Place} (hparent : files.isDirectory place.dropLast = true)
    (content : ByteArray) : files.SameDirectories (files.put place content) := by
  refine ⟨rfl, fun other => Bool.eq_iff_iff.2 ?_⟩
  -- directories above the place are there with it and without it
  have habove : other <+: place → other ≠ place → files.isDirectory other = true := by
    intro hprefix hne
    refine isDirectory_of_prefix hparent ?_
    rcases List.eq_nil_or_concat place with rfl | ⟨front, last, rfl⟩
    · exact absurd (List.prefix_nil.1 hprefix) hne
    · rw [List.concat_eq_append] at hprefix hne ⊢
      rw [List.dropLast_concat]
      exact (List.prefix_concat_iff.1 hprefix).resolve_left hne
  constructor
  · intro h
    rcases isDirectory_iff.1 h with hhome | ⟨entry, hentry, hprefix, hne⟩
    · exact isDirectory_iff.2 (.inl hhome)
    · rcases List.mem_cons.1 hentry with rfl | hentry
      · exact habove hprefix hne
      · exact isDirectory_iff.2 (.inr ⟨entry, (List.mem_filter.1 hentry).1, hprefix, hne⟩)
  · intro h
    rw [isDirectory_iff] at h ⊢
    rcases h with hhome | ⟨entry, hentry, hprefix, hne⟩
    · exact .inl hhome
    · by_cases hplace : entry.1 = place
      · exact .inr ⟨(place, content), List.mem_cons_self, hplace ▸ hprefix, hplace ▸ hne⟩
      · refine .inr ⟨entry, List.mem_cons_of_mem _ (List.mem_filter.2 ⟨hentry, ?_⟩), hprefix, hne⟩
        exact decide_eq_true hplace

/-! ## Reading and writing -/

/-- A file is read from where its path leads. -/
theorem read_eq_ok {path : String} {content : ByteArray} :
    files.read path = .ok content ↔
      ∃ place, files.locate path = .ok place ∧ files.isDirectory place = false ∧
        files.content? place = some content := by
  rw [read]
  cases files.locate path with
  | error fault => simp [bind, Except.bind]
  | ok place =>
    by_cases hdir : files.isDirectory place = true
    · simp [bind, Except.bind, hdir]
    · cases hcontent : files.content? place <;> simp [bind, Except.bind, hdir, hcontent]

/-- A file is written where its path leads. -/
theorem write_eq_ok {path : String} {content : ByteArray} {written : Files} :
    files.write path content = .ok written ↔
      ∃ place, files.locateOutput path = .ok place ∧ files.put place content = written := by
  rw [write]
  cases files.locateOutput path <;> simp [Except.map]

/-- Writing leaves the directories as they are. -/
theorem sameDirectories_of_write {path : String} {content : ByteArray} {written : Files}
    (h : files.write path content = .ok written) : files.SameDirectories written := by
  obtain ⟨place, hplace, rfl⟩ := write_eq_ok.1 h
  obtain ⟨-, hlocate, -⟩ := locateOutput_eq_ok.1 hplace
  exact sameDirectories_put (isDirectory_dropLast_of_locate hlocate) content

/-- What was written is read from every path that leads to the same place. -/
theorem read_of_write {path other : String} {place : Place} {content : ByteArray} {written : Files}
    (h : files.write path content = .ok written) (hplace : files.locateOutput path = .ok place)
    (hother : files.locate other = .ok place) : written.read other = .ok content := by
  have hsame := sameDirectories_of_write h
  obtain ⟨target, htarget, rfl⟩ := write_eq_ok.1 h
  obtain rfl : place = target := Except.ok.inj (hplace.symm.trans htarget)
  refine read_eq_ok.2 ⟨place, hsame.locate_iff.2 hother, ?_, content?_put_self files place content⟩
  rw [hsame.isDirectory, (locateOutput_eq_ok.1 hplace).2.2]

end EventLog.Files
