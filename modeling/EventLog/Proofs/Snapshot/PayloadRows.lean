import EventLog.Proofs.Lookup
import EventLog.Proofs.Snapshot.Payloads

/-!
# Rows in payloads

Where the rows of a loaded node stand in the text of a snapshot. `Phrase.rows?` are the values that
are written as the rows of a payload: of several members for the rows the last one counts, since a
payload is read as a document first. `ofDocument?_of_rows?`: the dataset of the payload has a row
for each of them, made of what the value denotes with its members in order. The payload of a node
that was loaded denotes something (`payload_of_loadStore`), and so every row in it can be read by
itself (`Json.read_text`).
-/

namespace EventLog

open EventLog.Json (Phrase Label Blank Separated sortedMembers sortedMember lastOfNames blanks
  skipSpace toOption_bind)

/-! ## The last member of a name -/

namespace Json

/-- A member counts for its name if there is none of that name behind it. -/
theorem lookup_lastOfNames_cons {α : Type} (m : String × α) (rest : List (String × α))
    (name : String) :
    (lastOfNames (m :: rest)).lookup name =
      ((lastOfNames rest).lookup name).or (if m.1 = name then some m.2 else none) := by
  rw [lastOfNames]
  split
  · next hagain =>
    split
    · next heq =>
      obtain ⟨value, hvalue⟩ := exists_lookup_eq_some (mem_names_lastOfNames.2 (heq ▸ hagain))
      rw [hvalue, Option.some_or]
    · rw [Option.or_none]
  · next hlast =>
    split
    · next heq =>
      have hnone : (lastOfNames rest).lookup name = none :=
        lookup_eq_none_of_notMem fun h => hlast (heq ▸ mem_names_lastOfNames.1 h)
      rw [hnone, Option.none_or, ← heq]
      exact List.lookup_cons_self
    · next hne =>
      rw [Option.or_none, List.lookup_cons, beq_false_of_ne (Ne.symm hne)]

/-- What is found among sorted members is the last value of the name. -/
theorem lookup_sortedMembers (members : List (String × Json)) (name : String) :
    (sortedMembers members).lookup name = ((lastOfNames members).lookup name).map sorted := by
  have hnames : ((lastOfNames members).map sortedMember).map Prod.fst =
      (lastOfNames members).map Prod.fst := by
    rw [List.map_map]
    rfl
  have hdistinct : (((lastOfNames members).map sortedMember).map Prod.fst).Nodup :=
    hnames ▸ nodup_names_lastOfNames members
  have hperm := sortedMembers_perm_lastOfNames members
  rw [← List.append_nil ((lastOfNames members).map sortedMember)] at hperm
  rw [lookup_of_perm hdistinct hperm List.not_mem_nil]
  exact lookup_map_snd sorted (lastOfNames members) name

end Json

/-! ## Rows as they are written -/

namespace Json.Phrase

/-- Blanks in front make no difference to what a value denotes. -/
theorem value?_bare (p : Phrase) : p.bare.value? = p.value? := by
  induction p with
  | spaced front value ih => exact ih
  | _ => rfl

/-- Blanks in front open no array and no object. -/
theorem levels_bare (p : Phrase) : p.bare.levels = p.levels := by
  induction p with
  | spaced front value ih => exact ih
  | _ => rfl

/-- The values that are written as the rows of a payload: the items of the last member for the rows,
or of the only item of an array. -/
def rows? (payload : Phrase) : Option (List Phrase) :=
  match payload.bare with
  | .object _ members => (valuesOf "rows" members).getLast?.bind items?
  | .array _ [(_, rows)] => rows.items?
  | _ => none

/-- `valueItems?` per item. -/
theorem valueItems?_eq_mapM (items : List (List Blank × Phrase)) :
    valueItems? items = (items.map Prod.snd).mapM value? := by
  induction items with
  | nil => rfl
  | cons m rest ih => rw [valueItems?, ih, List.map_cons, List.mapM_cons]

/-- An array denotes the array of what its items denote. -/
theorem value?_of_items? {p : Phrase} {items : List Phrase} (h : p.items? = some items) :
    p.value? = (items.mapM value?).map .array := by
  obtain ⟨front, spaced, hbare, rfl⟩ := items?_eq_some h
  rw [← value?_bare, hbare, value?, valueItems?_eq_mapM]

/-- The items of an array nest no deeper than it does. -/
theorem levels_of_items? {p : Phrase} {items : List Phrase} (h : p.items? = some items) :
    ∀ item ∈ items, item.levels ≤ p.levels := by
  obtain ⟨front, spaced, hbare, rfl⟩ := items?_eq_some h
  rw [← levels_bare, hbare, levels, List.forall_mem_map]
  have hitems := (levelsItems_le_iff spaced).1 (Nat.le_refl _)
  exact fun m hm => Nat.le_succ_of_le (hitems m hm)

/-- The values of a name are values of members. -/
theorem exists_of_mem_valuesOf {name : String} {ms : List (Label × Phrase)} {p : Phrase}
    (h : p ∈ valuesOf name ms) : ∃ m ∈ ms, m.2 = p := by
  obtain ⟨m, hm, hp⟩ := List.mem_filterMap.1 h
  split at hp
  · exact ⟨m, hm, Option.some.inj hp⟩
  · cases hp

/-- The last member of a name denotes what the last value of that name does. -/
theorem lookup_of_valueMembers? {ms : List (Label × Phrase)} {members : List (String × Json)}
    (h : valueMembers? ms = some members) (name : String) :
    (lastOfNames members).lookup name = (valuesOf name ms).getLast?.bind value? := by
  induction ms generalizing members with
  | nil =>
    obtain rfl := Option.some.inj h
    rfl
  | cons m ms ih =>
    obtain ⟨text, htext, h⟩ := Option.bind_eq_some_iff.1 h
    obtain ⟨value, hvalue, h⟩ := Option.bind_eq_some_iff.1 h
    obtain ⟨rest, hrest, h⟩ := Option.bind_eq_some_iff.1 h
    obtain rfl := Option.some.inj h
    have hdenotes := (isSome_valueMembers? ms).1 (Option.isSome_of_mem hrest)
    rw [lookup_lastOfNames_cons, ih hrest]
    have hname : String.ofList text = name ↔ m.1.name.value? = some name.toList := by
      rw [htext, Option.some.injEq, ← String.toList_inj, String.toList_ofList]
    by_cases hkey : String.ofList text = name
    · have hvalues : valuesOf name (m :: ms) = m.2 :: valuesOf name ms :=
        List.filterMap_cons_some (if_pos (hname.1 hkey))
      rw [hvalues, List.getLast?_cons, if_pos hkey, Option.bind_some]
      cases hlast : (valuesOf name ms).getLast? with
      | none => exact hvalue.symm
      | some p =>
        obtain ⟨n, hn, rfl⟩ := exists_of_mem_valuesOf (List.mem_of_getLast? hlast)
        obtain ⟨later, hlater⟩ := Option.isSome_iff_exists.1 (hdenotes n hn).2
        rw [Option.bind_some, hlater, Option.some_or, Option.getD_some, hlater]
    · have hvalues : valuesOf name (m :: ms) = valuesOf name ms :=
        List.filterMap_cons_none (if_neg (mt hname.2 hkey))
      rw [hvalues, if_neg hkey, Option.or_none]

/-- The rows of a payload nest no deeper than it does. -/
theorem levels_of_rows? {payload : Phrase} {rows : List Phrase} (h : payload.rows? = some rows) :
    ∀ row ∈ rows, row.levels ≤ payload.levels := by
  rw [rows?] at h
  rw [← levels_bare]
  split at h
  · next front ms hbare =>
    obtain ⟨p, hlast, hitems⟩ := Option.bind_eq_some_iff.1 h
    obtain ⟨m, hm, rfl⟩ := exists_of_mem_valuesOf (List.mem_of_getLast? hlast)
    have hmember := (levelsMembers_le_iff ms).1 (Nat.le_refl _) m hm
    intro row hrow
    have hrows := levels_of_items? hitems row hrow
    rw [hbare, levels]
    omega
  · next front behind p hbare =>
    intro row hrow
    have hrows := levels_of_items? h row hrow
    have hitem : p.levels ≤ levelsItems [(behind, p)] :=
      (levelsItems_le_iff _).1 (Nat.le_refl _) (behind, p) List.mem_cons_self
    rw [hbare, levels]
    omega
  · cases h

end Json.Phrase

/-- A payload with these rows holds the dataset of what they denote, with the members of each in the
order of their names. -/
theorem ofDocument?_of_rows? {payload : Phrase} {document : Json} {rows : List Phrase}
    (hvalue : payload.value? = some document) (hrows : payload.rows? = some rows) :
    ∃ documents, rows.mapM Phrase.value? = some documents ∧
      Dataset.ofDocument? document = some ⟨documents.map fun row => Row.ofJson row.sorted⟩ := by
  rw [← Phrase.value?_bare] at hvalue
  rw [Phrase.rows?] at hrows
  split at hrows
  · next front ms hbare =>
    rw [hbare] at hvalue
    obtain ⟨members, hmembers, rfl⟩ := Option.map_eq_some_iff.1 hvalue
    obtain ⟨p, hlast, hitems⟩ := Option.bind_eq_some_iff.1 hrows
    obtain ⟨m, hm, rfl⟩ := Phrase.exists_of_mem_valuesOf (List.mem_of_getLast? hlast)
    have hdenotes := ((Phrase.isSome_valueMembers? ms).1 (Option.isSome_of_mem hmembers) m hm).2
    obtain ⟨array, harray⟩ := Option.isSome_iff_exists.1 hdenotes
    rw [Phrase.value?_of_items? hitems] at harray
    obtain ⟨documents, hdocuments, rfl⟩ := Option.map_eq_some_iff.1 harray
    have hlookup : (sortedMembers members).lookup "rows" =
        some (.array (documents.map Json.sorted)) := by
      rw [Json.lookup_sortedMembers, Phrase.lookup_of_valueMembers? hmembers, hlast,
        Option.bind_some, Phrase.value?_of_items? hitems, hdocuments, Option.map_some,
        Option.map_some, Json.sorted_array]
    refine ⟨documents, hdocuments, ?_⟩
    rw [Dataset.ofDocument?, Json.sorted, Dataset.ofPayload?, hlookup]
    simp only [List.map_map]
    rfl
  · next front behind p hbare =>
    rw [hbare] at hvalue
    obtain ⟨items, hitems, rfl⟩ := Option.map_eq_some_iff.1 hvalue
    rw [Phrase.valueItems?, Phrase.valueItems?, Phrase.value?_of_items? hrows] at hitems
    obtain ⟨array, harray, hitems⟩ := Option.bind_eq_some_iff.1 hitems
    obtain rfl := Option.some.inj hitems
    obtain ⟨documents, hdocuments, rfl⟩ := Option.map_eq_some_iff.1 harray
    refine ⟨documents, hdocuments, ?_⟩
    rw [Dataset.ofDocument?, Json.sorted_array, List.map_cons, List.map_nil, Json.sorted_array,
      Dataset.ofPayload?, List.map_map]
    rfl
  · cases hrows

/-! ## Payloads of loaded nodes -/

/-- The payload of a node of a document that is loaded denotes something, and nests within the
limits of reading. -/
theorem payload_of_loadStore {p : Phrase} {s : Sketch} (h : p.sketch? Json.maxDepth = some s)
    {behind : List Blank} {path : String} {root : Node}
    (hroot : loadStore path (.ok (p.document behind).toUTF8) = .ok root) {address : List Nat}
    {name : String} {children : List Sketch} {payload : Phrase}
    (hat : s.at? address = some ⟨name, children, some payload⟩) :
    payload.levels ≤ Json.maxDepth ∧ ∃ document, payload.value? = some document ∧
      root.at? address = some ⟨name, Sketch.nodes children, Dataset.ofDocument? document⟩ := by
  obtain ⟨hsome, rfl⟩ := outline?_of_loadStore h hroot
  obtain ⟨d, hd, hmem⟩ := Sketch.exists_mem_payloads hat Json.maxDepth
  have hwithin := (s.isSome_outline? Json.maxDepth).1 hsome _ hmem
  obtain ⟨document, hdocument⟩ := Option.isSome_iff_exists.1 hwithin
  have hvalue := Phrase.value?_of_within? hdocument
  refine ⟨Nat.le_trans ((Phrase.isSome_within? d payload).1 hwithin).1 hd, document, hvalue, ?_⟩
  rw [Sketch.at?_node, hat, Option.map_some, Sketch.node, Option.bind_some, hvalue,
    Option.bind_some]

/-! ## Values by themselves -/

/-- A text in the grammar is read by itself as what it denotes, if that nests within limits. -/
theorem Json.read_text (p : Phrase) (behind : List Blank) :
    (Json.read (p.document behind)).toOption = p.within? Json.maxDepth := by
  have hlength : p.text.length < (p.text ++ blanks behind).length + 1 := by
    rw [List.length_append]
    omega
  have hread : (Json.readValue ((p.text ++ blanks behind).length + 1) Json.maxDepth
      (p.text ++ (blanks behind ++ []))).toOption =
        (p.within? Json.maxDepth).map fun v => (v, blanks behind ++ []) :=
    Json.readValue_text p hlength (Separated.nil.blanks behind)
  have hend : skipSpace (blanks behind ++ []) = [] := Json.skipSpace_blanks behind []
  rw [List.append_nil] at hread hend
  rw [Json.read, Phrase.document, String.toList_ofList, toOption_bind, hread]
  cases p.within? Json.maxDepth with
  | none => rfl
  | some v =>
    rw [Option.map_some, Option.bind_some, toOption_bind, Json.readEnd, hend]
    rfl

end EventLog
