import EventLog.Proofs.Json.Extent
import EventLog.Proofs.Text.SortedBy

/-!
# The order of members

`Json.sorted` forgets the order of members: what it returns has the members of every object
`Ascending` by name, each name once, and sorting such a document again changes nothing
(`sorted_sorted`). Where the names of an object are distinct, no member is lost
(`sortedMembers_perm`); then the members stay where they are exactly if they stand in the order of
their names already (`sortedMembers_of_ascending`, `ascending_sortedMembers`). In general the last
member of each name is kept, which `byName` says for members with any values
(`sortedMembers_eq_byName`). Where the members of a document stay in place and their values alone
are sorted (`Json.sortedValues`), it is sorted to the same document (`sorted_sortedValues`).
-/

namespace EventLog.Json

/-- The members stand in the order of their names, and no name is there twice. -/
def Ascending {α : Type} (members : List (String × α)) : Prop :=
  members.Pairwise fun m n => m.1 < n.1

instance {α : Type} (members : List (String × α)) : Decidable (Ascending members) :=
  inferInstanceAs (Decidable (members.Pairwise fun m n => m.1 < n.1))

/-! ## Insertion -/

/-- A member of the result was inserted or was there. -/
theorem mem_insertMember {name : String} {value : Json} {m : String × Json} :
    ∀ {members : List (String × Json)}, m ∈ insertMember name value members →
      m = (name, value) ∨ m ∈ members
  | [], h => by simpa [insertMember] using h
  | (other, old) :: rest, h => by
    simp only [insertMember] at h
    split at h
    · simpa using h
    · split at h
      · exact .inr h
      · rcases List.mem_cons.1 h with rfl | h
        · exact .inr (by simp)
        · rcases mem_insertMember h with rfl | h
          · exact .inl rfl
          · exact .inr (by simp [h])

/-- Insertion keeps the members in order. -/
theorem ascending_insertMember (name : String) (value : Json) :
    ∀ {members : List (String × Json)}, Ascending members →
      Ascending (insertMember name value members)
  | [], _ => List.pairwise_singleton _ _
  | (other, old) :: rest, h => by
    obtain ⟨hother, hrest⟩ := List.pairwise_cons.1 h
    simp only [insertMember]
    split
    · next hlt =>
      refine List.pairwise_cons.2 ⟨fun m hm => ?_, h⟩
      rcases List.mem_cons.1 hm with rfl | hm
      · exact hlt
      · exact String.lt_trans hlt (hother m hm)
    · next hlt =>
      split
      · exact h
      · next hne =>
        have hgt : other < name := Std.lt_of_le_of_ne (String.not_lt.1 hlt) fun he => hne he.symm
        refine List.pairwise_cons.2 ⟨fun m hm => ?_, ascending_insertMember name value hrest⟩
        rcases mem_insertMember hm with rfl | hm
        · exact hgt
        · exact hother m hm

/-- A member in front of all others is put in front of them. -/
theorem insertMember_of_lt {name : String} (value : Json) {members : List (String × Json)}
    (h : ∀ m ∈ members, name < m.1) :
    insertMember name value members = (name, value) :: members := by
  cases members with
  | nil => rfl
  | cons m rest => rw [insertMember, if_pos (h m (by simp))]

/-- Insertion of a new name loses nothing. -/
theorem insertMember_perm {name : String} (value : Json) :
    ∀ {members : List (String × Json)}, (∀ m ∈ members, m.1 ≠ name) →
      (insertMember name value members).Perm ((name, value) :: members)
  | [], _ => .refl _
  | (other, old) :: rest, h => by
    obtain ⟨hother, hrest⟩ := List.forall_mem_cons.1 h
    simp only [insertMember, Ne.symm hother, if_false]
    split
    · exact .refl _
    · exact ((insertMember_perm value hrest).cons (other, old)).trans (.swap _ _ _)

/-! ## Sorted members -/

/-- `sortedItems` per item. -/
theorem sortedItems_eq_map (items : List Json) : sortedItems items = items.map sorted := by
  induction items with
  | nil => rfl
  | cons item rest ih => rw [sortedItems, ih, List.map_cons]

theorem sorted_array (items : List Json) : sorted (.array items) = .array (items.map sorted) := by
  rw [sorted, sortedItems_eq_map]

/-- A member with its value sorted. -/
def sortedMember (m : String × Json) : String × Json := (m.1, m.2.sorted)

/-- A sorted member is a member of the object with its value sorted. -/
theorem mem_sortedMembers {m : String × Json} :
    ∀ {members : List (String × Json)}, m ∈ sortedMembers members →
      ∃ n ∈ members, m = sortedMember n
  | [], h => by simp [sortedMembers] at h
  | (name, value) :: rest, h => by
    rcases mem_insertMember h with rfl | h
    · exact ⟨(name, value), by simp, rfl⟩
    · obtain ⟨n, hn, rfl⟩ := mem_sortedMembers h
      exact ⟨n, by simp [hn], rfl⟩

theorem ascending_sortedMembers : ∀ members : List (String × Json),
    Ascending (sortedMembers members)
  | [] => .nil
  | (name, value) :: rest => ascending_insertMember name value.sorted (ascending_sortedMembers rest)

/-- Members in the order of their names stay where they are. -/
theorem sortedMembers_of_ascending {members : List (String × Json)} (h : Ascending members) :
    sortedMembers members = members.map sortedMember := by
  induction members with
  | nil => rfl
  | cons m rest ih =>
    obtain ⟨name, value⟩ := m
    obtain ⟨hname, hrest⟩ := List.pairwise_cons.1 h
    rw [sortedMembers, ih hrest, List.map_cons]
    refine insertMember_of_lt value.sorted fun m hm => ?_
    obtain ⟨n, hn, rfl⟩ := List.mem_map.1 hm
    exact hname n hn

/-- Members with distinct names are all kept. -/
theorem sortedMembers_perm {members : List (String × Json)} (h : (members.map Prod.fst).Nodup) :
    (sortedMembers members).Perm (members.map sortedMember) := by
  induction members with
  | nil => exact .refl _
  | cons m rest ih =>
    obtain ⟨name, value⟩ := m
    obtain ⟨hname, hrest⟩ := List.nodup_cons.1 h
    refine (insertMember_perm value.sorted fun m hm he => ?_).trans ((ih hrest).cons _)
    obtain ⟨n, hn, rfl⟩ := mem_sortedMembers hm
    exact hname (List.mem_map.2 ⟨n, hn, he⟩)

/-! ## Sorted documents -/

/-- An array stays as it is if its items do. -/
theorem sorted_array_eq_self {items : List Json} :
    sorted (.array items) = .array items ↔ ∀ item ∈ items, item.sorted = item := by
  rw [sorted_array, array.injEq]
  constructor
  · intro h
    exact List.map_inj_left.1 (h.trans (List.map_id items).symm)
  · intro h
    exact (List.map_congr_left h).trans (List.map_id items)

/-- An object stays as it is if its members are in order and their values stay as they are. -/
theorem sorted_object_eq_self {members : List (String × Json)} :
    sorted (.object members) = .object members ↔
      Ascending members ∧ ∀ m ∈ members, m.2.sorted = m.2 := by
  rw [sorted, object.injEq]
  constructor
  · intro h
    have hascending : Ascending members := h ▸ ascending_sortedMembers members
    rw [sortedMembers_of_ascending hascending] at h
    have hmember := List.map_inj_left.1 (h.trans (List.map_id members).symm)
    exact ⟨hascending, fun m hm => congrArg Prod.snd (hmember m hm)⟩
  · rintro ⟨hascending, hmember⟩
    rw [sortedMembers_of_ascending hascending]
    refine (List.map_congr_left fun m hm => ?_).trans (List.map_id members)
    exact congrArg (Prod.mk m.1) (hmember m hm)

/-- A sorted document stays as it is. -/
theorem sorted_sorted (v : Json) : v.sorted.sorted = v.sorted := by
  induction v with
  | null | bool _ | integer _ | float _ | string _ => rfl
  | array items ih =>
    rw [sorted_array, sorted_array_eq_self, List.forall_mem_map]
    exact ih
  | object members ih =>
    rw [sorted, sorted_object_eq_self]
    refine ⟨ascending_sortedMembers members, fun m hm => ?_⟩
    obtain ⟨n, hn, rfl⟩ := mem_sortedMembers hm
    exact ih n hn

/-- Sorting adds nothing to a document: it stays within its limits. -/
theorem Within.sorted {d : Nat} {v : Json} (h : v.Within d) : v.sorted.Within d := by
  induction v generalizing d with
  | null | bool _ | integer _ | float _ | string _ => exact h
  | array items ih =>
    obtain ⟨e, rfl, hitems⟩ := (within_array items).1 h
    rw [sorted_array, within_array_succ, List.forall_mem_map]
    exact fun item hi => ih item hi (hitems item hi)
  | object members ih =>
    obtain ⟨e, rfl, hmembers⟩ := (within_object members).1 h
    rw [Json.sorted, within_object_succ]
    intro m hm
    obtain ⟨n, hn, rfl⟩ := mem_sortedMembers hm
    exact ih n hn (hmembers n hn)

/-- Sorting adds no floating-point numbers. -/
theorem FloatFree.sorted {v : Json} (h : v.FloatFree) : v.sorted.FloatFree := by
  induction v with
  | null | bool _ | integer _ | float _ | string _ => exact h
  | array items ih =>
    rw [sorted_array, floatFree_array, List.forall_mem_map]
    intro item hi
    exact ih item hi ((floatFree_array items).1 h item hi)
  | object members ih =>
    rw [Json.sorted, floatFree_object]
    intro m hm
    obtain ⟨n, hn, rfl⟩ := mem_sortedMembers hm
    exact ih n hn ((floatFree_object members).1 h n hn)

/-! ## Sorted values -/

/-- Whether the values of members have been sorted does not matter when the members are. -/
theorem sortedMembers_map_sortedMember (members : List (String × Json)) :
    sortedMembers (members.map sortedMember) = sortedMembers members := by
  induction members with
  | nil => rfl
  | cons m rest ih =>
    obtain ⟨name, value⟩ := m
    rw [List.map_cons, sortedMember, sortedMembers, sortedMembers, ih, sorted_sorted]

/-- The document with its members where they are, and the values of these sorted. -/
def sortedValues : Json → Json
  | .object members => .object (members.map sortedMember)
  | document => document.sorted

/-- The values of members in order are sorted already. -/
theorem sortedValues_eq_self {v : Json} (h : v.sorted = v) : v.sortedValues = v := by
  cases v with
  | null | bool _ | integer _ | float _ | string _ => rfl
  | array items => exact h
  | object members =>
    obtain ⟨-, hvalues⟩ := sorted_object_eq_self.1 h
    refine congrArg Json.object ((List.map_congr_left fun m hm => ?_).trans (List.map_id members))
    exact congrArg (Prod.mk m.1) (hvalues m hm)

/-- Sorting the values first does not change what a document is sorted to. -/
theorem sorted_sortedValues (v : Json) : v.sortedValues.sorted = v.sorted := by
  cases v with
  | null | bool _ | integer _ | float _ | string _ => rfl
  | array items => exact sorted_sorted (.array items)
  | object members => exact congrArg Json.object (sortedMembers_map_sortedMember members)

/-- Sorting the values adds nothing to a document. -/
theorem Within.sortedValues {d : Nat} {v : Json} (h : v.Within d) : v.sortedValues.Within d := by
  cases v with
  | null | bool _ | integer _ | float _ | string _ => exact h
  | array items => exact h.sorted
  | object members =>
    obtain ⟨e, rfl, hmembers⟩ := (within_object members).1 h
    rw [Json.sortedValues, within_object_succ, List.forall_mem_map]
    intro m hm
    exact (hmembers m hm).sorted

/-- Sorting the values adds no floating-point numbers. -/
theorem FloatFree.sortedValues {v : Json} (h : v.FloatFree) : v.sortedValues.FloatFree := by
  cases v with
  | null | bool _ | integer _ | float _ | string _ => exact h
  | array items => exact h.sorted
  | object members =>
    rw [Json.sortedValues, floatFree_object, List.forall_mem_map]
    intro m hm
    exact ((floatFree_object members).1 h m hm).sorted

/-! ## Members by name -/

section

variable {α β : Type}

/-- The last member of each name, in the order of the members. -/
def lastOfNames : List (String × α) → List (String × α)
  | [] => []
  | m :: rest => if m.1 ∈ rest.map Prod.fst then lastOfNames rest else m :: lastOfNames rest

/-- The last member of each name, in the order of the names. -/
def byName (members : List (String × α)) : List (String × α) :=
  (lastOfNames members).mergeSort fun m n => m.1 ≤ n.1

/-- Every name keeps a member. -/
theorem mem_names_lastOfNames {name : String} {members : List (String × α)} :
    name ∈ (lastOfNames members).map Prod.fst ↔ name ∈ members.map Prod.fst := by
  induction members with
  | nil => rfl
  | cons m rest ih =>
    rw [lastOfNames]
    split
    · next hm =>
      rw [ih, List.map_cons, List.mem_cons]
      exact ⟨.inr, fun h => h.elim (fun he => he ▸ hm) id⟩
    · rw [List.map_cons, List.map_cons, List.mem_cons, List.mem_cons, ih]

/-- No name keeps two. -/
theorem nodup_names_lastOfNames (members : List (String × α)) :
    ((lastOfNames members).map Prod.fst).Nodup := by
  induction members with
  | nil => exact List.nodup_nil
  | cons m rest ih =>
    rw [lastOfNames]
    split
    · exact ih
    · next hm => exact List.nodup_cons.2 ⟨fun h => hm (mem_names_lastOfNames.1 h), ih⟩

theorem ascending_byName (members : List (String × α)) : Ascending (byName members) := by
  have hsorted : (byName members).Pairwise fun m n => m.1 ≤ n.1 :=
    Text.pairwise_mergeSort_le Prod.fst (lastOfNames members)
  have hnodup : (byName members).Pairwise fun m n => m.1 ≠ n.1 := by
    have hperm := (List.mergeSort_perm (lastOfNames members) fun m n => m.1 ≤ n.1).map Prod.fst
    exact List.pairwise_map.1 (hperm.nodup_iff.2 (nodup_names_lastOfNames members))
  exact (hsorted.and hnodup).imp fun h => Std.lt_of_le_of_ne h.1 h.2

/-- Members in the order of their names are determined by which they are. -/
theorem eq_of_ascending {l l' : List (String × α)} (h : Ascending l) (h' : Ascending l')
    (hperm : l.Perm l') : l = l' := by
  refine List.Perm.eq_of_pairwise (fun m n _ _ hmn hnm => ?_) h h' hperm
  exact absurd (String.lt_trans hmn hnm) (String.lt_irrefl m.1)

/-- Which member of a name is the last does not depend on the values. -/
theorem lastOfNames_map (f : α → β) (members : List (String × α)) :
    lastOfNames (members.map fun m => (m.1, f m.2)) =
      (lastOfNames members).map fun m => (m.1, f m.2) := by
  induction members with
  | nil => rfl
  | cons m rest ih =>
    have hnames : (rest.map fun m => (m.1, f m.2)).map Prod.fst = rest.map Prod.fst := by
      rw [List.map_map]
      rfl
    rw [List.map_cons, lastOfNames, lastOfNames, hnames, ih]
    split
    · rfl
    · rw [List.map_cons]

theorem byName_map (f : α → β) (members : List (String × α)) :
    byName (members.map fun m => (m.1, f m.2)) = (byName members).map fun m => (m.1, f m.2) := by
  have hsort := List.map_mergeSort (r := fun m n => decide (m.1 ≤ n.1))
    (s := fun m n => decide (m.1 ≤ n.1)) (f := fun m : String × α => (m.1, f m.2))
    (l := lastOfNames members) fun _ _ _ _ => rfl
  rw [byName, lastOfNames_map, ← hsort, byName]

end

/-- A member of a name that is there already is not inserted. -/
theorem insertMember_of_mem {name : String} (value : Json) :
    ∀ {members : List (String × Json)}, Ascending members → name ∈ members.map Prod.fst →
      insertMember name value members = members
  | [], _, h => absurd h List.not_mem_nil
  | (other, old) :: rest, hasc, h => by
    obtain ⟨hother, hrest⟩ := List.pairwise_cons.1 hasc
    have hlt : ¬ name < other := by
      rcases List.mem_cons.1 h with rfl | h
      · exact String.lt_irrefl name
      · obtain ⟨m, hm, rfl⟩ := List.mem_map.1 h
        exact fun hlt => String.lt_irrefl m.1 (String.lt_trans hlt (hother m hm))
    rw [insertMember, if_neg hlt]
    split
    · rfl
    · next hne =>
      have hmem : name ∈ rest.map Prod.fst := (List.mem_cons.1 h).resolve_left hne
      rw [insertMember_of_mem value hrest hmem]

/-- Sorting keeps the last member of each name. -/
theorem sortedMembers_perm_lastOfNames (members : List (String × Json)) :
    (sortedMembers members).Perm ((lastOfNames members).map sortedMember) := by
  induction members with
  | nil => exact .refl _
  | cons m rest ih =>
    obtain ⟨name, value⟩ := m
    have hnames : ((sortedMembers rest).map Prod.fst).Perm ((lastOfNames rest).map Prod.fst) := by
      have hmap := ih.map Prod.fst
      rw [List.map_map] at hmap
      exact hmap
    have hmem : name ∈ (sortedMembers rest).map Prod.fst ↔ name ∈ rest.map Prod.fst :=
      hnames.mem_iff.trans mem_names_lastOfNames
    rw [sortedMembers, lastOfNames]
    split
    · next hagain =>
      rw [insertMember_of_mem value.sorted (ascending_sortedMembers rest) (hmem.2 hagain)]
      exact ih
    · next hlast =>
      rw [List.map_cons]
      refine (insertMember_perm value.sorted fun m hm he => ?_).trans (ih.cons _)
      exact hlast (hmem.1 (List.mem_map.2 ⟨m, hm, he⟩))

/-- The sorted members of an object are the last ones of each name, in the order of the names. -/
theorem sortedMembers_eq_byName (members : List (String × Json)) :
    sortedMembers members = byName (members.map sortedMember) := by
  refine eq_of_ascending (ascending_sortedMembers members) (ascending_byName _) ?_
  rw [show members.map sortedMember = members.map (fun m => (m.1, sorted m.2)) from rfl,
    byName_map]
  exact (sortedMembers_perm_lastOfNames members).trans
    ((List.mergeSort_perm _ _).map sortedMember).symm

end EventLog.Json
