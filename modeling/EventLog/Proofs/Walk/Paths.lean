import EventLog.Walk

/-!
# Paths and contexts along names

The walk knows where it is only by the text of a path. Where names are plain, the text says it all:
a path has one separator for each name (`count_pathOf`) and ends in the last one
(`lastSegment_pathOf`). So the context that is derived on the way is a function of the names
(`derive_contextOf`).
-/

namespace EventLog

/-! ## Identifiers -/

/-- The identifier in a name is behind its first underscore. -/
theorem identifier?_eq_some {name rest : List Char} :
    identifier? name = some rest ↔ ∃ front, '_' ∉ front ∧ name = front ++ '_' :: rest := by
  induction name with
  | nil => simp [identifier?]
  | cons c name ih =>
    by_cases hc : c = '_'
    · subst hc
      constructor
      · intro h
        obtain rfl : name = rest := by simpa [identifier?] using h
        exact ⟨[], List.not_mem_nil, rfl⟩
      · rintro ⟨_ | ⟨d, front⟩, hfront, h⟩
        · cases h
          simp [identifier?]
        · cases h
          exact absurd List.mem_cons_self hfront
    · have hstep : identifier? (c :: name) = identifier? name := by simp [identifier?, hc]
      rw [hstep, ih]
      constructor
      · rintro ⟨front, hfront, rfl⟩
        exact ⟨c :: front, by simp [hfront, Ne.symm hc], rfl⟩
      · rintro ⟨_ | ⟨d, front⟩, hfront, h⟩
        · cases h
          exact absurd rfl hc
        · cases h
          exact ⟨front, fun hm => hfront (List.mem_cons_of_mem _ hm), rfl⟩

/-- What is behind the first underscore of a name. -/
def suffix? (name : String) : Option String :=
  (identifier? name.toList).map String.ofList

/-- A name with an underscore is what is in front of the first one and what is behind it. -/
theorem suffix?_eq_some {name rest : String} :
    suffix? name = some rest ↔
      ∃ front : String, '_' ∉ front.toList ∧ name = front ++ "_" ++ rest := by
  rw [suffix?, Option.map_eq_some_iff]
  constructor
  · rintro ⟨behind, h, rfl⟩
    obtain ⟨front, hfront, hname⟩ := identifier?_eq_some.1 h
    refine ⟨String.ofList front, by rwa [String.toList_ofList], String.toList_inj.1 ?_⟩
    simp [hname]
  · rintro ⟨front, hfront, rfl⟩
    refine ⟨rest.toList, identifier?_eq_some.2 ⟨front.toList, hfront, ?_⟩, String.ofList_toList⟩
    simp

/-- Only a name without an underscore has no identifier. -/
theorem suffix?_eq_none {name : String} : suffix? name = none ↔ '_' ∉ name.toList := by
  rw [suffix?, Option.map_eq_none_iff]
  constructor
  · intro h hmem
    obtain ⟨front, rest, hname, hfront⟩ := List.eq_append_cons_of_mem hmem
    rw [identifier?_eq_some.2 ⟨front, hfront, hname⟩] at h
    cases h
  · intro h
    cases hid : identifier? name.toList with
    | none => rfl
    | some rest =>
      obtain ⟨front, -, hname⟩ := identifier?_eq_some.1 hid
      rw [hname] at h
      simp at h

/-! ## Paths -/

/-- A name that is a segment of its own in a path. -/
structure PlainName (name : String) : Prop where
  ne_empty : name ≠ ""
  no_separator : '/' ∉ name.toList

/-- The path along names, each behind a separator. -/
def pathOf : List String → String
  | [] => ""
  | name :: rest => "/" ++ name ++ pathOf rest

/-- The path along names and one more. -/
theorem pathOf_append (names : List String) (name : String) :
    pathOf (names ++ [name]) = pathOf names ++ ("/" ++ name) := by
  induction names with
  | nil => simp [pathOf]
  | cons first rest ih => rw [List.cons_append, pathOf, pathOf, ih, ← String.append_assoc]

/-- The path that the walk has at a node: at the root it is a separator alone. -/
def walkPath (names : List String) : String :=
  if names = [] then "/" else pathOf names

/-- Behind the root, the walk has the path along the names. -/
theorem walkPath_append (names : List String) (name : String) :
    walkPath (names ++ [name]) = pathOf (names ++ [name]) :=
  if_neg (List.append_ne_nil_of_right_ne_nil _ (List.cons_ne_nil _ _))

/-- A path along plain names does not end in a separator. -/
theorem getLast?_pathOf {names : List String} {name : String} (h : PlainName name) :
    (pathOf (names ++ [name])).toList.getLast? ≠ some '/' := by
  have hne : name.toList ≠ [] := fun he => h.ne_empty (String.toList_inj.1 he)
  rw [pathOf_append, String.toList_append, String.toList_append, ← List.append_assoc,
    List.getLast?_append, List.getLast?_eq_some_getLast hne, Option.some_or]
  exact fun hlast => h.no_separator (Option.some.inj hlast ▸ List.getLast_mem hne)

/-- The path of a child is along one more name. -/
theorem childPath_walkPath {names : List String} (h : ∀ n ∈ names, PlainName n) (name : String) :
    childPath (walkPath names) name = pathOf (names ++ [name]) := by
  rcases List.eq_nil_or_concat names with rfl | ⟨front, last, rfl⟩
  · rw [walkPath, if_pos rfl, childPath, if_pos (by decide)]
    simp [pathOf]
  · rw [List.concat_eq_append] at h ⊢
    have hlast : PlainName last := h last (by simp)
    rw [childPath, walkPath_append, if_neg (getLast?_pathOf hlast), pathOf_append _ name,
      String.append_assoc]

/-- A path along plain names has as many separators as there are names. -/
theorem count_pathOf {names : List String} (h : ∀ n ∈ names, PlainName n) :
    (pathOf names).toList.count '/' = names.length := by
  induction names with
  | nil => rfl
  | cons name rest ih =>
    obtain ⟨hname, hrest⟩ := List.forall_mem_cons.1 h
    have hzero : name.toList.count '/' = 0 := List.count_eq_zero.2 hname.no_separator
    have hslash : "/".toList.count '/' = 1 := by decide
    rw [pathOf, String.toList_append, String.toList_append, List.count_append, List.count_append,
      hslash, hzero, ih hrest, List.length_cons, Nat.add_zero, Nat.add_comm]

/-- A path along plain names ends in the last one. -/
theorem lastSegment_pathOf (names : List String) {name : String} (h : PlainName name) :
    lastSegment (pathOf (names ++ [name])) = name.toList := by
  have hall : ∀ c ∈ name.toList.reverse, decide (c ≠ '/') = true := by
    intro c hc
    refine decide_eq_true fun he => h.no_separator ?_
    rw [← he]
    exact List.mem_reverse.1 hc
  rw [lastSegment, pathOf_append]
  simp only [String.toList_append, List.reverse_append, List.append_assoc]
  rw [List.takeWhile_append_of_pos hall]
  simp

/-! ## Contexts -/

/-- The context along names: the identifier of the first name that has one, and if global times are
wanted, what the second name gives. -/
def contextOf (globalTime : Bool) (names : List String) : Context where
  serial := names.findSome? suffix?
  globalTime :=
    if globalTime then names[1]?.map fun name => (suffix? name).getD name else none

/-- Along no names, there is no context. -/
theorem contextOf_nil (globalTime : Bool) : contextOf globalTime [] = Context.empty := by
  cases globalTime <;> rfl

/-- The global time of a path along plain names is given by the last one. -/
theorem globalTimeOf_pathOf (names : List String) {name : String} (h : PlainName name) :
    globalTimeOf (pathOf (names ++ [name])) = (suffix? name).getD name := by
  rw [globalTimeOf, lastSegment_pathOf names h, suffix?]
  cases identifier? name.toList with
  | none => exact String.ofList_toList
  | some rest => rfl

/-- The context that the walk derives for a child is the one along one more name. -/
theorem derive_contextOf (globalTime : Bool) {names : List String} {name : String}
    (h : ∀ n ∈ names, PlainName n) (hname : PlainName name) :
    (contextOf globalTime names).derive globalTime (pathOf (names ++ [name])) name =
      contextOf globalTime (names ++ [name]) := by
  have hall : ∀ n ∈ names ++ [name], PlainName n :=
    List.forall_mem_append.2 ⟨h, List.forall_mem_singleton.2 hname⟩
  have hdepth : setsGlobalTime (pathOf (names ++ [name])) = (names.length == 1) := by
    rw [setsGlobalTime, count_pathOf hall, List.length_append, globalTimeDepth,
      List.length_singleton, Bool.eq_iff_iff, beq_iff_eq, beq_iff_eq]
    omega
  have hserial : (names.findSome? suffix?).or (suffix? name) =
      (names ++ [name]).findSome? suffix? := by
    rw [List.findSome?_append, List.findSome?_singleton]
  rw [Context.derive, hdepth, globalTimeOf_pathOf names hname, contextOf, contextOf]
  rw [Context.mk.injEq]
  refine ⟨hserial, ?_⟩
  cases globalTime with
  | false => rfl
  | true =>
    match names with
    | [] => rfl
    | [_] => rfl
    | _ :: _ :: _ => rfl

end EventLog
