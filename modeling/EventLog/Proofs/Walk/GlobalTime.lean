import Mathlib.Data.List.Forall2
import EventLog.Store.Snapshot
import EventLog.Proofs.Walk.Exact

/-!
# Where global times come from

The global time of a subtree is meant to come from the second name on the way to it. The walk knows
depth only by the separators in a path, and a name can hold separators, or add none behind a name
that is empty or ends in one. `timedBySecond_iff`: the second name alone gives the global time
exactly if the names are such that the path of the second node, and of no other, has two separators
(`OnlySecondSets`). What stands behind the third name makes no difference any more, since a path
only gets longer.
-/

namespace EventLog

open Node (Descendant Reaches)

/-! ## Paths along any names -/

/-- What the paths of the children of a node begin with. -/
def directoryPath (path : String) : String :=
  if path.toList.getLast? = some '/' then path else path ++ "/"

/-- The path of a child is its name behind the directory. -/
theorem childPath_eq (parent name : String) :
    childPath parent name = directoryPath parent ++ name := by
  rw [childPath, directoryPath]
  split <;> rfl

/-- A directory ends in a separator. -/
theorem getLast?_directoryPath (path : String) :
    (directoryPath path).toList.getLast? = some '/' := by
  rw [directoryPath]
  split
  · assumption
  · simp

/-- What is behind the last separator of the path of a child is in its name. -/
theorem lastSegment_childPath (parent name : String) :
    lastSegment (childPath parent name) = lastSegment name := by
  obtain ⟨front, hfront⟩ := List.getLast?_eq_some_iff.1 (getLast?_directoryPath parent)
  rw [lastSegment, lastSegment, childPath_eq, String.toList_append, hfront, List.reverse_append,
    List.reverse_append, List.takeWhile_append, List.reverse_singleton, List.singleton_append,
    List.takeWhile_cons_of_neg (by decide), List.append_nil]
  split
  · next h => exact congrArg List.reverse ((List.takeWhile_prefix _).eq_of_length h).symm
  · rfl

/-- The global time that the path of a child gives is in its name. -/
theorem globalTimeOf_childPath (parent name : String) :
    globalTimeOf (childPath parent name) = globalTimeOf name := by
  rw [globalTimeOf, globalTimeOf, lastSegment_childPath]

/-- How many separators a text holds. -/
def separators (text : String) : Nat := text.toList.count '/'

/-- A name behind which no separator is put: it is empty, or ends in one. -/
def OpenName (name : String) : Prop := name.toList.getLast?.getD '/' = '/'

instance (name : String) : Decidable (OpenName name) := inferInstanceAs (Decidable (_ = _))

/-- The path of a child ends in a separator if its name is open. -/
theorem getLast?_childPath (parent name : String) :
    (childPath parent name).toList.getLast? = some '/' ↔ OpenName name := by
  rw [childPath_eq, String.toList_append, List.getLast?_append, getLast?_directoryPath, OpenName]
  cases name.toList.getLast? <;> simp

/-- The path of a child behind a name has the separators of that path, one more unless the name is
open, and those of the name of the child. -/
theorem separators_childPath_childPath (parent name child : String) :
    separators (childPath (childPath parent name) child) =
      separators (childPath parent name) + (if OpenName name then 0 else 1) + separators child := by
  rw [childPath_eq (childPath parent name), separators, String.toList_append, List.count_append,
    directoryPath]
  simp only [getLast?_childPath]
  split <;> simp [separators]

/-- The path of a child of the root has a separator in front. -/
theorem separators_childPath_root (name : String) :
    separators (childPath "/" name) = 1 + separators name := by
  rw [childPath_eq, separators, String.toList_append, List.count_append]
  rfl

/-- A path sets the global time if it has two separators. -/
theorem setsGlobalTime_iff (path : String) : setsGlobalTime path = true ↔ separators path = 2 :=
  beq_iff_eq

/-- A path gets no shorter along further names. -/
theorem separators_le_foldl (path : String) (names : List String) :
    separators path ≤ separators (names.foldl childPath path) := by
  induction names generalizing path with
  | nil => exact Nat.le_refl _
  | cons name rest ih =>
    refine Nat.le_trans ?_ (ih (childPath path name))
    rw [childPath_eq, directoryPath, separators, separators, String.toList_append,
      List.count_append]
    split
    · exact Nat.le_add_right _ _
    · rw [String.toList_append, List.count_append]
      omega

/-! ## Names that leave the global time to the second one -/

/-- The path that the walk has behind names. -/
def walkedPath (names : List String) : String := names.foldl childPath "/"

/-- The path along two names has two separators, and that along the first has not: the first name is
plain and the second holds no separator, or the first is empty and the second holds the one that is
missing. -/
def TwoLevels (first second : String) : Prop :=
  PlainName first ∧ separators second = 0 ∨ first = "" ∧ separators second = 1

/-- Of the paths along names, the second has two separators and no other has. Where no separator is
put behind the second name, the third holds one. -/
def OnlySecondSets : List String → Prop
  | [] => True
  | [first] => separators first ≠ 1
  | first :: second :: rest =>
    TwoLevels first second ∧ (OpenName second → ∀ third ∈ rest.head?, separators third ≠ 0)

/-- A plain name holds no separator and is not open. -/
theorem plainName_iff (name : String) :
    PlainName name ↔ separators name = 0 ∧ ¬ OpenName name := by
  have hcount : separators name = 0 ↔ '/' ∉ name.toList := List.count_eq_zero
  constructor
  · rintro ⟨hne, hno⟩
    refine ⟨hcount.2 hno, fun hopen => ?_⟩
    have hlist : name.toList ≠ [] := fun he => hne (String.toList_inj.1 he)
    rw [OpenName, List.getLast?_eq_some_getLast hlist, Option.getD_some] at hopen
    exact hno (hopen ▸ List.getLast_mem hlist)
  · rintro ⟨hzero, hopen⟩
    refine ⟨?_, hcount.1 hzero⟩
    rintro rfl
    exact hopen (by decide)

/-- Only the empty name holds no separator and is open. -/
theorem eq_empty_iff (name : String) : name = "" ↔ separators name = 0 ∧ OpenName name := by
  constructor
  · rintro rfl
    decide
  · rintro ⟨hzero, hopen⟩
    by_contra hne
    have hplain : PlainName name := ⟨hne, List.count_eq_zero.1 hzero⟩
    exact ((plainName_iff name).1 hplain).2 hopen

/-- Two names make two levels if the first path has other than two separators and the second has
two. -/
theorem twoLevels_iff (first second : String) :
    TwoLevels first second ↔
      separators first ≠ 1 ∧ separators (walkedPath [first, second]) = 2 := by
  have hpath : separators (walkedPath [first, second]) =
      1 + separators first + (if OpenName first then 0 else 1) + separators second := by
    rw [← separators_childPath_root first]
    exact separators_childPath_childPath "/" first second
  rw [TwoLevels, plainName_iff, eq_empty_iff, hpath]
  by_cases hopen : OpenName first
  · simp only [hopen, not_true_eq_false, and_false, false_and, false_or, and_true, if_true]
    omega
  · simp only [hopen, not_false_eq_true, and_true, and_false, false_and, or_false, if_false]
    omega

/-- The path along a third name has more than two separators, unless there is none between the
second name and the third and none in the third. -/
theorem separators_third {first second : String} (h : TwoLevels first second) (third : String) :
    separators (walkedPath [first, second, third]) = 2 ↔
      OpenName second ∧ separators third = 0 := by
  have htwo : separators (childPath (childPath "/" first) second) = 2 :=
    ((twoLevels_iff first second).1 h).2
  change separators (childPath (childPath (childPath "/" first) second) third) = 2 ↔ _
  rw [separators_childPath_childPath, htwo]
  by_cases hopen : OpenName second
  · simp only [hopen, if_true, true_and]
    omega
  · simp only [hopen, if_false, false_and, iff_false]
    omega

/-- Names leave the global time to the second one if all paths on the way do. -/
theorem onlySecondSets_of_prefixes {names : List String}
    (h : ∀ front, front <+: names → front ≠ [] →
      (setsGlobalTime (walkedPath front) = true ↔ front.length = 2)) : OnlySecondSets names := by
  have hsets : ∀ front, front <+: names → front ≠ [] →
      (separators (walkedPath front) = 2 ↔ front.length = 2) := fun front hfront hne =>
    (setsGlobalTime_iff (walkedPath front)).symm.trans (h front hfront hne)
  have hfirst : ∀ first rest, names = first :: rest → separators first ≠ 1 := by
    rintro first rest rfl hone
    have hpath : separators (walkedPath [first]) = 1 + separators first :=
      separators_childPath_root first
    have htwo := (hsets [first] ⟨rest, rfl⟩ (List.cons_ne_nil _ _)).1 (by omega)
    simp at htwo
  match names, hsets, hfirst with
  | [], _, _ => exact trivial
  | [first], _, hfirst => exact hfirst first [] rfl
  | first :: second :: rest, hsets, hfirst =>
    have htwo := (hsets [first, second] ⟨rest, rfl⟩ (List.cons_ne_nil _ _)).2 rfl
    have hlevels : TwoLevels first second :=
      (twoLevels_iff first second).2 ⟨hfirst first (second :: rest) rfl, htwo⟩
    refine ⟨hlevels, fun hopen third hthird hzero => ?_⟩
    obtain ⟨rest', rfl⟩ := List.head?_eq_some_iff.1 hthird
    have hthree := (hsets [first, second, third] ⟨rest', rfl⟩ (List.cons_ne_nil _ _)).1
      ((separators_third hlevels third).2 ⟨hopen, hzero⟩)
    simp at hthree

/-- Behind names that leave the global time to the second one, only the second path has two
separators. -/
theorem separators_walkedPath {names : List String} (h : OnlySecondSets names) (hne : names ≠ []) :
    separators (walkedPath names) = 2 ↔ names.length = 2 := by
  match names, h with
  | [], _ => exact absurd rfl hne
  | [first], h =>
    have hpath : separators (walkedPath [first]) = 1 + separators first :=
      separators_childPath_root first
    rw [hpath]
    exact ⟨fun htwo => absurd (by omega) h, nofun⟩
  | [first, second], ⟨hlevels, _⟩ =>
    exact iff_of_true ((twoLevels_iff first second).1 hlevels).2 rfl
  | first :: second :: third :: rest, ⟨hlevels, hthird⟩ =>
    have htwo : separators (walkedPath [first, second]) = 2 :=
      ((twoLevels_iff first second).1 hlevels).2
    have hne : separators (walkedPath [first, second, third]) ≠ 2 := fun h =>
      have hopen := (separators_third hlevels third).1 h
      hthird hopen.1 third rfl hopen.2
    -- a path only gets longer, so two separators are passed for good
    have hstep : separators (walkedPath [first, second]) ≤
        separators (walkedPath [first, second, third]) :=
      separators_le_foldl (walkedPath [first, second]) [third]
    have hmore : separators (walkedPath [first, second, third]) ≤
        separators (walkedPath (first :: second :: third :: rest)) :=
      separators_le_foldl (walkedPath [first, second, third]) rest
    exact iff_of_false (by omega) (by simp)

/-- The names on the way leave the global time to the second one if all names do. -/
theorem OnlySecondSets.of_prefix {first second : String} {rest front : List String}
    (h : OnlySecondSets (first :: second :: rest)) (hfront : front <+: rest) :
    OnlySecondSets (first :: second :: front) := by
  obtain ⟨hlevels, hthird⟩ := h
  refine ⟨hlevels, fun hopen third hmem => hthird hopen third ?_⟩
  obtain ⟨behind, rfl⟩ := List.head?_eq_some_iff.1 hmem
  obtain ⟨end', rfl⟩ := hfront
  rfl

/-! ## Contexts along names -/

namespace Standing

/-- The path along names is that of the children on the way. -/
theorem path_along (globalTime : Bool) (s : Standing) (names : List String) :
    (s.along globalTime names).path = names.foldl childPath s.path := by
  induction names generalizing s with
  | nil => rfl
  | cons name rest ih => exact ih (s.enter globalTime name)

/-- The global time stays as it is where no path on the way sets it. -/
theorem globalTime_along {s : Standing} {names : List String}
    (h : ∀ front, front <+: names → front ≠ [] → separators (front.foldl childPath s.path) ≠ 2) :
    (s.along true names).context.globalTime = s.context.globalTime := by
  induction names generalizing s with
  | nil => rfl
  | cons name rest ih =>
    have hrest : ∀ front, front <+: rest → front ≠ [] →
        separators (front.foldl childPath (s.enter true name).path) ≠ 2 := fun front hfront _ =>
      h (name :: front) (List.cons_prefix_cons.2 ⟨rfl, hfront⟩) (List.cons_ne_nil _ _)
    have hname : ¬ setsGlobalTime (childPath s.path name) = true := by
      rw [setsGlobalTime_iff]
      exact h [name] ⟨rest, rfl⟩ (List.cons_ne_nil _ _)
    have hstep : (s.enter true name).context.globalTime = s.context.globalTime := by
      rw [enter, Context.derive, Bool.true_and, if_neg hname]
    exact (ih hrest).trans hstep

end Standing

/-- Behind names that leave the global time to the second one, that gives it. -/
theorem globalTime_of_onlySecondSets {names : List String} (h : OnlySecondSets names) :
    (Standing.root.along true names).context.globalTime = names[1]?.map globalTimeOf := by
  match names, h with
  | [], _ => rfl
  | [first], h =>
    refine Standing.globalTime_along fun front hfront hne => ?_
    obtain ⟨rest, rfl, hrest⟩ := (List.prefix_cons_iff.1 hfront).resolve_left hne
    obtain rfl := List.prefix_nil.1 hrest
    exact mt (separators_walkedPath h hne).1 (by simp)
  | first :: second :: rest, h =>
    have hpath : setsGlobalTime (walkedPath [first, second]) = true :=
      (setsGlobalTime_iff _).2 ((twoLevels_iff first second).1 h.1).2
    have hsecond : ((Standing.root.enter true first).enter true second).context.globalTime =
        some (globalTimeOf second) := by
      rw [Standing.enter, Context.derive, Bool.true_and]
      exact (if_pos hpath).trans (congrArg some (globalTimeOf_childPath _ second))
    have hbehind : ∀ front, front <+: rest → front ≠ [] →
        separators (walkedPath (first :: second :: front)) ≠ 2 := fun front hfront hne =>
      have hlonger : ¬ (first :: second :: front).length = 2 := by simpa using hne
      mt (separators_walkedPath (h.of_prefix hfront) (List.cons_ne_nil _ _)).1 hlonger
    exact (Standing.globalTime_along (s := (Standing.root.enter true first).enter true second)
      hbehind).trans hsecond

/-! ## Trees -/

/-- The visit of a node behind names has the global time that the second name gives, and none at the
first, and its path sets the global time if it is the second. -/
def Visit.TimedBySecond (visit : Visit) (names : List String) : Prop :=
  visit.context.globalTime = names[1]?.map globalTimeOf ∧
    (setsGlobalTime visit.path = true ↔ names.length = 2)

/-- In the walk of a tree with global times, each node has the global time that the name of its
ancestor at the second level gives, the nodes of the first level have none, and no node but those of
the second level sets it, exactly if the names on the way to each node leave it to the second. -/
theorem timedBySecond_iff (root : Node) :
    List.Forall₂ (fun (d : Descendant) visit => visit.node = d.node ∧ visit.TimedBySecond d.names)
        root.descendants (walk true root) ↔
      ∀ d ∈ root.descendants, OnlySecondSets d.names := by
  have hpath : ∀ names, (Standing.root.along true names).path = walkedPath names :=
    Standing.path_along true Standing.root
  rw [walk_eq_map, List.forall₂_map_right_iff, List.forall₂_same]
  constructor
  · intro h d hd
    refine onlySecondSets_of_prefixes fun front hfront hne => ?_
    obtain ⟨e, he, rfl⟩ := Node.exists_descendant_of_prefix (Node.mem_descendants.1 hd) hfront hne
    rw [← hpath]
    exact (h e he).2.2
  · intro h d hd
    have hne : d.names ≠ [] := (Node.mem_descendants.1 hd).names_ne_nil
    refine ⟨rfl, globalTime_of_onlySecondSets (h d hd), ?_⟩
    rw [setsGlobalTime_iff, ← separators_walkedPath (h d hd) hne, ← hpath]
    rfl

/-- The text of a snapshot with a separator in a name, and with an empty name. -/
def Snapshot.textSeparator : String :=
  "\x7b\"name\":\"/\",\"children\":[\x7b\"name\":\"a/b\",\"children\":[\x7b\"name\":\"c\"\x7d]\x7d," ++
    "\x7b\"name\":\"d\",\"children\":[\x7b\"name\":\"\",\"children\":[\x7b\"name\":\"e\"\x7d]\x7d]\x7d]\x7d"

/-- The tree of that snapshot. -/
def Node.separatorNamed : Node :=
  ⟨"/", [⟨"a/b", [⟨"c", [], none⟩], none⟩, ⟨"d", [⟨"", [⟨"e", [], none⟩], none⟩], none⟩], none⟩

/-- A node of the first level sets a global time, and the one below it takes that instead of its
own; a node of the third level changes the global time. -/
theorem timedBySecond_lost :
    Snapshot.read Snapshot.textSeparator = .ok Node.separatorNamed ∧
      Node.separatorNamed.descendants.map Descendant.names =
        [["a/b"], ["a/b", "c"], ["d"], ["d", ""], ["d", "", "e"]] ∧
      (walk true Node.separatorNamed).map (fun visit => visit.context.globalTime) =
        [some "b", some "b", none, some "", some "e"] ∧
      ¬ List.Forall₂ (fun (d : Descendant) visit =>
          visit.node = d.node ∧ visit.TimedBySecond d.names)
        Node.separatorNamed.descendants (walk true Node.separatorNamed) := by
  have hread : Snapshot.read Snapshot.textSeparator = .ok Node.separatorNamed := by cbv
  have htimes : (walk true Node.separatorNamed).map (fun visit => visit.context.globalTime) =
      [some "b", some "b", none, some "", some "e"] := by decide
  refine ⟨hread, by decide, htimes, fun h => ?_⟩
  obtain ⟨-, htime, -⟩ := h.get (i := 0) (by decide) (by decide)
  exact absurd htime (by decide)

end EventLog
