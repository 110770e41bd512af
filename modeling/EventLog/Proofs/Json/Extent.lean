import EventLog.Proofs.Json.Lexemes

/-!
# The extent of a document

What limits a document: how deep its arrays and objects are nested (`Json.depth`) and which scalars
are in it (`Json.scalars`). `Json.Within depth` collects what a reader that may open `depth` arrays
and objects can return: a document nested no deeper, of which every integer fits a word. A document
without floating-point numbers within these limits is one that its own text gives back.
-/

namespace EventLog.Json

/-! ## Induction -/

/-- What passes from the items to an array and from the values of the members to an object holds of
every document. -/
@[induction_eliminator]
theorem induction {motive : Json → Prop} (null : motive .null) (bool : ∀ b, motive (.bool b))
    (integer : ∀ n, motive (.integer n)) (float : ∀ x, motive (.float x))
    (string : ∀ s, motive (.string s))
    (array : ∀ items : List Json, (∀ item ∈ items, motive item) → motive (.array items))
    (object : ∀ members : List (String × Json), (∀ m ∈ members, motive m.2) →
      motive (.object members)) (v : Json) : motive v :=
  @Json.rec motive (fun items => ∀ item ∈ items, motive item)
    (fun members => ∀ m ∈ members, motive m.2) (fun m => motive m.2)
    null bool integer float string array object
    nofun (fun _ _ head tail => List.forall_mem_cons.2 ⟨head, tail⟩)
    nofun (fun _ _ head tail => List.forall_mem_cons.2 ⟨head, tail⟩) (fun _ _ h => h) v

/-! ## Nesting and scalars -/

mutual

/-- How many arrays and objects are open around the innermost one, itself included. -/
def depth : Json → Nat
  | .array items => depthItems items + 1
  | .object members => depthMembers members + 1
  | _ => 0

/-- The nesting of the deepest item. -/
def depthItems : List Json → Nat
  | [] => 0
  | item :: rest => max (depth item) (depthItems rest)

/-- The nesting of the deepest member. -/
def depthMembers : List (String × Json) → Nat
  | [] => 0
  | (_, value) :: rest => max (depth value) (depthMembers rest)

end

mutual

/-- The values inside that are neither arrays nor objects, in order. -/
def scalars : Json → List Json
  | .array items => scalarsOfItems items
  | .object members => scalarsOfMembers members
  | value => [value]

/-- The scalars of items. -/
def scalarsOfItems : List Json → List Json
  | [] => []
  | item :: rest => scalars item ++ scalarsOfItems rest

/-- The scalars of members. -/
def scalarsOfMembers : List (String × Json) → List Json
  | [] => []
  | (_, value) :: rest => scalars value ++ scalarsOfMembers rest

end

/-- `depthItems` per item. -/
theorem depthItems_le_iff {d : Nat} (items : List Json) :
    depthItems items ≤ d ↔ ∀ item ∈ items, item.depth ≤ d := by
  induction items with
  | nil => simp [depthItems]
  | cons item rest ih => rw [depthItems, Nat.max_le, ih, List.forall_mem_cons]

/-- `depthMembers` per member. -/
theorem depthMembers_le_iff {d : Nat} (members : List (String × Json)) :
    depthMembers members ≤ d ↔ ∀ m ∈ members, m.2.depth ≤ d := by
  induction members with
  | nil => simp [depthMembers]
  | cons m rest ih => rw [depthMembers, Nat.max_le, ih, List.forall_mem_cons]

/-- An array takes a level, and its items fit into the others. -/
theorem depth_array_le_iff {d : Nat} (items : List Json) :
    depth (.array items) ≤ d ↔ ∃ e, d = e + 1 ∧ ∀ item ∈ items, item.depth ≤ e := by
  rw [depth]
  constructor
  · intro h
    exact ⟨d - 1, by omega, (depthItems_le_iff items).1 (by omega)⟩
  · rintro ⟨e, rfl, h⟩
    exact Nat.succ_le_succ ((depthItems_le_iff items).2 h)

/-- An object takes a level, and the values of its members fit into the others. -/
theorem depth_object_le_iff {d : Nat} (members : List (String × Json)) :
    depth (.object members) ≤ d ↔ ∃ e, d = e + 1 ∧ ∀ m ∈ members, m.2.depth ≤ e := by
  rw [depth]
  constructor
  · intro h
    exact ⟨d - 1, by omega, (depthMembers_le_iff members).1 (by omega)⟩
  · rintro ⟨e, rfl, h⟩
    exact Nat.succ_le_succ ((depthMembers_le_iff members).2 h)

/-- `scalarsOfItems` per item. -/
theorem mem_scalarsOfItems {x : Json} (items : List Json) :
    x ∈ scalarsOfItems items ↔ ∃ item ∈ items, x ∈ item.scalars := by
  induction items with
  | nil => simp [scalarsOfItems]
  | cons item rest ih => simp [scalarsOfItems, ih]

/-- `scalarsOfMembers` per member. -/
theorem mem_scalarsOfMembers {x : Json} (members : List (String × Json)) :
    x ∈ scalarsOfMembers members ↔ ∃ m ∈ members, x ∈ m.2.scalars := by
  induction members with
  | nil => simp [scalarsOfMembers]
  | cons m rest ih =>
    obtain ⟨name, value⟩ := m
    simp only [scalarsOfMembers, List.mem_append, ih, List.mem_cons, exists_eq_or_imp]

/-! ## Documents without floating-point numbers -/

/-- No floating-point number is in the document. -/
def FloatFree (v : Json) : Prop := ∀ x, .float x ∉ v.scalars

@[simp] theorem floatFree_array (items : List Json) :
    FloatFree (.array items) ↔ ∀ item ∈ items, FloatFree item := by
  simp only [FloatFree, scalars, mem_scalarsOfItems, not_exists, not_and]
  exact ⟨fun h item hm x => h x item hm, fun h x item hm => h item hm x⟩

@[simp] theorem floatFree_object (members : List (String × Json)) :
    FloatFree (.object members) ↔ ∀ m ∈ members, FloatFree m.2 := by
  simp only [FloatFree, scalars, mem_scalarsOfMembers, not_exists, not_and]
  exact ⟨fun h m hm x => h x m hm, fun h x m hm => h m hm x⟩

@[simp] theorem not_floatFree_float (x : Binary64) : ¬ FloatFree (.float x) :=
  fun h => h x (List.mem_singleton_self _)

/-- A value that is its own only scalar is free of floating-point numbers unless it is one. -/
theorem floatFree_of_scalars {v : Json} (hs : v.scalars = [v]) (hv : ∀ x, .float x ≠ v) :
    FloatFree v := by
  intro x hx
  rw [hs, List.mem_singleton] at hx
  exact hv x hx

@[simp] theorem floatFree_null : FloatFree .null :=
  floatFree_of_scalars rfl fun _ => Json.noConfusion

@[simp] theorem floatFree_bool (b : Bool) : FloatFree (.bool b) :=
  floatFree_of_scalars rfl fun _ => Json.noConfusion

@[simp] theorem floatFree_integer (n : Int) : FloatFree (.integer n) :=
  floatFree_of_scalars rfl fun _ => Json.noConfusion

@[simp] theorem floatFree_string (s : String) : FloatFree (.string s) :=
  floatFree_of_scalars rfl fun _ => Json.noConfusion

/-! ## Documents within limits -/

/-- If it is an integer, it fits a word. -/
def Fits : Json → Prop
  | .integer n => FitsWord n
  | _ => True

/-- A document that is nested no deeper than `d`, and of which every integer fits a word. -/
structure Within (d : Nat) (v : Json) : Prop where
  depth_le : v.depth ≤ d
  fits : ∀ x ∈ v.scalars, x.Fits

/-- An array is within limits if there is a level for it and its items are within the others. -/
theorem within_array {d : Nat} (items : List Json) :
    Within d (.array items) ↔ ∃ e, d = e + 1 ∧ ∀ item ∈ items, item.Within e := by
  constructor
  · intro h
    obtain ⟨e, rfl, hdepth⟩ := (depth_array_le_iff items).1 h.depth_le
    exact ⟨e, rfl, fun item hm => ⟨hdepth item hm, fun x hx =>
      h.fits x ((mem_scalarsOfItems items).2 ⟨item, hm, hx⟩)⟩⟩
  · rintro ⟨e, rfl, h⟩
    refine ⟨(depth_array_le_iff items).2 ⟨e, rfl, fun item hm => (h item hm).depth_le⟩, ?_⟩
    intro x hx
    obtain ⟨item, hm, hx⟩ := (mem_scalarsOfItems items).1 hx
    exact (h item hm).fits x hx

/-- An object is within limits if there is a level for it and its members are within the others. -/
theorem within_object {d : Nat} (members : List (String × Json)) :
    Within d (.object members) ↔ ∃ e, d = e + 1 ∧ ∀ m ∈ members, m.2.Within e := by
  constructor
  · intro h
    obtain ⟨e, rfl, hdepth⟩ := (depth_object_le_iff members).1 h.depth_le
    exact ⟨e, rfl, fun m hm => ⟨hdepth m hm, fun x hx =>
      h.fits x ((mem_scalarsOfMembers members).2 ⟨m, hm, hx⟩)⟩⟩
  · rintro ⟨e, rfl, h⟩
    refine ⟨(depth_object_le_iff members).2 ⟨e, rfl, fun m hm => (h m hm).depth_le⟩, ?_⟩
    intro x hx
    obtain ⟨m, hm, hx⟩ := (mem_scalarsOfMembers members).1 hx
    exact (h m hm).fits x hx

@[simp] theorem within_array_succ {d : Nat} (items : List Json) :
    Within (d + 1) (.array items) ↔ ∀ item ∈ items, item.Within d := by
  simp [within_array]

@[simp] theorem within_object_succ {d : Nat} (members : List (String × Json)) :
    Within (d + 1) (.object members) ↔ ∀ m ∈ members, m.2.Within d := by
  simp [within_object]

/-- A value that is its own only scalar is within limits if it fits. -/
theorem within_of_scalars (d : Nat) {v : Json} (hd : v.depth = 0) (hs : v.scalars = [v]) :
    Within d v ↔ v.Fits := by
  constructor
  · intro h
    exact h.fits v (by simp [hs])
  · intro h
    exact ⟨by omega, by simpa [hs]⟩

@[simp] theorem within_null (d : Nat) : Within d .null := (within_of_scalars d rfl rfl).2 trivial

@[simp] theorem within_bool (d : Nat) (b : Bool) : Within d (.bool b) :=
  (within_of_scalars d rfl rfl).2 trivial

@[simp] theorem within_float (d : Nat) (x : Binary64) : Within d (.float x) :=
  (within_of_scalars d rfl rfl).2 trivial

@[simp] theorem within_string (d : Nat) (s : String) : Within d (.string s) :=
  (within_of_scalars d rfl rfl).2 trivial

@[simp] theorem within_integer (d : Nat) (n : Int) : Within d (.integer n) ↔ FitsWord n :=
  within_of_scalars d rfl rfl

end EventLog.Json
