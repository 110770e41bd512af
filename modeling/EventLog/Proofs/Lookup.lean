import Mathlib.Data.List.Nodup

/-!
# Looking up names

What is found under a name among named values. Where all values of the name are the same, they are
what is found (`lookup_eq_some_iff_mem`), so the order of the values and values of other names make
no difference to it (`lookup_of_perm`).
-/

namespace EventLog

variable {β : Type} {entries : List (String × β)} {name : String} {b : β}

/-- What no key is has no value. -/
theorem lookup_eq_none_of_notMem (h : name ∉ entries.map Prod.fst) : entries.lookup name = none :=
  List.lookup_eq_none_iff.2 fun entry hentry => bne_iff_ne.2 fun heq =>
    h (List.mem_map.2 ⟨entry, hentry, heq.symm⟩)

/-- The value of a key is that of an entry. -/
theorem mem_of_lookup (h : entries.lookup name = some b) : (name, b) ∈ entries := by
  obtain ⟨front, rear, rfl, -⟩ := List.lookup_eq_some_iff.1 h
  simp

/-- A key has a value if it is that of an entry. -/
theorem exists_lookup_eq_some (h : name ∈ entries.map Prod.fst) :
    ∃ b, entries.lookup name = some b := by
  cases hlookup : entries.lookup name with
  | some b => exact ⟨b, rfl⟩
  | none =>
    obtain ⟨entry, hentry, rfl⟩ := List.mem_map.1 h
    exact absurd rfl (bne_iff_ne.1 (List.lookup_eq_none_iff.1 hlookup entry hentry))

/-- What is found among changed values is the value that was found, changed. -/
theorem lookup_map_snd {γ : Type} (f : β → γ) (entries : List (String × β)) (name : String) :
    (entries.map fun entry => (entry.1, f entry.2)).lookup name = (entries.lookup name).map f := by
  induction entries with
  | nil => rfl
  | cons entry rest ih =>
    obtain ⟨key, b⟩ := entry
    rw [List.map_cons, List.lookup_cons, List.lookup_cons]
    cases name == key with
    | true => rfl
    | false => exact ih

/-- All entries of a name have the same value. -/
def SingleValued (name : String) (entries : List (String × β)) : Prop :=
  ∀ b c, (name, b) ∈ entries → (name, c) ∈ entries → b = c

/-- The entries of distinct names have one value each. -/
theorem singleValued_of_nodup (h : (entries.map Prod.fst).Nodup) (name : String) :
    SingleValued name entries := fun _ _ hb hc =>
  congrArg Prod.snd (List.inj_on_of_nodup_map h hb hc rfl)

/-- What is found under a name with one value is that value. -/
theorem lookup_eq_some_iff_mem (h : SingleValued name entries) :
    entries.lookup name = some b ↔ (name, b) ∈ entries := by
  refine ⟨mem_of_lookup, fun hmem => ?_⟩
  obtain ⟨c, hc⟩ := exists_lookup_eq_some (List.mem_map.2 ⟨(name, b), hmem, rfl⟩)
  rw [hc, h b c hmem (mem_of_lookup hc)]

/-- Among entries of distinct names, what is found under a name does not depend on their order, nor
on entries of other names. -/
theorem lookup_of_perm {others entries' : List (String × β)}
    (hdistinct : (entries.map Prod.fst).Nodup) (hperm : entries'.Perm (entries ++ others))
    (hname : name ∉ others.map Prod.fst) :
    entries'.lookup name = entries.lookup name := by
  have hmem (b : β) : (name, b) ∈ entries' ↔ (name, b) ∈ entries := by
    rw [hperm.mem_iff, List.mem_append, or_iff_left]
    exact fun h => hname (List.mem_map.2 ⟨(name, b), h, rfl⟩)
  have hsingle := singleValued_of_nodup hdistinct name
  have hsingle' : SingleValued name entries' := fun b c hb hc =>
    hsingle b c ((hmem b).1 hb) ((hmem c).1 hc)
  refine Option.ext fun b => ?_
  rw [lookup_eq_some_iff_mem hsingle', lookup_eq_some_iff_mem hsingle, hmem]

end EventLog
