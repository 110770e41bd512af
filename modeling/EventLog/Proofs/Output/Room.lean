import Mathlib.Data.List.Basic
import EventLog.Output

/-!
# Outputs with room

An output with room takes bytes, some at a time, until so many have been taken, and then fails
(`Output.HasRoom`). In how many steps it takes them makes no difference: of texts that are written
one after the other it takes as much as there is room for, and it fails exactly if that is not all
(`Output.HasRoom.fills_writeAll`).
-/

namespace EventLog

variable {σ : Type}

/-! ## Room -/

/-- So many bytes fit into a room; without a bound they always do. -/
def Fits (room : Option Nat) (size : Nat) : Prop :=
  ∀ bound ∈ room, size ≤ bound

/-- The room that is left behind so many bytes. -/
def roomBehind (room : Option Nat) (size : Nat) : Option Nat :=
  room.map (· - size)

/-- As many of the bytes as there is room for. -/
def fitting (room : Option Nat) (bytes : List UInt8) : List UInt8 :=
  match room with
  | none => bytes
  | some bound => bytes.take bound

/-- Nothing takes no room. -/
@[simp]
theorem roomBehind_zero (room : Option Nat) : roomBehind room 0 = room := by
  cases room <;> rfl

/-- Room is used up bit by bit. -/
@[simp]
theorem roomBehind_roomBehind (room : Option Nat) (a b : Nat) :
    roomBehind (roomBehind room a) b = roomBehind room (a + b) := by
  cases room with
  | none => rfl
  | some bound => exact congrArg some (Nat.sub_sub bound a b)

/-- Nothing always fits. -/
theorem fits_zero (room : Option Nat) : Fits room 0 :=
  fun bound _ => Nat.zero_le bound

/-- What fits into the room that is left fits behind what was there. -/
theorem Fits.add {room : Option Nat} {a b : Nat} (ha : Fits room a)
    (hb : Fits (roomBehind room a) b) : Fits room (a + b) := by
  rintro bound hbound
  have hroom : roomBehind room a = some (bound - a) := congrArg (Option.map (· - a)) hbound
  have hle : a ≤ bound := ha bound hbound
  have hrest : b ≤ bound - a := hb (bound - a) hroom
  omega

/-- Bytes that fit are not cut. -/
theorem fitting_of_fits {room : Option Nat} {bytes : List UInt8} (h : Fits room bytes.length) :
    fitting room bytes = bytes := by
  cases room with
  | none => rfl
  | some bound => exact List.take_of_length_le (h bound rfl)

/-! ## Outputs -/

/-- An output that has room, by its states: while there is some it takes at least one byte of those
that it is offered, and when there is none it fails or takes none. Flushes succeed. -/
structure Output.HasRoom (out : Output σ) (room : σ → Option Nat) : Prop where
  takes : ∀ s bytes, bytes ≠ [] → room s ≠ some 0 → ∃ n s', out.offer s bytes = .ok (n + 1, s') ∧
    n + 1 ≤ bytes.length ∧ Fits (room s) (n + 1) ∧ room s' = roomBehind (room s) (n + 1)
  fails : ∀ s bytes, bytes ≠ [] → room s = some 0 →
    (∃ fault, out.offer s bytes = .error fault) ∨ ∃ s', out.offer s bytes = .ok (0, s')
  flushes : ∀ s, ∃ s', out.flush s = .ok s' ∧ room s' = room s

/-- The output that takes all it has room for has room. -/
theorem Output.hasRoom_ofRoom : Output.ofRoom.HasRoom id where
  takes room bytes hne hroom := by
    have hpos : 0 < bytes.length := List.length_pos_iff.2 hne
    match room, hroom with
    | none, _ =>
      refine ⟨bytes.length - 1, none, ?_, by omega, nofun, rfl⟩
      rw [Nat.sub_add_cancel hpos]
      rfl
    | some (size + 1), _ =>
      have hmin : min bytes.length (size + 1) - 1 + 1 = min bytes.length (size + 1) := by omega
      refine ⟨min bytes.length (size + 1) - 1, some (size + 1 - bytes.length), ?_, ?_, ?_, ?_⟩
      · rw [hmin]
        rfl
      · rw [hmin]
        exact Nat.min_le_left ..
      · rintro bound ⟨⟩
        rw [hmin]
        exact Nat.min_le_right ..
      · rw [hmin, id, id, roomBehind, Option.map_some, Option.some_inj]
        omega
  fails room bytes hne hroom := .inl ⟨.full, by rw [id] at hroom; rw [hroom]; rfl⟩
  flushes room := ⟨room, rfl, rfl⟩

/-- What came of writing bytes into a room: all of them were taken if they fit, else as many as fit,
and the output failed. -/
inductive Written.Fills (room : σ → Option Nat) (before : Option Nat) (bytes : List UInt8) :
    Written σ → Prop where
  | all {s : σ} (fits : Fits before bytes.length)
    (behind : room s = roomBehind before bytes.length) : Fills room before bytes ⟨bytes, .ok s⟩
  | part {bound : Nat} {fault : FileFault} (eq : before = some bound)
    (lt : bound < bytes.length) : Fills room before bytes ⟨bytes.take bound, .error fault⟩

namespace Written.Fills

variable {room : σ → Option Nat} {before : Option Nat} {a b : List UInt8} {written : Written σ}

/-- Bytes behind others that fit. -/
theorem after (ha : Fits before a.length)
    (h : written.Fills room (roomBehind before a.length) b) :
    (written.after a).Fills room before (a ++ b) := by
  cases h with
  | all fits behind =>
    rw [roomBehind_roomBehind, ← List.length_append] at behind
    exact .all (List.length_append ▸ ha.add fits) behind
  | @part bound fault eq lt =>
    obtain ⟨size, rfl, rfl⟩ := Option.map_eq_some_iff.1 eq
    have hle : a.length ≤ size := ha size rfl
    have htake : a ++ b.take (size - a.length) = (a ++ b).take size := by
      rw [List.take_append, List.take_of_length_le hle]
    rw [Written.after, htake]
    exact .part rfl (by rw [List.length_append]; omega)

/-- Bytes that are written where others have been. -/
theorem andThen {next : σ → Written σ} (h : written.Fills room before a)
    (hnext : ∀ s, (next s).Fills room (room s) b) :
    (written.andThen next).Fills room before (a ++ b) := by
  cases h with
  | @all s fits behind =>
    have hs := hnext s
    rw [behind] at hs
    exact after fits hs
  | @part bound fault eq lt =>
    have htake : (a ++ b).take bound = a.take bound :=
      List.take_append_of_le_length (Nat.le_of_lt lt)
    rw [← htake]
    exact .part eq (by rw [List.length_append]; omega)

end Written.Fills

namespace Output.HasRoom

variable {out : Output σ} {room : σ → Option Nat}

/-- What becomes of bytes that are offered. -/
theorem offer_cases (h : out.HasRoom room) (s : σ) {bytes : List UInt8} (hne : bytes ≠ []) :
    (room s = some 0 ∧
      ((∃ fault, out.offer s bytes = .error fault) ∨ ∃ s', out.offer s bytes = .ok (0, s'))) ∨
    ∃ n s', out.offer s bytes = .ok (n + 1, s') ∧ n + 1 ≤ bytes.length ∧
      Fits (room s) (n + 1) ∧ room s' = roomBehind (room s) (n + 1) := by
  by_cases hroom : room s = some 0
  · exact .inl ⟨hroom, h.fails s bytes hne hroom⟩
  · exact .inr (h.takes s bytes hne hroom)

/-- Bytes are written as far as there is room. -/
theorem fills_write (h : out.HasRoom room) (s : σ) (bytes : List UInt8) :
    (out.write s bytes).Fills room (room s) bytes := by
  fun_induction out.write s bytes with
  | case1 s => exact .all (fits_zero _) (roomBehind_zero _).symm
  | case2 s b rest fault hoffer =>
    rcases h.offer_cases s (List.cons_ne_nil b rest) with ⟨hroom, -⟩ | ⟨n, s', htaken, -⟩
    · exact .part hroom (Nat.succ_pos _)
    · rw [hoffer] at htaken
      cases htaken
  | case3 s b rest s' hoffer =>
    rcases h.offer_cases s (List.cons_ne_nil b rest) with ⟨hroom, -⟩ | ⟨n, s'', htaken, -⟩
    · exact .part hroom (Nat.succ_pos _)
    · rw [hoffer] at htaken
      cases htaken
  | case4 s b rest n s' hoffer ih =>
    rcases h.offer_cases s (List.cons_ne_nil b rest) with
      ⟨-, ⟨fault, hfault⟩ | ⟨s'', hnone⟩⟩ | ⟨m, s'', htaken, hle, hfits, hroom⟩
    · rw [hoffer] at hfault
      cases hfault
    · rw [hoffer] at hnone
      cases hnone
    · rw [hoffer] at htaken
      cases htaken
      have hlength : (b :: rest.take n).length = n + 1 := by
        rw [List.length_cons] at hle ⊢
        rw [List.length_take_of_le (Nat.le_of_succ_le_succ hle)]
      have hsplit : b :: rest = (b :: rest.take n) ++ rest.drop n := by
        rw [List.cons_append, List.take_append_drop]
      rw [hroom, ← hlength] at ih
      rw [hsplit]
      exact ih.after (hlength ▸ hfits)

/-- Texts are written as far as there is room, as if they were one. -/
theorem fills_writeAll (h : out.HasRoom room) (s : σ) (texts : List String) :
    (out.writeAll s texts).Fills room (room s) (texts.flatMap bytesOf) := by
  induction texts generalizing s with
  | nil => exact .all (fits_zero _) (roomBehind_zero _).symm
  | cons text rest ih => exact (h.fills_write s (bytesOf text)).andThen ih

/-- A flush takes no room. -/
theorem fills_flush (h : out.HasRoom room) (s : σ) :
    Written.Fills room (room s) [] ⟨[], out.flush s⟩ := by
  obtain ⟨s', hflush, hroom⟩ := h.flushes s
  rw [hflush]
  exact .all (fits_zero _) (hroom.trans (roomBehind_zero _).symm)

end Output.HasRoom

end EventLog
