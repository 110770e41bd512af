import EventLog.Proofs.Monitor.Runs

/-!
# Runs into an output with room

After any number of turns, what has been written is as much of the blocks of the refreshes so far as
there is room for (`Reached.written_eq`). So turn by turn an output that takes so many bytes and
then fails gets the beginning of what an endless one gets, also where a run has no other end than
the room (`ends_room`).
-/

namespace EventLog.Monitor

variable {σ τ : Type} {source : Nat → Except Failure Node} {first : Node} {limit : Option Nat}
  {out : Output σ} {room : σ → Option Nat} {before : Option Nat} {size turns k : Nat}

/-- What has been written. -/
def Progress.written : Progress σ → List UInt8
  | .running s => s.written
  | .ended run => run.output

/-! ## Refreshes within turns -/

/-- How many refreshes are attempted within so many turns, as long as the output takes them. -/
def refreshesWithin (limit : Option Nat) (turns : Nat) : Nat :=
  match limit with
  | none => turns
  | some n => min turns (max 1 n)

/-- While refreshes are wanted, there is one in each turn. -/
theorem Wanted.refreshesWithin_eq (h : Wanted limit turns) : refreshesWithin limit turns = turns := by
  cases limit with
  | none => rfl
  | some n => exact Nat.min_eq_left (Nat.le_of_lt (h n rfl))

/-- A refresh that is wanted is attempted in its turn. -/
theorem Wanted.lt_refreshesWithin (h : Wanted limit k) (hk : k < turns) :
    k < refreshesWithin limit turns := by
  cases limit with
  | none => exact hk
  | some n => exact Nat.lt_min.2 ⟨hk, h n rfl⟩

/-- Room that ends within a block cuts the same off from all further ones. -/
theorem take_blocks {m : Nat} (hkm : k ≤ m) (hsize : size ≤ (blocks source first k).length) :
    (blocks source first k).take size = (blocks source first m).take size := by
  obtain ⟨rest, hrest⟩ := prefix_blocks source first hkm
  rw [← hrest, List.take_append_of_le_length hsize]

/-- After any number of turns, as much of the blocks of the refreshes so far has been written as
there is room for. -/
theorem Reached.written_eq {progress : Progress σ}
    (h : Reached source first limit room before turns progress) :
    progress.written = fitting before (blocks source first (refreshesWithin limit turns)) := by
  cases h with
  | running hs hwanted =>
    rw [hwanted.refreshesWithin_eq, fitting_of_fits hs.fits]
    exact hs.written
  | complete limited le fits =>
    subst limited
    rw [refreshesWithin, Nat.min_eq_right le, fitting_of_fits fits]
    rfl
  | cut lt wanted bounded fits full =>
    subst bounded
    exact take_blocks (wanted.lt_refreshesWithin lt) (Nat.le_of_lt full)

/-- Where the room ends within a block, the blocks before it are those that were written in full. -/
theorem prefix_take_blocks {j : Nat} (hfits : (blocks source first k).length ≤ size)
    (hfull : size < (blocks source first (k + 1)).length) :
    blocks source first j <+: (blocks source first (k + 1)).take size ↔ j ≤ k := by
  rw [List.prefix_take_iff]
  constructor
  · rintro ⟨-, hj⟩
    refine Nat.le_of_not_lt fun hkj => ?_
    have hle : (blocks source first (k + 1)).length ≤ (blocks source first j).length :=
      (prefix_blocks source first hkj).length_le
    omega
  · intro hjk
    have hle := (prefix_blocks source first hjk).length_le
    exact ⟨prefix_blocks source first (Nat.le_succ_of_le hjk), Nat.le_trans hle hfits⟩

/-! ## Runs -/

/-- Where a run stands that has filled its output within a block. -/
structure Run.CutAt (source : Nat → Except Failure Node) (first : Node) (size k : Nat) (run : Run) :
    Prop where
  fits : (blocks source first k).length ≤ size
  full : size < (blocks source first (k + 1)).length
  result : ∃ fault, run.result = .error (.outputWrite "<stdout>" fault)
  opens : run.opens = k + 1
  output : run.output = (blocks source first (k + 1)).take size

/-- A run into an output that takes so many bytes and then fails shows all refreshes that are
wanted, or its output fails within the block of one of them. -/
theorem ends_or_cut (hout : out.HasRoom room) {s : σ} (hs : room s = some size)
    (hfirst : source 0 = .ok first) (limit : Option Nat) :
    ∃ run, Ends source limit out s run ∧
      ((∃ n, limit = some n ∧ (blocks source first (max 1 n)).length ≤ size ∧
        run = ⟨.ok (max 1 n), max 1 n, blocks source first (max 1 n)⟩) ∨
      ∃ k, Wanted limit k ∧ run.CutAt source first size k) := by
  obtain ⟨turns, hturns⟩ : ∃ turns, maxTurns limit (some size) = some turns := by
    cases limit with
    | none => exact ⟨size + 1, rfl⟩
    | some n => exact ⟨max 1 n, rfl⟩
  have hreached := reached_advance hout hfirst hs limit turns
  obtain ⟨run, hended⟩ := hreached.ended hturns
  rw [hended] at hreached
  refine ⟨run, ⟨turns, hended⟩, ?_⟩
  cases hreached with
  | @complete n limited le fits => exact .inl ⟨n, limited, fits size rfl, rfl⟩
  | @cut k bound fault lt wanted bounded fits full =>
    cases bounded
    exact .inr ⟨k, wanted, fits, full, ⟨fault, rfl⟩, rfl, rfl⟩

/-- A run into an output that takes so many bytes and then fails always ends. Turn by turn it has
written the beginning, of that many bytes, of what a run into an output that never fails has
written. If there is a limit, that run ends too, with all refreshes that are wanted; the other one
ends in the same way if its room is enough for all of that, and else its output fails. Without a
limit, the run into the output that never fails goes on and writes ever more, and the other one
fills its room with the beginning of that and fails. When the output fails, the store was opened
once more than blocks have been written in full. -/
theorem ends_room {ideal : Output τ} {endless : τ → Option Nat} (hout : out.HasRoom room) {s : σ}
    (hs : room s = some size) (hideal : ideal.HasRoom endless) {t : τ} (ht : endless t = none)
    (hfirst : source 0 = .ok first) (limit : Option Nat) :
    ∃ run, Ends source limit out s run ∧
      (∀ turns, (advance source limit out turns (begin source s)).written =
        (advance source limit ideal turns (begin source t)).written.take size) ∧
      (∀ n, limit = some n → ∃ whole, Ends source limit ideal t whole ∧
        whole.result = .ok (max 1 n) ∧ run.output = whole.output.take size ∧
        (whole.output.length ≤ size ↔ run.result = .ok (max 1 n)) ∧
        (size < whole.output.length ↔
          ∃ fault, run.result = .error (.outputWrite "<stdout>" fault))) ∧
      (limit = none → (∀ whole, ¬ Ends source limit ideal t whole) ∧
        (∀ turns, turns ≤ (advance source limit ideal turns (begin source t)).written.length) ∧
        run.output.length = size ∧
        (∀ turns, size ≤ (advance source limit ideal turns (begin source t)).written.length →
          run.output = (advance source limit ideal turns (begin source t)).written.take size) ∧
        ∃ fault, run.result = .error (.outputWrite "<stdout>" fault)) ∧
      ∀ failure, run.result = .error failure → ∃ complete, run.opens = complete + 1 ∧
        ∀ k, blocks source first k <+: run.output ↔ k ≤ complete := by
  have hwhole := reached_advance hideal hfirst ht limit
  have hlockstep : ∀ turns, (advance source limit out turns (begin source s)).written =
      (advance source limit ideal turns (begin source t)).written.take size := fun turns => by
    rw [(reached_advance hout hfirst hs limit turns).written_eq, (hwhole turns).written_eq]
    rfl
  obtain ⟨run, hends, ⟨n, rfl, hfits, rfl⟩ | ⟨k, hwanted, hcut⟩⟩ :=
    ends_or_cut hout hs hfirst limit
  · refine ⟨_, hends, hlockstep, ?_, nofun, nofun⟩
    rintro n ⟨⟩
    exact ⟨_, ends_blocks hideal ht hfirst n, rfl, (List.take_of_length_le hfits).symm,
      iff_of_true hfits rfl, iff_of_false (Nat.not_lt.2 hfits) nofun⟩
  · obtain ⟨fault, hresult⟩ := hcut.result
    refine ⟨run, hends, hlockstep, ?_, ?_, fun failure hfailure => ⟨k, hcut.opens, fun j => ?_⟩⟩
    · rintro n rfl
      have hlater : k + 1 ≤ max 1 n := hwanted n rfl
      have hlength : size < (blocks source first (max 1 n)).length :=
        Nat.lt_of_lt_of_le hcut.full (prefix_blocks source first hlater).length_le
      refine ⟨_, ends_blocks hideal ht hfirst n, rfl, ?_,
        iff_of_false (Nat.not_le.2 hlength) (by rw [hresult]; nofun),
        iff_of_true hlength ⟨fault, hresult⟩⟩
      exact hcut.output.trans (take_blocks hlater (Nat.le_of_lt hcut.full))
    · rintro rfl
      have hwritten : ∀ turns, (advance source none ideal turns (begin source t)).written =
          blocks source first turns := fun turns => (hwhole turns).written_eq
      refine ⟨not_ends hideal hfirst ht, fun turns => ?_, ?_, fun turns hturns => ?_, fault,
        hresult⟩
      · rw [hwritten]
        exact le_length_blocks source first turns
      · rw [hcut.output, List.length_take, Nat.min_eq_left (Nat.le_of_lt hcut.full)]
      · rw [hwritten] at hturns ⊢
        rw [hcut.output]
        rcases Nat.le_total (k + 1) turns with hle | hle
        · exact take_blocks hle (Nat.le_of_lt hcut.full)
        · exact (take_blocks hle hturns).symm
    · rw [hcut.output, prefix_take_blocks hcut.fits hcut.full]

/-- An output that takes one byte at a time, and then none. -/
def byteByByte : Output Nat where
  offer
    | 0, _ => .ok (0, 0)
    | room + 1, _ => .ok (1, room)
  flush := .ok

/-- The output that takes single bytes has room. -/
theorem hasRoom_byteByByte : byteByByte.HasRoom some where
  takes room bytes hne hroom := by
    cases room with
    | zero => exact absurd rfl hroom
    | succ room =>
      refine ⟨0, room, rfl, List.length_pos_iff.2 hne, ?_, rfl⟩
      rintro bound ⟨⟩
      exact Nat.succ_pos room
  fails room bytes hne hroom := by
    cases hroom
    exact .inr ⟨0, rfl⟩
  flushes room := ⟨room, rfl, rfl⟩

/-- A run without a limit into thirty bytes of room, which end within the second block. -/
theorem ends_room_byteByByte :
    byteByByte.HasRoom some ∧ Output.ofRoom.HasRoom id ∧ id (none : Option Nat) = none ∧
      gapSource 0 = .ok emptyTree ∧
      ∃ run, Ends gapSource none byteByByte 30 run ∧ run.output.length = 30 ∧
        ∃ fault, run.result = .error (.outputWrite "<stdout>" fault) := by
  have hfirst : gapSource 0 = .ok emptyTree := rfl
  refine ⟨hasRoom_byteByByte, Output.hasRoom_ofRoom, rfl, hfirst, ?_⟩
  obtain ⟨run, hends, -, -, hnone, -⟩ := ends_room hasRoom_byteByByte (s := 30) rfl
    Output.hasRoom_ofRoom (t := none) rfl hfirst none
  obtain ⟨-, -, hlength, -, hfault⟩ := hnone rfl
  exact ⟨run, hends, hlength, hfault⟩

end EventLog.Monitor
