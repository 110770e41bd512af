import Mathlib.Data.Nat.Find
import EventLog.Monitor
import EventLog.Proofs.Output.Room

/-!
# The refreshes of a monitor

Every refresh shows the tree of the last open that succeeded (`source_lastOpened`). The invariant of
a run is that the blocks of the refreshes so far have been written, back to back, and that the store
has been opened once for each of them and once more; a turn keeps it or ends the run
(`Reached.turn`). So after any number of turns it is known where a run stands, into any output that
has room (`reached_advance`).
-/

namespace EventLog.Monitor

variable {σ : Type} {source : Nat → Except Failure Node} {first : Node} {limit : Option Nat}
  {out : Output σ} {room : σ → Option Nat} {before : Option Nat} {k : Nat}

/-! ## What is shown -/

/-- The number of the last open that succeeded, up to an open. -/
def lastOpened (source : Nat → Except Failure Node) (k : Nat) : Nat :=
  Nat.findGreatest (fun j => (source j).isOk = true) k

/-- The tree that is shown for a refresh, counted from zero, if the first open gave a tree. -/
def shownTree (source : Nat → Except Failure Node) (first : Node) : Nat → Node
  | 0 => first
  | k + 1 => refreshed (shownTree source first k) (source (k + 1))

/-- The tree of an open that succeeded is shown for its refresh. -/
theorem shownTree_of_ok (hfirst : source 0 = .ok first) {root : Node} (h : source k = .ok root) :
    shownTree source first k = root := by
  cases k with
  | zero =>
    rw [hfirst] at h
    cases h
    rfl
  | succ k => rw [shownTree, h, refreshed]

/-- The tree that is shown is that of the last open that succeeded. -/
theorem source_lastOpened (hfirst : source 0 = .ok first) (k : Nat) :
    source (lastOpened source k) = .ok (shownTree source first k) := by
  induction k with
  | zero => exact hfirst
  | succ k ih =>
    rw [lastOpened, Nat.findGreatest_succ]
    split
    · next hok =>
      cases hsource : source (k + 1) with
      | error failure =>
        rw [hsource] at hok
        cases hok
      | ok root => rw [shownTree_of_ok hfirst hsource]
    · next hok =>
      cases hsource : source (k + 1) with
      | error failure => rwa [shownTree, hsource, refreshed]
      | ok root =>
        rw [hsource] at hok
        exact absurd rfl hok

/-- The blocks of the first refreshes, back to back. -/
def blocks (source : Nat → Except Failure Node) (first : Node) (count : Nat) : List UInt8 :=
  (List.range count).flatMap fun k => bytesOf (block (shownTree source first k))

/-- One more block stands behind the others. -/
theorem blocks_succ (source : Nat → Except Failure Node) (first : Node) (k : Nat) :
    blocks source first (k + 1) =
      blocks source first k ++ bytesOf (block (shownTree source first k)) := by
  rw [blocks, List.range_succ, List.flatMap_append, List.flatMap_singleton]
  rfl

/-- No block is empty. -/
theorem length_block_pos (root : Node) : 0 < (bytesOf (block root)).length := by
  rw [block, bytesOf_append, List.length_append]
  exact Nat.lt_add_left _ (by decide)

/-- There are more bytes in more blocks. -/
theorem length_blocks_lt_succ (source : Nat → Except Failure Node) (first : Node) (k : Nat) :
    (blocks source first k).length < (blocks source first (k + 1)).length := by
  rw [blocks_succ, List.length_append]
  exact Nat.lt_add_of_pos_right (length_block_pos _)

/-- There are at least as many bytes as blocks. -/
theorem le_length_blocks (source : Nat → Except Failure Node) (first : Node) (k : Nat) :
    k ≤ (blocks source first k).length := by
  induction k with
  | zero => exact Nat.zero_le _
  | succ k ih => exact Nat.lt_of_le_of_lt ih (length_blocks_lt_succ source first k)

/-- Earlier blocks stand in front of later ones. -/
theorem prefix_blocks (source : Nat → Except Failure Node) (first : Node) {j k : Nat} (h : j ≤ k) :
    blocks source first j <+: blocks source first k := by
  induction k, h using Nat.le_induction with
  | base => exact List.prefix_rfl
  | succ k _ ih =>
    rw [blocks_succ]
    exact ih.trans (List.prefix_append _ _)

/-! ## One refresh -/

/-- The texts of a block are the block. -/
theorem flatMap_blockTexts (root : Node) :
    (blockTexts root).flatMap bytesOf = bytesOf (block root) := by
  have hlines : ∀ ls : List String, (ls.flatMap fun line => [line, "\n"]).flatMap bytesOf =
      bytesOf (Text.unlines ls) := by
    intro ls
    induction ls with
    | nil => rfl
    | cons line ls ih =>
      rw [List.flatMap_cons, List.flatMap_append, ih, Text.unlines_cons, bytesOf_append,
        bytesOf_append, List.flatMap_cons, List.flatMap_singleton]
  rw [blockTexts, block, bytesOf_append, bytesOf_append, List.flatMap_append, List.flatMap_cons,
    hlines, List.flatMap_singleton]

/-- A refresh is written as far as there is room. -/
theorem fills_display (h : out.HasRoom room) (s : σ) (root : Node) :
    (display out s root).Fills room (room s) (bytesOf (block root)) := by
  rw [← flatMap_blockTexts, ← List.append_nil ((blockTexts root).flatMap bytesOf)]
  exact (h.fills_writeAll s (blockTexts root)).andThen h.fills_flush

/-! ## Turns -/

/-- A refresh, counted from zero, is wanted; the first one always is. -/
def Wanted (limit : Option Nat) (k : Nat) : Prop :=
  ∀ n ∈ limit, k < max 1 n

/-- Where a run stands before a refresh, counted from zero, into an output that had so much room. -/
structure State.AtRefresh (source : Nat → Except Failure Node) (first : Node)
    (room : σ → Option Nat) (before : Option Nat) (k : Nat) (s : State σ) : Prop where
  root : s.root = shownTree source first k
  shown : s.shown = k
  opens : s.opens = k + 1
  written : s.written = blocks source first k
  fits : Fits before (blocks source first k).length
  room : room s.output = roomBehind before (blocks source first k).length

/-- What a run has come to after so many turns: it stands before a refresh that is wanted, it has
shown all that are, or its output failed within a block. -/
inductive Reached (source : Nat → Except Failure Node) (first : Node) (limit : Option Nat)
    (room : σ → Option Nat) (before : Option Nat) (turns : Nat) : Progress σ → Prop where
  | running {s : State σ} (atRefresh : s.AtRefresh source first room before turns)
    (wanted : Wanted limit turns) : Reached source first limit room before turns (.running s)
  | complete {n : Nat} (limited : limit = some n) (le : max 1 n ≤ turns)
    (fits : Fits before (blocks source first (max 1 n)).length) :
    Reached source first limit room before turns
      (.ended ⟨.ok (max 1 n), max 1 n, blocks source first (max 1 n)⟩)
  | cut {k bound : Nat} {fault : FileFault} (lt : k < turns) (wanted : Wanted limit k)
    (bounded : before = some bound) (fits : (blocks source first k).length ≤ bound)
    (full : bound < (blocks source first (k + 1)).length) :
    Reached source first limit room before turns
      (.ended ⟨.error (outputFailure fault), k + 1, (blocks source first (k + 1)).take bound⟩)

/-- The first refresh is wanted. -/
theorem wanted_zero (limit : Option Nat) : Wanted limit 0 :=
  fun n _ => Nat.lt_of_lt_of_le Nat.one_pos (Nat.le_max_left 1 n)

/-- Behind a refresh that is wanted the next one is, or all have been shown. -/
theorem Wanted.succ (h : Wanted limit k) :
    if enough limit (k + 1) then ∃ n, limit = some n ∧ max 1 n = k + 1
    else Wanted limit (k + 1) := by
  cases limit with
  | none => exact nofun
  | some n =>
    have hk : k < max 1 n := h n rfl
    have henough : enough (some n) (k + 1) = decide (n ≤ k + 1) := rfl
    rw [henough]
    by_cases hn : n ≤ k + 1
    · rw [if_pos (decide_eq_true hn)]
      exact ⟨n, rfl, by omega⟩
    · rw [if_neg (by simpa using hn)]
      rintro m ⟨⟩
      omega

/-- A turn writes one more block and goes on, or it ends the run. -/
theorem Reached.turn {s : State σ} (hout : out.HasRoom room)
    (hs : s.AtRefresh source first room before k) (hwanted : Wanted limit k) :
    Reached source first limit room before (k + 1) (turn source limit out s) := by
  have hblock := fills_display hout s.output s.root
  rw [hs.room, hs.root] at hblock
  have hfills := hblock.after hs.fits
  rw [← blocks_succ, ← hs.written, ← hs.root] at hfills
  rw [Monitor.turn]
  generalize (display out s.output s.root).after s.written = written at hfills
  cases hfills with
  | @all output fits behind =>
    have hnext := hwanted.succ
    simp only [hs.shown, hs.opens]
    split
    · next henough =>
      rw [if_pos henough] at hnext
      obtain ⟨n, hlimit, hn⟩ := hnext
      rw [← hn] at fits ⊢
      exact .complete hlimit (Nat.le_refl _) fits
    · next henough =>
      rw [if_neg henough] at hnext
      exact .running ⟨by rw [hs.root]; rfl, rfl, rfl, rfl, fits, behind⟩ hnext
  | @part bound fault eq lt =>
    simp only [hs.opens]
    have hle : (blocks source first k).length ≤ bound := hs.fits bound eq
    exact .cut (Nat.lt_succ_self k) hwanted eq hle lt

/-- A run that has ended stays as it is. -/
theorem advance_ended (source : Nat → Except Failure Node) (limit : Option Nat) (out : Output σ)
    (turns : Nat) (run : Run) : advance source limit out turns (.ended run) = .ended run := by
  cases turns <;> rfl

/-- One more turn leads from where a run stands to where it stands then. -/
theorem Reached.succ {progress : Progress σ} (hout : out.HasRoom room)
    (h : Reached source first limit room before k progress) :
    Reached source first limit room before (k + 1) (advance source limit out 1 progress) := by
  cases h with
  | running hs hwanted => exact Reached.turn hout hs hwanted
  | complete limited le fits => exact .complete limited (Nat.le_succ_of_le le) fits
  | cut lt wanted bounded fits full =>
    exact .cut (Nat.lt_succ_of_lt lt) wanted bounded fits full

/-! ## Runs -/

/-- Turns are taken one after the other. -/
theorem advance_add (source : Nat → Except Failure Node) (limit : Option Nat) (out : Output σ)
    (a b : Nat) (progress : Progress σ) :
    advance source limit out (a + b) progress =
      advance source limit out b (advance source limit out a progress) := by
  induction a generalizing progress with
  | zero => rw [Nat.zero_add, advance]
  | succ a ih =>
    cases progress with
    | running s => rw [Nat.succ_add, advance, advance, ih]
    | ended run => simp only [advance_ended]

/-- Where a run stands after any number of turns, if the first open gave a tree. -/
theorem reached_advance (hout : out.HasRoom room) (hfirst : source 0 = .ok first) {s : σ}
    (hs : room s = before) (limit : Option Nat) (turns : Nat) :
    Reached source first limit room before turns
      (advance source limit out turns (begin source s)) := by
  induction turns with
  | zero =>
    rw [advance, begin, hfirst]
    exact .running ⟨rfl, rfl, rfl, rfl, fits_zero before, hs.trans (roomBehind_zero _).symm⟩
      (wanted_zero limit)
  | succ turns ih =>
    rw [advance_add]
    exact ih.succ hout

/-- A run ends with an outcome. -/
def Ends (source : Nat → Except Failure Node) (limit : Option Nat) (out : Output σ) (s : σ)
    (run : Run) : Prop :=
  ∃ turns, advance source limit out turns (begin source s) = .ended run

/-- A run ends in one way. -/
theorem Ends.unique {s : σ} {run run' : Run} (h : Ends source limit out s run)
    (h' : Ends source limit out s run') : run = run' := by
  obtain ⟨turns, h⟩ := h
  obtain ⟨turns', h'⟩ := h'
  have hboth := advance_add source limit out turns turns' (begin source s)
  rw [h, advance_ended, Nat.add_comm, advance_add, h', advance_ended] at hboth
  cases hboth
  rfl

/-- If the first open fails, so does the run. -/
theorem ends_of_error {failure : Failure} (h : source 0 = .error failure) (s : σ) :
    Ends source limit out s ⟨.error failure, 1, []⟩ :=
  ⟨0, by rw [advance, begin, h]⟩

/-- A run ends within the turns that its bounds allow. -/
theorem Reached.ended {turns : Nat} {progress : Progress σ}
    (h : Reached source first limit room before turns progress)
    (hturns : maxTurns limit before = some turns) : ∃ run, progress = .ended run := by
  cases h with
  | @running s hstate hwanted =>
    exfalso
    match limit, before, hturns with
    | some n, _, hturns =>
      cases hturns
      exact Nat.lt_irrefl _ (hwanted n rfl)
    | none, some size, hturns =>
      cases hturns
      have hfits := hstate.fits size rfl
      have hle := le_length_blocks source first (size + 1)
      omega
  | complete _ _ _ => exact ⟨_, rfl⟩
  | cut _ _ _ _ _ => exact ⟨_, rfl⟩

/-- A run without bounds stands before a refresh after any number of turns. -/
theorem Reached.endless {turns : Nat} {progress : Progress σ}
    (h : Reached source first none room none turns progress) :
    ∃ s, progress = .running s ∧ s.AtRefresh source first room none turns := by
  cases h with
  | running hs _ => exact ⟨_, rfl, hs⟩
  | complete limited _ _ => cases limited
  | cut _ _ bounded _ _ => cases bounded

/-- A run without bounds does not end. -/
theorem not_ends (hout : out.HasRoom room) (hfirst : source 0 = .ok first) {s : σ}
    (hs : room s = none) (run : Run) : ¬ Ends source none out s run := by
  rintro ⟨turns, hended⟩
  obtain ⟨state, hrunning, -⟩ := (reached_advance hout hfirst hs none turns).endless
  rw [hended] at hrunning
  cases hrunning

/-- The run is defined exactly if it ends. -/
theorem run_eq_some {size : Option Nat} {run : Run} :
    Monitor.run source limit size = some run ↔ Ends source limit .ofRoom size run := by
  have hrun : ∀ progress : Progress (Option Nat),
      progress.run? = some run ↔ progress = .ended run := by
    rintro (s | run') <;> simp [Progress.run?]
  rw [Monitor.run, hrun]
  refine ⟨fun h => ⟨_, h⟩, fun h => ?_⟩
  cases hfirst : source 0 with
  | error failure =>
    rw [begin, hfirst, advance_ended, (ends_of_error hfirst size).unique h]
  | ok first =>
    have hreached := reached_advance Output.hasRoom_ofRoom hfirst (s := size) rfl limit
    cases hturns : maxTurns limit size with
    | some turns =>
      obtain ⟨run', hended⟩ := (hreached turns).ended hturns
      rw [Option.getD_some, hended, Ends.unique ⟨turns, hended⟩ h]
    | none =>
      match limit, size, hturns with
      | none, none, _ => exact absurd h (not_ends Output.hasRoom_ofRoom hfirst rfl run)

end EventLog.Monitor
