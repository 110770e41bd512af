import Mathlib.Data.Set.Function
import EventLog.Proofs.Monitor.Runs

/-!
# Refreshes that show a tree again

A refresh is meant to show a tree that was opened for it, and to be left out where there is none. A
run keeps the tree of the last good open instead, shows it again and counts that. So it shows the
trees that were opened, each once, exactly if no open of the run has failed (`showsOpened_iff`).
-/

namespace EventLog.Monitor

variable {σ : Type} {source : Nat → Except Failure Node} {first : Node} {out : Output σ}
  {room : σ → Option Nat} {s : σ} {count : Nat}

/-- The trees of the opens that succeeded, among so many. -/
def opened (source : Nat → Except Failure Node) (opens : Nat) : List Node :=
  (List.range opens).filterMap fun k => (source k).toOption

/-- A run has shown the trees of the opens that succeeded, each once and in order, and has counted
them. -/
structure Run.ShowsOpened (source : Nat → Except Failure Node) (run : Run) : Prop where
  output : run.output = (opened source run.opens).flatMap fun root => bytesOf (block root)
  result : run.result = .ok (opened source run.opens).length

/-- A run that is under way has shown the trees of the opens that succeeded, each once and in order,
and has counted them. The last open is for the refresh that comes next. -/
structure State.ShowsOpened (source : Nat → Except Failure Node) (s : State σ) : Prop where
  written : s.written = (opened source (s.opens - 1)).flatMap fun root => bytesOf (block root)
  shown : s.shown = (opened source (s.opens - 1)).length

/-- No open among the first ones has failed. -/
def AllOpen (source : Nat → Except Failure Node) (count : Nat) : Prop :=
  ∀ k < count, (source k).isOk = true

/-- There are as many trees as opens exactly if none has failed. -/
theorem length_opened : (opened source count).length = count ↔ AllOpen source count := by
  have hopen : ∀ k, (source k).toOption.isSome = (source k).isOk := fun k => by
    cases source k <;> rfl
  have hcount := List.countP_eq_length (p := fun k => (source k).toOption.isSome)
    (l := List.range count)
  rw [List.length_range] at hcount
  rw [opened, List.length_filterMap_eq_countP, hcount]
  simp only [List.mem_range, hopen]
  rfl

/-- The tree of an open that succeeded is the one that is shown. -/
theorem eq_shownTree (hfirst : source 0 = .ok first) {k : Nat} (h : (source k).isOk = true) :
    source k = .ok (shownTree source first k) := by
  cases hsource : source k with
  | error failure =>
    rw [hsource] at h
    cases h
  | ok root => rw [shownTree_of_ok hfirst hsource]

/-- If no open has failed, the blocks that are shown are those of the trees that were opened. -/
theorem AllOpen.blocks_eq (h : AllOpen source count) (hfirst : source 0 = .ok first) :
    blocks source first count = (opened source count).flatMap fun root => bytesOf (block root) := by
  have hopened : opened source count = (List.range count).map (shownTree source first) := by
    rw [opened, ← List.filterMap_eq_map]
    refine List.filterMap_congr fun k hk => ?_
    rw [eq_shownTree hfirst (h k (List.mem_range.1 hk))]
    rfl
  rw [hopened, List.flatMap_map]
  rfl

/-- The last good open is the one of the refresh itself exactly if that succeeded. -/
theorem lastOpened_eq_self (hfirst : source 0 = .ok first) {k : Nat} :
    lastOpened source k = k ↔ (source k).isOk = true := by
  constructor
  · intro h
    have hsource := source_lastOpened hfirst k
    rw [h] at hsource
    rw [hsource]
    rfl
  · exact fun h => Nat.le_antisymm (Nat.findGreatest_le k) (Nat.le_findGreatest (Nat.le_refl k) h)

/-- No open is shown for two refreshes exactly if no open has failed. -/
theorem injOn_lastOpened (hfirst : source 0 = .ok first) :
    Set.InjOn (lastOpened source) (Set.Iio count) ↔ AllOpen source count := by
  constructor
  · intro hinj k hk
    cases k with
    | zero => rw [hfirst]; rfl
    | succ k =>
      by_contra hfailed
      -- a failed open leaves the last good one as it is
      have hsame : lastOpened source (k + 1) = lastOpened source k := by
        rw [lastOpened, Nat.findGreatest_succ, if_neg hfailed]
        rfl
      exact absurd (hinj hk (Set.mem_Iio.2 (Nat.lt_of_succ_lt hk)) hsame) (Nat.succ_ne_self k)
  · intro hall j hj k hk hsame
    rwa [(lastOpened_eq_self hfirst).2 (hall j hj), (lastOpened_eq_self hfirst).2 (hall k hk)]
      at hsame

/-- A run into an output that never fails shows, for each refresh, the tree of the last open up to
then that succeeded. With a limit it opens the store once for each refresh and counts them all, and
without one it goes on in this way. So it shows the trees that were opened, each once, and counts
these, exactly if none of its opens has failed; nor is any open shown for two refreshes exactly
then. -/
theorem showsOpened_iff (hout : out.HasRoom room) (hs : room s = none)
    (hfirst : source 0 = .ok first) :
    ∃ shown : Nat → Node,
      (∀ k, source (lastOpened source k) = .ok (shown k) ∧
        (lastOpened source k = k ↔ (source k).isOk = true)) ∧
      (∀ count, Set.InjOn (lastOpened source) (Set.Iio count) ↔
        ∀ k < count, (source k).isOk = true) ∧
      (∀ n, ∃ run, Ends source (some n) out s run ∧ run.opens = max 1 n ∧
        run.result = .ok run.opens ∧
        run.output = ((List.range run.opens).flatMap fun k => bytesOf (block (shown k))) ∧
        (run.ShowsOpened source ↔ ∀ k < run.opens, (source k).isOk = true)) ∧
      ∀ turns, ∃ state, advance source none out turns (begin source s) = .running state ∧
        state.shown = turns ∧ state.opens = turns + 1 ∧
        state.written = ((List.range turns).flatMap fun k => bytesOf (block (shown k))) ∧
        (state.ShowsOpened source ↔ ∀ k < turns, (source k).isOk = true) := by
  refine ⟨shownTree source first,
    fun k => ⟨source_lastOpened hfirst k, lastOpened_eq_self hfirst⟩,
    fun count => injOn_lastOpened hfirst, fun n => ?_, fun turns => ?_⟩
  · refine ⟨_, ends_blocks hout hs hfirst n, rfl, rfl, rfl, fun h => ?_, fun hall => ⟨?_, ?_⟩⟩
    · exact length_opened.1 (Except.ok.inj h.result).symm
    · exact AllOpen.blocks_eq hall hfirst
    · exact congrArg Except.ok (length_opened.2 hall).symm
  · obtain ⟨state, hstate, hat⟩ := (reached_advance hout hfirst hs none turns).endless
    have hopens : state.opens - 1 = turns := by rw [hat.opens, Nat.add_sub_cancel]
    refine ⟨state, hstate, hat.shown, hat.opens, hat.written, fun h => ?_, fun hall => ⟨?_, ?_⟩⟩
    · have hlength := h.shown
      rw [hopens, hat.shown] at hlength
      exact length_opened.1 hlength.symm
    · rw [hopens, hat.written]
      exact AllOpen.blocks_eq hall hfirst
    · rw [hopens, hat.shown]
      exact (length_opened.2 hall).symm

/-- The run of a single refresh of a store whose second open fails shows what was opened, and that
of three refreshes does not. -/
theorem showsOpened_iff_gap :
    Output.ofRoom.HasRoom id ∧ id (none : Option Nat) = none ∧ gapSource 0 = .ok emptyTree ∧
      (∃ run, Ends gapSource (some 1) .ofRoom none run ∧ run.ShowsOpened gapSource) ∧
      ∃ run, Ends gapSource (some 3) .ofRoom none run ∧ ¬ run.ShowsOpened gapSource := by
  have hfirst : gapSource 0 = .ok emptyTree := rfl
  refine ⟨Output.hasRoom_ofRoom, rfl, hfirst, ?_, ?_⟩
  · obtain ⟨_, -, -, hruns, -⟩ := showsOpened_iff Output.hasRoom_ofRoom (s := none) rfl hfirst
    obtain ⟨run, hends, hopens, -, -, hshows⟩ := hruns 1
    refine ⟨run, hends, hshows.2 fun k hk => ?_⟩
    rw [hopens] at hk
    obtain rfl := Nat.lt_one_iff.1 hk
    rfl
  · obtain ⟨_, -, -, hruns, -⟩ := showsOpened_iff Output.hasRoom_ofRoom (s := none) rfl hfirst
    obtain ⟨run, hends, hopens, -, -, hshows⟩ := hruns 3
    refine ⟨run, hends, fun h => absurd (hshows.1 h 1 ?_) (by decide)⟩
    rw [hopens]
    decide

/-- Of two refreshes the second shows the tree of the first again, and both are counted, though only
one tree was opened. -/
theorem showsOpened_lost :
    gapSource 0 = .ok emptyTree ∧ ∃ run, Monitor.run gapSource (some 2) none = some run ∧
      run.result = .ok 2 ∧ run.opens = 2 ∧ (opened gapSource 2).length = 1 ∧
      run.output = bytesOf ("Display contents\n\n" ++ "Display contents\n\n") ∧
      ¬ run.ShowsOpened gapSource := by
  have hfirst : gapSource 0 = .ok emptyTree := rfl
  have hrun := run_eq_some.2 (ends_blocks Output.hasRoom_ofRoom (s := none) rfl hfirst 2)
  have hempty : block emptyTree = "Display contents\n\n" := by decide
  refine ⟨hfirst, _, hrun, rfl, rfl, rfl, ?_, fun h => ?_⟩
  · rw [bytesOf_append, ← hempty]
    change blocks gapSource emptyTree 2 = _
    rw [blocks_succ, blocks_succ]
    rfl
  · exact absurd (Except.ok.inj h.result) (by decide)

end EventLog.Monitor
