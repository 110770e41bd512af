import Mathlib.Tactic.IntervalCases
import EventLog.Proofs.Monitor.Refreshes

/-!
# Runs into an output that never fails

A run into an output that never fails is settled by the results of the opens and the number of
refreshes that are wanted (`ends_unfailing`): only the first open can make it fail, and the blocks
of all refreshes are written back to back, however little the output takes at a time.
-/

namespace EventLog.Monitor

variable {σ : Type} {source : Nat → Except Failure Node} {first : Node} {out : Output σ}
  {room : σ → Option Nat} {s : σ}

/-- Into an output that never fails, all refreshes that are wanted are shown. -/
theorem ends_blocks (hout : out.HasRoom room) (hs : room s = none) (hfirst : source 0 = .ok first)
    (n : Nat) :
    Ends source (some n) out s ⟨.ok (max 1 n), max 1 n, blocks source first (max 1 n)⟩ := by
  have hreached := reached_advance hout hfirst hs (some n) (max 1 n)
  obtain ⟨run, hended⟩ := hreached.ended rfl
  rw [hended] at hreached
  cases hreached with
  | complete limited _ _ =>
    cases limited
    exact ⟨max 1 n, hended⟩
  | cut _ _ bounded _ _ => cases bounded

/-- No open between the last that succeeded and a refresh has succeeded. -/
theorem error_of_lastOpened_lt {i k : Nat} (h : lastOpened source k < i) (hi : i ≤ k) :
    ∃ failure, source i = .error failure := by
  have hnot : ¬ (source i).isOk = true := Nat.findGreatest_is_greatest h hi
  cases hsource : source i with
  | error failure => exact ⟨failure, rfl⟩
  | ok root => exact absurd (by rw [hsource]; rfl) hnot

/-- Into an output that never fails, a run fails as its first open does, having opened the store
once and written nothing; or it shows as many refreshes as are wanted but at least one, opens the
store once for each, and writes their blocks and nothing else. A refresh shows the tree of the last
open up to then that succeeded, so of its own open if that did. A block is the heading, the lines of
the listing and an empty line, each ended by a line feed. -/
theorem ends_unfailing (hout : out.HasRoom room) (hs : room s = none)
    (source : Nat → Except Failure Node) (n : Nat) :
    (∀ failure, source 0 = .error failure → ∀ run,
      Ends source (some n) out s run ↔ run = ⟨.error failure, 1, []⟩) ∧
    (∀ first, source 0 = .ok first → ∃ shown : Nat → Node,
      (∀ run, Ends source (some n) out s run ↔ run = ⟨.ok (max 1 n), max 1 n,
        (List.range (max 1 n)).flatMap fun k => bytesOf (block (shown k))⟩) ∧
      (∀ k, ∃ j ≤ k, source j = .ok (shown k) ∧
        ∀ i, j < i → i ≤ k → ∃ failure, source i = .error failure) ∧
      ∀ k root, source k = .ok root → shown k = root) ∧
    ∀ root, block root =
      "Display contents\n" ++ String.join ((listing root).map (· ++ "\n")) ++ "\n" := by
  refine ⟨fun failure hfailure run => ?_, fun first hfirst => ?_, fun root => rfl⟩
  · exact ⟨fun h => h.unique (ends_of_error hfailure s), fun h => h ▸ ends_of_error hfailure s⟩
  · have hends := ends_blocks hout hs hfirst n
    refine ⟨shownTree source first, fun run => ⟨fun h => h.unique hends, fun h => h ▸ hends⟩,
      fun k => ⟨lastOpened source k, Nat.findGreatest_le k, source_lastOpened hfirst k,
        fun i => error_of_lastOpened_lt⟩, fun k root => shownTree_of_ok hfirst⟩

/-- A tree without records. -/
def emptyTree : Node := ⟨"/", [], none⟩

/-- A tree with one record. -/
def listTree : Node :=
  ⟨"/", [⟨"list-0", [], some ⟨[.flat [.integer 1, .integer 2, .integer 3, .integer 4], .flat []]⟩⟩],
    none⟩

/-- A store that cannot be read when it is opened the second time, and has a record from then on. -/
def gapSource : Nat → Except Failure Node
  | 0 => .ok emptyTree
  | 1 => .error (.storeOpen "out.json" (.file .notFound))
  | _ + 2 => .ok listTree

/-- Three refreshes of that store, the second of which shows the tree of the first again. -/
theorem ends_unfailing_gap :
    Output.ofRoom.HasRoom id ∧ id (none : Option Nat) = none ∧
      Ends gapSource (some 3) .ofRoom none ⟨.ok 3, 3, bytesOf
        ("Display contents\n\n" ++ "Display contents\n\n" ++
          ("Display contents\nList Element: /list-0\n    channel 1\n    localTime 2\n" ++
            "    adcValue 3\n    extendTime 4\n\n"))⟩ := by
  obtain ⟨-, hok, -⟩ := ends_unfailing Output.hasRoom_ofRoom (s := none) rfl gapSource 3
  obtain ⟨shown, hrun, hlast, hshown⟩ := hok emptyTree rfl
  have hsecond : shown 1 = emptyTree := by
    obtain ⟨j, hj, hsource, -⟩ := hlast 1
    interval_cases j
    · exact (Except.ok.inj hsource).symm
    · cases hsource
  refine ⟨Output.hasRoom_ofRoom, rfl, (hrun _).2 ?_⟩
  have hempty : block emptyTree = "Display contents\n\n" := by decide
  have hlist : block listTree =
      "Display contents\nList Element: /list-0\n    channel 1\n    localTime 2\n" ++
        "    adcValue 3\n    extendTime 4\n\n" := by decide
  rw [bytesOf_append, bytesOf_append, ← hempty, ← hlist]
  change _ = Run.mk _ _ ((List.range 3).flatMap fun k => bytesOf (block (shown k)))
  simp [List.range_succ, hshown 0 emptyTree rfl, hshown 2 listTree rfl, hsecond]

end EventLog.Monitor
