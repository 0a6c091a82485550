import Rv32iCore.Core.Refinement

/-!
# The retirement trace

`tb_soc` samples the trace outputs in every clock cycle and writes a register line when
`trace_we` is high and `trace_trap` low.  `trace_we` comes from WB, which a bus stall holds,
and `trace_trap` from EX, two stages younger.  So a write is reported once per cycle it
spends in WB without a trap in EX, which is not always one.

    trace_exact_iff     the sampled trace is the program's writes iff each is reported as it commits
-/

namespace Rv32i

open Sync

/-- The register line that `tb_soc` writes in one cycle. -/
def Tracked.sampled (t : Tracked) (i : CoreIn) : List Retired :=
  if t.core.traceTrap i then [] else t.wbPending

/-! ## Commits -/

/-- The pipeline, and whether WB holds what it held in the cycle before. -/
structure Watched where
  tracked : Tracked
  held : Bool

namespace Watched

variable (P : Params) (w : Watched) (i : CoreIn)

def reset (s : Core) (i₀ : CoreIn) : Watched := ⟨.reset P s i₀, false⟩

/-- One clock edge: a bus stall holds WB. -/
def step : Watched := ⟨w.tracked.step P i, i.busStall⟩

/-- A write commits in its first cycle in WB. -/
def committed (_ : CoreIn) : List Retired := if w.held then [] else w.tracked.wbPending

/-- The writes in the pipeline that have not. -/
def uncommitted (ld : Nat → Word) : List Retired :=
  if w.held then w.tracked.memPending ld else w.tracked.writesPending ld

/-- A register write in WB meets the sampling rule in its first cycle there, and only then: nothing
traps behind it, and if a bus stall makes it wait an interrupt is taken in the next cycle. -/
def ReportsOnce : Prop :=
  w.tracked.core.traceWe = true →
    if w.held then w.tracked.core.takeInterrupt i = true else w.tracked.core.trap i = false

instance : Decidable (ReportsOnce w i) := by
  unfold ReportsOnce
  infer_instance

/-- Where a write waits in WB, EX does not fault. -/
def Clear : Prop :=
  w.held = true → w.tracked.core.traceWe = true → w.tracked.core.syncTrap = false

variable {P w i}

theorem run_tracked (w : Watched) (is : List CoreIn) :
    (run (Watched.step P) w is).tracked = run (Tracked.step P) w.tracked is := by
  induction is generalizing w with
  | nil => rfl
  | cons i is ih => exact ih _

theorem outputs_tracked {ο : Type} (f : Tracked → CoreIn → List ο) (w : Watched)
    (is : List CoreIn) :
    outputs (Watched.step P) (fun w i => f w.tracked i) w is =
      outputs (Tracked.step P) f w.tracked is := by
  induction is generalizing w with
  | nil => rfl
  | cons i is ih =>
    rw [outputs_cons, outputs_cons, ih]
    rfl

/-- What has committed has left WB, but for a write that waits there. -/
theorem retired_committed (w : Watched) (is : List CoreIn) :
    outputs (Tracked.step P) Tracked.retired w.tracked is ++
        (if (run (Watched.step P) w is).held then (run (Watched.step P) w is).tracked.wbPending
          else []) =
      (if w.held then w.tracked.wbPending else []) ++ outputs (Watched.step P) committed w is := by
  rw [← outputs_tracked]
  refine outputs_conserved (fun w : Watched => if w.held then w.tracked.wbPending else []) ?_
  intro c _
  obtain ⟨w, i⟩ := c
  show Tracked.retired w.tracked i ++
    (if i.busStall then (w.tracked.step P i).wbPending else []) = _
  unfold Tracked.retired committed
  cases hs : i.busStall with
  | true =>
    rw [Tracked.step_stall hs]
    cases w.held
    · rfl
    · exact (List.append_nil _).symm
  | false => cases w.held <;> simp

/-- **Commits are the program's writes.** -/
theorem committed_eq {ld : Nat → Word} {q : Machine} {is : List CoreIn} (h : Rel P ld w.tracked q)
    (hheld : w.held = false) (hok : Always (Tracked.step P) (Responds ld) w.tracked is) :
    outputs (Watched.step P) committed w is ++ (run (Watched.step P) w is).uncommitted ld =
      w.uncommitted ld ++ outputs (Machine.step P ld) (Machine.retired P ld) q
        (outputs (Tracked.step P) Tracked.schedule w.tracked is) := by
  have hretired := (h.refines hok).retired
  have hcommitted := retired_committed (P := P) w is
  rw [← run_tracked] at hretired
  rw [hheld, if_neg Bool.false_ne_true, List.nil_append] at hcommitted
  have hstart : w.uncommitted ld = w.tracked.writesPending ld := by rw [uncommitted, hheld]; rfl
  rw [hstart, ← hretired, ← hcommitted, List.append_assoc]
  congr 1
  unfold uncommitted
  cases (run (Watched.step P) w is).held <;> rfl

/-! ## One cycle -/

theorem trap_of_clear (hsync : w.tracked.core.syncTrap = false) :
    w.tracked.core.trap i = w.tracked.core.takeInterrupt i := by
  rw [Core.trap, hsync, Bool.false_or]

/-- A cycle is sampled as it commits exactly if its write is reported once. -/
theorem sampled_eq_committed_iff (h : w.Clear) :
    w.tracked.sampled i = w.committed i ↔ w.ReportsOnce i := by
  unfold Tracked.sampled committed ReportsOnce Tracked.wbPending Core.traceTrap
  cases hwe : w.tracked.core.traceWe with
  | false => simp
  | true =>
    cases hheld : w.held with
    | false => cases w.tracked.core.trap i <;> simp
    | true =>
      rw [trap_of_clear (h hheld hwe)]
      cases w.tracked.core.takeInterrupt i <;> simp

/-- Stalled without a fault in EX, it stays without one. -/
theorem Clear.step (h : w.Clear) (honce : w.ReportsOnce i) : (w.step P i).Clear := by
  intro hs hwe
  replace hs : i.busStall = true := hs
  have hstep : (w.step P i).tracked = _ := Tracked.step_stall hs
  rw [hstep] at hwe ⊢
  -- neither WB nor the fault in EX depends on the register file
  replace hwe : w.tracked.core.traceWe = true := hwe
  show w.tracked.core.syncTrap = false
  cases hheld : w.held with
  | true => exact h hheld hwe
  | false =>
    have htrap := honce hwe
    rw [hheld, if_neg Bool.false_ne_true, Core.trap, Bool.or_eq_false_iff] at htrap
    exact htrap.1

end Watched

/-! ## Runs -/

/-- The trace of the run `is` from reset is exact: line by line the register writes of the
sequential machine, those that have not committed apart. -/
def TraceExact (P : Params) (s : Core) (i₀ : CoreIn) (ld : Nat → Word) (is : List CoreIn) : Prop :=
  outputs (Tracked.step P) Tracked.sampled (.reset P s i₀) is ++
      (run (Watched.step P) (.reset P s i₀) is).uncommitted ld =
    outputs (Machine.step P ld) (Machine.retired P ld) (.reset P s)
      (outputs (Tracked.step P) Tracked.schedule (.reset P s i₀) is)

theorem traceExact_iff {P : Params} {s : Core} {i₀ : CoreIn} {ld : Nat → Word} {is : List CoreIn}
    (hok : Always (Tracked.step P) (Responds ld) (.reset P s i₀) is) :
    TraceExact P s i₀ ld is ↔
      outputs (Watched.step P) (fun w i => w.tracked.sampled i) (.reset P s i₀) is =
        outputs (Watched.step P) Watched.committed (.reset P s i₀) is := by
  have hwrites : _ = [] ++ _ :=
    Watched.committed_eq (w := .reset P s i₀) (Rel.reset P ld s i₀) rfl hok
  rw [List.nil_append] at hwrites
  rw [TraceExact, Watched.outputs_tracked]
  show _ = outputs _ _ _ (outputs _ _ (Watched.reset P s i₀).tracked is) ↔ _
  rw [← hwrites, List.append_cancel_right_eq]
  rfl

/-- **When the trace is exact.**  In a run from reset the trace is exact after every cycle if and
only if in every cycle WB's write is reported as it commits. -/
theorem trace_exact_iff (P : Params) (s : Core) (i₀ : CoreIn) (is : List CoreIn) (ld : Nat → Word)
    (hld : Supplies ld (outputs (Tracked.step P) Tracked.responses (.reset P s i₀) is)) :
    (∀ n, TraceExact P s i₀ ld (is.take n)) ↔
      Always (Watched.step P) Watched.ReportsOnce (.reset P s i₀) is := by
  have hok := SuppliesFrom.responds (t := .reset P s i₀) hld
  rw [forall_congr' fun n => traceExact_iff (hok.take n)]
  have h0 : (Watched.reset P s i₀).Clear := nofun
  constructor
  · intro h
    have hclear := inv_always Watched.Clear
      (fun _ _ hclear he => hclear.step ((Watched.sampled_eq_committed_iff hclear).1 he)) h0
      (always_of_outputs_take h)
    exact hclear.mono fun _ _ h => (Watched.sampled_eq_committed_iff h.1).1 h.2
  · intro h n
    have hclear := inv_always Watched.Clear (fun _ _ hclear => hclear.step) h0 (h.take n)
    exact outputs_congr (hclear.mono fun _ _ h => (Watched.sampled_eq_committed_iff h.1).2 h.2)

/-- Without stalls and traps each write of `loadProgram` is reported once. -/
theorem trace_exact_unstalled :
    TraceExact loadProgram default default (fun _ => 5) (List.replicate 6 ⟨false, 5, false⟩) :=
  (trace_exact_iff loadProgram default default (List.replicate 6 ⟨false, 5, false⟩) (fun _ => 5)
    (.single (by decide +kernel))).2 (by decide +kernel) 6

/-- The trace is not always exact: while the load of `loadProgram` waits for the bus, the
`addi` before it is reported in each of three cycles. -/
theorem trace_repeats_while_stalled :
    ¬ ∀ (P : Params) (s : Core) (i₀ : CoreIn) (is : List CoreIn) (ld : Nat → Word),
      Supplies ld (outputs (Tracked.step P) Tracked.responses (.reset P s i₀) is) →
      ∀ n, TraceExact P s i₀ ld (is.take n) := by
  intro h
  have hrep := h loadProgram default default loadCycles (fun _ => 5) loadProgram_responses 7
  revert hrep
  unfold TraceExact
  decide +kernel

end Rv32i
