import Rv32iCore.Core.Refinement
import Rv32iCore.Spec.MemMachine

/-!
# The pipeline with a memory behind it

`CoreMem` is `core` with the bytes as the accesses that have left MEM have made them; the memory
may take any number of cycles for an access.  If each load gets what these bytes hold (`Serves`),
the pipeline refines `MemMachine`, which makes an access where it executes the instruction: it is
ahead by the access in MEM.

    CoreMem.sim          the simulation
    CoreMem.refines      executed instructions, accesses, register writes and memory of a run
-/

namespace Rv32i

open Sync

/-! ## Only the load in MEM matters -/

section Congr

variable {P : Params} {ld ld' : Nat → Word} {t : Tracked} {q : Machine}

/-- What is owed to the register in MEM depends on `ld` only where a load is there. -/
theorem BackRel.memData_congr (h : BackRel ld t q)
    (hld : t.core.exMem.memRe = true → ld' t.loads = ld t.loads) (hwe : t.core.exMem.regWe = true) :
    t.memData ld' = t.memData ld := by
  unfold Tracked.memData
  by_cases hsel : t.core.exMem.wbSel = 1#2
  · rw [if_pos hsel, if_pos hsel, hld (h.memLoad hwe hsel)]
  · rw [if_neg hsel, if_neg hsel]

theorem BackRel.archRegs_congr (h : BackRel ld t q)
    (hld : t.core.exMem.memRe = true → ld' t.loads = ld t.loads) :
    t.archRegs ld' = t.archRegs ld := by
  unfold Tracked.archRegs
  cases hwe : t.core.exMem.regWe with
  | false => rfl
  | true => rw [h.memData_congr hld hwe]

theorem BackRel.writesPending_congr (h : BackRel ld t q)
    (hld : t.core.exMem.memRe = true → ld' t.loads = ld t.loads) :
    t.writesPending ld' = t.writesPending ld := by
  unfold Tracked.writesPending Tracked.memPending
  cases hwe : t.core.exMem.regWe with
  | false => rfl
  | true => rw [h.memData_congr hld hwe]

theorem Rel.congr (h : Rel P ld t q)
    (hld : t.core.exMem.memRe = true → ld' t.loads = ld t.loads) : Rel P ld' t q :=
  { h with regs := (h.archRegs_congr hld).trans h.regs }

end Congr

/-- A cycle schedules at most one step. -/
theorem Tracked.schedule_cases (t : Tracked) (i : CoreIn) :
    t.schedule i = [] ∨ ∃ e, t.schedule i = [e] := by
  unfold schedule
  split_ifs
  · exact .inl rfl
  · exact .inr ⟨_, rfl⟩
  · exact .inr ⟨_, rfl⟩
  · exact .inl rfl

theorem Machine.memReqs_cases (P : Params) (q : Machine) (e : Event) :
    q.memReqs P e = [] ∨ q.memReqs P e = [q.memReq P] := by
  cases e with
  | exec timerIrq =>
    simp only [memReqs]
    split_ifs
    · exact .inr rfl
    · exact .inl rfl
  | interrupt => exact .inl rfl

/-! ## The core and its memory -/

structure CoreMem where
  core : Tracked
  /-- the bytes as the accesses that have left MEM have made them -/
  bytes : Word → BitVec 8

namespace CoreMem

variable (P : Params) (M : MemMap) (t : CoreMem) (i : CoreIn)

def reset (s : Core) (i : CoreIn) (bytes : Word → BitVec 8) : CoreMem := ⟨.reset P s i, bytes⟩

def step : CoreMem where
  core := t.core.step P i
  bytes := run ByteMachine.step t.bytes (t.core.memReqs i)

/-- What a load in MEM is to get. -/
def ld : Nat → Word := fun _ => M.loaded t.core.loads t.bytes t.core.core.memReq

/-- The bytes once the access in MEM is made. -/
def done : Word → BitVec 8 := run ByteMachine.step t.bytes t.core.memReqPending

/-- The load that leaves MEM gets what the bytes hold. -/
def Serves (t : CoreMem) (i : CoreIn) : Prop := Responds (t.ld M) t.core i

/-- The machine has made the access in MEM. -/
structure Rel (t : CoreMem) (s : MemMachine) : Prop where
  cpu : Rv32i.Rel P (t.ld M) t.core s.cpu
  bytes : s.bytes = t.done

variable {P M t i} {s : MemMachine}

theorem step_stall (hs : i.busStall = true) :
    t.step P i = ⟨t.core.step P i, t.bytes⟩ := by
  simp [step, Tracked.memReqs, hs]

theorem ld_stall (hs : i.busStall = true) : (t.step P i).ld M = t.ld M := by
  rw [step_stall hs, Tracked.step_stall hs]
  rfl

theorem done_stall (hs : i.busStall = true) : (t.step P i).done = t.done := by
  rw [step_stall hs, Tracked.step_stall hs]
  rfl

/-- The access in MEM is made by an unstalled edge. -/
theorem step_bytes (hs : i.busStall = false) : (t.step P i).bytes = t.done := by
  simp [step, done, Tracked.memReqs, hs]

/-! ## One cycle -/

/-- The responses in MEM and, one load later, of the machine: the load in MEM leaves it on the
edge on which the next one enters. -/
def ldBoth (P : Params) (M : MemMap) (t : CoreMem) (s : MemMachine) : Nat → Word := fun k =>
  if t.core.core.exMem.memRe && k == t.core.loads then t.ld M k else s.ld P M k

theorem ldBoth_mem (hre : t.core.core.exMem.memRe = true) :
    t.ldBoth P M s t.core.loads = t.ld M t.core.loads := by
  simp [ldBoth, hre]

theorem Rel.ldBoth_next (h : Rel P M t s) :
    t.ldBoth P M s s.cpu.loads = s.ld P M s.cpu.loads := by
  have hloads := h.cpu.loads
  unfold ldBoth
  cases hre : t.core.core.exMem.memRe with
  | false => simp
  | true =>
    rw [hre] at hloads
    have hne : s.cpu.loads ≠ t.core.loads := by
      rw [hloads]
      exact Nat.succ_ne_self _
    simp [hne]

theorem Rel.both (h : Rel P M t s) : Rv32i.Rel P (t.ldBoth P M s) t.core s.cpu :=
  h.cpu.congr ldBoth_mem

theorem Serves.both (hok : Serves M t i) : Responds (t.ldBoth P M s) t.core i :=
  fun hs hre => (hok hs hre).trans (ldBoth_mem hre).symm

/-- The step of the machine is that of the sequential machine, the access made. -/
theorem Rel.run_schedule (h : Rel P M t s) :
    run (MemMachine.step P M) s (t.core.schedule i) =
      ⟨run (Machine.step P (t.ldBoth P M s)) s.cpu (t.core.schedule i),
        run ByteMachine.step s.bytes
          (outputs (Machine.step P (t.ldBoth P M s)) (Machine.memReqs P) s.cpu (t.core.schedule i))⟩ := by
  rcases t.core.schedule_cases i with he | ⟨e, he⟩
  · rw [he]
    rfl
  · rw [he, outputs_cons, outputs_nil, List.append_nil, run_cons, run_cons, run_nil, run_nil,
      Machine.step_congr h.ldBoth_next]
    rfl

/-- The access that has entered MEM is the machine's. -/
theorem Rel.memReq_next (h : Rel P M t s) (hs : i.busStall = false)
    (hre : (t.step P i).core.core.exMem.memRe = true) :
    (t.step P i).core.core.memReq = s.cpu.memReq P := by
  have hreqs := h.both.memReqs hs
  have hpend : (t.core.step P i).memReqPending = [(t.core.step P i).core.memReq] := by
    have hre' : (t.core.step P i).core.memReq.re = true := hre
    simp [Tracked.memReqPending, hre']
  rw [hpend] at hreqs
  rcases t.core.schedule_cases i with he | ⟨e, he⟩
  · rw [he] at hreqs
    cases hreqs
  · rw [he, outputs_cons, outputs_nil, List.append_nil] at hreqs
    rcases s.cpu.memReqs_cases P e with hm | hm
    · rw [hm] at hreqs
      cases hreqs
    · rw [hm] at hreqs
      exact (List.cons.inj hreqs).1

/-- So is the value that it is to get. -/
theorem Rel.ld_next (h : Rel P M t s) (hs : i.busStall = false)
    (hre : (t.step P i).core.core.exMem.memRe = true) :
    (t.step P i).ld M (t.step P i).core.loads = t.ldBoth P M s (t.step P i).core.loads := by
  have hloads : (t.step P i).core.loads = s.cpu.loads := h.cpu.nextLoads hs
  have hbytes : (t.step P i).bytes = s.bytes := (step_bytes hs).trans h.bytes.symm
  rw [hloads, h.ldBoth_next, ld, hloads, hbytes, h.memReq_next hs hre]
  rfl

theorem Rel.step (h : Rel P M t s) (hok : Serves M t i) :
    Rel P M (t.step P i) (run (MemMachine.step P M) s (t.core.schedule i)) := by
  cases hs : i.busStall with
  | true =>
    have hsched : t.core.schedule i = [] := by simp [Tracked.schedule, hs]
    rw [hsched]
    refine ⟨?_, h.bytes.trans (done_stall hs).symm⟩
    rw [ld_stall hs]
    exact h.cpu.step_stall hs
  | false =>
    have hcpu := (Tracked.sim P (t.ldBoth P M s)).step _ _ _ h.both hok.both
    rw [h.run_schedule]
    refine ⟨hcpu.congr fun hre => h.ld_next hs hre, ?_⟩
    rw [done, step_bytes hs, h.bytes]
    exact congrArg (run ByteMachine.step t.done) (h.both.memReqs hs).symm

theorem Rel.executed (h : Rel P M t s) : t.core.executed i =
    outputs (MemMachine.step P M) (MemMachine.executed P) s (t.core.schedule i) := by
  rw [h.both.executed]
  rcases t.core.schedule_cases i with he | ⟨e, he⟩
  · rw [he]
    rfl
  · rw [he]
    rfl

theorem Rel.memReqs (h : Rel P M t s) : t.core.memReqs i ++ (t.step P i).core.memReqPending =
    t.core.memReqPending ++
      outputs (MemMachine.step P M) (MemMachine.memReqs P) s (t.core.schedule i) := by
  cases hs : i.busStall with
  | true =>
    rw [step_stall hs, Tracked.step_stall hs]
    simp [Tracked.memReqs, Tracked.schedule, hs]
    rfl
  | false =>
    have hreqs : (t.step P i).core.memReqPending = _ := h.both.memReqs hs
    rw [Tracked.memReqs, hs, hreqs]
    rcases t.core.schedule_cases i with he | ⟨e, he⟩
    · rw [he]
      rfl
    · rw [he]
      rfl

theorem Rel.retired (h : Rel P M t s) (hok : Serves M t i) :
    t.core.retired i ++ (t.step P i).core.writesPending ((t.step P i).ld M) =
      t.core.writesPending (t.ld M) ++
        outputs (MemMachine.step P M) (MemMachine.retired P M) s (t.core.schedule i) := by
  cases hs : i.busStall with
  | true =>
    rw [ld_stall hs, step_stall hs, Tracked.step_stall hs]
    simp [Tracked.retired, Tracked.schedule, hs]
    rfl
  | false =>
    have hnext := (Tracked.sim P (t.ldBoth P M s)).step _ _ _ h.both hok.both
    have hwb := h.both.wbPending (P := P) hok.both hs
    have hmem := h.both.memPending hs
    have hpend : (t.step P i).core.writesPending ((t.step P i).ld M) =
        (t.core.step P i).writesPending (t.ldBoth P M s) :=
      hnext.writesPending_congr fun hre => h.ld_next hs hre
    have hold : t.core.writesPending (t.ldBoth P M s) = t.core.writesPending (t.ld M) :=
      h.cpu.writesPending_congr ldBoth_mem
    have hret : outputs (Machine.step P (t.ldBoth P M s)) (Machine.retired P (t.ldBoth P M s)) s.cpu
        (t.core.schedule i) =
        outputs (MemMachine.step P M) (MemMachine.retired P M) s (t.core.schedule i) := by
      rcases t.core.schedule_cases i with he | ⟨e, he⟩
      · rw [he]
        rfl
      · rw [he, outputs_cons, outputs_cons, Machine.retired_congr h.ldBoth_next]
        rfl
    rw [hpend, ← hold, ← hret, Tracked.writesPending, Tracked.writesPending, hwb, hmem]
    simp [Tracked.retired, hs]

end CoreMem

/-! ## Runs -/

theorem CoreMem.sim (P : Params) (M : MemMap) :
    Sim (CoreMem.step P) (MemMachine.step P M) (CoreMem.Serves M) (fun t i => t.core.schedule i)
      (CoreMem.Rel P M) where
  step _ _ _ h hok := h.step hok

/-- Over the run `is` from `t`, the pipeline and its memory show what `MemMachine` shows from `s`
over the steps `evs`, up to what is in the pipeline before and after. -/
structure RefinesMem (P : Params) (M : MemMap) (t : CoreMem) (s : MemMachine) (is : List CoreIn)
    (evs : List Event) : Prop where
  executed : outputs (CoreMem.step P) (fun t i => t.core.executed i) t is =
    outputs (MemMachine.step P M) (MemMachine.executed P) s evs
  memReqs : outputs (CoreMem.step P) (fun t i => t.core.memReqs i) t is ++
      (run (CoreMem.step P) t is).core.memReqPending =
    t.core.memReqPending ++ outputs (MemMachine.step P M) (MemMachine.memReqs P) s evs
  retired : outputs (CoreMem.step P) (fun t i => t.core.retired i) t is ++
      (run (CoreMem.step P) t is).core.writesPending ((run (CoreMem.step P) t is).ld M) =
    t.core.writesPending (t.ld M) ++ outputs (MemMachine.step P M) (MemMachine.retired P M) s evs
  csr : (run (CoreMem.step P) t is).core.core.csr = (run (MemMachine.step P M) s evs).cpu.csr
  regs : (run (CoreMem.step P) t is).core.archRegs ((run (CoreMem.step P) t is).ld M) =
    (run (MemMachine.step P M) s evs).cpu.regs
  bytes : (run (CoreMem.step P) t is).done = (run (MemMachine.step P M) s evs).bytes

theorem CoreMem.Rel.refines {P : Params} {M : MemMap} {t : CoreMem} {s : MemMachine}
    {is : List CoreIn} (h : CoreMem.Rel P M t s) (hok : Always (CoreMem.step P) (Serves M) t is) :
    RefinesMem P M t s is (outputs (CoreMem.step P) (fun t i => t.core.schedule i) t is) := by
  have hsim := CoreMem.sim P M
  have hend := hsim.run h hok
  refine ⟨?_, ?_, ?_, hend.cpu.csr, hend.cpu.regs, hend.bytes.symm⟩
  · have hp := hsim.outputs_pending (fun t i => t.core.executed i) (MemMachine.executed P)
      (fun _ => []) (fun t s i h _ => by simpa using h.executed) h hok
    simpa using hp
  · exact hsim.outputs_pending _ _ (fun t => t.core.memReqPending) (fun t s i h _ => h.memReqs) h hok
  · exact hsim.outputs_pending _ _ (fun t => t.core.writesPending (t.ld M))
      (fun t s i h hok => h.retired hok) h hok

/-- After a reset edge nothing is in the pipeline. -/
theorem CoreMem.Rel.reset (P : Params) (M : MemMap) (s : Core) (i : CoreIn)
    (bytes : Word → BitVec 8) :
    CoreMem.Rel P M (CoreMem.reset P s i bytes) ⟨Machine.reset P s, bytes⟩ :=
  ⟨Rv32i.Rel.reset P _ s i, rfl⟩

end Rv32i
