import Rv32iCore.Core.Simulation

/-!
# The pipeline refines the sequential machine

`Refines`: over a run, `core` executes the instructions of the sequential machine in its
order, each once, with the same successor, trap, `mret` and CSR file after it; its register
writes and memory requests are those of that machine, those still in the pipeline counted in.

    core_refines_sequential   no interrupt taken: the machine runs straight from RESET_PC
    interrupt_precise         an interrupt splits the run between two instructions
-/

namespace Rv32i

open Sync

/-! ## Load responses -/

/-- `ld` gives the loads from the `n`-th on the values `vs`, in order. -/
def SuppliesFrom (n : Nat) (ld : Nat → Word) (vs : List Word) : Prop :=
  ∀ k v, vs[k]? = some v → ld (n + k) = v

/-- `ld` gives the loads the values `vs`, in order, and later ones any value. -/
def Supplies (ld : Nat → Word) (vs : List Word) : Prop := SuppliesFrom 0 ld vs

/-- A run with one load, which gets `w`. -/
theorem Supplies.single {w : Word} {vs : List Word} (h : vs = [w]) : Supplies (fun _ => w) vs := by
  subst h
  rintro (- | k) v hk <;> simp_all

/-- A load in MEM takes the value the sequential machine is given, whatever came before. -/
theorem SuppliesFrom.responds {P : Params} {ld : Nat → Word} {t : Tracked} {is : List CoreIn}
    (h : SuppliesFrom t.loads ld (outputs (Tracked.step P) Tracked.responses t is)) :
    Always (Tracked.step P) (Responds ld) t is := by
  induction is generalizing t with
  | nil => simp
  | cons i is ih =>
    rw [outputs_cons] at h
    rw [always_cons]
    by_cases hr : i.busStall = false ∧ t.core.exMem.memRe = true
    · have hout : t.responses i = [i.memRdata] := by simp [Tracked.responses, hr.1, hr.2]
      have hloads : (t.step P i).loads = t.loads + 1 := by simp [Tracked.step, hr.1, hr.2]
      rw [hout] at h
      refine ⟨fun _ _ => (h 0 _ rfl).symm, ih fun k v hk => ?_⟩
      have := h (k + 1) v hk
      rwa [hloads, Nat.add_right_comm]
    · have hout : t.responses i = [] := by
        simp only [Tracked.responses, ite_eq_right_iff, Bool.and_eq_true, Bool.not_eq_true']
        exact fun e => absurd e hr
      have hloads : (t.step P i).loads = t.loads := by
        simp only [Tracked.step, ite_eq_right_iff, Bool.and_eq_true, Bool.not_eq_true']
        exact fun e => absurd e hr
      rw [hout] at h
      exact ⟨fun h1 h2 => absurd ⟨h1, h2⟩ hr, ih (hloads.symm ▸ h)⟩

/-! ## Outputs, cycle by cycle -/

/-- The register write in MEM, as it will be reported from WB. -/
def Tracked.memPending (ld : Nat → Word) (t : Tracked) : List Retired :=
  if t.core.exMem.regWe && t.core.exMem.rdAddr != 0#5 then
    [{ pc := t.core.exMem.pc, instr := t.core.exMem.instr
       rd := t.core.exMem.rdAddr, wdata := t.memData ld }]
  else []

/-- The register writes still in the pipeline, in program order. -/
def Tracked.writesPending (ld : Nat → Word) (t : Tracked) : List Retired :=
  t.wbPending ++ t.memPending ld

section Cycle

variable {P : Params} {ld : Nat → Word} {t : Tracked} {q : Machine} {i : CoreIn}

theorem Rel.executed (h : Rel P ld t q) :
    t.executed i = outputs (Machine.step P ld) (Machine.executed P) q (t.schedule i) := by
  unfold Tracked.executed Tracked.leavesEx Tracked.schedule
  cases hs : i.busStall with
  | true => simp
  | false =>
    cases hi : t.core.takeInterrupt i with
    | true => simp [Machine.executed]
    | false =>
      cases hv : t.exValid with
      | false => simp
      | true =>
        have hc := (h.captured hv).idEx
        obtain ⟨hpc, hinstr⟩ := (h.captured hv).pc_instr
        have hmret : t.core.idEx.isMret = (q.dec P).isMret := congrArg IdEx.isMret hc
        simp [Machine.executed, Machine.instr, hpc, hinstr, hmret, h.syncTrap hv, h.trapCause hv hi,
          h.redirect hv hi, h.nextCsr hv hs hi]

/-- The request that an unstalled edge moves into MEM is the sequential machine's. -/
theorem Rel.memReqs (h : Rel P ld t q) (hs : i.busStall = false) :
    (t.step P i).memReqPending =
      outputs (Machine.step P ld) (Machine.memReqs P) q (t.schedule i) := by
  have hm : (t.step P i).core.exMem = t.core.nextExMem i true := rfl
  unfold Tracked.memReqPending Tracked.schedule Core.memReq
  rw [hm, hs]
  cases hi : t.core.takeInterrupt i with
  | true =>
    obtain ⟨-, hwe, hre⟩ := Core.nextExMem_interrupt hs hi
    simp [Machine.memReqs, hwe, hre]
  | false =>
    cases hv : t.exValid with
    | false =>
      have hidle := h.idle hv
      simp [Core.nextExMem, Core.memWeFinal, hs, hidle.memRe, hidle.memWe]
    | true =>
      rw [h.nextExMem hv hs hi]
      cases hq : q.syncTrap P <;> simp [Machine.memReqs, hq]

/-- The register write that an unstalled edge moves into MEM is the sequential machine's. -/
theorem Rel.memPending (h : Rel P ld t q) (hs : i.busStall = false) :
    (t.step P i).memPending ld =
      outputs (Machine.step P ld) (Machine.retired P ld) q (t.schedule i) := by
  have hm : (t.step P i).core.exMem = t.core.nextExMem i true := rfl
  unfold Tracked.memPending Tracked.schedule
  rw [hm, hs]
  cases hi : t.core.takeInterrupt i with
  | true => simp [Machine.retired, (Core.nextExMem_interrupt hs hi).1]
  | false =>
    cases hv : t.exValid with
    | false =>
      have hidle := h.idle hv
      cases hwe : t.core.idEx.regWe with
      | false => simp [Core.nextExMem, Core.regWeFinal, hs, hwe]
      | true => simp [Core.nextExMem, hs, (hidle.regWe hwe).1]
    | true =>
      rw [h.memData_exec hv hs hi, h.nextExMem hv hs hi]
      simp [Machine.retired]

/-- What was in MEM is in WB after an unstalled edge. -/
theorem BackRel.wbPending (h : BackRel ld t q) (hok : Responds ld t i) (hs : i.busStall = false) :
    (t.step P i).wbPending = t.memPending ld := by
  have hw : (t.step P i).core.memWb = t.core.nextMemWb i true := rfl
  unfold Tracked.wbPending Tracked.memPending Core.traceWe Core.traceWdata Core.tracePc
    Core.traceInstr Core.traceRd
  rw [hw]
  cases hwe : t.core.exMem.regWe with
  | false => simp [Core.nextMemWb, hs, hwe]
  | true =>
    simp only [Core.nextMemWb, hs, Bool.not_true, Bool.false_eq_true, if_false, hwe, Bool.true_and]
    split_ifs
    · by_cases hsel : t.core.exMem.wbSel = 1#2
      · rw [Tracked.memData, if_pos hsel, ← hok hs (h.memLoad hwe hsel)]
        simp [MemWb.wbData, hsel]
      · rw [Tracked.memData, if_neg hsel]
        simp [MemWb.wbData, ExMem.wbValue, hsel]
    · rfl

end Cycle

/-! ## Runs -/

/-- Over the run `is` from `t`, the pipeline shows what the sequential machine shows from `q`
over the steps that the run schedules, up to what is in the pipeline before and after. -/
structure Refines (P : Params) (ld : Nat → Word) (t : Tracked) (q : Machine) (is : List CoreIn)
    (evs : List Event) : Prop where
  executed : outputs (Tracked.step P) Tracked.executed t is =
    outputs (Machine.step P ld) (Machine.executed P) q evs
  memReqs : outputs (Tracked.step P) Tracked.memReqs t is ++
      (run (Tracked.step P) t is).memReqPending =
    t.memReqPending ++ outputs (Machine.step P ld) (Machine.memReqs P) q evs
  retired : outputs (Tracked.step P) Tracked.retired t is ++
      (run (Tracked.step P) t is).writesPending ld =
    t.writesPending ld ++ outputs (Machine.step P ld) (Machine.retired P ld) q evs
  csr : (run (Tracked.step P) t is).core.csr = (run (Machine.step P ld) q evs).csr
  regs : (run (Tracked.step P) t is).archRegs ld = (run (Machine.step P ld) q evs).regs

theorem Rel.refines {P : Params} {ld : Nat → Word} {t : Tracked} {q : Machine} {is : List CoreIn}
    (h : Rel P ld t q) (hok : Always (Tracked.step P) (Responds ld) t is) :
    Refines P ld t q is (outputs (Tracked.step P) Tracked.schedule t is) := by
  have hsim := Tracked.sim P ld
  have hend := hsim.run h hok
  refine ⟨?_, ?_, ?_, hend.csr, hend.regs⟩
  · have hp := hsim.outputs_pending Tracked.executed (Machine.executed P) (fun _ => [])
      (fun t q i h _ => by simpa using h.executed) h hok
    simpa using hp
  · refine hsim.outputs_pending _ _ Tracked.memReqPending (fun t q i h _ => ?_) h hok
    cases hs : i.busStall with
    | true =>
      simp [Tracked.memReqs, Tracked.schedule, Tracked.step_stall, Tracked.memReqPending, Core.memReq,
        hs]
    | false => simp [Tracked.memReqs, h.memReqs hs, hs]
  · refine hsim.outputs_pending _ _ (Tracked.writesPending ld) (fun t q i h hok => ?_) h hok
    unfold Tracked.writesPending
    cases hs : i.busStall with
    | true =>
      rw [Tracked.step_stall hs]
      simp [Tracked.retired, Tracked.schedule, hs]
      rfl
    | false => simp [Tracked.retired, h.wbPending hok hs, h.memPending hs, hs]

/-- The `timer_irq` level an instruction saw in its last EX cycle. -/
def Tracked.timerSeen (t : Tracked) (i : CoreIn) : List Bool :=
  if t.leavesEx i then [i.timerIrq] else []

/-- With no interrupt taken, each step of the sequential machine is an instruction leaving EX. -/
theorem schedule_eq_exec {P : Params} {t : Tracked} {is : List CoreIn}
    (h : Always (Tracked.step P) (fun t i => t.core.takeInterrupt i = false) t is) :
    outputs (Tracked.step P) Tracked.schedule t is =
      (outputs (Tracked.step P) Tracked.timerSeen t is).map .exec := by
  induction is generalizing t with
  | nil => rfl
  | cons i is ih =>
    rw [always_cons] at h
    rw [outputs_cons, outputs_cons, List.map_append, ih h.2]
    congr 1
    unfold Tracked.schedule Tracked.timerSeen Tracked.leavesEx
    rw [h.1]
    cases i.busStall <;> cases t.exValid <;> rfl

/-- **Refinement.**  From reset, with no interrupt taken, the instructions that leave EX are
those the sequential machine executes from `RESET_PC`, with the same effects. -/
theorem core_refines_sequential (P : Params) (s : Core) (i₀ : CoreIn) (is : List CoreIn)
    (ld : Nat → Word)
    (hld : Supplies ld (outputs (Tracked.step P) Tracked.responses (.reset P s i₀) is))
    (hni : Always (Tracked.step P) (fun t i => t.core.takeInterrupt i = false) (.reset P s i₀) is) :
    Refines P ld (.reset P s i₀) (.reset P s) is
      ((outputs (Tracked.step P) Tracked.timerSeen (.reset P s i₀) is).map .exec) := by
  rw [← schedule_eq_exec hni]
  exact (Rel.reset P ld s i₀).refines (SuppliesFrom.responds hld)

/-- `addi x1, x0, 8; lw x2, 0(x1); add x3, x2, x1` -/
def loadProgram : Params := .ofWords [0x00800093, 0x0000A103, 0x001101B3]

/-- The load is stalled for two cycles and then gets 5. -/
def loadCycles : List CoreIn :=
  [false, false, false, false, true, true, false, false].map (⟨·, 5, false⟩)

theorem loadProgram_responses :
    Supplies (fun _ => 5)
      (outputs (Tracked.step loadProgram) Tracked.responses (.reset loadProgram default default)
        loadCycles) :=
  .single (by decide +kernel)

theorem core_refines_sequential_load :
    Refines loadProgram (fun _ => 5) (.reset loadProgram default default)
      (.reset loadProgram default) loadCycles [.exec false, .exec false, .exec false] :=
  core_refines_sequential loadProgram default default loadCycles (fun _ => 5)
    loadProgram_responses (by decide +kernel)

end Rv32i
