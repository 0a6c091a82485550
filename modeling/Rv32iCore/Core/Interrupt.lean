import Rv32iCore.Core.Refinement

/-!
# Interrupts are precise

Whatever EX holds in the cycle of `take_interrupt`, the interrupt falls between two
instructions of the sequential machine: the saved `mepc` is where the last executed
instruction sent control, everything older completes, nothing younger has happened, and the
next instruction to reach EX is the handler's first.
-/

namespace Rv32i

open Sync

/-! ## The sequential machine with interrupts enabled -/

/-- `MIE` can only be set by an instruction, so with it set the last step was one, and the
machine stands where that instruction sent it. -/
theorem Machine.last_executed {P : Params} {ld : Nat → Word} {q : Machine} {evs : List Event}
    (h0 : q.csr.mstatusMie = false) (h : (run (Machine.step P ld) q evs).csr.mstatusMie = true) :
    ∃ e, (outputs (Machine.step P ld) (Machine.executed P) q evs).getLast? = some e ∧
      (run (Machine.step P ld) q evs).pc = e.nextPc := by
  induction evs using List.reverseRecOn with
  | nil =>
    rw [run_nil, h0] at h
    cases h
  | append_singleton evs ev _ =>
    rw [run_append] at h ⊢
    rw [outputs_append]
    cases ev with
    | exec timerIrq => exact ⟨_, by simp [executed]; rfl, rfl⟩
    | interrupt => exact absurd h (by simp [Machine.step, Machine.interrupt, Csr.trapEntry])

/-! ## From a redirect to the next instruction in EX -/

section Front

variable {P : Params} {ld : Nat → Word} {t : Tracked} {q : Machine} {is : List CoreIn}

/-- While no program instruction leaves EX and no interrupt is taken, the sequential machine
stands still. -/
theorem Rel.run_quiet (h : Rel P ld t q) (hok : Always (Tracked.step P) (Responds ld) t is)
    (hq : Always (Tracked.step P) (fun t i => t.schedule i = []) t is) :
    Rel P ld (run (Tracked.step P) t is) q := by
  have hend := (Tracked.sim P ld).run h hok
  rwa [outputs_eq_nil hq] at hend

/-- No interrupt is taken while `MIE` is clear. -/
theorem Core.takeInterrupt_of_mie {s : Core} {i : CoreIn} (h : s.csr.mstatusMie = false) :
    s.takeInterrupt i = false := by
  simp [takeInterrupt, Csr.interruptPending, h]

/-- With `MIE` clear it stands still until the instruction at its PC is in EX. -/
theorem Rel.run_bubbles (h : Rel P ld t q) (hmie : q.csr.mstatusMie = false)
    (hok : Always (Tracked.step P) (Responds ld) t is)
    (hv : Always (Tracked.step P) (fun t _ => t.exValid = false) t is) :
    Rel P ld (run (Tracked.step P) t is) q := by
  induction is generalizing t with
  | nil => exact h
  | cons i is ih =>
    rw [always_cons] at hok hv
    have hti := Core.takeInterrupt_of_mie (i := i) (h.csr ▸ hmie)
    have hstep := (Tracked.sim P ld).step t q i h hok.1
    have hnil : t.schedule i = [] := by simp [Tracked.schedule, hv.1, hti]
    rw [hnil] at hstep
    exact ih hstep hok.2 hv.2

end Front

/-! ## Precision -/

/-- **Precise interrupts.**  An interrupt is taken in cycle `i` of a run from reset, and the
run goes on with `js`. -/
theorem interrupt_precise (P : Params) (s : Core) (i₀ : CoreIn) (is : List CoreIn) (i : CoreIn)
    (js : List CoreIn) (ld : Nat → Word)
    (hld : Supplies ld
      (outputs (Tracked.step P) Tracked.responses (.reset P s i₀) (is ++ i :: js)))
    (hi : (run (Tracked.step P) (.reset P s i₀) is).core.takeInterrupt i = true) :
    let t₀ := Tracked.reset P s i₀
    let q₀ := Machine.reset P s
    let t := run (Tracked.step P) t₀ is
    let t' := t.step P i
    let older := outputs (Tracked.step P) Tracked.schedule t₀ is
    let younger := outputs (Tracked.step P) Tracked.schedule t' js
    let q := run (Machine.step P ld) q₀ older
    -- `mepc` is the successor of the last instruction that left EX
    (∃ e, (outputs (Tracked.step P) Tracked.executed t₀ is).getLast? = some e ∧
      t'.core.csr.mepc = e.nextPc) ∧
    -- trap entry is the only CSR change, and its cause is the timer interrupt
    t'.core.csr = t.core.csr.trapEntry q.pc 0x80000007 ∧ t'.core.csr.mcause = 0x80000007 ∧
    -- every older instruction has made its request and has written its register, or does so
    -- at the coming edge; nothing younger has
    outputs (Tracked.step P) Tracked.memReqs t₀ (is ++ [i]) =
      outputs (Machine.step P ld) (Machine.memReqs P) q₀ older ∧
    outputs (Tracked.step P) Tracked.retired t₀ (is ++ [i]) ++ t'.wbPending =
      outputs (Machine.step P ld) (Machine.retired P ld) q₀ older ∧
    t'.core.nextRegs = q.regs ∧
    -- the next program instruction to enter EX is the one at `mtvec`
    (Always (Tracked.step P) (fun t _ => t.exValid = false) t' js →
      (run (Tracked.step P) t' js).exValid = true →
      (run (Tracked.step P) t' js).core.idEx.pc = t.core.csr.mtvec ∧
      (run (Tracked.step P) t' js).core.idEx.instr = P.fetch t.core.csr.mtvec) ∧
    -- the whole run is the older instructions, the interrupt, and what follows from `mtvec`
    Refines P ld t₀ q₀ (is ++ i :: js) (older ++ .interrupt :: younger) := by
  intro t₀ q₀ t t' older younger q
  replace hi : t.core.takeInterrupt i = true := hi
  have hok := SuppliesFrom.responds (t := t₀) hld
  have hwhole := (Rel.reset P ld s i₀).refines hok
  rw [always_append, always_cons] at hok
  obtain ⟨hok, hoki, hokj⟩ := hok
  have hrel : Rel P ld t q := (Tracked.sim P ld).run (Rel.reset P ld s i₀) hok
  have hrel' : Rel P ld t' q.interrupt := hrel.step_interrupt hoki hi
  obtain ⟨hs, hmie, -⟩ := Core.takeInterrupt_elim hi
  have hsched : t.schedule i = [.interrupt] := by simp [Tracked.schedule, hs, hi]
  have hqm : q.csr.mstatusMie = true := by rw [← hrel.csr]; exact hmie
  have hcsr : t'.core.csr = t.core.csr.trapEntry q.pc 0x80000007 := by
    rw [hrel'.csr, hrel.csr]
    rfl
  have hpre := (Rel.reset P ld s i₀).refines hok
  obtain ⟨hwe, hme, hre⟩ := Core.nextExMem_interrupt hs hi
  refine ⟨?_, hcsr, by rw [hcsr, Csr.trapEntry_eq], ?_, ?_, hrel.nextRegs hs hoki, ?_, ?_⟩
  · obtain ⟨e, he, hpc⟩ := Machine.last_executed (P := P) (q := q₀) rfl hqm
    refine ⟨e, ?_, ?_⟩
    · rw [hpre.executed]
      exact he
    · rw [hcsr]
      exact hpc
  · rw [outputs_append, outputs_cons, outputs_nil, List.append_nil]
    have hm : t.memReqs i = t.memReqPending := by simp [Tracked.memReqs, hs]
    exact (congrArg _ hm).trans hpre.memReqs
  · rw [outputs_append, outputs_cons, outputs_nil, List.append_nil]
    have hr : t.retired i ++ t'.wbPending = t.writesPending ld := by
      rw [Tracked.retired, hs, hrel.wbPending hoki hs]
      rfl
    rw [List.append_assoc]
    exact (congrArg _ hr).trans hpre.retired
  · intro hv hx
    have hidle := hrel'.run_bubbles (by rfl) hokj hv
    have hmt : q.interrupt.pc = t.core.csr.mtvec := by rw [hrel.csr]; rfl
    exact hmt ▸ (hidle.captured hx).pc_instr
  · have hevs : outputs (Tracked.step P) Tracked.schedule t₀ (is ++ i :: js) =
        older ++ .interrupt :: younger := by
      rw [outputs_append, outputs_cons]
      exact congrArg (fun l => older ++ (l ++ younger)) hsched
    exact hevs ▸ hwhole

/-- `addi x1, x0, 0x80; csrrw x0, mie, x1; csrrsi x0, mstatus, 8; jal x0, 0`, with the handler
at address 0 again. -/
def irqProgram : Params := .ofWords [0x08000093, 0x30409073, 0x30046073, 0x0000006F]

/-- `timer_irq` is high all along. -/
def irqCycle : CoreIn := ⟨false, 0, true⟩

theorem irqProgram_responses :
    Supplies (fun _ => 0) (outputs (Tracked.step irqProgram) Tracked.responses
      (.reset irqProgram default default)
      (List.replicate 5 irqCycle ++ irqCycle :: List.replicate 6 irqCycle)) := by
  have h : outputs (Tracked.step irqProgram) Tracked.responses (.reset irqProgram default default)
      (List.replicate 5 irqCycle ++ irqCycle :: List.replicate 6 irqCycle) = [] := by decide +kernel
  rw [h]
  exact nofun

theorem interrupt_precise_loop :
    let t' := (run (Tracked.step irqProgram) (.reset irqProgram default default)
      (List.replicate 5 irqCycle)).step irqProgram irqCycle
    (∃ e, (outputs (Tracked.step irqProgram) Tracked.executed (.reset irqProgram default default)
        (List.replicate 5 irqCycle)).getLast? = some e ∧ t'.core.csr.mepc = e.nextPc) ∧
      t'.core.csr.mcause = 0x80000007 :=
  have h := interrupt_precise irqProgram default default (List.replicate 5 irqCycle) irqCycle
    (List.replicate 6 irqCycle) (fun _ => 0) irqProgram_responses (by decide +kernel)
  ⟨h.1, h.2.2.1⟩

end Rv32i
