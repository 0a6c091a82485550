import Rv32iCore.Core.IsaRefinement
import Rv32iCore.Soc.Devices

/-!
# `soc` is an RV32I machine

From the clocked system to the instruction set: a program of words that conform runs on `soc` as
the ISA says, instruction after instruction, with the memory behind the bus and the timer's
interrupts between them.

    soc_executes_isa     executed instructions, accesses, register writes, CSRs, memory
-/

namespace Rv32i

open Isa hiding Word
open Sync

/-- Over the run `is` from `t`, the system shows what the machine of the ISA shows from `q` over the
steps `evs`, up to what is in the pipeline. -/
structure SocExecutes (P : Params) (M : MemMap) (t : SocRun) (q : MemMachine) (is : List SocIn)
    (evs : List Event) : Prop where
  executed : outputs (SocRun.step P) SocRun.executed t is =
    outputs (IsaMachine.step P M) (IsaMachine.executed P M) q evs
  accesses : List.Forall₂ (fun m a => m.Performs (some a))
    ((outputs (SocRun.step P) SocRun.completed t is).map Prod.fst ++
      (run (SocRun.step P) t is).cpu.core.memReqPending)
    (outputs (IsaMachine.step P M) (IsaMachine.accesses P) q evs)
  retired : outputs (SocRun.step P) SocRun.retired t is ++
      (run (SocRun.step P) t is).cpu.core.writesPending ((run (SocRun.step P) t is).cpu.ld M) =
    outputs (IsaMachine.step P M) (IsaMachine.retired P M) q evs
  csr : (run (SocRun.step P) t is).soc.uCore.csr = (run (IsaMachine.step P M) q evs).cpu.csr
  regs : (run (SocRun.step P) t is).cpu.core.archRegs ((run (SocRun.step P) t is).cpu.ld M) =
    (run (IsaMachine.step P M) q evs).cpu.regs
  bytes : (run (SocRun.step P) t is).cpu.done = (run (IsaMachine.step P M) q evs).bytes

/-- Where the two machines agree on every step, so do their outputs. -/
theorem forall₂_flatMap {α β γ : Type} {r : β → γ → Prop} {f : α → List β} {g : α → List γ}
    {xs : List α} (h : ∀ x ∈ xs, List.Forall₂ r (f x) (g x)) :
    List.Forall₂ r (xs.flatMap f) (xs.flatMap g) := by
  induction xs with
  | nil => exact .nil
  | cons x xs ih =>
    rw [List.forall_mem_cons] at h
    rw [List.flatMap_cons, List.flatMap_cons]
    exact List.rel_append h.1 (ih h.2)

theorem SocRefines.executes {P : Params} {M : MemMap} {t : SocRun} {q : MemMachine} {is : List SocIn}
    {evs : List Event} (h : SocRefines P M t q is evs) (hreqs : t.cpu.core.memReqPending = [])
    (hwrites : t.cpu.core.writesPending (t.cpu.ld M) = [])
    (hisa : Always (MemMachine.step P M) (IsaStep P M) q evs) : SocExecutes P M t q is evs := by
  obtain ⟨hcycles, hrun⟩ := cycles_congr (hisa.mono fun _ _ h => h.step)
  refine ⟨?_, ?_, ?_, ?_, ?_, ?_⟩
  · rw [h.executed, outputs_congr (hisa.mono fun _ _ h => h.executed), outputs, hcycles]
    rfl
  · rw [h.accesses, hreqs, List.nil_append, outputs, outputs, ← hcycles]
    exact forall₂_flatMap fun c hc => (hisa c hc).accesses
  · rw [h.retired, hwrites, List.nil_append, outputs_congr (hisa.mono fun _ _ h => h.retired), outputs,
      hcycles]
    rfl
  · rw [h.csr, hrun]
  · rw [h.regs, hrun]
  · rw [h.bytes, hrun]

/-- **The system executes RV32I.**  If every instruction that is executed conforms, the run of `soc`
from reset is that of the machine of the ISA, which like `core` checks neither the alignment of jump
targets nor the mode of what uses a CSR or `mret`. -/
theorem soc_executes_isa (P : Params) (s : Soc) (is : List SocIn)
    (h : ∀ x ∈ outputs (SocRun.step P) SocRun.executed (.reset P s) is, conforms x.instr = true) :
    SocExecutes P (SocRun.memMap P s is) (.reset P s)
      ⟨.reset P s.uCore, (SocRun.reset P s).bus.bytes⟩ is
      (outputs (SocRun.step P) SocRun.schedule (.reset P s) is) := by
  let M := SocRun.memMap P s is
  have hcore : CoreMem.Rel P M (SocRun.reset P s).cpu
      ⟨.reset P s.uCore, (SocRun.reset P s).bus.bytes⟩ := CoreMem.Rel.reset P M s.uCore s.coreIn _
  have hcycle : ∀ (t : SocRun) (q : MemMachine) (i : SocIn), CoreMem.Rel P M t.cpu q →
      (∀ x ∈ t.executed i, conforms x.instr = true) →
      Always (MemMachine.step P M) (IsaStep P M) q (t.schedule i) := by
    intro t q i hrel hc
    have hstep : ∀ e ∈ t.schedule i, IsaStep P M q e := hrel.isa hc
    rcases t.cpu.core.schedule_cases t.soc.coreIn with he | ⟨e, he⟩
    · rw [SocRun.schedule, he]
      exact always_nil _ _ _
    · rw [SocRun.schedule, he] at hstep ⊢
      rw [always_cons]
      exact ⟨hstep e (List.mem_singleton_self e), always_nil _ _ _⟩
  have hisa := (SocRun.sim P M).always hcycle hcore (SocRun.memMap_serves P s is)
    (always_of_outputs h)
  exact (SocRun.refines P s is).executes rfl rfl hisa

/-- `lui x1, 0x10000; sw x2, 0(x1); csrr x3, mhartid; ecall` -/
def trapProgram : Params := .ofWords [0x100000B7, 0x0020A023, 0xF14021F3, 0x00000073]

/-- The trap goes to address 0, where `mtvec` points. -/
theorem soc_executes_isa_trap :
    let is : List SocIn := List.replicate 20 default
    let executed := outputs (SocRun.step trapProgram) SocRun.executed (.reset trapProgram .blank) is
    executed.map Executed.pc = [0, 4, 8, 12, 0, 4] ∧
      executed = outputs
        (IsaMachine.step trapProgram (SocRun.memMap trapProgram .blank is))
        (IsaMachine.executed trapProgram (SocRun.memMap trapProgram .blank is))
        ⟨.reset trapProgram Soc.blank.uCore, (SocRun.reset trapProgram .blank).bus.bytes⟩
        (outputs (SocRun.step trapProgram) SocRun.schedule (.reset trapProgram .blank) is) := by
  intro is executed
  exact ⟨by decide +kernel, (soc_executes_isa trapProgram .blank is (by decide +kernel)).executed⟩

end Rv32i
