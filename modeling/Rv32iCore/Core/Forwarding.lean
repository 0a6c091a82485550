import Rv32iCore.Core.Refinement

/-!
# Forwarded operands

The operand muxes of EX pick one of four values: what MEM is about to write, what WB is
writing, and the value captured in ID, which came from the register file or from its bypass.
Whichever they pick is the register as the instructions before the one in EX leave it.

    forwarded_operands_architectural    fwd_rs1 and fwd_rs2, in every reachable cycle
-/

namespace Rv32i

open Sync

/-! ## Where a forwarded value comes from -/

/-- A value that MEM supplies is not a load's. -/
theorem BackRel.fwdMem_not_load {ld : Nat → Word} {t : Tracked} {q : Machine} {rs : BitVec 5}
    (h : BackRel ld t q) (hl : ¬ LoadHazard t.core rs) (hf : t.core.fwdMem rs = true) :
    t.core.exMem.memRe = false ∧ t.core.exMem.wbSel ≠ 1#2 := by
  obtain ⟨hwe, hrd, hrs⟩ := (Core.fwdMem_iff t.core rs).1 hf
  have hre : t.core.exMem.memRe ≠ true := fun hre => hl ⟨hre, hrd, hrs.symm⟩
  exact ⟨by simpa using hre, fun hsel => hre (h.memLoad hwe hsel)⟩

/-! ## Operands -/

/-- EX holds the next instruction of `q`, and reads the registers of `q`: `rs1` and `rs2` are
the fields of that instruction, and neither operand is the address of a load in MEM. -/
structure OperandsArchitectural (P : Params) (t : Tracked) (q : Machine) : Prop where
  pc : t.core.idEx.pc = q.pc
  instr : t.core.idEx.instr = P.fetch q.pc
  rs1Addr : t.core.idEx.rs1Addr = t.core.idEx.instr.extractLsb 19 15
  rs2Addr : t.core.idEx.rs2Addr = t.core.idEx.instr.extractLsb 24 20
  fwdRs1 : t.core.fwdRs1 = readReg q.regs (t.core.idEx.instr.extractLsb 19 15)
  fwdRs2 : t.core.fwdRs2 = readReg q.regs (t.core.idEx.instr.extractLsb 24 20)
  noLoad1 : t.core.fwdMem t.core.idEx.rs1Addr = true →
    t.core.exMem.memRe = false ∧ t.core.exMem.wbSel ≠ 1#2
  noLoad2 : t.core.fwdMem t.core.idEx.rs2Addr = true →
    t.core.exMem.memRe = false ∧ t.core.exMem.wbSel ≠ 1#2

theorem Rel.operands {P : Params} {ld : Nat → Word} {t : Tracked} {q : Machine} (h : Rel P ld t q)
    (hv : t.exValid = true) : OperandsArchitectural P t q := by
  have hc := h.captured hv
  obtain ⟨hpc, hinstr⟩ := hc.pc_instr
  -- the register numbers in ID/EX are the decoder's, so the fields of the word in EX
  have hrs1 : t.core.idEx.rs1Addr = t.core.idEx.instr.extractLsb 19 15 := by
    rw [hc.idEx]
    exact (decoder_rsAddr (P.fetch q.pc)).1
  have hrs2 : t.core.idEx.rs2Addr = t.core.idEx.instr.extractLsb 24 20 := by
    rw [hc.idEx]
    exact (decoder_rsAddr (P.fetch q.pc)).2
  constructor
  · exact hpc
  · exact hinstr
  · exact hrs1
  · exact hrs2
  · rw [← hrs1]
    exact h.fwd hc.rs1 hc.noHazard1
  · rw [← hrs2]
    exact h.fwd hc.rs2 hc.noHazard2
  · exact h.fwdMem_not_load hc.noHazard1
  · exact h.fwdMem_not_load hc.noHazard2

/-! ## Runs -/

/-- **Forwarding.**  After any run from reset, with any stalls and interrupts, let `q` be the
sequential machine after the instructions that have left EX and the interrupts taken.  If EX
holds a program instruction, its operands are the registers of `q`. -/
theorem forwarded_operands_architectural (P : Params) (s : Core) (i₀ : CoreIn) (is : List CoreIn)
    (ld : Nat → Word)
    (hld : Supplies ld (outputs (Tracked.step P) Tracked.responses (.reset P s i₀) is)) :
    let evs := outputs (Tracked.step P) Tracked.schedule (.reset P s i₀) is
    let t := run (Tracked.step P) (.reset P s i₀) is
    let q := run (Machine.step P ld) (.reset P s) evs
    outputs (Tracked.step P) Tracked.executed (.reset P s i₀) is =
        outputs (Machine.step P ld) (Machine.executed P) (.reset P s) evs ∧
      (t.exValid = true → OperandsArchitectural P t q) := by
  have hreset := Rel.reset P ld s i₀
  have hok := SuppliesFrom.responds (t := .reset P s i₀) hld
  constructor
  · exact (hreset.refines hok).executed
  · exact ((Tracked.sim P ld).run hreset hok).operands

/-- `loadProgram` with the load stalled for two cycles, up to where `add x3, x2, x1` is in EX:
`x2` comes from WB, which has the load's 5, and `x1` from ID. -/
theorem forwarded_operands_load :
    let t := run (Tracked.step loadProgram) (.reset loadProgram default default) (loadCycles.take 7)
    let q := run (Machine.step loadProgram fun _ => 5) (.reset loadProgram default)
      (outputs (Tracked.step loadProgram) Tracked.schedule (.reset loadProgram default default)
        (loadCycles.take 7))
    OperandsArchitectural loadProgram t q ∧ t.core.fwdRs1 = 5 ∧ t.core.fwdRs2 = 8 :=
  ⟨(forwarded_operands_architectural loadProgram default default (loadCycles.take 7) (fun _ => 5)
    (.single (by decide +kernel))).2 (by decide +kernel), by decide +kernel⟩

end Rv32i
