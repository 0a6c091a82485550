import Rv32iCore.Core.Exceptions
import Rv32iCore.Spec.IsaDecode
import Rv32iCore.Spec.MemMachine

/-!
# The machine of the ISA

A step reads the word at `pc` and does what the ISA says of its instruction, with nothing of the
decoder or the units of `core`: the state is that of `MemMachine`, the effect that of
`Isa.execute`, which does not check the target of a jump.  A word without a reading is illegal;
`mret` is not of the user-level ISA and stands apart.  The CSRs are those of `csr`, which also enter
and leave a trap (`exec_trap`, `exec_mret`); no mode is refused a CSR or `mret`.
-/

namespace Isa

/-- The first register that an instruction reads, x0 if it reads none. -/
def Instr.rs1 : Instr → Reg
  | .jalr _ rs1 _ | .branch _ rs1 _ _ | .load _ _ rs1 _ | .store _ rs1 _ _ | .opImm _ _ rs1 _
  | .shiftImm _ _ rs1 _ | .op _ _ rs1 _ | .csr _ _ (.reg rs1) _ => rs1
  | _ => 0

/-- The second one. -/
def Instr.rs2 : Instr → Reg
  | .branch _ _ rs2 _ | .store _ _ rs2 _ | .op _ _ _ rs2 => rs2
  | _ => 0

/-- An effect that waits for a value loads it. -/
def Effect.Loads (e : Effect) : Prop :=
  ∀ rd, e.rd = some (rd, .loaded) → ∃ op addr, e.access = some (.load op addr)

theorem execute_loads (pc rs1 rs2 : Word) (csrs : BitVec 12 → Word) (i : Instr) :
    (execute pc rs1 rs2 csrs i).Loads := by
  intro rd h
  cases i with
  | load op rd rs1 imm => exact ⟨op, _, rfl⟩
  | _ => simp [execute, writeRd, Effect.nothing] at h

end Isa

namespace Rv32i

open Isa hiding Word

def mretWord : Word := 0x30200073

namespace IsaMachine

variable (P : Params) (M : MemMap) (s : MemMachine) (timerIrq : Bool)

def instr : Word := P.fetch s.cpu.pc

/-- The cause of the trap that the instruction raises, if it raises one. -/
def trapCause : Option Word :=
  match decode (instr P s) with
  | some .ecall => some (if s.cpu.csr.privM then 11 else 8)
  | some .ebreak => some 3
  | some (.csr _ _ _ csr) => if csrUnknown csr then some 2 else none
  | some _ => none
  | none => if instr P s = mretWord then none else some 2

/-- The effect of the instruction. -/
def effect : Effect :=
  match decode (instr P s) with
  | some i =>
    execute s.cpu.pc (readReg s.cpu.regs i.rs1) (readReg s.cpu.regs i.rs2)
      (s.cpu.csr.csrRdata timerIrq) i
  | none => .nothing

/-- The value that it loads. -/
def loaded (e : Effect) : Word :=
  match e.access with
  | some (.load op addr) => op.value (M.seen s.cpu.loads s.bytes) addr
  | _ => 0

/-- The memory that it leaves. -/
def stored (e : Effect) : Word → BitVec 8 :=
  match e.access with
  | some (.store size addr data) => Bytes.storeBytes s.bytes addr size data
  | _ => s.bytes

def loads (e : Effect) : Nat :=
  match e.access with
  | some (.load _ _) => s.cpu.loads + 1
  | _ => s.cpu.loads

/-- The state that it leaves. -/
def apply (e : Effect) : MemMachine where
  cpu :=
    { pc := e.redirect.getD (s.cpu.pc + 4)
      regs := e.rd.elim s.cpu.regs fun (rd, v) =>
        Function.update s.cpu.regs rd (v.get (loaded M s e))
      csr := e.csr.elim s.cpu.csr fun (csr, v) => s.cpu.csr.write csr v
      loads := loads s e }
  bytes := stored s e

def exec : MemMachine :=
  match trapCause P s with
  | some cause =>
    { s with cpu := { s.cpu with pc := s.cpu.csr.mtvec, csr := s.cpu.csr.trapEntry s.cpu.pc cause } }
  | none =>
    if instr P s = mretWord then
      { s with cpu := { s.cpu with pc := s.cpu.csr.mepc, csr := s.cpu.csr.mret } }
    else apply M s (effect P s timerIrq)

def step : MemMachine → Event → MemMachine
  | s, .exec timerIrq => exec P M s timerIrq
  | s, .interrupt => { s with cpu := s.cpu.interrupt }

/-- A trap: control at `mtvec`, the PC and the cause saved, `MIE` and the mode stacked. -/
theorem exec_trap {cause : Word} (h : trapCause P s = some cause) :
    exec P M s timerIrq =
      { s with cpu := { s.cpu with
        pc := s.cpu.csr.mtvec
        csr := { s.cpu.csr with
          mepc := s.cpu.pc
          mcause := cause
          mstatusMpie := s.cpu.csr.mstatusMie
          mstatusMie := false
          mstatusMpp := if s.cpu.csr.privM then 0b11 else 0b00
          privM := true } } } := by
  unfold exec
  rw [h]
  show MemMachine.mk _ _ = _
  rw [Csr.trapEntry_eq]

/-- `mret`: control at `mepc`, `MIE` and the mode taken back. -/
theorem exec_mret (h : trapCause P s = none) (hm : instr P s = mretWord) :
    exec P M s timerIrq =
      { s with cpu := { s.cpu with
        pc := s.cpu.csr.mepc
        csr := { s.cpu.csr with
          mstatusMie := s.cpu.csr.mstatusMpie
          mstatusMpie := true
          mstatusMpp := 0b00
          privM := s.cpu.csr.mstatusMpp.getLsbD 1 } } } := by
  unfold exec
  rw [h]
  exact (if_pos hm).trans (by rw [Csr.mret_eq])

/-! ## Observers -/

def executed : MemMachine → Event → List Executed
  | s, .exec timerIrq =>
    [{ pc := s.cpu.pc, instr := instr P s, nextPc := (exec P M s timerIrq).cpu.pc
       trapCause := trapCause P s, isMret := instr P s == mretWord
       csr := (exec P M s timerIrq).cpu.csr }]
  | _, .interrupt => []

/-- The loads and stores. -/
def accesses : MemMachine → Event → List Access
  | s, .exec timerIrq => if (trapCause P s).isSome then [] else (effect P s timerIrq).access.toList
  | _, .interrupt => []

def retired : MemMachine → Event → List Retired
  | s, .exec timerIrq =>
    if (trapCause P s).isSome then []
    else (effect P s timerIrq).rd.toList.map fun (rd, v) =>
      { pc := s.cpu.pc, instr := instr P s, rd, wdata := v.get (loaded M s (effect P s timerIrq)) }
  | _, .interrupt => []

end IsaMachine

end Rv32i
