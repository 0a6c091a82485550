import Rv32iCore.Lib.Sync
import Rv32iCore.Core.Pipeline

/-!
# The sequential machine

What `core` is for: a machine that executes one instruction per step, fetched at its `pc`
from the same `imem`, with the decoder, immediate generator, ALU, branch comparator and CSR
file of the source, and with no pipeline.  A step is an `Event`: the instruction at `pc` is
executed, with the level of `timer_irq` it sees, or a timer interrupt is taken before it.

The memory behind the bus is not part of the core, so the values loads return come from
outside: the `k`-th load executed gets `ld k`.
-/

namespace Rv32i

/-- The architectural state between two instructions. -/
structure Machine where
  pc : Word
  regs : BitVec 5 → Word
  csr : Csr
  /-- loads executed so far -/
  loads : Nat

inductive Event where
  /-- the instruction at `pc` runs and sees this `timer_irq` -/
  | exec (timerIrq : Bool)
  /-- a timer interrupt is taken instead -/
  | interrupt

/-- One executed instruction: where it was, where control goes next, the cause if it
trapped, whether it returned from a trap, and the CSR file after it. -/
structure Executed where
  pc : Word
  instr : Word
  nextPc : Word
  trapCause : Option Word
  isMret : Bool
  csr : Csr

/-- One register write, with the instruction that made it. -/
structure Retired where
  pc : Word
  instr : Word
  rd : BitVec 5
  wdata : Word
deriving DecidableEq

/-- A register as an instruction reads it: x0 is zero. -/
def readReg (regs : BitVec 5 → Word) (rs : BitVec 5) : Word := if rs = 0#5 then 0 else regs rs

namespace Machine

variable (P : Params) (ld : Nat → Word) (q : Machine) (timerIrq : Bool)

def instr : Word := P.fetch q.pc

def dec : Decoded := decoder (q.instr P)

def imm : Word := immgen (q.instr P)

def rs1 : Word := readReg q.regs (q.dec P).rs1Addr

def rs2 : Word := readReg q.regs (q.dec P).rs2Addr

def aluResult : Word :=
  alu (if (q.dec P).aluAZero then 0 else if (q.dec P).aluAPc then q.pc else q.rs1 P)
    (if (q.dec P).aluSrc then q.imm P else q.rs2 P) (q.dec P).aluOp

def csrAccess : CsrAccess where
  csrAddr := (q.instr P).extractLsb 31 20
  csrWdata := if (q.dec P).csrUseImm then 0#27 ++ (q.dec P).rs1Addr else q.rs1 P
  csrOp := (q.dec P).csrOp
  csrRe := (q.dec P).csrRe
  csrWe := (q.dec P).csrWe

def syncTrap : Bool := (q.dec P).illegal || (q.csrAccess P).csrIllegal || (q.dec P).isEcall

def trapCause : Word := if (q.dec P).isEcall then (if q.csr.privM then 11 else 8) else 2

/-- Where the instruction at `pc` sends control. -/
def nextPc : Word :=
  if q.syncTrap P then q.csr.mtvec
  else if (q.dec P).isMret then q.csr.mepc
  else if (q.dec P).isJalr then q.aluResult P &&& ~~~1
  else if (q.dec P).isJal || ((q.dec P).isBranch && branchCmp (q.rs1 P) (q.rs2 P) (q.dec P).funct3) then
    q.pc + q.imm P
  else q.pc + 4

/-- The value written to `rd`. -/
def wbData : Word :=
  if (q.dec P).wbSel = 0b11#2 then q.csr.csrRdata timerIrq (q.csrAccess P).csrAddr
  else if (q.dec P).wbSel = 0b10#2 then q.pc + 4
  else if (q.dec P).wbSel = 0b01#2 then ld q.loads
  else q.aluResult P

def csrAfter : Csr :=
  q.csr.update timerIrq (q.csrAccess P) (q.syncTrap P) q.pc (q.trapCause P) (q.dec P).isMret

/-- The instruction at `pc` is executed; a trapping one has no effect but trap entry. -/
def exec : Machine where
  pc := q.nextPc P
  regs :=
    regfileWrite q.regs ((q.dec P).regWe && !q.syncTrap P) (q.dec P).rdAddr (q.wbData P ld timerIrq)
  csr := q.csrAfter P timerIrq
  loads := q.loads + ((q.dec P).memRe && !q.syncTrap P).toNat

/-- A timer interrupt is taken before the instruction at `pc`. -/
def interrupt : Machine :=
  { q with pc := q.csr.mtvec, csr := q.csr.trapEntry q.pc 0x80000007 }

def step : Machine → Event → Machine
  | q, .exec timerIrq => q.exec P ld timerIrq
  | q, .interrupt => q.interrupt

/-! ## Observers -/

def executed : Machine → Event → List Executed
  | q, .exec timerIrq =>
    [{ pc := q.pc, instr := q.instr P, nextPc := q.nextPc P
       trapCause := if q.syncTrap P then some (q.trapCause P) else none
       isMret := (q.dec P).isMret && !q.syncTrap P
       csr := q.csrAfter P timerIrq }]
  | _, .interrupt => []

def memReqs : Machine → Event → List MemReq
  | q, .exec _ =>
    if ((q.dec P).memRe || (q.dec P).memWe) && !q.syncTrap P then
      [{ addr := q.aluResult P, wdata := q.rs2 P, funct3 := (q.dec P).funct3
         re := (q.dec P).memRe, we := (q.dec P).memWe }]
    else []
  | _, .interrupt => []

/-- Register writes, those to x0 apart. -/
def retired : Machine → Event → List Retired
  | q, .exec timerIrq =>
    if (q.dec P).regWe && !q.syncTrap P && (q.dec P).rdAddr != 0#5 then
      [{ pc := q.pc, instr := q.instr P, rd := (q.dec P).rdAddr, wdata := q.wbData P ld timerIrq }]
    else []
  | _, .interrupt => []

end Machine

end Rv32i
