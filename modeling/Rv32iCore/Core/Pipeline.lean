import Mathlib.Logic.Function.Basic
import Rv32iCore.Core.Csr

/-!
# `core`: the five-stage pipeline

The registers of `rtl/core/core.v` (with those of the `imem`, `regfile` and `csr` it
instantiates), its wires as functions of the state and the cycle's inputs, and one clock
edge, `Core.step`: one definition per `always` block, with the source's priority

    reset → bus_stall → flush → load_use → normal capture

The instruction memory never changes, so its contents are a parameter.
-/

namespace Rv32i

/-- The parameters of `core`: `RESET_PC` and the contents of `imem`. -/
structure Params where
  resetPc : Word
  imem : BitVec 14 → Word

/-- A program at address 0, with reset at address 0. -/
def Params.ofWords (words : List Word) : Params where
  resetPc := 0
  imem a := words.getD a.toNat 0

/-- `imem`'s read, `mem[addr[15:2]]`. -/
def Params.fetch (P : Params) (addr : Word) : Word := P.imem (addr.extractLsb 15 2)

/-- The inputs of `core` in one cycle, reset apart. -/
structure CoreIn where
  busStall : Bool
  memRdata : Word
  timerIrq : Bool
deriving Inhabited

structure IdEx where
  pc : Word
  pcPlus4 : Word
  rs1Data : Word
  rs2Data : Word
  imm : Word
  rs1Addr : BitVec 5
  rs2Addr : BitVec 5
  memRe : Bool
  rdAddr : BitVec 5
  funct3 : BitVec 3
  aluOp : BitVec 4
  aluSrc : Bool
  aluAPc : Bool
  aluAZero : Bool
  regWe : Bool
  memWe : Bool
  wbSel : BitVec 2
  isBranch : Bool
  isJal : Bool
  isJalr : Bool
  instr : Word
  illegal : Bool
  isMret : Bool
  isEcall : Bool
  csrOp : BitVec 2
  csrRe : Bool
  csrWe : Bool
  csrUseImm : Bool
deriving Inhabited

structure ExMem where
  aluResult : Word
  rs2Data : Word
  pcPlus4 : Word
  csrRdata : Word
  rdAddr : BitVec 5
  funct3 : BitVec 3
  regWe : Bool
  memWe : Bool
  memRe : Bool
  wbSel : BitVec 2
  pc : Word
  instr : Word
deriving Inhabited

structure MemWb where
  aluResult : Word
  pcPlus4 : Word
  csrRdata : Word
  rdata : Word
  rdAddr : BitVec 5
  regWe : Bool
  wbSel : BitVec 2
  pc : Word
  instr : Word
deriving Inhabited

/-- Every register of `core`. -/
structure Core where
  pc : Word
  ifIdPc : Word
  ifIdValid : Bool
  /-- `imem`'s output register -/
  instr : Word
  idEx : IdEx
  exMem : ExMem
  memWb : MemWb
  /-- `regfile`'s array -/
  regs : BitVec 5 → Word
  csr : Csr
deriving Inhabited

/-- The MEM-stage request on `core`'s memory outputs, `mem_re` and `mem_we` low when there is
none. -/
structure MemReq where
  addr : Word
  wdata : Word
  funct3 : BitVec 3
  re : Bool
  we : Bool
deriving DecidableEq, Inhabited

/-! ## `regfile`, `BYPASS = 1` -/

/-- One read port: x0 reads zero, and a write of the same cycle is bypassed. -/
def regfileRead (regs : BitVec 5 → Word) (rdWe : Bool) (rdAddr : BitVec 5) (rdData : Word)
    (rsAddr : BitVec 5) : Word :=
  if rsAddr = 0#5 then 0
  else if rdWe && rdAddr == rsAddr && rsAddr != 0#5 then rdData
  else regs rsAddr

/-- The write port: x0 is never written. -/
def regfileWrite (regs : BitVec 5 → Word) (rdWe : Bool) (rdAddr : BitVec 5) (rdData : Word) :
    BitVec 5 → Word :=
  if rdWe && rdAddr != 0#5 then Function.update regs rdAddr rdData else regs

/-! ## What ID/EX captures -/

namespace IdEx

/-- The control bits that reset and a bubble both clear. -/
def clear (e : IdEx) : IdEx :=
  { e with
    regWe := false, memWe := false, memRe := false
    isBranch := false, isJal := false, isJalr := false
    illegal := false, isMret := false, isEcall := false
    csrRe := false, csrWe := false }

/-- A flush or load-use bubble, with the PC it stands for. -/
def bubble (e : IdEx) (pc : Word) : IdEx :=
  { e.clear with
    pc, pcPlus4 := pc + 4, instr := nop
    rs1Addr := 0, rs2Addr := 0, rdAddr := 0, wbSel := 0 }

/-- The normal capture. -/
def capture (pc instr : Word) (d : Decoded) (imm rs1Data rs2Data : Word) : IdEx where
  pc
  pcPlus4 := pc + 4
  instr
  rs1Data
  rs2Data
  imm
  rs1Addr := d.rs1Addr
  rs2Addr := d.rs2Addr
  rdAddr := d.rdAddr
  funct3 := d.funct3
  aluOp := d.aluOp
  aluSrc := d.aluSrc
  aluAPc := d.aluAPc
  aluAZero := d.aluAZero
  memRe := d.memRe
  wbSel := d.wbSel
  regWe := d.regWe
  memWe := d.memWe
  isBranch := d.isBranch
  isJal := d.isJal
  isJalr := d.isJalr
  illegal := d.illegal
  isMret := d.isMret
  isEcall := d.isEcall
  csrOp := d.csrOp
  csrRe := d.csrRe
  csrWe := d.csrWe
  csrUseImm := d.csrUseImm

end IdEx

/-! ## Wires -/

namespace MemWb

def wbData (w : MemWb) : Word :=
  if w.wbSel = 0b11#2 then w.csrRdata
  else if w.wbSel = 0b10#2 then w.pcPlus4
  else if w.wbSel = 0b01#2 then w.rdata
  else w.aluResult

end MemWb

namespace ExMem

/-- `ex_mem_wb_value`, what MEM forwards. -/
def wbValue (m : ExMem) : Word :=
  if m.wbSel = 0b11#2 then m.csrRdata
  else if m.wbSel = 0b10#2 then m.pcPlus4
  else m.aluResult

end ExMem

namespace Core

variable (s : Core) (i : CoreIn)

/-! ### ID -/

def idInstr : Word := if s.ifIdValid then s.instr else nop

/-- `u_decoder`'s outputs. -/
def dec : Decoded := decoder s.idInstr

def imm : Word := immgen s.idInstr

def rs1Data : Word := regfileRead s.regs s.memWb.regWe s.memWb.rdAddr s.memWb.wbData s.dec.rs1Addr

def rs2Data : Word := regfileRead s.regs s.memWb.regWe s.memWb.rdAddr s.memWb.wbData s.dec.rs2Addr

def loadUse : Bool :=
  s.idEx.memRe && s.idEx.rdAddr != 0#5 &&
    (s.idEx.rdAddr == s.dec.rs1Addr || s.idEx.rdAddr == s.dec.rs2Addr)

/-! ### EX -/

/-- `fwd_a_mem` and `fwd_b_mem`, for the reader's register. -/
def fwdMem (rsAddr : BitVec 5) : Bool := s.exMem.regWe && s.exMem.rdAddr == rsAddr && rsAddr != 0#5

/-- `fwd_a_wb` and `fwd_b_wb`. -/
def fwdWb (rsAddr : BitVec 5) : Bool := s.memWb.regWe && s.memWb.rdAddr == rsAddr && rsAddr != 0#5

/-- The forwarding mux: MEM before WB before the value read in ID. -/
def fwd (rsAddr : BitVec 5) (rsData : Word) : Word :=
  if s.fwdMem rsAddr then s.exMem.wbValue
  else if s.fwdWb rsAddr then s.memWb.wbData
  else rsData

def fwdRs1 : Word := s.fwd s.idEx.rs1Addr s.idEx.rs1Data

def fwdRs2 : Word := s.fwd s.idEx.rs2Addr s.idEx.rs2Data

def aluA : Word :=
  if s.idEx.aluAZero then 0 else if s.idEx.aluAPc then s.idEx.pc else s.fwdRs1

def aluB : Word := if s.idEx.aluSrc then s.idEx.imm else s.fwdRs2

def aluResult : Word := alu s.aluA s.aluB s.idEx.aluOp

def branchTaken : Bool := branchCmp s.fwdRs1 s.fwdRs2 s.idEx.funct3

def csrWdata : Word := if s.idEx.csrUseImm then 0#27 ++ s.idEx.rs1Addr else s.fwdRs1

/-- The instruction side of `u_csr`. -/
def csrAccess : CsrAccess where
  csrAddr := s.idEx.instr.extractLsb 31 20
  csrWdata := s.csrWdata
  csrOp := s.idEx.csrOp
  csrRe := s.idEx.csrRe
  csrWe := s.idEx.csrWe

def csrRdata : Word := s.csr.csrRdata i.timerIrq s.csrAccess.csrAddr

def csrIllegal : Bool := s.csrAccess.csrIllegal

def syncTrap : Bool := s.idEx.illegal || s.csrIllegal || s.idEx.isEcall

def takeInterrupt : Bool := s.csr.interruptPending i.timerIrq && !s.syncTrap && !i.busStall

def trap : Bool := s.syncTrap || s.takeInterrupt i

def trapCause : Word :=
  if s.takeInterrupt i then 0x80000007
  else if s.idEx.isEcall then (if s.csr.privM then 11 else 8)
  else 2

def pcRedirect : Bool :=
  s.trap i || s.idEx.isMret || s.idEx.isJal || s.idEx.isJalr || (s.idEx.isBranch && s.branchTaken)

def pcTarget : Word :=
  if s.trap i then s.csr.mtvec
  else if s.idEx.isMret then s.csr.mepc
  else if s.idEx.isJalr then s.aluResult &&& ~~~1
  else s.idEx.pc + s.idEx.imm

def regWeFinal : Bool := s.idEx.regWe && !s.trap i

def memWeFinal : Bool := s.idEx.memWe && !s.trap i

/-- `mem_addr`, `mem_wdata`, `mem_funct3`, `mem_re`, `mem_we`. -/
def memReq : MemReq where
  addr := s.exMem.aluResult
  wdata := s.exMem.rs2Data
  funct3 := s.exMem.funct3
  re := s.exMem.memRe
  we := s.exMem.memWe

/-! ### Trace outputs -/

def tracePc : Word := s.memWb.pc

def traceInstr : Word := s.memWb.instr

def traceRd : BitVec 5 := s.memWb.rdAddr

def traceWdata : Word := s.memWb.wbData

def traceWe : Bool := s.memWb.regWe && s.memWb.rdAddr != 0#5

def traceTrap : Bool := s.trap i

def traceMemAddr : Word := s.exMem.aluResult

def traceMemWdata : Word := s.exMem.rs2Data

def traceMemWe : Bool := s.exMem.memWe

/-! ## One clock edge -/

variable (P : Params) (rstN : Bool)

def nextPc : Word :=
  if !rstN then P.resetPc
  else if i.busStall then s.pc
  else if s.pcRedirect i then s.pcTarget i
  else if s.loadUse then s.pc
  else s.pc + 4

def nextIfIdPc : Word :=
  if !rstN then 0
  else if i.busStall then s.ifIdPc
  else if s.pcRedirect i then s.pcTarget i
  else if s.loadUse then s.ifIdPc
  else s.pc

def nextIfIdValid : Bool :=
  if !rstN then false
  else if i.busStall then s.ifIdValid
  else if s.pcRedirect i then false
  else if s.loadUse then s.ifIdValid
  else true

/-- `u_imem`: neither reset nor a flush gates the read. -/
def nextInstr : Word := if !(s.loadUse || i.busStall) then P.fetch s.pc else s.instr

def nextIdEx : IdEx :=
  if !rstN then s.idEx.clear
  else if i.busStall then s.idEx
  else if s.pcRedirect i || s.loadUse then
    s.idEx.bubble (if s.pcRedirect i then s.pcTarget i else s.ifIdPc)
  else IdEx.capture s.ifIdPc s.idInstr s.dec s.imm s.rs1Data s.rs2Data

def nextExMem : ExMem :=
  if !rstN then { s.exMem with regWe := false, memWe := false, memRe := false }
  else if i.busStall then s.exMem
  else
    { regWe := s.regWeFinal i
      memWe := s.memWeFinal i
      memRe := s.idEx.memRe && !s.trap i
      aluResult := s.aluResult
      rs2Data := s.fwdRs2
      pcPlus4 := s.idEx.pcPlus4
      csrRdata := s.csrRdata i
      rdAddr := s.idEx.rdAddr
      funct3 := s.idEx.funct3
      wbSel := s.idEx.wbSel
      pc := s.idEx.pc
      instr := s.idEx.instr }

def nextMemWb : MemWb :=
  if !rstN then { s.memWb with regWe := false }
  else if i.busStall then s.memWb
  else
    { regWe := s.exMem.regWe
      aluResult := s.exMem.aluResult
      pcPlus4 := s.exMem.pcPlus4
      csrRdata := s.exMem.csrRdata
      rdata := i.memRdata
      rdAddr := s.exMem.rdAddr
      wbSel := s.exMem.wbSel
      pc := s.exMem.pc
      instr := s.exMem.instr }

/-- `u_regfile`'s write port, WB's: gated by neither reset nor the stall. -/
def nextRegs : BitVec 5 → Word := regfileWrite s.regs s.memWb.regWe s.memWb.rdAddr s.memWb.wbData

def nextCsr : Csr :=
  s.csr.step rstN i.busStall i.timerIrq s.csrAccess (s.trap i) s.idEx.pc (s.trapCause i) s.idEx.isMret

/-- One clock edge with `rst_n` at `rstN`. -/
def edge : Core where
  pc := s.nextPc i P rstN
  ifIdPc := s.nextIfIdPc i rstN
  ifIdValid := s.nextIfIdValid i rstN
  instr := s.nextInstr i P
  idEx := s.nextIdEx i rstN
  exMem := s.nextExMem i rstN
  memWb := s.nextMemWb i rstN
  regs := s.nextRegs
  csr := s.nextCsr i rstN

end Core

/-- One clock edge outside reset. -/
def Core.step (P : Params) (s : Core) (i : CoreIn) : Core := s.edge i P true

/-- One clock edge in reset. -/
def Core.reset (P : Params) (s : Core) (i : CoreIn) : Core := s.edge i P false

/-! ## What an edge does, case by case -/

namespace Core

variable {P : Params} {s : Core} {i : CoreIn}

/-- A stalled edge freezes every register; WB goes on writing the register file. -/
theorem step_stall (hs : i.busStall = true) : s.step P i = { s with regs := s.nextRegs } := by
  simp [step, edge, nextPc, nextIfIdPc, nextIfIdValid, nextInstr, nextIdEx, nextExMem, nextMemWb,
    nextCsr, Csr.step, hs]

/-- A redirect empties IF/ID and ID/EX and leaves the target in every PC. -/
theorem step_flush (hs : i.busStall = false) (hr : s.pcRedirect i = true) :
    s.step P i =
      { pc := s.pcTarget i, ifIdPc := s.pcTarget i, ifIdValid := false, instr := s.nextInstr i P
        idEx := s.idEx.bubble (s.pcTarget i), exMem := s.nextExMem i true
        memWb := s.nextMemWb i true, regs := s.nextRegs, csr := s.nextCsr i true } := by
  simp [step, edge, nextPc, nextIfIdPc, nextIfIdValid, nextIdEx, hs, hr]

/-- A load-use stall holds IF and IF/ID and puts a bubble into ID/EX. -/
theorem step_loadUse (hs : i.busStall = false) (hr : s.pcRedirect i = false)
    (hl : s.loadUse = true) :
    s.step P i =
      { s with
        idEx := s.idEx.bubble s.ifIdPc, exMem := s.nextExMem i true
        memWb := s.nextMemWb i true, regs := s.nextRegs, csr := s.nextCsr i true } := by
  simp [step, edge, nextPc, nextIfIdPc, nextIfIdValid, nextInstr, nextIdEx, hs, hr, hl]

/-- Otherwise every stage moves on. -/
theorem step_advance (hs : i.busStall = false) (hr : s.pcRedirect i = false)
    (hl : s.loadUse = false) :
    s.step P i =
      { pc := s.pc + 4, ifIdPc := s.pc, ifIdValid := true, instr := P.fetch s.pc
        idEx := IdEx.capture s.ifIdPc s.idInstr s.dec s.imm s.rs1Data s.rs2Data
        exMem := s.nextExMem i true, memWb := s.nextMemWb i true
        regs := s.nextRegs, csr := s.nextCsr i true } := by
  simp [step, edge, nextPc, nextIfIdPc, nextIfIdValid, nextInstr, nextIdEx, hs, hr, hl]

/-- Whatever the front end does, an unstalled edge moves the back end on. -/
theorem step_back (P : Params) (s : Core) (i : CoreIn) :
    (s.step P i).exMem = s.nextExMem i true ∧ (s.step P i).memWb = s.nextMemWb i true ∧
      (s.step P i).regs = s.nextRegs ∧ (s.step P i).csr = s.nextCsr i true :=
  ⟨rfl, rfl, rfl, rfl⟩

end Core

end Rv32i
