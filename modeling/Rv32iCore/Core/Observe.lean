import Rv32iCore.Spec.Machine

/-!
# What a run of `core` shows

A run starts with a reset edge, from any contents of the registers, and goes on with
`rst_n` high.  `Tracked` adds to the registers of `core` two facts of the history that the
hardware does not store: whether ID/EX holds an instruction of the program (and not reset
contents, a bubble, or the nop of `if_id_valid = 0`), and how many loads have received
their response.

The observers collect what leaves a stage on an unstalled cycle: `executed` at EX,
`memReqs` and `responses` at MEM, `retired` at WB.  `schedule` reads off the run the steps
of the sequential machine.
-/

namespace Rv32i

structure Tracked where
  core : Core
  /-- ID/EX holds a program instruction -/
  exValid : Bool
  /-- loads that have left MEM -/
  loads : Nat

namespace Tracked

variable (P : Params)

/-- The state after a reset edge. -/
def reset (s : Core) (i : CoreIn) : Tracked where
  core := s.reset P i
  exValid := false
  loads := 0

def step (t : Tracked) (i : CoreIn) : Tracked where
  core := t.core.step P i
  exValid :=
    if i.busStall then t.exValid
    else if t.core.pcRedirect i || t.core.loadUse then false
    else t.core.ifIdValid
  loads := if !i.busStall && t.core.exMem.memRe then t.loads + 1 else t.loads

/-! ## Observers -/

variable (t : Tracked) (i : CoreIn)

/-- A program instruction leaves EX. -/
def leavesEx : Bool := t.exValid && !i.busStall && !t.core.takeInterrupt i

def schedule : List Event :=
  if i.busStall then []
  else if t.core.takeInterrupt i then [.interrupt]
  else if t.exValid then [.exec i.timerIrq]
  else []

def executed : List Executed :=
  if t.leavesEx i then
    [{ pc := t.core.idEx.pc, instr := t.core.idEx.instr
       nextPc := if t.core.pcRedirect i then t.core.pcTarget i else t.core.idEx.pc + 4
       trapCause := if t.core.syncTrap then some (t.core.trapCause i) else none
       isMret := t.core.idEx.isMret && !t.core.syncTrap
       csr := t.core.nextCsr i true }]
  else []

/-- The request in MEM. -/
def memReqPending : List MemReq :=
  if t.core.memReq.re || t.core.memReq.we then [t.core.memReq] else []

def memReqs : List MemReq := if i.busStall then [] else t.memReqPending

/-- The load responses taken. -/
def responses : List Word := if !i.busStall && t.core.exMem.memRe then [i.memRdata] else []

/-- The register write in WB, as the trace outputs report it. -/
def wbPending : List Retired :=
  if t.core.traceWe then
    [{ pc := t.core.tracePc, instr := t.core.traceInstr
       rd := t.core.traceRd, wdata := t.core.traceWdata }]
  else []

def retired : List Retired := if i.busStall then [] else t.wbPending

end Tracked

end Rv32i
