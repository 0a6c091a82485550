import Rv32iCore.Core.Memory
import Rv32iCore.Soc.CoreBus
import Rv32iCore.Soc.MemoryMap
import Rv32iCore.Soc.UartTx

/-!
# `soc`

`core`, the bus, and `uart_tx` and `uart_rx` behind `uart_axil`, as `rtl/soc/soc.v` and
`rtl/soc/uart_axil.v` wire them.  `SocRun` follows a run: the pipeline with the bytes its accesses
have made, and the bus with the results of the access in progress.

    soc_refines_machine     a run executes its program as `MemMachine` does
-/

namespace Rv32i

open Sync

/-! ## The registers and one clock edge -/

structure Soc where
  uCore : Core
  bus : Fabric
  uTx : UartTx
  uRx : UartRx

/-- The pins. -/
structure SocIn where
  sw : BitVec 16
  uartRxd : Bool
deriving DecidableEq, Inhabited

namespace Soc

variable (P : Params) (s : Soc) (i : SocIn)

def timerIrq : Bool := s.bus.slaves.uTimer.dev.timerIrq

def coreIn : CoreIn where
  busStall := s.bus.busStall s.uCore.memReq
  memRdata := s.bus.master.memRdata s.uCore.memReq s.bus.ic.sOut
  timerIrq := s.timerIrq

/-- What `uart_tx` and `uart_rx` drive. -/
def uartWires : UartWires where
  txTready := s.uTx.sAxisTreadyReg
  txBusy := s.uTx.busyReg
  rxTdata := s.uRx.mAxisTdata
  rxTvalid := s.uRx.mAxisTvalid
  rxOverrun := s.uRx.overrunErrorReg
  rxFrame := s.uRx.frameErrorReg

def slavesIn : SlavesIn := ⟨i.sw, s.uartWires⟩

def uUart : RegSlave UartAxil := s.bus.slaves.uUart

def txIn : UartTxIn where
  tdata := UartAxil.txTdata s.uUart.wr
  tvalid := UartAxil.txTvalid s.uartWires s.uUart.wr
  prescale := s.uUart.dev.prescaleReg

def rxTready : Bool := UartAxil.rxTready s.uartWires s.uUart.rd

/-- After a reset edge; `s` gives the registers that are not reset. -/
def reset : Soc where
  uCore := s.uCore.reset P s.coreIn
  bus := s.bus.reset
  uTx := s.uTx.reset
  uRx := s.uRx.reset

/-- One clock edge outside reset. -/
def step : Soc where
  uCore := s.uCore.step P s.coreIn
  bus := s.bus.step s.uCore.memReq (s.slavesIn i)
  uTx := s.uTx.step s.txIn
  uRx := s.uRx.step s.rxTready i.uartRxd s.uUart.dev.prescaleReg

/-- The LED pins. -/
def led : BitVec 16 := s.bus.slaves.uGpio.dev.ledReg.extractLsb 15 0

def uartTxd : Bool := s.uTx.txdReg

end Soc

/-! ## Runs -/

structure SocRun where
  cpu : CoreMem
  bus : BusRun
  uTx : UartTx
  uRx : UartRx

namespace SocRun

variable (P : Params) (t : SocRun) (i : SocIn)

/-- The registers of the run's state. -/
def soc : Soc := ⟨t.cpu.core.core, t.bus.fabric, t.uTx, t.uRx⟩

def busIn : BusRunIn := ⟨t.soc.uCore.memReq, t.soc.slavesIn i⟩

def reset (s : Soc) : SocRun where
  cpu := .reset P s.uCore s.coreIn (BusRun.reset s.bus).bytes
  bus := .reset s.bus
  uTx := s.uTx.reset
  uRx := s.uRx.reset

def step : SocRun where
  cpu := t.cpu.step P t.soc.coreIn
  bus := t.bus.step (t.busIn i)
  uTx := t.uTx.step t.soc.txIn
  uRx := t.uRx.step t.soc.rxTready i.uartRxd t.soc.uUart.dev.prescaleReg

/-! ### Observers -/

/-- The steps that the run schedules for the machine. -/
def schedule (_ : SocIn) : List Event := t.cpu.core.schedule t.soc.coreIn

def executed (_ : SocIn) : List Executed := t.cpu.core.executed t.soc.coreIn

def retired (_ : SocIn) : List Retired := t.cpu.core.retired t.soc.coreIn

/-- The access that ends in this cycle. -/
def completed : List BusAccess := t.bus.completed (t.busIn i)

def served : List ServedWord := t.bus.served (t.busIn i)

/-- The load that ends in this cycle. -/
def loaded : List BusAccess := (t.completed i).filter (·.1.re)

/-! ## The pipeline and the bus -/

/-- The MEM stage keeps its promises, and the bytes are those of both. -/
structure Inv : Prop where
  apart : t.soc.uCore.MemApart
  held : ∀ m ∈ t.bus.held, t.soc.uCore.memReq = m
  bytes : t.bus.Rel t.cpu.bytes

variable {P t i}

theorem reset_soc (P : Params) (s : Soc) : (reset P s).soc = s.reset P := rfl

theorem step_soc : (t.step P i).soc = t.soc.step P i := rfl

theorem Inv.reset (P : Params) (s : Soc) : (reset P s).Inv :=
  ⟨.reset P s.uCore s.coreIn, nofun, BusRun.reset_rel_bytes s.bus⟩

theorem Inv.ok (h : t.Inv) : BusRun.Ok t.bus (t.busIn i) := ⟨h.apart.mem, h.held⟩

/-- An access ends as it leaves MEM. -/
theorem completed_memReqs : (t.completed i).map Prod.fst = t.cpu.core.memReqs t.soc.coreIn := by
  show (if t.soc.uCore.memReq.presented && !t.soc.coreIn.busStall then
      [(t.soc.uCore.memReq, t.bus.results)] else []).map Prod.fst =
    if t.soc.coreIn.busStall then [] else
      if t.soc.uCore.memReq.re || t.soc.uCore.memReq.we then [t.soc.uCore.memReq] else []
  cases t.soc.coreIn.busStall with
  | true => simp
  | false =>
    simp only [MemReq.presented, Bool.not_false, Bool.and_true, Bool.false_eq_true, if_false]
    split_ifs <;> rfl

theorem Inv.cycle (h : t.Inv) : t.bus.Cycle t.cpu.bytes (t.busIn i) := h.bytes.cycle h.ok

theorem Inv.step (h : t.Inv) : (t.step P i).Inv where
  apart := h.apart.step
  held := by
    intro m hm
    -- only a stalled cycle leaves an access behind, and that freezes the core
    cases hs : t.bus.busStall (t.busIn i) with
    | true =>
      have hheld : (t.step P i).bus.held = some t.soc.uCore.memReq := if_pos hs
      rw [hheld] at hm
      have hcore : (t.step P i).soc.uCore = _ := Core.step_stall (i := t.soc.coreIn) hs
      rw [hcore]
      exact Option.some.inj hm
    | false => simp [SocRun.step, BusRun.step, hs] at hm
  bytes := by
    have hrel := (h.cycle (i := i)).rel
    have hbytes : run BusAccess.store t.cpu.bytes (t.bus.completed (t.busIn i)) =
        (t.step P i).cpu.bytes := by
      show _ = run ByteMachine.step t.cpu.bytes (t.cpu.core.memReqs t.soc.coreIn)
      rw [← completed_memReqs (i := i), run_map]
      rfl
    rw [hbytes] at hrel
    exact hrel

/-- One load more for each that ends. -/
theorem loads_step : (t.step P i).cpu.core.loads = t.cpu.core.loads + (t.loaded i).length := by
  show (if !t.soc.coreIn.busStall && t.soc.uCore.memReq.re then t.cpu.core.loads + 1
    else t.cpu.core.loads) = t.cpu.core.loads +
      ((if t.soc.uCore.memReq.presented && !t.soc.coreIn.busStall then
        [(t.soc.uCore.memReq, t.bus.results)] else []).filter (·.1.re)).length
  unfold MemReq.presented
  cases t.soc.coreIn.busStall <;> cases hre : t.soc.uCore.memReq.re <;>
    cases t.soc.uCore.memReq.we <;> simp [hre]

end SocRun

/-- What the loads of a run have found outside the memory. -/
def socDevices (loads : List BusAccess) : Nat → Word → BitVec 8 :=
  fun k a => (loads[k]?).elim 0 fun c => c.outside a

namespace SocRun

variable {P : Params} {t : SocRun} {i : SocIn}

/-- The load that leaves MEM gets its bytes. -/
theorem Inv.serves (h : t.Inv) {loads : List BusAccess}
    (hload : ∀ c, t.loaded i = [c] → loads[t.cpu.core.loads]? = some c) :
    CoreMem.Serves ⟨socRam, socDevices loads⟩ t.cpu t.soc.coreIn := by
  intro hs hre
  have hstall : t.bus.busStall (t.busIn i) = false := hs
  have hre : t.soc.uCore.memReq.re = true := hre
  have hcompleted : t.completed i = [(t.soc.uCore.memReq, t.bus.results)] := by
    show (if t.soc.uCore.memReq.presented && !t.bus.busStall (t.busIn i) then _ else _) = _
    rw [hstall, MemReq.presented, hre]
    rfl
  have hloaded := hload (t.soc.uCore.memReq, t.bus.results) (by simp [loaded, hcompleted, hre])
  have hcycle := (h.cycle (i := i)).loaded
  have hleft : t.bus.loaded (t.busIn i) = [t.soc.coreIn.memRdata] := by
    show (if t.soc.uCore.memReq.re && !t.bus.busStall (t.busIn i) then _ else _) = _
    rw [hstall, hre]
    rfl
  have hright : BusAccess.loaded t.cpu.bytes (t.soc.uCore.memReq, t.bus.results) =
      [t.soc.uCore.memReq.value fun a =>
        if socRam a then t.cpu.bytes a else BusAccess.outside (t.soc.uCore.memReq, t.bus.results) a] :=
    if_pos hre
  rw [show t.bus.completed (t.busIn i) = [_] from hcompleted, hleft, outputs_cons, outputs_nil,
    List.append_nil, hright] at hcycle
  have hdev : socDevices loads t.cpu.core.loads =
      BusAccess.outside (t.soc.uCore.memReq, t.bus.results) := by
    unfold socDevices
    rw [hloaded]
    rfl
  show t.soc.coreIn.memRdata = t.soc.uCore.memReq.value fun a =>
    if socRam a then t.cpu.bytes a else socDevices loads t.cpu.core.loads a
  rw [hdev]
  exact (List.cons.inj hcycle).1

/-! ## From reset -/

variable (P) (s : Soc) (is : List SocIn)

theorem inv_run : (run (SocRun.step P) (reset P s) is).Inv :=
  Sync.inv_run Inv (fun _ _ h (_ : True) => h.step) (.reset P s) fun _ _ => trivial

theorem always_inv : Always (SocRun.step P) (fun t _ => t.Inv) (reset P s) is :=
  always_of_step Inv (fun _ _ h => h.step) (.reset P s)

/-- Each load of the run gets its bytes. -/
theorem always_serves :
    Always (SocRun.step P)
      (fun t _ => CoreMem.Serves ⟨socRam, socDevices (outputs (SocRun.step P) loaded (reset P s) is)⟩
        t.cpu t.soc.coreIn) (reset P s) is := by
  have hnumbered : Always (SocRun.step P) (fun t i => ∀ x, t.loaded i = [x] →
      ([] ++ outputs (SocRun.step P) loaded (reset P s) is)[t.cpu.core.loads]? = some x)
      (reset P s) is :=
    outputs_numbered (fun t : SocRun => t.cpu.core.loads) (fun _ _ => loads_step) is rfl
  exact ((always_inv P s is).and hnumbered).mono fun _ _ h => h.1.serves h.2

/-- In each cycle what has been served of the accesses is what the slaves have served. -/
theorem words_served :
    outputs (SocRun.step P) served (reset P s) is =
      (outputs (SocRun.step P) completed (reset P s) is).flatMap BusAccess.served ++
        (run (SocRun.step P) (reset P s) is).bus.servedSoFar := by
  have hcycle : Always (SocRun.step P) (fun t i => (t.completed i).flatMap BusAccess.served ++
      (t.step P i).bus.servedSoFar = t.bus.servedSoFar ++ t.served i) (reset P s) is :=
    (always_inv P s is).mono fun _ _ h => h.cycle.served
  have hconserved := outputs_conserved (fun t : SocRun => t.bus.servedSoFar) hcycle
  rw [outputs_bind] at hconserved
  exact hconserved.symm

end SocRun

/-- Over the run `is` from `t`, the system shows what `MemMachine` shows from `q` over the steps
`evs`, up to what is in the pipeline before and after. -/
structure SocRefines (P : Params) (M : MemMap) (t : SocRun) (q : MemMachine) (is : List SocIn)
    (evs : List Event) : Prop where
  executed : outputs (SocRun.step P) SocRun.executed t is =
    outputs (MemMachine.step P M) (MemMachine.executed P) q evs
  accesses : (outputs (SocRun.step P) SocRun.completed t is).map Prod.fst ++
      (run (SocRun.step P) t is).cpu.core.memReqPending =
    t.cpu.core.memReqPending ++ outputs (MemMachine.step P M) (MemMachine.memReqs P) q evs
  retired : outputs (SocRun.step P) SocRun.retired t is ++
      (run (SocRun.step P) t is).cpu.core.writesPending ((run (SocRun.step P) t is).cpu.ld M) =
    t.cpu.core.writesPending (t.cpu.ld M) ++
      outputs (MemMachine.step P M) (MemMachine.retired P M) q evs
  csr : (run (SocRun.step P) t is).soc.uCore.csr = (run (MemMachine.step P M) q evs).cpu.csr
  regs : (run (SocRun.step P) t is).cpu.core.archRegs ((run (SocRun.step P) t is).cpu.ld M) =
    (run (MemMachine.step P M) q evs).cpu.regs
  bytes : (run (SocRun.step P) t is).cpu.done = (run (MemMachine.step P M) q evs).bytes

theorem SocRun.sim (P : Params) (M : MemMap) :
    Sim (SocRun.step P) (MemMachine.step P M)
      (fun t _ => CoreMem.Serves M t.cpu t.soc.coreIn) SocRun.schedule
      (fun t q => CoreMem.Rel P M t.cpu q) where
  step _ _ _ h hok := h.step hok

theorem SocRefines.of_always {P : Params} {M : MemMap} {t : SocRun} {q : MemMachine}
    {is : List SocIn} (h : CoreMem.Rel P M t.cpu q)
    (hok : Always (SocRun.step P) (fun t _ => CoreMem.Serves M t.cpu t.soc.coreIn) t is) :
    SocRefines P M t q is (outputs (SocRun.step P) SocRun.schedule t is) := by
  have hsim := SocRun.sim P M
  have hend := hsim.run h hok
  refine ⟨?_, ?_, ?_, hend.cpu.csr, hend.cpu.regs, hend.bytes.symm⟩
  · have hp := hsim.outputs_pending SocRun.executed (MemMachine.executed P) (fun _ => [])
      (fun t q i h _ => (List.append_nil _).trans h.executed) h hok
    simpa using hp
  · rw [← outputs_map]
    refine hsim.outputs_pending (fun t i => (t.completed i).map Prod.fst) _
      (fun t => t.cpu.core.memReqPending) (fun t q i h _ => ?_) h hok
    rw [SocRun.completed_memReqs]
    exact h.memReqs
  · exact hsim.outputs_pending SocRun.retired _ (fun t => t.cpu.core.writesPending (t.cpu.ld M))
      (fun t q i h hok => h.retired hok) h hok

/-- What the loads of a run have found outside the memory. -/
def SocRun.memMap (P : Params) (s : Soc) (is : List SocIn) : MemMap :=
  ⟨socRam, socDevices ((outputs (SocRun.step P) SocRun.completed (.reset P s) is).filter (·.1.re))⟩

theorem SocRun.memMap_serves (P : Params) (s : Soc) (is : List SocIn) :
    Always (SocRun.step P) (fun t _ => CoreMem.Serves (memMap P s is) t.cpu t.soc.coreIn)
      (.reset P s) is := by
  have hserves := always_serves P s is
  have hloads : outputs (SocRun.step P) loaded (.reset P s) is =
      (outputs (SocRun.step P) completed (.reset P s) is).filter (·.1.re) :=
    outputs_filter _ _ _ _ is
  rw [hloads] at hserves
  exact hserves

theorem SocRun.refines (P : Params) (s : Soc) (is : List SocIn) :
    SocRefines P (memMap P s is) (.reset P s) ⟨.reset P s.uCore, (SocRun.reset P s).bus.bytes⟩ is
      (outputs (SocRun.step P) schedule (.reset P s) is) :=
  .of_always (CoreMem.Rel.reset P _ s.uCore s.coreIn _) (memMap_serves P s is)

/-- The accesses that are over have their answers. -/
theorem SocRun.answered {P : Params} {s : Soc} {is : List SocIn} {c : BusAccess}
    (hc : c ∈ outputs (SocRun.step P) completed (.reset P s) is) : c.Answered := by
  obtain ⟨x, hx, hcx⟩ := List.mem_flatMap.1 hc
  exact (always_inv P s is x hx).cycle.answered c hcx

/-- **The system executes its program.**  Whatever the program, the switches and the serial line,
the run of `soc` from reset is that of the sequential machine with 64 KB of bytes in the window of
`axil_mem`: the same instructions, accesses and register writes, in order, and the same CSRs,
registers and bytes, up to what is in the pipeline.  Between two accesses the array of `dmem` holds
the bytes; what the loads find elsewhere is what the words that the slaves have given hold, and
zero where there is no slave. -/
theorem soc_refines_machine (P : Params) (s : Soc) (is : List SocIn) :
    let t₀ := SocRun.reset P s
    let t := run (SocRun.step P) t₀ is
    let done := outputs (SocRun.step P) SocRun.completed t₀ is
    let M : MemMap := ⟨socRam, socDevices (done.filter (·.1.re))⟩
    t.soc = run (Soc.step P) (s.reset P) is ∧
    SocRefines P M t₀ ⟨.reset P s.uCore, t₀.bus.bytes⟩ is
      (outputs (SocRun.step P) SocRun.schedule t₀ is) ∧
    (t.bus.held = none → ∀ a, socRam a = true → t.bus.bytes a = t.cpu.bytes a) ∧
    outputs (SocRun.step P) SocRun.served t₀ is =
      done.flatMap BusAccess.served ++ t.bus.servedSoFar ∧
    ∀ c ∈ done, c.Answered := by
  intro t₀ t done M
  refine ⟨?_, SocRun.refines P s is, ?_, SocRun.words_served P s is, fun c => SocRun.answered⟩
  · have hstep : ∀ (t : SocRun) i, (t.step P i).soc = t.soc.step P i := fun _ _ => SocRun.step_soc
    have hpart := run_part SocRun.soc (fun _ i => i) hstep t₀ is
    rwa [outputs_input, List.map_id'] at hpart
  · exact fun hheld a ha => (SocRun.inv_run P s is).bytes.bytes_eq hheld ha

end Rv32i
