import Rv32iCore.Soc.BusProtocol

/-!
# `core` on the bus

`core` and `axil_master` as `rtl/soc/soc.v` connects them: the MEM stage's outputs are the
request, the master's stall is the core's.  The core keeps what `BusOk` asks of the MEM stage,
so the bus protocol needs no promise but the slave's.

    core_axil_master_protocol     `BusCycle` in every cycle of every program
-/

namespace Rv32i

open Sync

/-! ## Loads and stores exclude each other -/

theorem decoder_memRe_memWe (instr : Word) :
    (decoder instr).memRe = true → (decoder instr).memWe = false := by
  fun_cases decoder instr
  case case11 => fun_cases decodeSystem instr <;> simp +zetaDelta [decoderDefaults]
  all_goals simp +zetaDelta [decoderDefaults]

/-- No instruction in EX or MEM is both. -/
structure Core.MemApart (s : Core) : Prop where
  ex : s.idEx.memRe = true → s.idEx.memWe = false
  mem : s.memReq.re = true → s.memReq.we = false

namespace Core.MemApart

variable {P : Params} {s : Core} {i : CoreIn}

theorem reset (P : Params) (s : Core) (i : CoreIn) : (s.reset P i).MemApart :=
  ⟨fun _ => rfl, fun _ => rfl⟩

theorem step (h : s.MemApart) : (s.step P i).MemApart := by
  cases hs : i.busStall with
  | true =>
    rw [step_stall hs]
    exact ⟨h.ex, h.mem⟩
  | false =>
    constructor
    · show (s.nextIdEx i true).memRe = true → (s.nextIdEx i true).memWe = false
      unfold nextIdEx
      rw [hs]
      by_cases hb : (s.pcRedirect i || s.loadUse) = true
      · simp [hb, IdEx.bubble, IdEx.clear]
      · have hdec : s.dec.memRe = true → s.dec.memWe = false := decoder_memRe_memWe s.idInstr
        simpa [hb, IdEx.capture] using hdec
    · show (s.nextExMem i true).memRe = true → (s.nextExMem i true).memWe = false
      simp only [nextExMem, memWeFinal, hs, Bool.not_true, Bool.false_eq_true, if_false,
        Bool.and_eq_true, Bool.and_eq_false_iff]
      exact fun hre => .inl (h.ex hre.1)

end Core.MemApart

/-! ## The two together -/

structure CoreBus where
  core : Core
  bus : BusTracked

structure CoreBusIn where
  timerIrq : Bool
  slave : SlaveOut

namespace CoreBus

variable (P : Params) (t : CoreBus) (i : CoreBusIn)

def reset (s : Core) (j : CoreIn) : CoreBus := ⟨s.reset P j, .reset⟩

/-- The cycle as the bus sees it. -/
def busIn : BusIn := ⟨t.core.memReq, i.slave⟩

/-- The cycle as the core sees it. -/
def coreIn : CoreIn where
  busStall := t.bus.busStall (t.busIn i)
  memRdata := t.bus.master.memRdata t.core.memReq i.slave
  timerIrq := i.timerIrq

def step : CoreBus := ⟨t.core.step P (t.coreIn i), t.bus.step (t.busIn i)⟩

end CoreBus

/-- What is left to promise: a B only for an accepted AW and W, an R only for an accepted AR. -/
structure SlaveOk (t : CoreBus) (i : CoreBusIn) : Prop where
  b : i.slave.bvalid = true → t.bus.nB < t.bus.nAw + (t.bus.master.awFire i.slave).toNat ∧
    t.bus.nB < t.bus.nW + (t.bus.master.wFire i.slave).toNat
  r : i.slave.rvalid = true → t.bus.nR < t.bus.nAr + (t.bus.master.arFire i.slave).toNat

/-- The MEM stage keeps its promises. -/
structure CoreBusInv (t : CoreBus) : Prop where
  bus : BusInv t.bus
  apart : t.core.MemApart
  held : ∀ m ∈ t.bus.held, t.core.memReq = m

section Run

variable {P : Params} {t : CoreBus} {i : CoreBusIn}

theorem CoreBusInv.busOk (h : CoreBusInv t) (hok : SlaveOk t i) : BusOk t.bus (t.busIn i) :=
  ⟨h.apart.mem, h.held, hok.b, hok.r⟩

theorem CoreBusInv.step (h : CoreBusInv t) (hok : SlaveOk t i) : CoreBusInv (t.step P i) where
  bus := h.bus.step (h.busOk hok)
  apart := h.apart.step
  held := by
    intro m hm
    -- only a stalled cycle leaves an access behind, and that freezes the core
    cases hs : t.bus.busStall (t.busIn i) with
    | true =>
      have hheld : (t.step P i).bus.held = some t.core.memReq := if_pos hs
      rw [hheld] at hm
      have hcore : (t.step P i).core = _ := Core.step_stall (i := t.coreIn i) hs
      rw [hcore]
      exact Option.some.inj hm
    | false => simp [CoreBus.step, BusTracked.step, hs] at hm

/-- **Core on the bus.**  Whatever the program and the interrupts, the accesses of the core
make well-formed transactions, each word exactly once. -/
theorem core_axil_master_protocol (P : Params) (s : Core) (j : CoreIn) (is : List CoreBusIn)
    (hok : Always (CoreBus.step P) SlaveOk (.reset P s j) is) :
    Always (CoreBus.step P) (fun t i => BusCycle t.bus (t.busIn i)) (.reset P s j) is := by
  have h0 : CoreBusInv (.reset P s j) := ⟨.reset, .reset P s j, nofun⟩
  exact (inv_always CoreBusInv (fun _ _ h hi => h.step hi) h0 hok).mono
    fun _ _ h => h.1.bus.cycle (h.1.busOk h.2)

end Run

end Rv32i
