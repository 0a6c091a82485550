import Rv32iCore.Spec.Machine
import Rv32iCore.Spec.WordMemory

/-!
# The sequential machine with its memory

`Machine` takes the values of its loads from outside.  Here they come from a memory of bytes, which
the stores change: `MemMachine` executes an instruction, access included, in one step.

Not every address need be memory.  A `MemMap` says which are, and what the loads find at the
others, where a device may give each load another value.
-/

namespace Rv32i

open Sync

/-- Which addresses are memory, and what the `k`-th load finds elsewhere. -/
structure MemMap where
  ram : Word → Bool
  dev : Nat → Word → BitVec 8

/-- Memory everywhere. -/
def MemMap.all : MemMap := ⟨fun _ => true, fun _ _ => 0⟩

/-- The value of a load.  `funct3` 011 and 111, which are reserved, read to the end of the word. -/
def MemReq.value (bytes : Word → BitVec 8) (m : MemReq) : Word :=
  if m.size = 0 then
    let shift := 8 * (m.addr.toNat % 4)
    ((bytes (m.addr + 3) ++ bytes (m.addr + 2) ++ bytes (m.addr + 1) ++ bytes m.addr) <<< shift) >>>
      shift
  else loadValue bytes m.addr m.funct3

namespace MemMap

variable (M : MemMap)

/-- The bytes as the `k`-th load sees them. -/
def seen (k : Nat) (bytes : Word → BitVec 8) : Word → BitVec 8 :=
  fun a => if M.ram a then bytes a else M.dev k a

/-- The value of the `k`-th load. -/
def loaded (k : Nat) (bytes : Word → BitVec 8) (m : MemReq) : Word := m.value (M.seen k bytes)

theorem all_loaded (k : Nat) (bytes : Word → BitVec 8) (m : MemReq) :
    all.loaded k bytes m = m.value bytes := rfl

end MemMap

/-- The access of the instruction at `pc`, if it makes one. -/
def Machine.memReq (P : Params) (q : Machine) : MemReq where
  addr := q.aluResult P
  wdata := q.rs2 P
  funct3 := (q.dec P).funct3
  re := (q.dec P).memRe
  we := (q.dec P).memWe

/-- The architectural state, memory included. -/
structure MemMachine where
  cpu : Machine
  bytes : Word → BitVec 8

namespace MemMachine

variable (P : Params) (M : MemMap) (s : MemMachine)

/-- What a load at `pc` gets. -/
def ld : Nat → Word := fun _ => M.loaded s.cpu.loads s.bytes (s.cpu.memReq P)

def step (e : Event) : MemMachine where
  cpu := s.cpu.step P (s.ld P M) e
  bytes := run ByteMachine.step s.bytes (s.cpu.memReqs P e)

/-! ## Observers -/

def executed (e : Event) : List Executed := s.cpu.executed P e

def memReqs (e : Event) : List MemReq := s.cpu.memReqs P e

def retired (e : Event) : List Retired := s.cpu.retired P (s.ld P M) e

end MemMachine

/-! ## Only the next load matters -/

section Congr

variable {P : Params} {ld ld' : Nat → Word} {q : Machine}

theorem Machine.wbData_congr (h : ld' q.loads = ld q.loads) (timerIrq : Bool) :
    q.wbData P ld' timerIrq = q.wbData P ld timerIrq := by
  rw [wbData, wbData, h]

theorem Machine.step_congr (h : ld' q.loads = ld q.loads) (e : Event) :
    q.step P ld' e = q.step P ld e := by
  cases e with
  | exec timerIrq =>
    show q.exec P ld' timerIrq = q.exec P ld timerIrq
    rw [exec, exec, wbData_congr h]
  | interrupt => rfl

theorem Machine.retired_congr (h : ld' q.loads = ld q.loads) (e : Event) :
    q.retired P ld' e = q.retired P ld e := by
  cases e with
  | exec timerIrq => rw [retired, retired, wbData_congr h]
  | interrupt => rfl

end Congr

end Rv32i
