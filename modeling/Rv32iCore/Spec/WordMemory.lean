import Rv32iCore.Lib.Bytes
import Rv32iCore.Core.Pipeline
import Rv32iCore.Soc.Bus

/-!
# Memories: of words behind AXI4-Lite, and of bytes

`WordMemory` is any AXI4-Lite slave that is a word memory.  It accepts requests, carries them
out and answers when it likes: in each cycle `MemoryChoice` says which READYs are high, which
accepted requests are carried out, in which order, and which responses it offers.  It answers
only what it has carried out, and honours the strobes.

`ByteMachine` is what the MEM stage is to see: a memory of bytes with one load or store a step.
-/

namespace Rv32i

open Bytes

/-! ## The word memory -/

structure WordMemory where
  mem : BitVec 30 → Word
  /-- accepted and not carried out -/
  awQ : List (BitVec 30)
  wQ : List (Word × BitVec 4)
  arQ : List (BitVec 30)
  /-- carried out and not answered -/
  bOwed : Nat
  rQ : List Word

/-- What the memory does in one cycle. -/
structure MemoryChoice where
  awready : Bool
  wready : Bool
  arready : Bool
  /-- requests carried out in this cycle: a write or a read -/
  performs : List Bool
  bvalid : Bool
  rvalid : Bool
  /-- what is on the read data bus without a response -/
  junk : Word
deriving Inhabited

namespace WordMemory

variable (s : WordMemory) (o : MasterOut) (c : MemoryChoice)

/-- Requests accepted in this cycle join the queues. -/
def accept : WordMemory :=
  { s with
    awQ := s.awQ ++ if o.awvalid && c.awready then [wordIdx o.awaddr] else []
    wQ := s.wQ ++ if o.wvalid && c.wready then [(o.wdata, o.wstrb)] else []
    arQ := s.arQ ++ if o.arvalid && c.arready then [wordIdx o.araddr] else [] }

/-- The oldest write (`true`) or the oldest read is carried out, if there is one. -/
def perform (s : WordMemory) : Bool → WordMemory
  | true =>
    match s.awQ, s.wQ with
    | a :: awQ, (data, strb) :: wQ =>
      { s with mem := writeWord s.mem a data strb, awQ, wQ, bOwed := s.bOwed + 1 }
    | _, _ => s
  | false =>
    match s.arQ with
    | a :: arQ => { s with arQ, rQ := s.rQ ++ [s.mem a] }
    | [] => s

/-- The memory before it answers. -/
def performed : WordMemory := c.performs.foldl perform (s.accept o c)

def bvalid : Bool := c.bvalid && decide (0 < (s.performed o c).bOwed)

def rvalid : Bool := c.rvalid && !(s.performed o c).rQ.isEmpty

def rdata : Word := if s.rvalid o c then (s.performed o c).rQ.headD c.junk else c.junk

/-- One cycle; an answer that the master takes is no longer owed. -/
def step : WordMemory :=
  { s.performed o c with
    bOwed := (s.performed o c).bOwed - (s.bvalid o c && o.bready).toNat
    rQ := (s.performed o c).rQ.drop (s.rvalid o c && o.rready).toNat }

/-- A memory with nothing accepted. -/
def quiet (mem : BitVec 30 → Word) : WordMemory := ⟨mem, [], [], [], 0, []⟩

end WordMemory

/-! ## The byte memory -/

namespace MemReq

variable (m : MemReq)

/-- Bytes accessed. -/
def size : Nat :=
  if m.funct3.extractLsb 1 0 = 0b00#2 then 1
  else if m.funct3.extractLsb 1 0 = 0b01#2 then 2
  else if m.funct3.extractLsb 1 0 = 0b10#2 then 4
  else 0

/-- `lb`, `lh`, `lw`, `lbu`, `lhu` or `sb`, `sh`, `sw`. -/
def Valid : Prop :=
  (m.re = true → m.we = false ∧ m.funct3 ∈ [0b000#3, 0b001#3, 0b010#3, 0b100#3, 0b101#3]) ∧
  (m.we = true → m.funct3 ∈ [0b000#3, 0b001#3, 0b010#3])

instance : Decidable m.Valid := inferInstanceAs (Decidable (_ ∧ _))

end MemReq

/-- The value of a load: little-endian, sign- or zero-extended. -/
def loadValue (bytes : Word → BitVec 8) (a : Word) (funct3 : BitVec 3) : Word :=
  if funct3 = 0b000#3 then (bytes a).signExtend 32
  else if funct3 = 0b001#3 then (bytes (a + 1) ++ bytes a).signExtend 32
  else if funct3 = 0b100#3 then (bytes a).zeroExtend 32
  else if funct3 = 0b101#3 then (bytes (a + 1) ++ bytes a).zeroExtend 32
  else bytes (a + 3) ++ bytes (a + 2) ++ bytes (a + 1) ++ bytes a

namespace ByteMachine

/-- One access: a store changes its bytes, a load none. -/
def step (bytes : Word → BitVec 8) (m : MemReq) : Word → BitVec 8 :=
  if m.we then storeBytes bytes m.addr m.size m.wdata else bytes

theorem step_store {bytes : Word → BitVec 8} {m : MemReq} (hwe : m.we = true) :
    step bytes m = storeBytes bytes m.addr m.size m.wdata := if_pos hwe

def loaded (bytes : Word → BitVec 8) (m : MemReq) : List Word :=
  if m.re then [loadValue bytes m.addr m.funct3] else []

end ByteMachine

end Rv32i
