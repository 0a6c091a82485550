import Rv32iCore.Core.Pipeline
import Rv32iCore.Soc.Bus

/-!
# `axil_master`: the AXI4-Lite master of the MEM stage

The byte lanes of `rtl/soc/axil_master.v` as functions of the MEM-stage request, its
transaction FSM, and one clock edge, state by state.
-/

namespace Rv32i

/-! ## Byte lanes -/

namespace MemReq

variable (m : MemReq)

def lane : BitVec 2 := m.addr.extractLsb 1 0

/-- `lane * 8` -/
def shift : BitVec 5 := m.lane ++ 0#3

def isHalf : Bool := m.funct3.extractLsb 1 0 == 0b01#2

def isWord : Bool := m.funct3.extractLsb 1 0 == 0b10#2

/-- The access runs into the next word. -/
def crosses : Bool := (m.isWord && m.lane != 0b00#2) || (m.isHalf && m.lane == 0b11#2)

def addrLo : Word := m.addr.extractLsb 31 2 ++ 0#2

def addrHi : Word := m.addrLo + 4

/-- The bytes an access touches, before shifting into its lane. -/
def byteEn : BitVec 4 :=
  if m.funct3.extractLsb 1 0 = 0b00#2 then 0b0001
  else if m.funct3.extractLsb 1 0 = 0b01#2 then 0b0011
  else if m.funct3.extractLsb 1 0 = 0b10#2 then 0b1111
  else 0b0000

def byteEnShifted : BitVec 8 := (0#4 ++ m.byteEn) <<< m.lane

def wdataShifted : BitVec 64 := (0#32 ++ m.wdata) <<< m.shift

/-- The address on AW and AR: word N, then word N+1. -/
def busAddr (phase2 : Bool) : Word := if phase2 then m.addrHi else m.addrLo

def busWstrb (phase2 : Bool) : BitVec 4 :=
  if phase2 then m.byteEnShifted.extractLsb 7 4 else m.byteEnShifted.extractLsb 3 0

def busWdata (phase2 : Bool) : Word :=
  if phase2 then m.wdataShifted.extractLsb 63 32 else m.wdataShifted.extractLsb 31 0

/-- An access is presented. -/
@[simp] def presented : Bool := m.re || m.we

variable {m} in
/-- A phase is the last, or the second word is next. -/
theorem noMore_of_last {phase2 : Bool} (hlast : (!m.crosses || phase2) = true) :
    (m.crosses && !phase2) = false := by
  rw [← Bool.not_eq_true', Bool.not_and, Bool.not_not]
  exact hlast

variable {m} in
theorem of_not_last {phase2 : Bool} (hlast : (!m.crosses || phase2) = false) :
    m.crosses = true ∧ phase2 = false := by
  rw [Bool.or_eq_false_iff, Bool.not_eq_false'] at hlast
  exact hlast

end MemReq

/-! ## State and outputs -/

inductive AxilState where
  | idle
  | write
  | wresp
  | read
deriving DecidableEq, Inhabited

/-- The registers of `axil_master`. -/
structure AxilMaster where
  state : AxilState
  awvalid : Bool
  wvalid : Bool
  bready : Bool
  arvalid : Bool
  rready : Bool
  awDone : Bool
  wDone : Bool
  /-- 0 = word N (or the only word), 1 = word N+1 -/
  phase2 : Bool
  wordLoReg : Word

namespace AxilMaster

variable (s : AxilMaster) (m : MemReq) (o : SlaveOut)

@[simp] def phaseDone : Bool := (s.state == .wresp && o.bvalid) || (s.state == .read && o.rvalid)

@[simp] def xferDone : Bool := s.phaseDone o && (!m.crosses || s.phase2)

@[simp] def busStall : Bool := m.presented && !s.xferDone m o

/-- The five channels; address and data are those of the request itself. -/
def out : MasterOut where
  awvalid := s.awvalid
  awaddr := m.busAddr s.phase2
  wvalid := s.wvalid
  wdata := m.busWdata s.phase2
  wstrb := m.busWstrb s.phase2
  bready := s.bready
  arvalid := s.arvalid
  araddr := m.busAddr s.phase2
  rready := s.rready

/-! ### Read data -/

/-- Both words of a crossing access, or the only one. -/
def combined : BitVec 64 := if m.crosses then o.rdata ++ s.wordLoReg else 0#32 ++ o.rdata

def shifted : Word := (s.combined m o >>> m.shift).extractLsb 31 0

/-- `mem_rdata` -/
def memRdata : Word :=
  let v := s.shifted m o
  if m.funct3 = 0b000#3 then (v.extractLsb 7 7).replicate 24 ++ v.extractLsb 7 0         -- lb
  else if m.funct3 = 0b001#3 then (v.extractLsb 15 15).replicate 16 ++ v.extractLsb 15 0 -- lh
  else if m.funct3 = 0b010#3 then v                                                      -- lw
  else if m.funct3 = 0b100#3 then 0#24 ++ v.extractLsb 7 0                               -- lbu
  else if m.funct3 = 0b101#3 then 0#16 ++ v.extractLsb 15 0                              -- lhu
  else v

/-! ## One clock edge -/

/-- The reset values. -/
def reset : AxilMaster where
  state := .idle
  awvalid := false
  wvalid := false
  bready := false
  arvalid := false
  rready := false
  awDone := false
  wDone := false
  phase2 := false
  wordLoReg := 0

@[simp] def awFire : Bool := s.awvalid && o.awready

@[simp] def wFire : Bool := s.wvalid && o.wready

@[simp] def bFire : Bool := s.bready && o.bvalid

@[simp] def arFire : Bool := s.arvalid && o.arready

@[simp] def rFire : Bool := s.rready && o.rvalid

def stepIdle : AxilMaster :=
  let s := { s with awDone := false, wDone := false, phase2 := false }
  if m.we then { s with awvalid := true, wvalid := true, state := .write }
  else if m.re then { s with arvalid := true, rready := true, state := .read }
  else s

/-- AW and W may be accepted on different cycles. -/
def stepWrite : AxilMaster :=
  { s with
    awvalid := s.awvalid && !s.awFire o
    awDone := s.awDone || s.awFire o
    wvalid := s.wvalid && !s.wFire o
    wDone := s.wDone || s.wFire o
    bready := if (s.awDone || s.awFire o) && (s.wDone || s.wFire o) then true else s.bready
    state := if (s.awDone || s.awFire o) && (s.wDone || s.wFire o) then .wresp else .write }

def stepWresp : AxilMaster :=
  if o.bvalid then
    if m.crosses && !s.phase2 then
      -- the second word
      { s with
        phase2 := true, awDone := false, wDone := false, bready := false
        awvalid := true, wvalid := true, state := .write }
    else { s with bready := false, state := .idle }
  else s

def stepRead : AxilMaster :=
  let s' := { s with arvalid := s.arvalid && !s.arFire o }
  if o.rvalid then
    if m.crosses && !s.phase2 then
      { s' with wordLoReg := o.rdata, phase2 := true, arvalid := true }
    else { s' with rready := false, state := .idle }
  else s'

/-- One clock edge outside reset. -/
def step : AxilMaster :=
  match s.state with
  | .idle => s.stepIdle m
  | .write => s.stepWrite o
  | .wresp => s.stepWresp m o
  | .read => s.stepRead m o

/-! ### The states that occur

`awDone` and `wDone` are down exactly while the VALID of their channel is up. -/

section Edge

variable {m : MemReq} {o : SlaveOut} {awDone wDone arDone phase2 : Bool} {wordLoReg : Word}

theorem step_write :
    step ⟨.write, !awDone, !wDone, false, false, false, awDone, wDone, phase2, wordLoReg⟩ m o =
      if (awDone || o.awready) && (wDone || o.wready) then
        ⟨.wresp, false, false, true, false, false, true, true, phase2, wordLoReg⟩
      else ⟨.write, !(awDone || o.awready), !(wDone || o.wready), false, false, false,
        awDone || o.awready, wDone || o.wready, phase2, wordLoReg⟩ := by
  cases awDone <;> cases wDone <;> cases ha : o.awready <;> cases hw : o.wready <;>
    simp [step, stepWrite, ha, hw]

theorem step_wresp :
    step ⟨.wresp, false, false, true, false, false, awDone, wDone, phase2, wordLoReg⟩ m o =
      if o.bvalid then
        if m.crosses && !phase2 then
          ⟨.write, true, true, false, false, false, false, false, true, wordLoReg⟩
        else ⟨.idle, false, false, false, false, false, awDone, wDone, phase2, wordLoReg⟩
      else ⟨.wresp, false, false, true, false, false, awDone, wDone, phase2, wordLoReg⟩ := rfl

theorem step_read :
    step ⟨.read, false, false, false, !arDone, true, awDone, wDone, phase2, wordLoReg⟩ m o =
      if o.rvalid then
        if m.crosses && !phase2 then
          ⟨.read, false, false, false, true, true, awDone, wDone, true, o.rdata⟩
        else ⟨.idle, false, false, false, !(arDone || o.arready), false, awDone, wDone, phase2, wordLoReg⟩
      else ⟨.read, false, false, false, !(arDone || o.arready), true, awDone, wDone, phase2,
        wordLoReg⟩ := by
  have h : ((!arDone) && !(!arDone && o.arready)) = !(arDone || o.arready) := by cases arDone <;> rfl
  simp only [step, stepRead, arFire, h]

end Edge

end AxilMaster

end Rv32i
