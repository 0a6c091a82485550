import Mathlib.Data.BitVec
import Mathlib.Logic.Function.Basic
import Rv32iCore.Soc.Bus

/-!
# `axil_interconnect`: one master, four windows

`priority_encoder`, `arbiter` and `axil_interconnect` of `rtl/vendor/verilog-axi`, with the
parameters of `rtl/soc/soc.v`: one slave interface, four master interfaces without restrictions on
who connects to whom, and a round-robin arbiter that holds a grant until it is acknowledged.

    Arbiter.step_*         what a grant does
    Interconnect.step_*    one edge from each state that a transaction passes through
-/

namespace Rv32i

/-! ## `priority_encoder`, two inputs -/

structure PriorityEncoded where
  valid : Bool
  encoded : BitVec 1
  unencoded : BitVec 2

/-- Bit 0 has the priority. -/
def priorityEncoder (input : BitVec 2) : PriorityEncoded :=
  let encoded := BitVec.ofBool (!input.getLsbD 0)
  { valid := input != 0, encoded, unencoded := 1#2 <<< encoded }

/-! ## `arbiter`, two ports -/

structure Arbiter where
  grant : BitVec 2
  grantValid : Bool
  grantEncoded : BitVec 1
  mask : BitVec 2
deriving DecidableEq, Inhabited

namespace Arbiter

variable (s : Arbiter) (request acknowledge : BitVec 2)

def reset : Arbiter := ⟨0, false, 0, 0⟩

/-- The grant to an encoder's choice; the mask leaves the ports above it. -/
def granted (e : PriorityEncoded) : Arbiter :=
  ⟨e.unencoded, true, e.encoded, 0b11#2 <<< (e.encoded.toNat + 1)⟩

def step : Arbiter :=
  let requested := priorityEncoder request
  let masked := priorityEncoder (request &&& s.mask)
  if s.grantValid && (s.grant &&& acknowledge) == 0 then s   -- not yet acknowledged
  else if requested.valid then (if masked.valid then granted masked else granted requested)
  else { s with grant := 0, grantValid := false, grantEncoded := 0 }

/-- Port 1 (`read`) or port 0 has the grant. -/
structure Granted (read : Bool) : Prop where
  valid : s.grantValid = true
  encoded : s.grantEncoded = BitVec.ofBool read
  grant : s.grant = if read then 0b10 else 0b01

variable {s request acknowledge}

theorem step_idle (h : s.grantValid = false) : (s.step 0 acknowledge).grantValid = false := by
  simp [step, h, priorityEncoder]

/-- The only request gets the grant, whatever the mask. -/
theorem step_request (h : s.grantValid = false) (read : Bool) :
    (s.step (if read then 0b10 else 0b01) acknowledge).Granted read := by
  obtain ⟨grant, valid, encoded, mask⟩ := s
  simp only at h
  subst h
  have hmask : ∀ (mask : BitVec 2) (read : Bool),
      (step ⟨grant, false, encoded, mask⟩ (if read then 0b10 else 0b01) acknowledge) =
        granted (priorityEncoder (if read then 0b10 else 0b01)) := by
    intro mask read
    simp only [step, Bool.false_and, Bool.false_eq_true, if_false]
    revert mask read
    decide
  rw [hmask]
  cases read <;> exact ⟨rfl, rfl, rfl⟩

theorem Granted.step_hold {read : Bool} (h : s.Granted read)
    (hack : (s.grant &&& acknowledge == 0) = true) : s.step request acknowledge = s := by
  simp only [step, h.valid, hack, Bool.and_self, if_true]

theorem Granted.step_release {read : Bool} (h : s.Granted read)
    (hack : (s.grant &&& acknowledge == 0) = false) :
    (s.step 0 acknowledge).grantValid = false := by
  have hnone : (priorityEncoder 0).valid = false := rfl
  simp only [step, h.valid, hack, hnone, Bool.and_false, Bool.false_eq_true, if_false]

end Arbiter

/-! ## The address map -/

/-! Index 0 = dmem, 1 = gpio, 2 = uart, 3 = timer. -/

abbrev dmemPort : Fin 4 := 0

abbrev gpioPort : Fin 4 := 1

abbrev uartPort : Fin 4 := 2

abbrev timerPort : Fin 4 := 3

/-- `M_BASE_ADDR` -/
def icBaseAddr : Fin 4 → Word
  | 0 => 0x80000000
  | 1 => 0x10000000
  | 2 => 0x10001000
  | 3 => 0x10002000

/-- `M_ADDR_WIDTH` -/
def icAddrWidth : Fin 4 → Nat
  | 0 => 16
  | _ => 12

/-- The window that an address is in: the loop of the decode state, the last match standing. -/
def icDecode (addr : Word) : Option (Fin 4) :=
  [0, 1, 2, 3].foldl (fun sel k =>
    if addr >>> icAddrWidth k = icBaseAddr k >>> icAddrWidth k then some k else sel) none

/-! ## `axil_interconnect` -/

inductive IcState where
  | idle
  | decode
  | write
  | writeResp
  | writeDrop
  | read
  | waitIdle
deriving DecidableEq, Inhabited

/-- The registers that are not reset. -/
structure IcPath where
  mSelect : Fin 4
  axilAddr : Word
  axilAddrValid : Bool
  axilData : Word
  axilWstrb : BitVec 4
deriving Inhabited

structure Interconnect where
  state : IcState
  path : IcPath
  sAwready : Bool
  sWready : Bool
  sBvalid : Bool
  sArready : Bool
  sRvalid : Bool
  mAwvalid : Fin 4 → Bool
  mWvalid : Fin 4 → Bool
  mBready : Fin 4 → Bool
  mArvalid : Fin 4 → Bool
  mRready : Fin 4 → Bool
  arb : Arbiter
deriving Inhabited

namespace Interconnect

/-- No bit of a port vector. -/
def noPort : Fin 4 → Bool := fun _ => false

/-- `v[k] = 1'b1` -/
def raise (v : Fin 4 → Bool) (k : Fin 4) : Fin 4 → Bool := Function.update v k true

variable (s : Interconnect) (i : MasterOut) (o : Fin 4 → SlaveOut)

/-- The slave interface, towards `axil_master`. -/
def sOut : SlaveOut where
  awready := s.sAwready
  wready := s.sWready
  bvalid := s.sBvalid
  arready := s.sArready
  rvalid := s.sRvalid
  rdata := s.path.axilData

/-- A master interface, towards the slave of window `k`. -/
def mOut (k : Fin 4) : MasterOut where
  awvalid := s.mAwvalid k
  awaddr := s.path.axilAddr
  wvalid := s.mWvalid k
  wdata := s.path.axilData
  wstrb := s.path.axilWstrb
  bready := s.mBready k
  arvalid := s.mArvalid k
  araddr := s.path.axilAddr
  rready := s.mRready k

/-- Write is port 0, read port 1. -/
def request : BitVec 2 := BitVec.ofBool i.arvalid ++ BitVec.ofBool i.awvalid

def acknowledge : BitVec 2 :=
  BitVec.ofBool (s.arb.grant.getLsbD 1 && s.sRvalid && i.rready) ++
    BitVec.ofBool (s.arb.grant.getLsbD 0 && s.sBvalid && i.bready)

/-- `grant_encoded[0]` -/
def isRead : Bool := s.arb.grantEncoded.getLsbD 0

/-! ### One clock edge -/

/-- After a reset edge; `s` gives the registers that are not reset. -/
def reset : Interconnect where
  state := .idle
  path := s.path
  sAwready := false
  sWready := false
  sBvalid := false
  sArready := false
  sRvalid := false
  mAwvalid := noPort
  mWvalid := noPort
  mBready := noPort
  mArvalid := noPort
  mRready := noPort
  arb := .reset

/-- The defaults: READYs down, a VALID that is taken down. -/
def defaults : Interconnect where
  state := .idle
  path := s.path
  sAwready := false
  sWready := false
  sBvalid := s.sBvalid && !i.bready
  sArready := false
  sRvalid := s.sRvalid && !i.rready
  mAwvalid k := s.mAwvalid k && !(o k).awready
  mWvalid k := s.mWvalid k && !(o k).wready
  mBready := noPort
  mArvalid k := s.mArvalid k && !(o k).arready
  mRready := noPort
  arb := s.arb.step (request i) (s.acknowledge i)

def stepIdle : Interconnect :=
  let n := s.defaults i o
  if s.arb.grantValid then
    if s.isRead then
      { n with
        path.axilAddrValid := true, path.axilAddr := i.araddr, sArready := true, state := .decode }
    else
      { n with
        path.axilAddrValid := true, path.axilAddr := i.awaddr, sAwready := true, state := .decode }
  else { n with state := .idle }

def stepDecode : Interconnect :=
  let n := s.defaults i o
  match icDecode s.path.axilAddr with
  | some k =>
    if s.isRead then
      { n with path.mSelect := k, mRready := raise n.mRready k, state := .read }
    else { n with path.mSelect := k, sWready := true, state := .write }
  | none =>
    -- decode error
    if s.isRead then { n with path.axilData := 0, sRvalid := true, state := .waitIdle }
    else { n with path.axilData := 0, sWready := true, state := .writeDrop }

def stepWrite : Interconnect :=
  let n := s.defaults i o
  let k := s.path.mSelect
  let n := { n with
    path.axilAddrValid := false
    mAwvalid := if s.path.axilAddrValid then raise n.mAwvalid k else n.mAwvalid }
  if s.sWready && i.wvalid then
    { n with
      path.axilData := i.wdata, path.axilWstrb := i.wstrb
      mWvalid := raise n.mWvalid k, mBready := raise n.mBready k, state := .writeResp }
  else { n with sWready := true, state := .write }

def stepWriteResp : Interconnect :=
  let n := s.defaults i o
  let k := s.path.mSelect
  if s.mBready k && (o k).bvalid then { n with sBvalid := true, state := .waitIdle }
  else { n with mBready := raise n.mBready k, state := .writeResp }

def stepWriteDrop : Interconnect :=
  let n := { s.defaults i o with path.axilAddrValid := false }
  if s.sWready && i.wvalid then { n with sBvalid := true, state := .waitIdle }
  else { n with sWready := true, state := .writeDrop }

def stepRead : Interconnect :=
  let n := s.defaults i o
  let k := s.path.mSelect
  let n := { n with
    path.axilAddrValid := false
    mArvalid := if s.path.axilAddrValid then raise n.mArvalid k else n.mArvalid }
  if s.mRready k && (o k).rvalid then
    { n with path.axilData := (o k).rdata, sRvalid := true, state := .waitIdle }
  else { n with mRready := raise n.mRready k, state := .read }

def stepWaitIdle : Interconnect :=
  { s.defaults i o with
    state := if !s.arb.grantValid || s.acknowledge i != 0 then .idle else .waitIdle }

/-- One clock edge outside reset. -/
def step : Interconnect :=
  match s.state with
  | .idle => s.stepIdle i o
  | .decode => s.stepDecode i o
  | .write => s.stepWrite i o
  | .writeResp => s.stepWriteResp i o
  | .writeDrop => s.stepWriteDrop i o
  | .read => s.stepRead i o
  | .waitIdle => s.stepWaitIdle i o

/-! ### The states that a transaction passes through -/

/-- Only port `k`. -/
def onePort (k : Fin 4) : Fin 4 → Bool := raise noPort k

@[simp] theorem onePort_self (k : Fin 4) : onePort k k = true := Function.update_self ..

theorem onePort_of_ne {j k : Fin 4} (h : j ≠ k) : onePort k j = false := Function.update_of_ne h ..

/-- A VALID that its slave takes drops. -/
theorem onePort_taken {k : Fin 4} (ready : Fin 4 → Bool) (h : ready k = true) :
    (fun j => onePort k j && !ready j) = noPort := by
  funext j
  by_cases hj : j = k
  · subst hj
    rw [h, Bool.not_true, Bool.and_false]
    rfl
  · rw [onePort_of_ne hj, Bool.false_and]
    rfl

/-- Nothing raised on either side. -/
def quiet (state : IcState) (path : IcPath) (arb : Arbiter) : Interconnect where
  state := state
  path := path
  sAwready := false
  sWready := false
  sBvalid := false
  sArready := false
  sRvalid := false
  mAwvalid := noPort
  mWvalid := noPort
  mBready := noPort
  mArvalid := noPort
  mRready := noPort
  arb := arb

/-- Its address is accepted. -/
def decoding (path : IcPath) (arb : Arbiter) (read : Bool) : Interconnect :=
  { quiet .decode path arb with sAwready := !read, sArready := read }

/-- The data of a write are accepted, for the slave of the window. -/
def takingData (path : IcPath) (arb : Arbiter) : Interconnect :=
  { quiet .write path arb with sWready := true }

/-- They are accepted, for no slave. -/
def dropping (path : IcPath) (arb : Arbiter) : Interconnect :=
  { quiet .writeDrop path arb with sWready := true }

/-- AW and W are offered to the slave. -/
def sendingWrite (path : IcPath) (arb : Arbiter) : Interconnect :=
  { quiet .writeResp path arb with
    mAwvalid := onePort path.mSelect, mWvalid := onePort path.mSelect
    mBready := onePort path.mSelect }

def awaitingB (path : IcPath) (arb : Arbiter) : Interconnect :=
  { quiet .writeResp path arb with mBready := onePort path.mSelect }

/-- AR is offered to the slave. -/
def sendingRead (path : IcPath) (arb : Arbiter) : Interconnect :=
  { quiet .read path arb with
    mArvalid := onePort path.mSelect, mRready := onePort path.mSelect }

def awaitingR (path : IcPath) (arb : Arbiter) : Interconnect :=
  { quiet .read path arb with mRready := onePort path.mSelect }

/-- B or R is offered to the master. -/
def answering (path : IcPath) (arb : Arbiter) (read : Bool) : Interconnect :=
  { quiet .waitIdle path arb with sBvalid := !read, sRvalid := read }

section Step

variable {path : IcPath} {arb : Arbiter} {i : MasterOut} {o : Fin 4 → SlaveOut} {read : Bool}

theorem request_none (haw : i.awvalid = false) (har : i.arvalid = false) : request i = 0 := by
  rw [request, haw, har]
  rfl

/-- Nothing is acknowledged without B and R. -/
theorem acknowledge_none {s : Interconnect} (hb : s.sBvalid = false) (hr : s.sRvalid = false) :
    s.acknowledge i = 0 := by
  simp [acknowledge, hb, hr]

/-- The defaults while a grant is held. -/
theorem defaults_held {s : Interconnect} (hg : s.arb.Granted read) (hb : s.sBvalid = false)
    (hr : s.sRvalid = false) :
    s.defaults i o =
      { quiet .idle s.path s.arb with
        mAwvalid := fun k => s.mAwvalid k && !(o k).awready
        mWvalid := fun k => s.mWvalid k && !(o k).wready
        mArvalid := fun k => s.mArvalid k && !(o k).arready } := by
  have harb : s.arb.step (request i) (s.acknowledge i) = s.arb := by
    rw [acknowledge_none hb hr]
    exact hg.step_hold (by simp)
  rw [defaults, harb, hb, hr]
  rfl

theorem isRead_of_granted {s : Interconnect} (hg : s.arb.Granted read) : s.isRead = read := by
  rw [isRead, hg.encoded]
  cases read <;> rfl

theorem step_idle (h : arb.grantValid = false) :
    (quiet .idle path arb).step i o = quiet .idle path (arb.step (request i) 0) := by
  have hack : (quiet .idle path arb).acknowledge i = 0 := acknowledge_none rfl rfl
  show stepIdle _ i o = _
  rw [stepIdle, if_neg (by rw [quiet, h]; decide), defaults, hack]
  rfl

theorem step_grant (hg : arb.Granted read) :
    (quiet .idle path arb).step i o =
      decoding { path with
        axilAddrValid := true, axilAddr := if read then i.araddr else i.awaddr } arb read := by
  have hread : (quiet .idle path arb).isRead = read := isRead_of_granted hg
  have hd := defaults_held (s := quiet .idle path arb) (i := i) (o := o) hg rfl rfl
  show stepIdle _ i o = _
  rw [stepIdle, if_pos (by exact hg.valid), hread, hd]
  cases read <;> rfl

/-- What a decode leads to. -/
def decoded (path : IcPath) (arb : Arbiter) (read : Bool) : Option (Fin 4) → Interconnect
  | some k =>
    if read then awaitingR { path with mSelect := k } arb
    else takingData { path with mSelect := k } arb
  | none =>
    if read then answering { path with axilData := 0 } arb true
    else dropping { path with axilData := 0 } arb

theorem step_decode (hg : arb.Granted read) :
    (decoding path arb read).step i o = decoded path arb read (icDecode path.axilAddr) := by
  have hread : (decoding path arb read).isRead = read := isRead_of_granted hg
  have hd := defaults_held (s := decoding path arb read) (i := i) (o := o) hg rfl rfl
  show stepDecode _ i o = _
  rw [stepDecode, hread, hd]
  show (match icDecode path.axilAddr with | some k => _ | none => _) = _
  cases icDecode path.axilAddr <;> cases read <;> rfl

theorem step_write (hg : arb.Granted false) (hv : path.axilAddrValid = true)
    (hw : i.wvalid = true) :
    (takingData path arb).step i o =
      sendingWrite { path with
        axilAddrValid := false, axilData := i.wdata, axilWstrb := i.wstrb } arb := by
  obtain ⟨k, addr, valid, data, wstrb⟩ := path
  obtain rfl : valid = true := hv
  have hd := defaults_held (s := takingData ⟨k, addr, true, data, wstrb⟩ arb) (i := i) (o := o)
    hg rfl rfl
  show stepWrite _ i o = _
  rw [stepWrite, hd, hw]
  rfl

theorem step_writeDrop (hg : arb.Granted false) (hw : i.wvalid = true) :
    (dropping path arb).step i o = answering { path with axilAddrValid := false } arb false := by
  have hd := defaults_held (s := dropping path arb) (i := i) (o := o) hg rfl rfl
  show stepWriteDrop _ i o = _
  rw [stepWriteDrop, hd, hw]
  rfl

/-- AW and W are taken. -/
theorem step_writeSend (hg : arb.Granted false) (haw : (o path.mSelect).awready = true)
    (hw : (o path.mSelect).wready = true) (hb : (o path.mSelect).bvalid = false) :
    (sendingWrite path arb).step i o = awaitingB path arb := by
  have hd := defaults_held (s := sendingWrite path arb) (i := i) (o := o) hg rfl rfl
  show stepWriteResp _ i o = _
  rw [stepWriteResp, hd]
  simp only [sendingWrite, onePort_taken (fun k => (o k).awready) haw,
    onePort_taken (fun k => (o k).wready) hw, quiet, hb, Bool.and_false]
  rfl

theorem step_writeWait (hg : arb.Granted false) :
    (awaitingB path arb).step i o =
      if (o path.mSelect).bvalid then answering path arb false else awaitingB path arb := by
  have hd := defaults_held (s := awaitingB path arb) (i := i) (o := o) hg rfl rfl
  show stepWriteResp _ i o = _
  rw [stepWriteResp, hd]
  simp only [awaitingB, onePort_self, Bool.true_and, quiet]
  cases (o path.mSelect).bvalid <;> rfl

theorem step_read (hg : arb.Granted true) (hv : path.axilAddrValid = true)
    (hr : (o path.mSelect).rvalid = false) :
    (awaitingR path arb).step i o = sendingRead { path with axilAddrValid := false } arb := by
  obtain ⟨k, addr, valid, data, wstrb⟩ := path
  obtain rfl : valid = true := hv
  have hr : (o k).rvalid = false := hr
  have hd := defaults_held (s := awaitingR ⟨k, addr, true, data, wstrb⟩ arb) (i := i) (o := o)
    hg rfl rfl
  show stepRead _ i o = _
  rw [stepRead, hd]
  simp only [awaitingR, quiet, hr, Bool.and_false]
  rfl

/-- AR is taken. -/
theorem step_readSend (hg : arb.Granted true) (hv : path.axilAddrValid = false)
    (har : (o path.mSelect).arready = true) (hr : (o path.mSelect).rvalid = false) :
    (sendingRead path arb).step i o = awaitingR path arb := by
  obtain ⟨k, addr, valid, data, wstrb⟩ := path
  obtain rfl : valid = false := hv
  have hr : (o k).rvalid = false := hr
  have hd := defaults_held (s := sendingRead ⟨k, addr, false, data, wstrb⟩ arb) (i := i) (o := o)
    hg rfl rfl
  show stepRead _ i o = _
  rw [stepRead, hd]
  simp only [sendingRead, onePort_taken (fun k => (o k).arready) har, quiet, hr, Bool.and_false]
  rfl

theorem step_readWait (hg : arb.Granted true) (hv : path.axilAddrValid = false) :
    (awaitingR path arb).step i o =
      if (o path.mSelect).rvalid then
        answering { path with axilData := (o path.mSelect).rdata } arb true
      else awaitingR path arb := by
  obtain ⟨k, addr, valid, data, wstrb⟩ := path
  obtain rfl : valid = false := hv
  have hd := defaults_held (s := awaitingR ⟨k, addr, false, data, wstrb⟩ arb) (i := i) (o := o)
    hg rfl rfl
  show stepRead _ i o = _
  rw [stepRead, hd]
  simp only [awaitingR, onePort_self, Bool.true_and, quiet]
  cases (o k).rvalid <;> rfl

/-- B or R is taken: the grant is released. -/
theorem step_waitIdle (hg : arb.Granted read)
    (hready : (if read then i.rready else i.bready) = true) (hreq : request i = 0) :
    ∃ arb', arb'.grantValid = false ∧
      (answering path arb read).step i o = quiet .idle path arb' := by
  have hack : (answering path arb read).acknowledge i = if read then 0b10 else 0b01 := by
    simp only [acknowledge, answering, quiet, hg.grant]
    cases read with
    | false => simp [show i.bready = true from hready]
    | true => simp [show i.rready = true from hready]
  have hrel : (arb.grant &&& (if read then 0b10 else 0b01) == 0) = false := by
    rw [hg.grant]
    cases read <;> rfl
  refine ⟨_, hg.step_release hrel, ?_⟩
  show stepWaitIdle _ i o = _
  rw [stepWaitIdle, defaults, hack, hreq]
  cases read with
  | false => simp only [answering, quiet, hg.valid, show i.bready = true from hready]; rfl
  | true => simp only [answering, quiet, hg.valid, show i.rready = true from hready]; rfl

end Step
end Interconnect

end Rv32i
