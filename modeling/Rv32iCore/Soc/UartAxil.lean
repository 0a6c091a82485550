import Rv32iCore.Soc.RegDevice

/-!
# `uart_axil`: the register side of the UART

The registers of `rtl/soc/uart_axil.v` behind `axil_reg_if`; what `uart_tx` and `uart_rx` drive
is `UartWires`, arbitrary in every cycle.

* TX: a DATA write waits until the transmitter is ready and is then handed over, once
  (`uart_tx_exact`).
* STATUS: an error pulse sets a sticky bit, and the STATUS read that samples it clears it
  (`uart_sticky_exact`).
-/

namespace Rv32i

open Sync

/-- What `uart_tx` and `uart_rx` drive. -/
structure UartWires where
  txTready : Bool
  txBusy : Bool
  rxTdata : BitVec 8
  rxTvalid : Bool
  rxOverrun : Bool
  rxFrame : Bool
deriving Inhabited

/-- The registers of `uart_axil`. -/
structure UartAxil where
  prescaleReg : BitVec 16
  overrunSticky : Bool
  frameSticky : Bool
deriving DecidableEq, Inhabited

namespace UartAxil

variable (u : UartAxil) (e : UartWires) (wr : RegIfWr) (rd : RegIfRd)

/-! ## Wires -/

/-- DATA, for a write or a read. -/
def selData (addr : Word) : Bool := addr.extractLsb 3 2 == 0b00#2

/-- STATUS -/
def selStatus (addr : Word) : Bool := addr.extractLsb 3 2 == 0b01#2

/-- PRESCALE -/
def selPresc (addr : Word) : Bool := addr.extractLsb 3 2 == 0b10#2

def txTvalid : Bool := wr.wrEn && selData wr.awaddr && e.txTready

/-- `s_axis_tdata` -/
def txTdata : BitVec 8 := wr.wdata.extractLsb 7 0

def regWrWait : Bool := wr.wrEn && selData wr.awaddr && !e.txTready

def regWrAck : Bool := wr.wrEn && (!selData wr.awaddr || e.txTready)

def dataReadFire : Bool := rd.rdEn && selData rd.araddr

def statusReadFire : Bool := rd.rdEn && selStatus rd.araddr

def rxTready : Bool := dataReadFire rd && e.rxTvalid

/-- `reg_rd_data` -/
def rdData (addr : Word) : Word :=
  if addr.extractLsb 3 2 = 0b00#2 then 0#24 ++ e.rxTdata
  else if addr.extractLsb 3 2 = 0b01#2 then
    0#28 ++ BitVec.ofBool u.frameSticky ++ BitVec.ofBool u.overrunSticky ++
      BitVec.ofBool e.rxTvalid ++ BitVec.ofBool e.txBusy
  else if addr.extractLsb 3 2 = 0b10#2 then 0#16 ++ u.prescaleReg
  else 0

/-! ## Clock edges -/

def nextPrescaleReg : BitVec 16 :=
  if wr.wrEn && selPresc wr.awaddr then wr.wdata.extractLsb 15 0 else u.prescaleReg

/-- Clear, then set. -/
def nextOverrunSticky : Bool :=
  let n := if statusReadFire rd then false else u.overrunSticky
  if e.rxOverrun then true else n

def nextFrameSticky : Bool :=
  let n := if statusReadFire rd then false else u.frameSticky
  if e.rxFrame then true else n

end UartAxil

open UartAxil in
/-- `uart_axil` with its parameter `PRESCALE_INIT`: a DATA write waits for the transmitter, any
other write is acknowledged at once. -/
def uartAxil (prescaleInit : BitVec 16) : RegDevice UartAxil UartWires where
  wrWait _ e wr := regWrWait e wr
  wrAck _ e wr := regWrAck e wr
  rdData u e addr := u.rdData e addr
  next u e wr rd := ⟨u.nextPrescaleReg wr, u.nextOverrunSticky e rd, u.nextFrameSticky e rd⟩
  reset := ⟨prescaleInit, false, false⟩
  ack_en _ _ _ h := (Bool.and_eq_true_iff.1 h).1
  answers _ e wr h := by
    unfold regWrAck regWrWait
    rw [h]
    cases selData wr.awaddr <;> cases e.txTready <;> rfl

namespace UartAxil

/-! ## Transmit -/

/-- The byte handed to `uart_tx`: `tvalid` and `tready` are both high. -/
def handed (s : RegSlave UartAxil) (i : RegIn UartWires) : List (BitVec 8) :=
  if txTvalid i.env s.wr && i.env.txTready then [txTdata s.wr] else []

/-- The byte that a write sends. -/
def dataByte (w : RegWrite) : Option (BitVec 8) :=
  if selData w.1 then some (w.2.1.extractLsb 7 0) else none

/-- **One cycle.**  A DATA write hands its byte over in the cycle in which it is performed. -/
theorem handed_eq (init : BitVec 16) (s : RegSlave UartAxil) (i : RegIn UartWires) :
    handed s i = (s.applied i (uartAxil init)).filterMap dataByte := by
  show _ = (if regWrAck i.env s.wr then [(s.wr.awaddr, s.wr.wdata, s.wr.wstrb)] else []).filterMap _
  unfold handed txTvalid regWrAck
  cases hen : s.wr.wrEn with
  | false => rfl
  | true =>
    cases hsel : selData s.wr.awaddr with
    | false => simp [dataByte, hsel]
    | true => cases i.env.txTready <;> simp [dataByte, hsel, txTdata]

/-- **Transmit loses and duplicates nothing.**  Whatever the master and the transmitter do, the
bytes handed over are those of the DATA writes accepted, in order, all but that of the one
write still waiting; and a write has its B only when its byte has been handed over. -/
theorem uart_tx_exact (init : BitVec 16) (s : RegSlave UartAxil) (is : List (RegIn UartWires)) :
    let U := uartAxil init
    let t := run U.step (U.start s) is
    ∃ performed, U.accepted (U.start s) is = performed ++ t.waiting ∧ t.waiting.length ≤ 1 ∧
      outputs U.step handed (U.start s) is = performed.filterMap dataByte ∧
      (outputs U.step RegSlave.bTaken (U.start s) is).length + t.wr.bvalid.toNat =
        performed.length := by
  intro U t
  refine ⟨outputs U.step (fun s i => s.applied i U) (U.start s) is, U.writes_applied s is,
    t.waiting_length, ?_, U.writes_answered s is⟩
  rw [← outputs_filterMap]
  apply outputs_congr
  intro c _
  exact handed_eq init c.1 c.2

/-! ## Status -/

/-- The cycle samples a STATUS read. -/
def readsStatus (s : RegSlave UartAxil) (_ : RegIn UartWires) : Bool := statusReadFire s.rd

theorem sampled_status {init : BitVec 16} {s : RegSlave UartAxil} {i : RegIn UartWires}
    {a data : Word} (h : (a, data) ∈ s.sampled i (uartAxil init)) (ha : selStatus a = true) :
    data.getLsbD 2 = s.dev.overrunSticky ∧ data.getLsbD 3 = s.dev.frameSticky ∧
      data.getLsbD 1 = i.env.rxTvalid := by
  have hbits : ∀ f o v b : Bool,
      let w : Word := 0#28 ++ BitVec.ofBool f ++ BitVec.ofBool o ++ BitVec.ofBool v ++ BitVec.ofBool b
      w.getLsbD 2 = o ∧ w.getLsbD 3 = f ∧ w.getLsbD 1 = v := by
    decide
  unfold RegSlave.sampled at h
  split_ifs at h with hen
  · rw [List.mem_singleton, Prod.mk.injEq] at h
    obtain ⟨rfl, rfl⟩ := h
    have hst : s.rd.araddr.extractLsb 3 2 = 0b01#2 := by simpa [selStatus] using ha
    have hdata : (uartAxil init).rdData s.dev i.env s.rd.araddr =
        0#28 ++ BitVec.ofBool s.dev.frameSticky ++ BitVec.ofBool s.dev.overrunSticky ++
          BitVec.ofBool i.env.rxTvalid ++ BitVec.ofBool i.env.txBusy := by
      show s.dev.rdData i.env s.rd.araddr = _
      rw [rdData, if_neg (by rw [hst]; decide), if_pos hst]
    rw [hdata]
    exact hbits _ _ _ _
  · cases h

/-- Some cycle of the run so far had a pulse, and no later one has sampled STATUS. -/
def PulseSince (U : RegDevice UartAxil UartWires) (pulse : UartWires → Bool)
    (s : RegSlave UartAxil) (is : List (RegIn UartWires)) : Prop :=
  ∃ xs c ys, cycles U.step s is = xs ++ c :: ys ∧ pulse c.2.env = true ∧
    ∀ d ∈ ys, readsStatus d.1 d.2 = false

/-- **Sticky bits are exact.**  Each STATUS read returns what was sampled for it, and there the
overrun (frame) bit is set exactly when a pulse came in or after the cycle that sampled the
STATUS read before it. -/
theorem uart_sticky_exact (init : BitVec 16) (s : RegSlave UartAxil) (is : List (RegIn UartWires)) :
    let U := uartAxil init
    let t := run U.step (U.start s) is
    let samples := outputs U.step (fun s i => s.sampled i U) (U.start s) is
    outputs U.step RegSlave.arTaken (U.start s) is = samples.map Prod.fst ++ t.arHeld ∧
    outputs U.step RegSlave.rTaken (U.start s) is ++ t.rHeld = samples.map Prod.snd ∧
    ∀ i a data, (a, data) ∈ t.sampled i U → selStatus a = true →
      (data.getLsbD 2 = true ↔ PulseSince U UartWires.rxOverrun (U.start s) is) ∧
      (data.getLsbD 3 = true ↔ PulseSince U UartWires.rxFrame (U.start s) is) := by
  intro U t samples
  refine ⟨U.reads_sampled s is, U.reads_answered s is, fun i a data hs ha => ?_⟩
  obtain ⟨ho, hf, -⟩ := sampled_status hs ha
  rw [ho, hf]
  constructor
  · apply sticky_iff (fun s => s.dev.overrunSticky) (fun _ i => i.env.rxOverrun) readsStatus
    · intro s i
      show s.dev.nextOverrunSticky i.env s.rd = _
      unfold nextOverrunSticky readsStatus
      cases i.env.rxOverrun <;> cases statusReadFire s.rd <;> simp
    · rfl
  · apply sticky_iff (fun s => s.dev.frameSticky) (fun _ i => i.env.rxFrame) readsStatus
    · intro s i
      show s.dev.nextFrameSticky i.env s.rd = _
      unfold nextFrameSticky readsStatus
      cases i.env.rxFrame <;> cases statusReadFire s.rd <;> simp
    · rfl

/-- An overrun while a STATUS read is asked for. -/
def overrunThenStatus : RegIn UartWires where
  bus := { (default : MasterOut) with arvalid := true, araddr := 4 }
  env := { (default : UartWires) with rxOverrun := true }

/-- The read returns 4: the overrun bit and no other. -/
theorem uart_sticky_exact_overrun :
    let U := uartAxil 81
    let t := run U.step (U.start default) [overrunThenStatus]
    t.sampled ⟨default, default⟩ U = [(4, 4)] ∧
      PulseSince U UartWires.rxOverrun (U.start default) [overrunThenStatus] ∧
      ¬ PulseSince U UartWires.rxFrame (U.start default) [overrunThenStatus] := by
  intro U t
  have hsampled : t.sampled ⟨default, default⟩ U = [(4, 4)] := by decide +kernel
  have h := (uart_sticky_exact 81 default [overrunThenStatus]).2.2 ⟨default, default⟩ 4 4
    (by rw [show RegSlave.sampled _ _ _ = _ from hsampled]; exact List.mem_singleton_self _)
    (by decide)
  exact ⟨hsampled, h.1.1 (by decide), fun hf => absurd (h.2.2 hf) (by decide)⟩

end UartAxil

end Rv32i
