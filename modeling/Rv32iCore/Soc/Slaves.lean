import Rv32iCore.Soc.AxilMem
import Rv32iCore.Soc.Gpio
import Rv32iCore.Soc.Interconnect
import Rv32iCore.Soc.Timer
import Rv32iCore.Soc.UartAxil

/-!
# The slaves of `soc`

`axil_mem`, `gpio`, `uart_axil` and `timer` behind the four windows, as `rtl/soc/soc.v` wires them,
and the requests that they hold.

    Idle.step_write, Idle.step_read    a request is shown in the next cycle
    Writing.step, Reading.step         it is answered, unless the transmitter is waited for
-/

namespace Rv32i

open Sync

structure Slaves where
  uDmem : AxilMem
  uGpio : RegSlave Gpio
  uUart : RegSlave UartAxil
  uTimer : RegSlave Timer

/-- What the slaves see next to the bus: the switches, and what `uart_tx` and `uart_rx` drive. -/
structure SlavesIn where
  sw : BitVec 16
  uart : UartWires
deriving Inhabited

/-- `PRESCALE_INIT`, which `soc` leaves as it is. -/
def socUart : RegDevice UartAxil UartWires := uartAxil 81

namespace Slaves

variable (s : Slaves) (bus : Fin 4 → MasterOut) (e : SlavesIn)

/-- The windows in order: dmem, gpio, uart, timer. -/
def out : Fin 4 → SlaveOut
  | 0 => s.uDmem.out
  | 1 => s.uGpio.out
  | 2 => s.uUart.out
  | 3 => s.uTimer.out

def reset : Slaves where
  uDmem := s.uDmem.reset
  uGpio := gpio.start s.uGpio
  uUart := socUart.start s.uUart
  uTimer := timer.start s.uTimer

/-- One clock edge outside reset. -/
def step : Slaves where
  uDmem := s.uDmem.step (bus dmemPort)
  uGpio := gpio.step s.uGpio ⟨bus gpioPort, e.sw⟩
  uUart := socUart.step s.uUart ⟨bus uartPort, e.uart⟩
  uTimer := timer.step s.uTimer ⟨bus timerPort, ()⟩

/-! ### Their register interfaces -/

def wr : Fin 4 → RegIfWr
  | 0 => s.uDmem.wr
  | 1 => s.uGpio.wr
  | 2 => s.uUart.wr
  | 3 => s.uTimer.wr

def rd : Fin 4 → RegIfRd
  | 0 => s.uDmem.rd
  | 1 => s.uGpio.rd
  | 2 => s.uUart.rd
  | 3 => s.uTimer.rd

variable {s}

theorem out_eq (k : Fin 4) :
    s.out k = ⟨(s.wr k).awready, (s.wr k).wready, (s.wr k).bvalid, (s.rd k).arready,
      (s.rd k).rvalid, (s.rd k).rdata⟩ := by
  match k with
  | 0 => rfl
  | 1 => rfl
  | 2 => rfl
  | 3 => rfl

/-- A write that is shown is acknowledged, unless it is for the transmitter. -/
theorem step_wr (s : Slaves) (bus : Fin 4 → MasterOut) (e : SlavesIn) (k : Fin 4) :
    ∃ wrWait wrAck,
    (s.step bus e).wr k = (s.wr k).step (bus k) wrWait wrAck ∧
      ((s.wr k).wrEn = true → wrAck = true ∨
        k = uartPort ∧ UartAxil.selData (s.wr k).awaddr = true ∧ e.uart.txTready = false) := by
  match k with
  | 0 => exact ⟨_, _, rfl, fun h => .inl h⟩
  | 1 => exact ⟨_, _, rfl, fun h => .inl h⟩
  | 3 => exact ⟨_, _, rfl, fun h => .inl h⟩
  | 2 =>
    refine ⟨_, _, rfl, fun h => ?_⟩
    replace h : s.uUart.wr.wrEn = true := h
    show UartAxil.regWrAck e.uart s.uUart.wr = true ∨
      uartPort = uartPort ∧ UartAxil.selData s.uUart.wr.awaddr = true ∧ _
    rw [UartAxil.regWrAck, h]
    cases UartAxil.selData s.uUart.wr.awaddr <;> cases e.uart.txTready <;> simp

/-- So is a read, that of `dmem` after its wait cycle. -/
theorem step_rd (s : Slaves) (bus : Fin 4 → MasterOut) (e : SlavesIn) (k : Fin 4) :
    ∃ data rdWait rdAck,
    (s.step bus e).rd k = (s.rd k).step (bus k) data rdWait rdAck ∧
      ((s.rd k).rdEn = true → rdAck = true ∨
        k = dmemPort ∧ s.uDmem.rdPending = false ∧ (s.step bus e).uDmem.rdPending = true) := by
  match k with
  | 1 => exact ⟨_, _, _, rfl, fun h => .inl h⟩
  | 2 => exact ⟨_, _, _, rfl, fun h => .inl h⟩
  | 3 => exact ⟨_, _, _, rfl, fun h => .inl h⟩
  | 0 =>
    refine ⟨_, _, _, rfl, fun h => ?_⟩
    replace h : s.uDmem.rd.rdEn = true := h
    show (s.uDmem.rd.rdEn && s.uDmem.rdPending) = true ∨
      dmemPort = dmemPort ∧ _ ∧ (s.uDmem.rd.rdEn && !s.uDmem.rdPending) = true
    rw [h]
    cases s.uDmem.rdPending <;> simp

/-! ### The requests that they hold -/

/-- Each slave is with the write and the read that are given for it. -/
def Serve (s : Slaves) (qw : Fin 4 → WrReq) (qr : Fin 4 → RdReq) : Prop :=
  ∀ k, WrInv (s.wr k) (qw k) ∧ RdInv (s.rd k) (qr k)

/-- No slave has a request. -/
def Idle (s : Slaves) : Prop := s.Serve (fun _ => .idle) fun _ => none

/-- Slave `k` has a write, the others nothing. -/
def Writing (s : Slaves) (k : Fin 4) (a : Word) (d : Word × BitVec 4) : Prop :=
  s.Serve (Function.update (fun _ => .idle) k ⟨some a, some d⟩) fun _ => none

def Reading (s : Slaves) (k : Fin 4) (a : Word) : Prop :=
  s.Serve (fun _ => .idle) (Function.update (fun _ => none) k (some a))

theorem reset_idle (s : Slaves) : s.reset.Idle := by
  have hwr : ∀ r : RegIfWr, WrInv r.reset .idle := fun _ =>
    .gather rfl rfl rfl rfl rfl nofun nofun
  have hrd : ∀ r : RegIfRd, RdInv r.reset none := fun _ => .idle rfl rfl rfl rfl
  intro k
  match k with
  | 0 => exact ⟨hwr _, hrd _⟩
  | 1 => exact ⟨hwr _, hrd _⟩
  | 2 => exact ⟨hwr _, hrd _⟩
  | 3 => exact ⟨hwr _, hrd _⟩

/-- **One cycle**, for a master that asks no slave for what it already has. -/
theorem Serve.step {qw : Fin 4 → WrReq} {qr : Fin 4 → RdReq} (h : s.Serve qw qr)
    (hw : ∀ k, ((qw k).answer ((s.wr k).bFire (bus k))).Free (bus k))
    (hr : ∀ k, ((qr k).answer ((s.rd k).rFire (bus k))).Free (bus k)) :
    (s.step bus e).Serve
      (fun k => ((qw k).answer ((s.wr k).bFire (bus k))).accept (bus k)
        ((bus k).awvalid && (s.wr k).awready) ((bus k).wvalid && (s.wr k).wready))
      (fun k => ((qr k).answer ((s.rd k).rFire (bus k))).accept (bus k)
        ((bus k).arvalid && (s.rd k).arready)) := by
  intro k
  obtain ⟨wrWait, wrAck, hwr, -⟩ := step_wr s bus e k
  obtain ⟨data, rdWait, rdAck, hrd, -⟩ := step_rd s bus e k
  rw [hwr, hrd]
  exact ⟨(h k).1.step (hw k), (h k).2.step (hr k)⟩

/-- Nobody is asked for anything. -/
def NoRequest (bus : Fin 4 → MasterOut) : Prop :=
  ∀ k, (bus k).awvalid = false ∧ (bus k).wvalid = false ∧ (bus k).arvalid = false

theorem Serve.step_answer {qw : Fin 4 → WrReq} {qr : Fin 4 → RdReq} (h : s.Serve qw qr)
    (hbus : NoRequest bus) :
    (s.step bus e).Serve (fun k => (qw k).answer ((s.wr k).bFire (bus k)))
      (fun k => (qr k).answer ((s.rd k).rFire (bus k))) := by
  have hstep := h.step bus e
    (fun k => ⟨fun hv => absurd ((hbus k).1.symm.trans hv) Bool.false_ne_true,
      fun hv => absurd ((hbus k).2.1.symm.trans hv) Bool.false_ne_true⟩)
    (fun k hv => absurd ((hbus k).2.2.symm.trans hv) Bool.false_ne_true)
  intro k
  obtain ⟨haw, hw, har⟩ := hbus k
  have hk := hstep k
  simp only [haw, hw, har, Bool.false_and] at hk
  exact hk

theorem Idle.step (h : s.Idle) (hbus : NoRequest bus) : (s.step bus e).Idle := by
  have hstep := Serve.step_answer bus e h hbus
  simp only [WrReq.answer_idle, RdReq.answer_none] at hstep
  exact hstep

/-- Idle slaves have room and nothing on offer. -/
theorem Idle.out (h : s.Idle) (k : Fin 4) :
    (s.out k).awready = true ∧ (s.out k).wready = true ∧ (s.out k).arready = true ∧
      (s.out k).bvalid = false ∧ (s.out k).rvalid = false := by
  obtain ⟨-, hb, haw, hw⟩ := (h k).1.of_idle
  obtain ⟨-, hr, har⟩ := (h k).2.of_none
  rw [out_eq]
  simp [haw, hw, har, hb, hr]

/-- Idle slaves take what they are asked for. -/
theorem Idle.step_accept (h : s.Idle) :
    (s.step bus e).Serve
      (fun k => WrReq.idle.accept (bus k) (bus k).awvalid (bus k).wvalid)
      (fun k => RdReq.accept none (bus k) (bus k).arvalid) := by
  have hstep := Serve.step bus e h
    (fun k => by
      rw [WrReq.answer_idle]
      exact ⟨fun _ => rfl, fun _ => rfl⟩)
    (fun k _ => RdReq.answer_none _)
  intro k
  obtain ⟨-, hb, haw, hw⟩ := (h k).1.of_idle
  obtain ⟨-, hr, har⟩ := (h k).2.of_none
  have hk := hstep k
  simpa [haw, hw, har] using hk

open Interconnect in
/-- A write that is offered to one of them is shown there in the next cycle. -/
theorem Idle.step_write {k : Fin 4} (h : s.Idle)
    (hbus : ∀ j, (bus j).awvalid = onePort k j ∧ (bus j).wvalid = onePort k j ∧
      (bus j).arvalid = false) :
    (s.step bus e).Writing k (bus k).awaddr ((bus k).wdata, (bus k).wstrb) ∧
      ((s.step bus e).wr k).bvalid = false := by
  constructor
  · have hwr : (fun j => WrReq.idle.accept (bus j) (bus j).awvalid (bus j).wvalid) =
        Function.update (fun _ => .idle) k
          ⟨some (bus k).awaddr, some ((bus k).wdata, (bus k).wstrb)⟩ := by
      funext j
      rw [(hbus j).1, (hbus j).2.1]
      exact Function.apply_update (fun j v => WrReq.idle.accept (bus j) v v) noPort k true j
    have hrd : (fun j => RdReq.accept none (bus j) (bus j).arvalid) = fun _ => none := by
      funext j
      rw [(hbus j).2.2]
      rfl
    have hstep := h.step_accept bus e
    rw [hwr, hrd] at hstep
    exact hstep
  · obtain ⟨wrWait, wrAck, hwr, -⟩ := step_wr s bus e k
    obtain ⟨hen, hb, -⟩ := (h k).1.of_idle
    rw [hwr, RegIfWr.step_bvalid, hen, hb]
    rfl

open Interconnect in
theorem Idle.step_read {k : Fin 4} (h : s.Idle)
    (hbus : ∀ j, (bus j).awvalid = false ∧ (bus j).wvalid = false ∧
      (bus j).arvalid = onePort k j) :
    (s.step bus e).Reading k (bus k).araddr := by
  have hwr : (fun j => WrReq.idle.accept (bus j) (bus j).awvalid (bus j).wvalid) =
      fun _ => .idle := by
    funext j
    rw [(hbus j).1, (hbus j).2.1]
    rfl
  have hrd : (fun j => RdReq.accept none (bus j) (bus j).arvalid) =
      Function.update (fun _ => none) k (some (bus k).araddr) := by
    funext j
    rw [(hbus j).2.2]
    exact Function.apply_update (fun j v => RdReq.accept none (bus j) v) noPort k true j
  have hstep := h.step_accept bus e
  rw [hwr, hrd] at hstep
  exact hstep

/-- Only slave `k` has something to answer. -/
theorem Writing.step_answer {k : Fin 4} {a : Word} {d : Word × BitVec 4} (h : s.Writing k a d)
    (hbus : NoRequest bus) :
    (s.step bus e).Serve
      (Function.update (fun _ => .idle) k
        (WrReq.answer ⟨some a, some d⟩ ((s.wr k).bFire (bus k)))) fun _ => none := by
  have hstep := Serve.step_answer bus e h hbus
  have hwr : (fun j => WrReq.answer (Function.update (fun _ => WrReq.idle) k ⟨some a, some d⟩ j)
        ((s.wr j).bFire (bus j))) =
      Function.update (fun _ => .idle) k
        (WrReq.answer ⟨some a, some d⟩ ((s.wr k).bFire (bus k))) := by
    funext j
    rw [Function.apply_update (fun j q => WrReq.answer q ((s.wr j).bFire (bus j)))]
    simp only [WrReq.answer_idle]
  simp only [hwr, RdReq.answer_none] at hstep
  exact hstep

theorem Reading.step_answer {k : Fin 4} {a : Word} (h : s.Reading k a) (hbus : NoRequest bus) :
    (s.step bus e).Serve (fun _ => .idle)
      (Function.update (fun _ => none) k (RdReq.answer (some a) ((s.rd k).rFire (bus k)))) := by
  have hstep := Serve.step_answer bus e h hbus
  have hrd : (fun j => RdReq.answer (Function.update (fun _ => none) k (some a) j)
        ((s.rd j).rFire (bus j))) =
      Function.update (fun _ => none) k (RdReq.answer (some a) ((s.rd k).rFire (bus k))) := by
    funext j
    rw [Function.apply_update (fun j q => RdReq.answer q ((s.rd j).rFire (bus j)))]
    simp only [RdReq.answer_none]
  simp only [hrd, WrReq.answer_idle] at hstep
  exact hstep

/-- B is taken, or offered next, or the transmitter is waited for. -/
theorem Writing.step {k : Fin 4} {a : Word} {d : Word × BitVec 4} (h : s.Writing k a d)
    (hbus : NoRequest bus) (hready : (bus k).bready = true) :
    ((s.wr k).bvalid = true ∧ (s.step bus e).Idle) ∨
      (s.wr k).bvalid = false ∧ (s.step bus e).Writing k a d ∧
        (((s.step bus e).wr k).bvalid = true ∨
          ((s.step bus e).wr k).bvalid = false ∧ k = uartPort ∧ UartAxil.selData a = true ∧
            e.uart.txTready = false) := by
  have hnext := h.step_answer bus e hbus
  have hk : WrInv (s.wr k) ⟨some a, some d⟩ := by simpa using (h k).1
  cases hb : (s.wr k).bvalid with
  | true =>
    rw [RegIfWr.bFire, hb, hready, WrReq.answer, Bool.and_self, if_pos rfl,
      Function.update_eq_self] at hnext
    exact .inl ⟨rfl, hnext⟩
  | false =>
    rw [WrReq.answer_of_no_b hb] at hnext
    refine .inr ⟨rfl, hnext, ?_⟩
    obtain ⟨wrWait, wrAck, hwr, hack⟩ := step_wr s bus e k
    obtain ⟨hen, ha⟩ := hk.performing hb
    rw [hwr, RegIfWr.step_bvalid, hen, hb]
    rcases hack hen with hack | ⟨hk2, hsel, hready⟩
    · left
      rw [hack]
      rfl
    · rw [ha] at hsel
      cases (true && (wrAck || (s.wr k).timeoutCount == 0) || (false && !(bus k).bready)) with
      | true => exact .inl rfl
      | false => exact .inr ⟨rfl, hk2, hsel, hready⟩

/-- Cycles until R is on offer. -/
def readRank (s : Slaves) (k : Fin 4) : Nat :=
  if (s.rd k).rvalid then 0 else if k = dmemPort ∧ s.uDmem.rdPending = false then 2 else 1

theorem readRank_le (s : Slaves) (k : Fin 4) : s.readRank k ≤ 2 := by
  unfold readRank
  split_ifs <;> decide

/-- R is taken, or comes nearer. -/
theorem Reading.step {k : Fin 4} {a : Word} (h : s.Reading k a) (hbus : NoRequest bus)
    (hready : (bus k).rready = true) :
    ((s.rd k).rvalid = true ∧ (s.step bus e).Idle) ∨
      (s.rd k).rvalid = false ∧ (s.step bus e).Reading k a ∧
        (s.step bus e).readRank k < s.readRank k := by
  have hnext := h.step_answer bus e hbus
  have hk : RdInv (s.rd k) (some a) := by simpa using (h k).2
  cases hr : (s.rd k).rvalid with
  | true =>
    rw [RegIfRd.rFire, hr, hready, RdReq.answer, Bool.and_self, if_pos rfl,
      Function.update_eq_self] at hnext
    exact .inl ⟨rfl, hnext⟩
  | false =>
    rw [RdReq.answer_of_no_r hr] at hnext
    refine .inr ⟨rfl, hnext, ?_⟩
    obtain ⟨data, rdWait, rdAck, hrd, hack⟩ := step_rd s bus e k
    have hen := hk.performing hr
    unfold readRank
    rw [hrd, RegIfRd.step_rvalid, hen, hr]
    rcases hack hen with hack | ⟨rfl, hpending, hpending'⟩
    · rw [hack]
      simp only [Bool.true_or, Bool.true_and, if_true, Bool.false_eq_true, if_false]
      split_ifs <;> decide
    · rw [hpending, hpending']
      split_ifs <;> simp_all

end Slaves

end Rv32i
