import Rv32iCore.Lib.Stream
import Rv32iCore.Soc.AxilMaster
import Rv32iCore.Soc.Slaves

/-!
# The bus of `soc`

`axil_master`, `axil_interconnect` and the four slaves, and what becomes of one access that the MEM
stage holds.

Each word of it passes through the stages of `Fabric.Stage`: requested, granted, decoded, sent to
the slave of its window or dropped, answered.  A stage is left for one of lower rank after one
cycle; only a write to UART DATA stays until the transmitter is ready.

    Fabric.Stage.step       one cycle of an access
    bus_access_completes    every access comes to its end, and the bus is idle again
-/

namespace Rv32i

open Sync

/-! ## The bus -/

structure Fabric where
  master : AxilMaster
  ic : Interconnect
  slaves : Slaves

namespace Fabric

variable (s : Fabric) (m : MemReq) (e : SlavesIn)

def busStall : Bool := s.master.busStall m s.ic.sOut

/-- One clock edge outside reset, with the request `m` in the MEM stage. -/
def step : Fabric where
  master := s.master.step m s.ic.sOut
  ic := s.ic.step (s.master.out m) s.slaves.out
  slaves := s.slaves.step s.ic.mOut e

/-- After a reset edge; `s` gives the registers that are not reset. -/
def reset : Fabric := ⟨.reset, s.ic.reset, s.slaves.reset⟩

end Fabric

/-! ## The master, word by word -/

namespace AxilMaster

/-- A word is requested. -/
def asking (read phase2 : Bool) (wordLoReg : Word) : AxilMaster :=
  if read then ⟨.read, false, false, false, true, true, false, false, phase2, wordLoReg⟩
  else ⟨.write, true, true, false, false, false, false, false, phase2, wordLoReg⟩

/-- The address is accepted, the data of a write not yet. -/
def asked (read phase2 : Bool) (wordLoReg : Word) : AxilMaster :=
  if read then ⟨.read, false, false, false, false, true, false, false, phase2, wordLoReg⟩
  else ⟨.write, false, true, false, false, false, true, false, phase2, wordLoReg⟩

/-- Everything is accepted; R or B is waited for. -/
def awaiting (read phase2 : Bool) (wordLoReg : Word) : AxilMaster :=
  if read then ⟨.read, false, false, false, false, true, false, false, phase2, wordLoReg⟩
  else ⟨.wresp, false, false, true, false, false, true, true, phase2, wordLoReg⟩

variable {m : MemReq} {o : SlaveOut} {read phase2 awDone wDone : Bool} {wordLoReg : Word}

theorem step_begin (hm : m.presented = true) :
    step ⟨.idle, false, false, false, false, false, awDone, wDone, phase2, wordLoReg⟩ m o =
      asking (!m.we) false wordLoReg := by
  simp only [MemReq.presented] at hm
  cases hw : m.we with
  | true => simp [step, stepIdle, hw, asking]
  | false =>
    have hr : m.re = true := by simpa [hw] using hm
    simp [step, stepIdle, hw, hr, asking]

theorem step_asking (haw : o.awready = false) (hw : o.wready = false) (har : o.arready = false)
    (hr : o.rvalid = false) :
    (asking read phase2 wordLoReg).step m o = asking read phase2 wordLoReg := by
  cases read <;> simp [step, stepWrite, stepRead, asking, haw, hw, har, hr]

theorem step_accepted (haw : o.awready = !read) (hw : o.wready = false) (har : o.arready = read)
    (hr : o.rvalid = false) :
    (asking read phase2 wordLoReg).step m o = asked read phase2 wordLoReg := by
  cases read <;> simp [step, stepWrite, stepRead, asking, asked, haw, hw, har, hr]

theorem step_data (hw : o.wready = true) :
    (asked false phase2 wordLoReg).step m o = awaiting false phase2 wordLoReg := by
  simp [step, stepWrite, asked, awaiting, hw]

theorem step_awaiting (hb : o.bvalid = false) (hr : o.rvalid = false) :
    (awaiting read phase2 wordLoReg).step m o = awaiting read phase2 wordLoReg := by
  cases read <;> simp [step, stepWresp, stepRead, awaiting, hb, hr]

theorem step_next (hb : o.bvalid = !read) (hr : o.rvalid = read)
    (hlast : (!m.crosses || phase2) = false) :
    (awaiting read phase2 wordLoReg).step m o =
      asking read true (if read then o.rdata else wordLoReg) := by
  obtain ⟨hc, rfl⟩ := MemReq.of_not_last hlast
  cases read <;> simp [step, stepWresp, stepRead, awaiting, asking, hb, hr, hc]

theorem step_last (hb : o.bvalid = !read) (hr : o.rvalid = read)
    (hlast : (!m.crosses || phase2) = true) :
    (awaiting read phase2 wordLoReg).step m o =
      ⟨.idle, false, false, false, false, false, !read, !read, phase2, wordLoReg⟩ := by
  have hmore := MemReq.noMore_of_last hlast
  cases read <;> simp [step, stepWresp, stepRead, awaiting, hb, hr, hmore]

end AxilMaster

/-! ## One access, stage by stage -/

namespace Fabric

open Interconnect

/-- Nothing is under way. -/
structure Idle (s : Fabric) : Prop where
  master : ∃ awDone wDone phase2 wordLoReg,
    s.master = ⟨.idle, false, false, false, false, false, awDone, wDone, phase2, wordLoReg⟩
  ic : ∃ path arb, s.ic = quiet .idle path arb ∧ arb.grantValid = false
  slaves : s.slaves.Idle

/-- What the second word of an access still adds. -/
def left (m : MemReq) (phase2 : Bool) : Nat := if m.crosses && !phase2 then 10 else 0

/-- A word that the access consists of, to be read or written. -/
structure Part (m : MemReq) (read phase2 : Bool) : Prop where
  read : read = !m.we
  crosses : phase2 = true → m.crosses = true

/-- Where an access is, with its rank. -/
inductive Stage (m : MemReq) : Nat → Fabric → Prop
  | idle {s} (h : Idle s) : Stage m (10 + left m false) s
  | requested {read phase2 wordLoReg path arb slaves} (hw : Part m read phase2)
    (hg : arb.grantValid = false) (hs : slaves.Idle) :
    Stage m (9 + left m phase2) ⟨.asking read phase2 wordLoReg, quiet .idle path arb, slaves⟩
  | granted {read phase2 wordLoReg path arb slaves} (hw : Part m read phase2)
    (hg : arb.Granted read) (hs : slaves.Idle) :
    Stage m (8 + left m phase2) ⟨.asking read phase2 wordLoReg, quiet .idle path arb, slaves⟩
  | decoding {read phase2 wordLoReg path arb slaves} (hw : Part m read phase2)
    (hg : arb.Granted read) (hs : slaves.Idle) (ha : path.axilAddr = m.busAddr phase2)
    (hv : path.axilAddrValid = true) :
    Stage m (7 + left m phase2)
      ⟨.asking read phase2 wordLoReg, decoding path arb read, slaves⟩
  | data {phase2 wordLoReg path arb slaves} (hw : Part m false phase2) (hg : arb.Granted false)
    (hs : slaves.Idle) (ha : path.axilAddr = m.busAddr phase2) (hv : path.axilAddrValid = true)
    (hd : icDecode path.axilAddr = some path.mSelect) :
    Stage m (6 + left m phase2) ⟨.asked false phase2 wordLoReg, takingData path arb, slaves⟩
  | drop {phase2 wordLoReg path arb slaves} (hw : Part m false phase2) (hg : arb.Granted false)
    (hs : slaves.Idle) :
    Stage m (6 + left m phase2) ⟨.asked false phase2 wordLoReg, dropping path arb, slaves⟩
  | writeSent {phase2 wordLoReg path arb slaves} (hw : Part m false phase2) (hg : arb.Granted false)
    (hs : slaves.Idle) (ha : path.axilAddr = m.busAddr phase2)
    (hd : icDecode path.axilAddr = some path.mSelect) :
    Stage m (5 + left m phase2) ⟨.awaiting false phase2 wordLoReg, sendingWrite path arb, slaves⟩
  | writing {phase2 wordLoReg path arb slaves d} (hw : Part m false phase2) (hg : arb.Granted false)
    (hs : slaves.Writing path.mSelect path.axilAddr d) (ha : path.axilAddr = m.busAddr phase2)
    (hd : icDecode path.axilAddr = some path.mSelect) :
    Stage m (2 + (!(slaves.wr path.mSelect).bvalid).toNat + left m phase2)
      ⟨.awaiting false phase2 wordLoReg, awaitingB path arb, slaves⟩
  | readSelected {phase2 wordLoReg path arb slaves} (hw : Part m true phase2)
    (hg : arb.Granted true) (hs : slaves.Idle) (hv : path.axilAddrValid = true) :
    Stage m (6 + left m phase2) ⟨.awaiting true phase2 wordLoReg, awaitingR path arb, slaves⟩
  | readSent {phase2 wordLoReg path arb slaves} (hw : Part m true phase2) (hg : arb.Granted true)
    (hs : slaves.Idle) (hv : path.axilAddrValid = false) :
    Stage m (5 + left m phase2) ⟨.awaiting true phase2 wordLoReg, sendingRead path arb, slaves⟩
  | reading {phase2 wordLoReg path arb slaves a} (hw : Part m true phase2) (hg : arb.Granted true)
    (hs : slaves.Reading path.mSelect a) (hv : path.axilAddrValid = false) :
    Stage m (2 + slaves.readRank path.mSelect + left m phase2)
      ⟨.awaiting true phase2 wordLoReg, awaitingR path arb, slaves⟩
  | answered {read phase2 wordLoReg path arb slaves} (hw : Part m read phase2)
    (hg : arb.Granted read) (hs : slaves.Idle) :
    Stage m (1 + left m phase2)
      ⟨.awaiting read phase2 wordLoReg, answering path arb read, slaves⟩

/-- The address is that of UART DATA. -/
def uartData (addr : Word) : Prop := icDecode addr = some uartPort ∧ UartAxil.selData addr = true

/-- The access writes to UART DATA. -/
def writesUartData (m : MemReq) : Prop :=
  m.we = true ∧ (uartData m.addrLo ∨ m.crosses = true ∧ uartData m.addrHi)

instance (addr : Word) : Decidable (uartData addr) := inferInstanceAs (Decidable (_ ∧ _))

instance (m : MemReq) : Decidable (writesUartData m) := inferInstanceAs (Decidable (_ ∧ _))

section Stages

variable {m : MemReq} {e : SlavesIn} {read phase2 : Bool} {wordLoReg : Word} {path : IcPath}
  {arb : Arbiter} {slaves : Slaves}

/-- One edge, from those of the master and of the interconnect. -/
theorem step_of {master master' : AxilMaster} {ic ic' : Interconnect}
    (hmaster : master.step m ic.sOut = master')
    (hic : ic.step (master.out m) slaves.out = ic') :
    step ⟨master, ic, slaves⟩ m e = ⟨master', ic', slaves.step ic.mOut e⟩ := by
  rw [step, hmaster, hic]

/-- Idle slaves that are not asked for anything stay so. -/
theorem slaves_idle {ic : Interconnect} (hs : slaves.Idle) (haw : ic.mAwvalid = noPort)
    (hw : ic.mWvalid = noPort) (har : ic.mArvalid = noPort) : (slaves.step ic.mOut e).Idle :=
  hs.step _ e fun k => ⟨congrFun haw k, congrFun hw k, congrFun har k⟩

theorem step_idle_rest {s : Fabric} (h : Idle s) (hm : m.presented = false) :
    (s.step m e).Idle := by
  obtain ⟨master, ic, slaves⟩ := s
  obtain ⟨⟨awDone, wDone, phase2, wordLoReg, rfl⟩, ⟨path, arb, rfl, hg⟩, hs⟩ := h
  obtain ⟨hre, hwe⟩ := Bool.or_eq_false_iff.mp hm
  have hmaster : AxilMaster.step
      ⟨.idle, false, false, false, false, false, awDone, wDone, phase2, wordLoReg⟩ m
        (quiet .idle path arb).sOut =
      ⟨.idle, false, false, false, false, false, false, false, false, wordLoReg⟩ := by
    simp only [AxilMaster.step, AxilMaster.stepIdle, hre, hwe]
    rfl
  rw [step_of hmaster (step_idle hg), request_none rfl rfl]
  exact ⟨⟨_, _, _, _, rfl⟩, ⟨_, _, rfl, Arbiter.step_idle hg⟩, slaves_idle hs rfl rfl rfl⟩

theorem step_idle_begin {s : Fabric} (h : Idle s) (hm : m.presented = true) :
    Stage m (9 + left m false) (s.step m e) := by
  obtain ⟨master, ic, slaves⟩ := s
  obtain ⟨⟨awDone, wDone, phase2, wordLoReg, rfl⟩, ⟨path, arb, rfl, hg⟩, hs⟩ := h
  rw [step_of (AxilMaster.step_begin hm) (step_idle hg), request_none rfl rfl]
  exact .requested ⟨rfl, nofun⟩ (Arbiter.step_idle hg) (slaves_idle hs rfl rfl rfl)

theorem step_requested (hw : Part m read phase2) (hg : arb.grantValid = false) (hs : slaves.Idle) :
    Stage m (8 + left m phase2)
      (step ⟨.asking read phase2 wordLoReg, quiet .idle path arb, slaves⟩ m e) := by
  have hmaster : (AxilMaster.asking read phase2 wordLoReg).step m (quiet .idle path arb).sOut =
      .asking read phase2 wordLoReg := AxilMaster.step_asking rfl rfl rfl rfl
  have hreq : request ((AxilMaster.asking read phase2 wordLoReg).out m) =
      if read then 0b10 else 0b01 := by
    cases read <;> simp [request, AxilMaster.out, AxilMaster.asking]
  rw [step_of hmaster (step_idle hg), hreq]
  exact .granted hw (Arbiter.step_request hg read) (slaves_idle hs rfl rfl rfl)

theorem step_granted (hw : Part m read phase2) (hg : arb.Granted read) (hs : slaves.Idle) :
    Stage m (7 + left m phase2)
      (step ⟨.asking read phase2 wordLoReg, quiet .idle path arb, slaves⟩ m e) := by
  have hmaster : (AxilMaster.asking read phase2 wordLoReg).step m (quiet .idle path arb).sOut =
      .asking read phase2 wordLoReg := AxilMaster.step_asking rfl rfl rfl rfl
  rw [step_of hmaster (step_grant hg)]
  exact .decoding hw hg (slaves_idle hs rfl rfl rfl) (by cases read <;> rfl) rfl

theorem step_decoding (hw : Part m read phase2) (hg : arb.Granted read) (hs : slaves.Idle)
    (ha : path.axilAddr = m.busAddr phase2) (hv : path.axilAddrValid = true) :
    ∃ r' < 7 + left m phase2, Stage m r'
      (step ⟨.asking read phase2 wordLoReg, decoding path arb read, slaves⟩ m e) := by
  have hmaster : (AxilMaster.asking read phase2 wordLoReg).step m (decoding path arb read).sOut =
      .asked read phase2 wordLoReg := AxilMaster.step_accepted rfl rfl rfl rfl
  have hslaves : (slaves.step (decoding path arb read).mOut e).Idle := slaves_idle hs rfl rfl rfl
  rw [step_of hmaster (step_decode hg)]
  cases hd : icDecode path.axilAddr with
  | none =>
    cases read with
    | true => exact ⟨_, by omega, .answered hw hg hslaves⟩
    | false => exact ⟨_, by omega, .drop hw hg hslaves⟩
  | some k =>
    cases read with
    | true => exact ⟨6 + left m phase2, by omega, .readSelected hw hg hslaves hv⟩
    | false => exact ⟨6 + left m phase2, by omega, .data hw hg hslaves ha hv hd⟩

theorem step_data (hw : Part m false phase2) (hg : arb.Granted false) (hs : slaves.Idle)
    (ha : path.axilAddr = m.busAddr phase2) (hv : path.axilAddrValid = true)
    (hd : icDecode path.axilAddr = some path.mSelect) :
    Stage m (5 + left m phase2)
      (step ⟨.asked false phase2 wordLoReg, takingData path arb, slaves⟩ m e) := by
  have hmaster : (AxilMaster.asked false phase2 wordLoReg).step m (takingData path arb).sOut =
      .awaiting false phase2 wordLoReg := AxilMaster.step_data rfl
  rw [step_of hmaster (step_write hg hv rfl)]
  exact .writeSent hw hg (slaves_idle hs rfl rfl rfl) ha hd

theorem step_drop (hw : Part m false phase2) (hg : arb.Granted false) (hs : slaves.Idle) :
    Stage m (1 + left m phase2)
      (step ⟨.asked false phase2 wordLoReg, dropping path arb, slaves⟩ m e) := by
  have hmaster : (AxilMaster.asked false phase2 wordLoReg).step m (dropping path arb).sOut =
      .awaiting false phase2 wordLoReg := AxilMaster.step_data rfl
  rw [step_of hmaster (step_writeDrop hg rfl)]
  exact .answered hw hg (slaves_idle hs rfl rfl rfl)

theorem step_writeSent (hw : Part m false phase2) (hg : arb.Granted false) (hs : slaves.Idle)
    (ha : path.axilAddr = m.busAddr phase2) (hd : icDecode path.axilAddr = some path.mSelect) :
    Stage m (3 + left m phase2)
      (step ⟨.awaiting false phase2 wordLoReg, sendingWrite path arb, slaves⟩ m e) := by
  have hmaster : (AxilMaster.awaiting false phase2 wordLoReg).step m (sendingWrite path arb).sOut =
      .awaiting false phase2 wordLoReg := AxilMaster.step_awaiting rfl rfl
  obtain ⟨haw, hw', -, hb, -⟩ := hs.out path.mSelect
  obtain ⟨hwriting, hb'⟩ := hs.step_write (sendingWrite path arb).mOut e fun _ => ⟨rfl, rfl, rfl⟩
  rw [step_of hmaster (step_writeSend hg haw hw' hb)]
  have h : Stage m _ ⟨.awaiting false phase2 wordLoReg, awaitingB path arb,
      slaves.step (sendingWrite path arb).mOut e⟩ := .writing hw hg hwriting ha hd
  rw [hb'] at h
  exact h

/-- The word that is written to UART DATA. -/
theorem Part.writesUartData (hw : Part m false phase2) (h : uartData (m.busAddr phase2)) :
    writesUartData m := by
  refine ⟨by simpa using hw.read.symm, ?_⟩
  cases phase2 with
  | false => exact .inl h
  | true => exact .inr ⟨hw.crosses rfl, h⟩

/-- The only stage that may have to wait. -/
theorem step_writing {d : Word × BitVec 4} (hw : Part m false phase2) (hg : arb.Granted false)
    (hs : slaves.Writing path.mSelect path.axilAddr d) (ha : path.axilAddr = m.busAddr phase2)
    (hd : icDecode path.axilAddr = some path.mSelect) :
    let s : Fabric := ⟨.awaiting false phase2 wordLoReg, awaitingB path arb, slaves⟩
    let r := 2 + (!(slaves.wr path.mSelect).bvalid).toNat + left m phase2
    (∃ r' < r, Stage m r' (s.step m e)) ∨
      Stage m r (s.step m e) ∧ ¬ (writesUartData m → e.uart.txTready = true) := by
  intro s r
  have hmaster : (AxilMaster.awaiting false phase2 wordLoReg).step m (awaitingB path arb).sOut =
      .awaiting false phase2 wordLoReg := AxilMaster.step_awaiting rfl rfl
  have hbv : (slaves.out path.mSelect).bvalid = (slaves.wr path.mSelect).bvalid := by
    rw [Slaves.out_eq]
  have hstep := hs.step (awaitingB path arb).mOut e (fun _ => ⟨rfl, rfl, rfl⟩) (onePort_self _)
  rw [step_of hmaster (step_writeWait hg), hbv]
  rcases hstep with ⟨hb, hidle⟩ | ⟨hb, hwriting, hb' | ⟨hb', hk, hsel, hready⟩⟩
  · rw [hb]
    exact .inl ⟨_, by omega, .answered hw hg hidle⟩
  · have h : Stage m _ ⟨.awaiting false phase2 wordLoReg, awaitingB path arb,
        slaves.step (awaitingB path arb).mOut e⟩ := .writing hw hg hwriting ha hd
    have hr : r = 3 + left m phase2 := by
      simp only [r, hb]
      rfl
    rw [hb'] at h
    rw [hb]
    exact .inl ⟨_, by rw [hr]; show 2 + left m phase2 < _; omega, h⟩
  · have h : Stage m _ ⟨.awaiting false phase2 wordLoReg, awaitingB path arb,
        slaves.step (awaitingB path arb).mOut e⟩ := .writing hw hg hwriting ha hd
    have hr : r = 2 + (!false).toNat + left m phase2 := by simp only [r, hb]
    rw [hb'] at h
    rw [hb, hr]
    refine .inr ⟨h, fun hgo => ?_⟩
    have huart : uartData (m.busAddr phase2) := by rw [← ha]; exact ⟨by rw [hd, hk], hsel⟩
    exact absurd (hready.symm.trans (hgo (hw.writesUartData huart))) Bool.false_ne_true

theorem step_readSelected (hw : Part m true phase2) (hg : arb.Granted true) (hs : slaves.Idle)
    (hv : path.axilAddrValid = true) :
    Stage m (5 + left m phase2)
      (step ⟨.awaiting true phase2 wordLoReg, awaitingR path arb, slaves⟩ m e) := by
  have hmaster : (AxilMaster.awaiting true phase2 wordLoReg).step m (awaitingR path arb).sOut =
      .awaiting true phase2 wordLoReg := AxilMaster.step_awaiting rfl rfl
  obtain ⟨-, -, -, -, hr⟩ := hs.out path.mSelect
  rw [step_of hmaster (step_read hg hv hr)]
  exact .readSent hw hg (slaves_idle hs rfl rfl rfl) rfl

theorem step_readSent (hw : Part m true phase2) (hg : arb.Granted true) (hs : slaves.Idle)
    (hv : path.axilAddrValid = false) :
    ∃ r' < 5 + left m phase2, Stage m r'
      (step ⟨.awaiting true phase2 wordLoReg, sendingRead path arb, slaves⟩ m e) := by
  have hmaster : (AxilMaster.awaiting true phase2 wordLoReg).step m (sendingRead path arb).sOut =
      .awaiting true phase2 wordLoReg := AxilMaster.step_awaiting rfl rfl
  obtain ⟨-, -, har, -, hr⟩ := hs.out path.mSelect
  have hreading := hs.step_read (sendingRead path arb).mOut e fun _ => ⟨rfl, rfl, rfl⟩
  have hrank := (slaves.step (sendingRead path arb).mOut e).readRank_le path.mSelect
  rw [step_of hmaster (step_readSend hg hv har hr)]
  exact ⟨_, by omega, .reading hw hg hreading hv⟩

theorem step_reading {a : Word} (hw : Part m true phase2) (hg : arb.Granted true)
    (hs : slaves.Reading path.mSelect a) (hv : path.axilAddrValid = false) :
    ∃ r' < 2 + slaves.readRank path.mSelect + left m phase2, Stage m r'
      (step ⟨.awaiting true phase2 wordLoReg, awaitingR path arb, slaves⟩ m e) := by
  have hmaster : (AxilMaster.awaiting true phase2 wordLoReg).step m (awaitingR path arb).sOut =
      .awaiting true phase2 wordLoReg := AxilMaster.step_awaiting rfl rfl
  have hrv : (slaves.out path.mSelect).rvalid = (slaves.rd path.mSelect).rvalid := by
    rw [Slaves.out_eq]
  have hstep := hs.step (awaitingR path arb).mOut e (fun _ => ⟨rfl, rfl, rfl⟩) (onePort_self _)
  rw [step_of hmaster (step_readWait hg hv), hrv]
  rcases hstep with ⟨hr, hidle⟩ | ⟨hr, hreading, hrank⟩
  · rw [hr]
    exact ⟨_, by omega, .answered hw hg hidle⟩
  · rw [hr]
    exact ⟨_, by omega, .reading hw hg hreading hv⟩

/-- The access is over, or its second word is next. -/
theorem step_answered (hm : m.presented = true) (hw : Part m read phase2) (hg : arb.Granted read)
    (hs : slaves.Idle) :
    let s : Fabric := ⟨.awaiting read phase2 wordLoReg, answering path arb read, slaves⟩
    s.busStall m = false ∧ (s.step m e).Idle ∨
      s.busStall m = true ∧ ∃ r' < 1 + left m phase2, Stage m r' (s.step m e) := by
  intro s
  have hready : (if read then ((AxilMaster.awaiting read phase2 wordLoReg).out m).rready
      else ((AxilMaster.awaiting read phase2 wordLoReg).out m).bready) = true := by
    cases read <;> rfl
  have hreq : request ((AxilMaster.awaiting read phase2 wordLoReg).out m) = 0 :=
    request_none (by cases read <;> rfl) (by cases read <;> rfl)
  obtain ⟨arb', hg', hic⟩ : ∃ arb', arb'.grantValid = false ∧
      (answering path arb read).step _ slaves.out = quiet .idle path arb' :=
    step_waitIdle hg hready hreq
  have hslaves : (slaves.step (answering path arb read).mOut e).Idle := slaves_idle hs rfl rfl rfl
  have hphase : (AxilMaster.awaiting read phase2 wordLoReg).phaseDone
      (answering path arb read).sOut = true := by
    cases read <;> rfl
  have hstall : s.busStall m = !(!m.crosses || phase2) := by
    show (m.presented && !((AxilMaster.awaiting read phase2 wordLoReg).phaseDone _ &&
      (!m.crosses || (AxilMaster.awaiting read phase2 wordLoReg).phase2))) = _
    rw [hm, hphase]
    cases read <;> rfl
  cases hlast : (!m.crosses || phase2) with
  | true =>
    have hmaster : (AxilMaster.awaiting read phase2 wordLoReg).step m
        (answering path arb read).sOut = _ := AxilMaster.step_last rfl rfl hlast
    rw [hstall, hlast, step_of hmaster hic]
    exact .inl ⟨rfl, ⟨_, _, _, _, rfl⟩, ⟨_, _, rfl, hg'⟩, hslaves⟩
  | false =>
    have hmaster : (AxilMaster.awaiting read phase2 wordLoReg).step m
        (answering path arb read).sOut = _ := AxilMaster.step_next rfl rfl hlast
    obtain ⟨hc, rfl⟩ := MemReq.of_not_last hlast
    rw [hstall, hlast, step_of hmaster hic]
    refine .inr ⟨rfl, 9 + left m true, ?_, .requested ⟨hw.read, fun _ => hc⟩ hg' hslaves⟩
    simp [left, hc]

/-- Without a response the core waits. -/
theorem busStall_of_no_response {s : Fabric} (hm : m.presented = true) (hb : s.ic.sBvalid = false)
    (hr : s.ic.sRvalid = false) : s.busStall m = true := by
  have hphase : s.master.phaseDone s.ic.sOut = false := by
    simp [AxilMaster.phaseDone, sOut, hb, hr]
  rw [busStall, AxilMaster.busStall, AxilMaster.xferDone, hm, hphase]
  rfl

end Stages

/-- **One cycle of an access.** -/
theorem Stage.step {m : MemReq} {r : Nat} {s : Fabric} (hm : m.presented = true) (h : Stage m r s)
    (e : SlavesIn) :
    s.busStall m = false ∧ (s.step m e).Idle ∨
      s.busStall m = true ∧ ((∃ r' < r, Stage m r' (s.step m e)) ∨
        Stage m r (s.step m e) ∧ ¬ (writesUartData m → e.uart.txTready = true)) := by
  cases h with
  | idle h =>
    obtain ⟨path, arb, hic, -⟩ := h.ic
    have hstall := busStall_of_no_response (s := s) hm (by rw [hic]; rfl) (by rw [hic]; rfl)
    exact .inr ⟨hstall, .inl ⟨_, by omega, step_idle_begin h hm⟩⟩
  | requested hw hg hs =>
    exact .inr ⟨busStall_of_no_response hm rfl rfl, .inl ⟨_, by omega, step_requested hw hg hs⟩⟩
  | granted hw hg hs =>
    exact .inr ⟨busStall_of_no_response hm rfl rfl, .inl ⟨_, by omega, step_granted hw hg hs⟩⟩
  | decoding hw hg hs ha hv =>
    exact .inr ⟨busStall_of_no_response hm rfl rfl, .inl (step_decoding hw hg hs ha hv)⟩
  | data hw hg hs ha hv hd =>
    exact .inr ⟨busStall_of_no_response hm rfl rfl,
      .inl ⟨_, by omega, step_data hw hg hs ha hv hd⟩⟩
  | drop hw hg hs =>
    exact .inr ⟨busStall_of_no_response hm rfl rfl, .inl ⟨_, by omega, step_drop hw hg hs⟩⟩
  | writeSent hw hg hs ha hd =>
    exact .inr ⟨busStall_of_no_response hm rfl rfl,
      .inl ⟨_, by omega, step_writeSent hw hg hs ha hd⟩⟩
  | writing hw hg hs ha hd =>
    exact .inr ⟨busStall_of_no_response hm rfl rfl, step_writing hw hg hs ha hd⟩
  | readSelected hw hg hs hv =>
    exact .inr ⟨busStall_of_no_response hm rfl rfl,
      .inl ⟨_, by omega, step_readSelected hw hg hs hv⟩⟩
  | readSent hw hg hs hv =>
    exact .inr ⟨busStall_of_no_response hm rfl rfl, .inl (step_readSent hw hg hs hv)⟩
  | reading hw hg hs hv =>
    exact .inr ⟨busStall_of_no_response hm rfl rfl, .inl (step_reading hw hg hs hv)⟩
  | answered hw hg hs =>
    rcases step_answered (e := e) hm hw hg hs with h | ⟨hstall, h⟩
    · exact .inl h
    · exact .inr ⟨hstall, .inl h⟩

/-! ## Access after access -/

/-- The state after `n` cycles with `m` in the MEM stage. -/
def hold (s : Fabric) (m : MemReq) (e : Nat → SlavesIn) : Nat → Fabric :=
  trace (fun s e => s.step m e) s e

/-- The states between two accesses: after reset, after a cycle without one, and after the cycle
in which one completes. -/
inductive Reachable : Fabric → Prop
  | reset (s : Fabric) : Reachable s.reset
  | rest {s : Fabric} {m : MemReq} (e : SlavesIn) (h : Reachable s) (hm : m.presented = false) :
    Reachable (s.step m e)
  | access {s : Fabric} {m : MemReq} {e : Nat → SlavesIn} {n : Nat} (h : Reachable s)
    (hm : m.presented = true) (hbusy : ∀ k < n, (s.hold m e k).busStall m = true)
    (hdone : (s.hold m e n).busStall m = false) : Reachable (s.hold m e (n + 1))

/-- An access is in one of its stages while it stalls the core. -/
theorem Idle.hold_stage {s : Fabric} {m : MemReq} {e : Nat → SlavesIn} (h : s.Idle)
    (hm : m.presented = true) (n : Nat) (hbusy : ∀ k < n, (s.hold m e k).busStall m = true) :
    ∃ r, Stage m r (s.hold m e n) := by
  induction n with
  | zero => exact ⟨_, .idle h⟩
  | succ n ih =>
    obtain ⟨r, hr⟩ := ih fun k hk => hbusy k (Nat.lt_succ_of_lt hk)
    rcases hr.step hm (e n) with ⟨hlow, -⟩ | ⟨-, ⟨r', -, hr'⟩ | ⟨hr', -⟩⟩
    · exact absurd (hlow.symm.trans (hbusy n n.lt_succ_self)) Bool.false_ne_true
    · exact ⟨r', hr'⟩
    · exact ⟨r, hr'⟩

theorem Reachable.idle {s : Fabric} (h : Reachable s) : s.Idle := by
  induction h with
  | reset s => exact ⟨⟨_, _, _, _, rfl⟩, ⟨_, _, rfl, rfl⟩, s.slaves.reset_idle⟩
  | rest e h hm ih => exact step_idle_rest ih hm
  | @access s m e n h hm hbusy hdone ih =>
    obtain ⟨r, hr⟩ := ih.hold_stage hm n hbusy
    rcases hr.step hm (e n) with ⟨-, hidle⟩ | ⟨hstall, -⟩
    · exact hidle
    · exact absurd (hdone.symm.trans hstall) Bool.false_ne_true

end Fabric

/-- **No access hangs.**  Between two accesses the bus takes any request, with any address, and
lowers `bus_stall` after finitely many cycles; where the request writes to UART DATA, the
transmitter is assumed to be ready again and again.  The next access finds the bus in such a state
again. -/
theorem bus_access_completes {s : Fabric} (hs : s.Reachable) {m : MemReq} (hm : m.presented = true)
    (e : Nat → SlavesIn)
    (htx : Fabric.writesUartData m → ∀ n, ∃ k ≥ n, (e k).uart.txTready = true) :
    ∃ n, (∀ k < n, (s.hold m e k).busStall m = true) ∧ (s.hold m e n).busStall m = false ∧
      (s.hold m e (n + 1)).Reachable := by
  have hgo : ∀ n, ∃ k ≥ n, (Fabric.writesUartData m → (e k).uart.txTready = true) := by
    intro n
    by_cases hw : Fabric.writesUartData m
    · obtain ⟨k, hk, hready⟩ := htx hw n
      exact ⟨k, hk, fun _ => hready⟩
    · exact ⟨n, le_rfl, fun h => absurd h hw⟩
  obtain ⟨n, hdone, hbusy⟩ : Reaches (fun s e => s.step m e) (fun s _ => s.busStall m = true)
      (fun s _ => s.busStall m = false) s e := by
    refine reaches_of_rank (Fabric.Stage m)
      (fun e => Fabric.writesUartData m → e.uart.txTready = true) (fun r s e h => ?_) hgo
      (.idle hs.idle)
    rcases h.step hm e with ⟨hlow, -⟩ | hbusy
    · exact .inl hlow
    · exact .inr hbusy
  exact ⟨n, hbusy, hdone, .access hs hm hbusy hdone⟩

/-- A word store that ends in UART DATA and begins in the window before it. -/
theorem bus_access_completes_uart :
    let s : Fabric := .reset
      ⟨.reset, default, ⟨⟨default, default, false, fun _ => 0, 0⟩, default, default, default⟩⟩
    let m : MemReq :=
      { addr := 0x10000ffd, wdata := 0x41000000, funct3 := 0b010, re := false, we := true }
    let e : Nat → SlavesIn := fun k => ⟨0, { (default : UartWires) with txTready := k % 3 == 0 }⟩
    Fabric.writesUartData m ∧ ∃ n, (∀ k < n, (s.hold m e k).busStall m = true) ∧
      (s.hold m e n).busStall m = false ∧ (s.hold m e (n + 1)).Reachable := by
  intro s m e
  refine ⟨by decide, bus_access_completes (.reset _) rfl e fun _ n => ⟨3 * n, by omega, ?_⟩⟩
  show (3 * n % 3 == 0) = true
  rw [Nat.mul_mod_right]
  rfl

end Rv32i
