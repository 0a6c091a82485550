import Rv32iCore.Soc.Reads
import Rv32iCore.Soc.Terminal

/-!
# What `soc` receives

`soc` with a transmitter on `uart_rxd`.  A byte that is sent goes through the line, the receiver,
its output register, the register interface and the bus before a load of DATA gives it to the
program.  Only the output register can lose one, when the next arrives before it has been read, and
then `overrun_error` says so.

    soc_uart_input    a program that polls STATUS reads the bytes sent, in order
-/

namespace Rv32i

open Sync

/-! ## A program that polls -/

/-- Each read of DATA follows a read of STATUS that has reported a byte, with no other read of DATA
in between; `reported` says whether there has been one. -/
def polled : Bool → List (Word × Word) → Bool
  | _, [] => true
  | reported, r :: rs =>
    if UartAxil.selData r.1 then reported && polled false rs
    else polled (reported || (UartAxil.selStatus r.1 && r.2.getLsbD 1)) rs

/-- What the reads of DATA give. -/
def dataReads (reads : List (Word × Word)) : List Word :=
  (reads.filter fun r => UartAxil.selData r.1).map Prod.snd

theorem dataReads_cons (r : Word × Word) (rs : List (Word × Word)) :
    dataReads (r :: rs) = (if UartAxil.selData r.1 then [r.2] else []) ++ dataReads rs := by
  unfold dataReads
  rw [List.filter_cons]
  split_ifs <;> rfl

/-- A byte as a load of DATA gives it. -/
def dataWord (b : BitVec 8) : Word := 0#24 ++ b

/-- A read without the byte that it pops. -/
def UartRead.word (r : UartRead) : Word × Word := (r.addr, r.data)

namespace UartWithRx

variable {init : BitVec 16} {t : UartWithRx} {i : UartRxIn} {is : List UartRxIn}

/-- The byte that has not been read. -/
def unread (t : UartWithRx) : List (BitVec 8) := if t.rx.tvalid then [t.rx.tdata] else []

/-- Without an overrun nothing is lost. -/
theorem pops_cycle (h : i.arrival.isSome = true → t.rx.tvalid = false) :
    t.pops i ++ (t.step init i).unread = t.unread ++ t.arrivals i := by
  show (t.pops i ++ if i.arrival.isSome || (t.rx.tvalid && !t.rxTready i) then
    [i.arrival.getD t.rx.tdata] else []) = _
  unfold pops unread arrivals
  cases hv : t.rx.tvalid <;> cases t.rxTready i <;> cases ha : i.arrival <;> simp_all

/-- A program that polls pops with each read of DATA. -/
theorem polled_pops {reported : Bool} (hv : reported = true → t.rx.tvalid = true)
    (h : polled reported ((outputs (step init) reads t is).map UartRead.word) = true) :
    ∀ r ∈ outputs (step init) reads t is, UartAxil.selData r.addr = true →
      r.popped.isSome = true := by
  induction is generalizing t reported with
  | nil =>
    intro r hr
    cases hr
  | cons i is ih =>
    rw [outputs_cons] at h ⊢
    rcases hr : t.reads i with - | ⟨r, rs⟩
    · rw [hr] at h
      exact ih (fun hrep => tvalid_kept (hv hrep) (pops_of_no_read hr)) h
    · have hmem : r ∈ t.reads i := by rw [hr]; exact List.mem_cons_self ..
      obtain ⟨hone, -, hiff, -, hstatus⟩ := read_spec hmem
      obtain rfl : rs = [] := (List.cons.inj (hr.symm.trans hone)).2
      rw [hr, List.singleton_append, List.map_cons, polled] at h
      rw [List.singleton_append, List.forall_mem_cons]
      by_cases hdata : UartAxil.selData r.word.1 = true
      · rw [if_pos hdata, Bool.and_eq_true] at h
        exact ⟨fun _ => hiff.2 ⟨hdata, hv h.1⟩, ih (fun hrep => by cases hrep) h.2⟩
      · rw [if_neg hdata] at h
        refine ⟨fun hd => absurd hd hdata, ih (fun hrep => ?_) h⟩
        have hpops := pops_of_other hmem (Bool.not_eq_true _ ▸ hdata)
        rw [Bool.or_eq_true, Bool.and_eq_true] at hrep
        rcases hrep with hrep | ⟨hsel, hbit⟩
        · exact tvalid_kept (hv hrep) hpops
        · exact tvalid_kept ((hstatus hsel).symm.trans hbit) hpops

/-- What the reads of DATA give are the bytes popped. -/
theorem dataReads_eq {s : RegSlave UartAxil}
    (h : polled false ((outputs (step init) reads (start init s) is).map UartRead.word) = true) :
    dataReads ((outputs (step init) reads (start init s) is).map UartRead.word) =
      (outputs (step init) pops (start init s) is).map dataWord := by
  have hpopped : outputs (step init) pops (start init s) is =
      (outputs (step init) reads (start init s) is).filterMap UartRead.popped := by
    rw [← outputs_filterMap]
    exact outputs_congr fun c _ => pops_eq_reads
  have hpops := polled_pops (fun hrep => by cases hrep) h
  have hspec : ∀ r ∈ outputs (step init) reads (start init s) is,
      (r.popped.isSome = true → UartAxil.selData r.addr = true) ∧
        ∀ b, r.popped = some b → r.data = dataWord b := by
    intro r hr
    obtain ⟨c, -, hc⟩ := List.mem_flatMap.1 hr
    obtain ⟨-, -, hiff, hdata, -⟩ := read_spec hc
    exact ⟨fun hp => (hiff.1 hp).1, hdata⟩
  rw [hpopped]
  generalize outputs (step init) reads (start init s) is = rs at hpops hspec
  clear h hpopped
  induction rs with
  | nil => rfl
  | cons r rs ih =>
    rw [List.forall_mem_cons] at hpops hspec
    rw [List.map_cons, dataReads_cons, ih hpops.2 hspec.2]
    cases hp : r.popped with
    | none =>
      have hsel : ¬ UartAxil.selData r.word.1 = true := by
        intro hsel
        have hsome := hpops.1 hsel
        rw [hp] at hsome
        cases hsome
      rw [if_neg hsel, List.filterMap_cons_none hp, List.nil_append]
    | some b =>
      have hsel : UartAxil.selData r.word.1 = true := hspec.1.1 (by rw [hp]; rfl)
      rw [if_pos hsel, List.filterMap_cons_some hp, List.map_cons, ← hspec.1.2 b hp]
      rfl

end UartWithRx

/-- A byte that arrives where one has not been read is reported. -/
theorem UartRx.step_overrun (s : UartRx) (tready rxd : Bool) (prescale : BitVec 16) :
    (s.step tready rxd prescale).overrunErrorReg = (s.arrival.isSome && s.mAxisTvalid) := by
  unfold step
  extract_lets n0 n
  have hn : n = { n0 with mAxisTvalid := s.mAxisTvalid && !tready } := taken s tready n0 rfl
  clear_value n
  subst hn
  by_cases hp : s.prescaleReg = 0
  · have hprescale : ¬ s.prescaleReg > 0 := by rw [hp]; decide
    rw [if_neg hprescale]
    by_cases hb : s.bitCnt = 1
    · have h0 : s.bitCnt > 0 := by rw [hb]; decide
      have h9 : ¬ s.bitCnt > 9 := by rw [hb]; decide
      have h1 : ¬ s.bitCnt > 1 := by rw [hb]; decide
      rw [if_pos h0, if_neg h9, if_neg h1]
      cases hr : s.rxdReg with
      | true =>
        have ha : s.arrival = some s.dataReg := if_pos ⟨hp, hb, hr⟩
        rw [ha]
        rfl
      | false =>
        have ha : s.arrival = none := if_neg fun h => Bool.false_ne_true (hr.symm.trans h.2.2)
        rw [ha]
        rfl
    · have ha : s.arrival = none := if_neg fun h => hb h.2.1
      have h1 : s.bitCnt > 0 → s.bitCnt > 1 := by
        intro h
        bv_omega
      rw [ha]
      split_ifs with h0 h9 hr h1' hr' hr' <;> first | rfl | exact absurd (h1 h0) h1'
  · have ha : s.arrival = none := if_neg fun h => hp h.1
    have hprescale : s.prescaleReg > 0 := by bv_omega
    rw [ha, if_pos hprescale]
    rfl

/-! ## `uart_axil` in `soc` -/

namespace SocRun

variable {P : Params} {s : Soc} {t : SocRun} {i : SocIn} {is : List SocIn}

/-- `uart_axil` and the receiver's output register. -/
def uartRx (t : SocRun) : UartWithRx := ⟨t.soc.uUart, t.uRx.port⟩

def uartRxIn (t : SocRun) (_ : SocIn) : UartRxIn where
  bus := t.bus.fabric.ic.mOut uartPort
  arrival := t.uRx.arrival
  txTready := t.uTx.sAxisTreadyReg
  txBusy := t.uTx.busyReg
  rxOverrun := t.uRx.overrunErrorReg
  rxFrame := t.uRx.frameErrorReg

theorem step_uartRx : (t.step P i).uartRx = t.uartRx.step 81 (t.uartRxIn i) := by
  have hport : (t.step P i).uRx.port = t.uRx.port.step t.soc.rxTready t.uRx.arrival :=
    UartRx.step_port ..
  rw [uartRx, hport]
  rfl

/-- The reads of slave `k`: those that are served, and one that may be on offer. -/
def reads (P : Params) (s : Soc) (is : List SocIn) (k : Fin 4) : List (Word × Word) :=
  (outputs (SocRun.step P) served (reset P s) is).filterMap (ServedWord.readFrom k) ++
    (run (SocRun.step P) (reset P s) is).readHeld k

/-- What the receiver's port sees of a run. -/
def portIns (P : Params) (s : Soc) (is : List SocIn) : List UartRxIn :=
  outputs (SocRun.step P) (fun t i => [t.uartRxIn i]) (reset P s) is

theorem run_uartRx : (run (SocRun.step P) (reset P s) is).uartRx =
    run (UartWithRx.step 81) (.start 81 s.bus.slaves.uUart) (portIns P s is) :=
  run_part uartRx uartRxIn (fun _ _ => step_uartRx) (reset P s) is

theorem outputs_uartRx {ο : Type} (f : UartWithRx → UartRxIn → List ο) :
    outputs (SocRun.step P) (fun t i => f t.uartRx (t.uartRxIn i)) (reset P s) is =
      outputs (UartWithRx.step 81) f (.start 81 s.bus.slaves.uUart) (portIns P s is) :=
  outputs_part uartRx uartRxIn (fun _ _ => step_uartRx) f (reset P s) is

/-- What the program reads of the UART is what `uart_axil` answers. -/
theorem reads_uart : reads P s is uartPort =
    (outputs (UartWithRx.step 81) UartWithRx.reads (.start 81 s.bus.slaves.uUart)
      (portIns P s is)).map UartRead.word := by
  have hsampled := (isUart P s).reads_sampled is
  rw [← outputs_uartRx, ← outputs_map]
  exact hsampled.trans (outputs_congr fun c _ =>
    @UartWithRx.sampled_eq 81 c.1.uartRx (c.1.uartRxIn c.2))

end SocRun

/-! ## The system and the transmitter -/

/-- `soc`, the transmitter, and what is in flight between them. -/
structure Console where
  soc : SocRun
  tx : UartTx
  inFlight : List (BitVec 8)

structure ConsoleIn where
  sw : BitVec 16
  /-- the byte to send next -/
  tdata : BitVec 8
  /-- there is one -/
  tvalid : Bool
deriving Inhabited

namespace Console

variable (P : Params) (p : BitVec 16) (t : Console) (i : ConsoleIn)

def line : UartLine := ⟨t.tx, t.soc.uRx, t.inFlight⟩

def socIn : SocIn := ⟨i.sw, t.tx.txdReg⟩

/-- The transmitter's PRESCALE is `p`; it is given a byte when it is ready. -/
def lineIn : UartLineIn :=
  ⟨⟨i.tdata, i.tvalid && t.tx.sAxisTreadyReg, p⟩, t.soc.soc.rxTready,
    t.soc.soc.uUart.dev.prescaleReg⟩

def reset (s : Soc) (tx : UartTx) : Console := ⟨.reset P s, tx.reset, []⟩

def step : Console where
  soc := t.soc.step P (t.socIn i)
  tx := t.tx.step (t.lineIn p i).tx
  inFlight := (t.line.step (t.lineIn p i)).inFlight

/-- The byte that the transmitter takes. -/
def sent : List (BitVec 8) := t.line.handed (t.lineIn p i)

/-- What has arrived and has not been read. -/
def unread : List (BitVec 8) := t.soc.uartRx.unread

theorem step_line : (t.step P p i).line = t.line.step (t.lineIn p i) := rfl

theorem offered : t.line.tx.Offered (t.lineIn p i).tx := fun h => (Bool.and_eq_true_iff.1 h).2

end Console

/-- **What is sent to the program is what it reads.**  With a transmitter whose PRESCALE agrees with
that of `uart_axil` in every cycle in which a byte is handed over or in flight, and a program that
polls STATUS: whatever else the system does, what its loads of DATA give are bytes that were sent,
in order; with no overrun they are all of them, but for those not read yet or in flight; and there
is no framing error. -/
theorem soc_uart_input (P : Params) (s : Soc) (tx : UartTx) {p q : BitVec 16} (hbaud : Baud p q)
    (is : List ConsoleIn) :
    let t := run (Console.step P p) (.reset P s tx) is
    let js := outputs (Console.step P p) (fun t i => [t.socIn i]) (.reset P s tx) is
    let sent := outputs (Console.step P p) (Console.sent p) (.reset P s tx) is
    let reads := SocRun.reads P s js uartPort
    Always (Console.step P p) (fun t i => t.line.Busy (t.lineIn p i) →
      t.soc.soc.uUart.dev.prescaleReg = q) (.reset P s tx) is →
    polled false reads = true →
    (dataReads reads).Sublist (sent.map dataWord) ∧
      (Always (Console.step P p) (fun t i => (t.step P p i).soc.uRx.overrunErrorReg = false)
          (.reset P s tx) is →
        dataReads reads ++ (t.unread ++ t.inFlight).map dataWord = sent.map dataWord) ∧
      Always (Console.step P p) (fun t _ => t.soc.uRx.frameErrorReg = false) (.reset P s tx) is := by
  intro t js sent reads hpresc hpolled
  have hpart : ∀ (t : Console) (i : ConsoleIn), (t.step P p i).soc = t.soc.step P (t.socIn i) :=
    fun _ _ => rfl
  have hsoc : t.soc = run (SocRun.step P) (.reset P s) js :=
    run_part Console.soc Console.socIn hpart (.reset P s tx) is
  -- the line
  have hok : Always (Console.step P p) (fun t i => UartLine.Ok p q t.line (t.lineIn p i))
      (.reset P s tx) is :=
    hpresc.mono fun t i h => ⟨fun _ => rfl, h, t.offered p i⟩
  have h0 : UartLine.Inv p q (Console.reset P s tx).line := UartLine.Inv.reset p q tx s.uRx
  obtain ⟨hheld, -, -, hframe⟩ :=
    UartLine.exact_part Console.line (Console.lineIn p) (Console.step_line P p) hbaud h0 hok
  -- what arrives at the port, and what the program reads there
  let start := UartWithRx.start 81 s.bus.slaves.uUart
  let ins := SocRun.portIns P s js
  let arrived := outputs (UartWithRx.step 81) UartWithRx.arrivals start ins
  let popped := outputs (UartWithRx.step 81) UartWithRx.pops start ins
  have hline : arrived ++ t.inFlight = sent := by
    have hout := outputs_part Console.soc Console.socIn hpart
      (fun t i => t.uartRx.arrivals (t.uartRxIn i)) (.reset P s tx) is
    rw [show arrived = _ from (hout.trans (SocRun.outputs_uartRx _)).symm]
    exact hheld
  have hreads : dataReads reads = popped.map dataWord := by
    rw [show reads = _ from SocRun.reads_uart] at hpolled ⊢
    exact UartWithRx.dataReads_eq hpolled
  refine ⟨?_, fun hover => ?_, hframe⟩
  · have hsub : (popped ++ _).Sublist (start.unread ++ arrived) :=
      outputs_sublist UartWithRx.unread fun c _ => @UartWithRx.pops_sublist 81 c.1 c.2
    rw [hreads, ← hline]
    exact (((List.sublist_append_left _ _).trans hsub).trans
      (List.sublist_append_left _ _)).map dataWord
  · have hfree : Always (UartWithRx.step 81)
        (fun u j => j.arrival.isSome = true → u.rx.tvalid = false) start ins := by
      refine (always_part SocRun.uartRx SocRun.uartRxIn (fun _ _ => SocRun.step_uartRx) _ _ _).1
        ((always_part Console.soc Console.socIn hpart _ (.reset P s tx) is).1 ?_)
      refine hover.mono fun t i h harrival => ?_
      rw [show (t.step P p i).soc.uRx.overrunErrorReg = _ from UartRx.step_overrun ..] at h
      rw [show t.soc.uRx.arrival.isSome = true from harrival, Bool.true_and] at h
      exact h
    have hpopped : popped ++ t.unread = arrived := by
      have hconserved := outputs_conserved UartWithRx.unread
        (hfree.mono fun _ _ h => UartWithRx.pops_cycle h)
      rw [← SocRun.run_uartRx, ← hsoc] at hconserved
      exact hconserved
    rw [hreads, ← List.map_append, ← List.append_assoc, hpopped, hline]

/-- `lui x1, 0x10001; addi x4, x0, 1; sw x4, 8(x1)`, then a loop: `lw x2, 4(x1); andi x2, x2, 2;
beq x2, x0, -8; lui x5, 0x10001; lw x3, 0(x5); jal x0, -20` -/
def pollProgram : Params :=
  .ofWords [0x100010B7, 0x00100213, 0x0040A423, 0x0040A103, 0x00217113, 0xFE010CE3, 0x100012B7,
    0x0002A183, 0xFEDFF06F]

/-- What a byte at PRESCALE 1 makes of the line: idle, start bit, data, idle. -/
def letterLine : List SocIn :=
  (List.replicate 15 true ++ List.replicate 8 false ++ List.replicate 8 true ++
    List.replicate 40 false ++ List.replicate 8 true ++ List.replicate 8 false ++
    List.replicate 31 true).map (⟨0, ·⟩)

/-- Once PRESCALE is 1 a letter is sent; the program polls until it is there, and reads it. -/
theorem soc_uart_input_poll :
    let is : List ConsoleIn :=
      List.replicate 14 default ++ ⟨0, 0x41, true⟩ :: List.replicate 103 default
    let t := run (Console.step pollProgram 1) (.reset pollProgram .blank default) is
    let js := outputs (Console.step pollProgram 1) (fun t i => [t.socIn i])
      (.reset pollProgram .blank default) is
    let reads := SocRun.reads pollProgram .blank js uartPort
    dataReads reads = [0x41] ∧
      dataReads reads ++ (t.unread ++ t.inFlight).map dataWord =
        (outputs (Console.step pollProgram 1) (Console.sent 1)
          (.reset pollProgram .blank default) is).map dataWord := by
  intro is t js reads
  have hjs : js = letterLine := by decide +kernel
  have hreads : reads = List.replicate 6 (0x10001004, 0) ++ [(0x10001004, 2), (0x10001000, 0x41)] := by
    show SocRun.reads pollProgram .blank js uartPort = _
    rw [hjs]
    decide +kernel
  have hpolled : polled false reads = true := by
    rw [hreads]
    decide
  have h := soc_uart_input pollProgram .blank default (p := 1) (q := 1) ⟨by decide, by decide⟩ is
    (by decide +kernel) hpolled
  have hdata : dataReads reads = [0x41] := by
    rw [hreads]
    decide
  exact ⟨hdata, h.2.1 (by decide +kernel)⟩

end Rv32i
