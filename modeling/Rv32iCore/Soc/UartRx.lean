import Rv32iCore.Soc.UartAxil

/-!
# `uart_rx`, and what `uart_axil` returns of it

The receiver of `rtl/vendor/verilog-uart/uart_rx.v`.  All that `uart_axil` sees of the bytes is
the output register and its valid bit, `RxPort`: `tready` empties it, a byte that arrives fills
it, whatever was there.  What is proved of `uart_axil` in front of a port holds for any arrivals;
`uart_rx` is such a port (`UartRx.step_port`, `UartAxilRx.run_withPort`).
-/

namespace Rv32i

open Sync

/-! ## The receiver -/

/-- The registers of `uart_rx`, DATA_WIDTH being 8. -/
structure UartRx where
  mAxisTdata : BitVec 8
  mAxisTvalid : Bool
  rxdReg : Bool
  busyReg : Bool
  overrunErrorReg : Bool
  frameErrorReg : Bool
  dataReg : BitVec 8
  prescaleReg : BitVec 19
  bitCnt : BitVec 4
deriving DecidableEq, Inhabited

/-- The output register of the receiver. -/
structure RxPort where
  tdata : BitVec 8
  tvalid : Bool
deriving DecidableEq, Inhabited

/-- One clock edge: the reader empties the register, and a byte may arrive. -/
def RxPort.step (p : RxPort) (tready : Bool) (arrival : Option (BitVec 8)) : RxPort where
  tdata := arrival.getD p.tdata
  tvalid := arrival.isSome || (p.tvalid && !tready)

namespace UartRx

variable (s : UartRx) (tready rxd : Bool) (prescale : BitVec 16)

/-- Reset leaves `data_reg` as it is. -/
def reset : UartRx where
  mAxisTdata := 0
  mAxisTvalid := false
  rxdReg := true
  busyReg := false
  overrunErrorReg := false
  frameErrorReg := false
  dataReg := s.dataReg
  prescaleReg := 0
  bitCnt := 0

/-- One clock edge outside reset, assignment by assignment. -/
def step : UartRx :=
  let n := { s with rxdReg := rxd, overrunErrorReg := false, frameErrorReg := false }
  let n := if s.mAxisTvalid && tready then { n with mAxisTvalid := false } else n
  if s.prescaleReg > 0 then { n with prescaleReg := s.prescaleReg - 1 }
  else if s.bitCnt > 0 then
    if s.bitCnt > 9 then
      -- start bit
      if !s.rxdReg then
        { n with bitCnt := s.bitCnt - 1, prescaleReg := (prescale.zeroExtend 19 <<< 3) - 1 }
      else { n with bitCnt := 0, prescaleReg := 0 }
    else if s.bitCnt > 1 then
      { n with
        bitCnt := s.bitCnt - 1
        prescaleReg := (prescale.zeroExtend 19 <<< 3) - 1
        dataReg := BitVec.ofBool s.rxdReg ++ s.dataReg.extractLsb 7 1 }
    else
      -- stop bit
      let n := { n with bitCnt := s.bitCnt - 1 }
      if s.rxdReg then
        { n with mAxisTdata := s.dataReg, mAxisTvalid := true, overrunErrorReg := s.mAxisTvalid }
      else { n with frameErrorReg := true }
  else
    let n := { n with busyReg := false }
    if !s.rxdReg then
      { n with
        prescaleReg := (prescale.zeroExtend 19 <<< 2) - 2
        bitCnt := 10
        dataReg := 0
        busyReg := true }
    else n

def port : RxPort := ⟨s.mAxisTdata, s.mAxisTvalid⟩

/-- The byte that completes on this edge: a stop bit where one is due. -/
def arrival : Option (BitVec 8) :=
  if s.prescaleReg = 0 ∧ s.bitCnt = 1 ∧ s.rxdReg = true then some s.dataReg else none

/-- The reader empties the output register. -/
theorem taken (n : UartRx) (hn : n.mAxisTvalid = s.mAxisTvalid) :
    (if s.mAxisTvalid && tready then { n with mAxisTvalid := false } else n) =
      { n with mAxisTvalid := s.mAxisTvalid && !tready } := by
  rw [← hn]
  cases tready with
  | true =>
    rw [Bool.and_true, Bool.not_true, Bool.and_false]
    split_ifs with hv
    · rfl
    · rw [Bool.not_eq_true] at hv
      rw [← hv]
  | false =>
    rw [Bool.and_false, Bool.not_false, Bool.and_true, if_neg Bool.false_ne_true]

/-- **The receiver's output is a port.** -/
theorem step_port : (s.step tready rxd prescale).port = s.port.step tready s.arrival := by
  unfold step
  extract_lets n0 n
  have hn : n = { n0 with mAxisTvalid := s.mAxisTvalid && !tready } := taken s tready n0 rfl
  clear_value n
  subst hn
  by_cases hp : s.prescaleReg = 0
  · have hprescale : ¬ s.prescaleReg > 0 := by rw [hp]; decide
    rw [if_neg hprescale]
    by_cases hb : s.bitCnt = 1
    · have h0 : s.bitCnt > 0 := by rw [hb]; decide
      have h9 : ¬ s.bitCnt > 9 := by rw [hb]; decide
      have h1 : ¬ s.bitCnt > 1 := by rw [hb]; decide
      rw [if_pos h0, if_neg h9, if_neg h1]
      cases hr : s.rxdReg with
      | true =>
        have ha : s.arrival = some s.dataReg := if_pos ⟨hp, hb, hr⟩
        rw [ha]
        rfl
      | false =>
        have ha : s.arrival = none := if_neg (fun h => Bool.false_ne_true (hr.symm.trans h.2.2))
        rw [ha]
        rfl
    · -- no byte completes: the output register is written by the reader alone
      have ha : s.arrival = none := if_neg (fun h => hb h.2.1)
      have h1 : s.bitCnt > 0 → s.bitCnt > 1 := by
        intro h
        bv_omega
      rw [ha]
      split_ifs with h0 h9 hr h1' hr' hr' <;> first | rfl | exact absurd (h1 h0) h1'
  · have ha : s.arrival = none := if_neg (fun h => hp h.1)
    have hprescale : s.prescaleReg > 0 := by bv_omega
    rw [ha, if_pos hprescale]
    rfl

end UartRx

/-! ## `uart_axil` in front of a port -/

/-- `uart_axil` and the receiver's output register. -/
structure UartWithRx where
  slave : RegSlave UartAxil
  rx : RxPort

/-- One cycle: the bus, the byte that arrives if any, and what else `uart_tx` and `uart_rx`
drive. -/
structure UartRxIn where
  bus : MasterOut
  arrival : Option (BitVec 8)
  txTready : Bool
  txBusy : Bool
  rxOverrun : Bool
  rxFrame : Bool
deriving Inhabited

/-- A read as `uart_axil` answers it: its address, the data returned, and the byte popped. -/
structure UartRead where
  addr : Word
  data : Word
  popped : Option (BitVec 8)
deriving DecidableEq

/-- The read reports a byte: it reads STATUS, and `rx_valid` is set. -/
def UartRead.reportsByte (r : UartRead) : Bool := UartAxil.selStatus r.addr && r.data.getLsbD 1

namespace UartWithRx

variable (init : BitVec 16) (t : UartWithRx) (i : UartRxIn)

def wires : UartWires where
  txTready := i.txTready
  txBusy := i.txBusy
  rxTdata := t.rx.tdata
  rxTvalid := t.rx.tvalid
  rxOverrun := i.rxOverrun
  rxFrame := i.rxFrame

def regIn : RegIn UartWires := ⟨i.bus, t.wires i⟩

def rxTready : Bool := UartAxil.rxTready (t.wires i) t.slave.rd

/-- After a reset edge. -/
def start (s : RegSlave UartAxil) : UartWithRx := ⟨(uartAxil init).start s, ⟨0, false⟩⟩

def step : UartWithRx where
  slave := (uartAxil init).step t.slave (t.regIn i)
  rx := t.rx.step (t.rxTready i) i.arrival

/-! ### Observers -/

/-- The byte popped in this cycle. -/
def pops : List (BitVec 8) := if t.rxTready i && t.rx.tvalid then [t.rx.tdata] else []

/-- The read sampled in this cycle. -/
def reads : List UartRead :=
  if t.slave.rd.rdEn then
    [{ addr := t.slave.rd.araddr
       data := t.slave.dev.rdData (t.wires i) t.slave.rd.araddr
       popped := (t.pops i).head? }]
  else []

def arrivals (_ : UartWithRx) (i : UartRxIn) : List (BitVec 8) := i.arrival.toList

/-! ## One cycle -/

variable {init t i}

theorem pops_eq : t.pops i =
    if (t.slave.rd.rdEn && UartAxil.selData t.slave.rd.araddr) && t.rx.tvalid then [t.rx.tdata]
    else [] := by
  unfold pops rxTready UartAxil.rxTready UartAxil.dataReadFire wires
  cases t.rx.tvalid <;> simp

/-- Only a read sampled pops. -/
theorem pops_of_no_read (h : t.reads i = []) : t.pops i = [] := by
  have hen : t.slave.rd.rdEn = false := by
    cases hen : t.slave.rd.rdEn with
    | false => rfl
    | true => simp [reads, hen] at h
  rw [pops_eq, hen]
  rfl

/-- A byte that is not popped stays, or a new one takes its place. -/
theorem tvalid_kept (hv : t.rx.tvalid = true) (hp : t.pops i = []) :
    (t.step init i).rx.tvalid = true := by
  have hready : t.rxTready i = false := by
    cases hr : t.rxTready i with
    | false => rfl
    | true => simp [pops, hr, hv] at hp
  show (i.arrival.isSome || (t.rx.tvalid && !t.rxTready i)) = true
  rw [hv, hready]
  simp

/-- What is popped came in, in order; a byte that is replaced is not. -/
theorem pops_sublist :
    (t.pops i ++ if (t.step init i).rx.tvalid then [(t.step init i).rx.tdata] else []).Sublist
      ((if t.rx.tvalid then [t.rx.tdata] else []) ++ t.arrivals i) := by
  show (t.pops i ++ if i.arrival.isSome || (t.rx.tvalid && !t.rxTready i) then
    [i.arrival.getD t.rx.tdata] else []).Sublist _
  unfold pops arrivals
  cases t.rx.tvalid <;> cases t.rxTready i <;> cases i.arrival <;> simp

theorem sampled_eq : t.slave.sampled (t.regIn i) (uartAxil init) =
    (t.reads i).map fun r => (r.addr, r.data) := by
  unfold RegSlave.sampled reads
  split_ifs <;> rfl

/-- **One read.**  It pops exactly if it reads DATA and there is a byte, and returns that byte;
a STATUS read reports whether there is one. -/
theorem read_spec {r : UartRead} (h : r ∈ t.reads i) :
    t.reads i = [r] ∧ t.pops i = r.popped.toList ∧
      (r.popped.isSome = true ↔ UartAxil.selData r.addr = true ∧ t.rx.tvalid = true) ∧
      (∀ b, r.popped = some b → r.data = 0#24 ++ b) ∧
      (UartAxil.selStatus r.addr = true → r.data.getLsbD 1 = t.rx.tvalid) := by
  cases hen : t.slave.rd.rdEn with
  | false => simp [reads, hen] at h
  | true =>
    have hreads : t.reads i = [⟨t.slave.rd.araddr, t.slave.dev.rdData (t.wires i) t.slave.rd.araddr,
        (t.pops i).head?⟩] := by
      rw [reads, if_pos hen]
    rw [hreads, List.mem_singleton] at h
    subst h
    refine ⟨hreads, ?_, ?_, ?_, ?_⟩
    · show t.pops i = (t.pops i).head?.toList
      rw [pops_eq]
      split_ifs <;> rfl
    · show (t.pops i).head?.isSome = true ↔ _
      rw [pops_eq, hen]
      cases UartAxil.selData t.slave.rd.araddr <;> cases t.rx.tvalid <;> simp
    · intro b hb
      have hp : (t.pops i).head? = some b := hb
      rw [pops_eq, hen] at hp
      have hsel : t.slave.rd.araddr.extractLsb 3 2 = 0b00#2 := by
        cases hs : UartAxil.selData t.slave.rd.araddr with
        | false => simp [hs] at hp
        | true => simpa [UartAxil.selData] using hs
      have hb' : t.rx.tdata = b := by
        split_ifs at hp
        · exact Option.some.inj hp
        · cases hp
      show t.slave.dev.rdData (t.wires i) t.slave.rd.araddr = _
      rw [UartAxil.rdData, if_pos hsel, ← hb']
      rfl
    · intro hs
      have hmem : (t.slave.rd.araddr, t.slave.dev.rdData (t.wires i) t.slave.rd.araddr) ∈
          t.slave.sampled (t.regIn i) (uartAxil 0) := by
        rw [RegSlave.sampled, if_pos hen]
        exact List.mem_singleton_self _
      exact (UartAxil.sampled_status hmem hs).2.2

/-- The bytes popped are those that the reads pop. -/
theorem pops_eq_reads : t.pops i = (t.reads i).filterMap UartRead.popped := by
  rcases hr : t.reads i with - | ⟨r, rs⟩
  · exact pops_of_no_read hr
  · have hmem : r ∈ t.reads i := by rw [hr]; exact List.mem_cons_self ..
    obtain ⟨hone, hpop, -⟩ := read_spec hmem
    rw [← hr, hone, hpop]
    cases hp : r.popped <;> simp [hp]

theorem pops_of_other {r : UartRead} (h : r ∈ t.reads i) (hsel : UartAxil.selData r.addr = false) :
    t.pops i = [] := by
  obtain ⟨-, hpop, hiff, -, -⟩ := read_spec h
  cases hp : r.popped with
  | none => rw [hpop, hp]; rfl
  | some b =>
    have hdata := (hiff.1 (by rw [hp]; rfl)).1
    rw [hsel] at hdata
    cases hdata

/-! ## Runs -/

/-- With a byte there, the next DATA read pops one. -/
theorem next_read_pops {t : UartWithRx} {is : List UartRxIn} {ys zs : List UartRead} {d : UartRead}
    (hv : t.rx.tvalid = true) (hreads : outputs (step init) reads t is = ys ++ d :: zs)
    (hys : ∀ r ∈ ys, UartAxil.selData r.addr = false) (hd : UartAxil.selData d.addr = true) :
    d.popped.isSome = true := by
  induction is generalizing t ys with
  | nil => simp at hreads
  | cons i is ih =>
    rw [outputs_cons] at hreads
    rcases hr : t.reads i with - | ⟨r, rs⟩
    · -- no read in this cycle
      rw [hr, List.nil_append] at hreads
      exact ih (tvalid_kept hv (pops_of_no_read hr)) hreads hys
    · have hmem : r ∈ t.reads i := by rw [hr]; exact List.mem_cons_self ..
      obtain ⟨hone, -, hiff, -, -⟩ := read_spec hmem
      rw [hone, List.singleton_append] at hreads
      cases ys with
      | nil =>
        rw [List.nil_append, List.cons.injEq] at hreads
        rw [← hreads.1] at hd ⊢
        exact hiff.2 ⟨hd, hv⟩
      | cons y ys =>
        rw [List.cons_append, List.cons.injEq] at hreads
        rw [List.forall_mem_cons, ← hreads.1] at hys
        exact ih (tvalid_kept hv (pops_of_other hmem hys.1)) hreads.2 hys.2

/-- Once a STATUS read has reported a byte, the next DATA read pops one. -/
theorem reported_read_pops {t : UartWithRx} {is : List UartRxIn} {xs ys zs : List UartRead}
    {st d : UartRead} (hreads : outputs (step init) reads t is = xs ++ st :: (ys ++ d :: zs))
    (hst : st.reportsByte = true) (hys : ∀ r ∈ ys, UartAxil.selData r.addr = false)
    (hd : UartAxil.selData d.addr = true) : d.popped.isSome = true := by
  induction is generalizing t xs with
  | nil => simp at hreads
  | cons i is ih =>
    rw [outputs_cons] at hreads
    rcases hr : t.reads i with - | ⟨r, rs⟩
    · rw [hr, List.nil_append] at hreads
      exact ih hreads
    · have hmem : r ∈ t.reads i := by rw [hr]; exact List.mem_cons_self ..
      obtain ⟨hone, -, -, -, hvalid⟩ := read_spec hmem
      rw [hone, List.singleton_append] at hreads
      cases xs with
      | cons x xs =>
        rw [List.cons_append, List.cons.injEq] at hreads
        exact ih hreads.2
      | nil =>
        rw [List.nil_append, List.cons.injEq] at hreads
        rw [← hreads.1] at hst
        -- the report is of the byte that is there, and a STATUS read leaves it there
        obtain ⟨hsel, hbit⟩ := Bool.and_eq_true_iff.1 hst
        have hv : t.rx.tvalid = true := by rw [← hvalid hsel]; exact hbit
        have hdata : UartAxil.selData r.addr = false := by
          unfold UartAxil.selStatus at hsel
          unfold UartAxil.selData
          rw [beq_iff_eq] at hsel
          rw [hsel]
          rfl
        exact next_read_pops (tvalid_kept hv (pops_of_other hmem hdata)) hreads.2 hys hd

/-- **Receive delivers each byte at most once.**  Whatever the master does and whatever arrives:
the reads of the bus are answered once each, in order; every byte popped is popped by one of
them, and the bytes popped are among those that arrived, in order; a read pops exactly if it
reads DATA with a byte there, and then returns it; and once a STATUS read has reported a byte,
the next DATA read pops one. -/
theorem uart_rx_exact (init : BitVec 16) (s : RegSlave UartAxil) (is : List UartRxIn) :
    let t := run (step init) (start init s) is
    let rs := outputs (step init) reads (start init s) is
    let popped := outputs (step init) pops (start init s) is
    outputs (step init) (fun t i => t.slave.arTaken (t.regIn i)) (start init s) is =
      rs.map UartRead.addr ++ t.slave.arHeld ∧
    outputs (step init) (fun t i => t.slave.rTaken (t.regIn i)) (start init s) is ++ t.slave.rHeld =
      rs.map UartRead.data ∧
    popped = rs.filterMap UartRead.popped ∧
    popped.Sublist (outputs (step init) arrivals (start init s) is) ∧
    Always (step init) (fun t i => ∀ r ∈ t.reads i,
      (r.popped.isSome = true ↔ UartAxil.selData r.addr = true ∧ t.rx.tvalid = true) ∧
      ∀ b, r.popped = some b → r.data = 0#24 ++ b) (start init s) is ∧
    ∀ xs st ys d zs, rs = xs ++ st :: (ys ++ d :: zs) → st.reportsByte = true →
      (∀ r ∈ ys, UartAxil.selData r.addr = false) → UartAxil.selData d.addr = true →
        d.popped.isSome = true := by
  intro t rs popped
  have hpart : ∀ (t : UartWithRx) (i : UartRxIn),
      (t.step init i).slave = (uartAxil init).step t.slave (t.regIn i) := fun _ _ => rfl
  let ins := outputs (step init) (fun t i => [t.regIn i]) (start init s) is
  have hslave : t.slave = run (uartAxil init).step ((uartAxil init).start s) ins :=
    run_part UartWithRx.slave regIn hpart (start init s) is
  have hpairs : outputs (uartAxil init).step (fun s i => s.sampled i (uartAxil init))
      ((uartAxil init).start s) ins = rs.map fun r => (r.addr, r.data) := by
    have h := outputs_part UartWithRx.slave regIn hpart
      (fun s i => s.sampled i (uartAxil init)) (start init s) is
    rw [← outputs_map]
    exact h.symm.trans (outputs_congr fun c _ => sampled_eq)
  refine ⟨?_, ?_, ?_, ?_, ?_, fun xs st ys d zs h => reported_read_pops h⟩
  · have har := (uartAxil init).reads_sampled s ins
    rw [hpairs, ← hslave, List.map_map] at har
    exact (outputs_part UartWithRx.slave regIn hpart RegSlave.arTaken (start init s) is).trans har
  · have hr := (uartAxil init).reads_answered s ins
    rw [hpairs, ← hslave, List.map_map] at hr
    have hpart := outputs_part UartWithRx.slave regIn hpart RegSlave.rTaken (start init s) is
    exact (congrArg (· ++ t.slave.rHeld) hpart).trans hr
  · rw [← outputs_filterMap]
    exact outputs_congr fun c _ => pops_eq_reads
  · let held := fun t : UartWithRx => if t.rx.tvalid then [t.rx.tdata] else []
    have hsub : (popped ++ held t).Sublist
        (held (start init s) ++ outputs (step init) arrivals (start init s) is) :=
      outputs_sublist held (fun c _ => @pops_sublist init c.1 c.2)
    exact (List.sublist_append_left _ _).trans hsub
  · intro c _ r hmem
    obtain ⟨-, -, hiff, hdata, -⟩ := read_spec hmem
    exact ⟨hiff, hdata⟩

/-- A byte arrives while a STATUS read is asked for; a DATA read follows. -/
def statusThenData : List UartRxIn :=
  [{ (default : UartRxIn) with
      arrival := some 0x41, bus := { (default : MasterOut) with arvalid := true, araddr := 4 } },
    default,
    { (default : UartRxIn) with
      bus := { (default : MasterOut) with arvalid := true, araddr := 0, rready := true } },
    default]

theorem uart_rx_exact_poll :
    (UartRead.mk 0 0x41 (some 0x41)).popped.isSome = true ∧
    outputs (step 81) pops (start 81 default) statusThenData = [0x41] :=
  have h := uart_rx_exact 81 default statusThenData
  ⟨h.2.2.2.2.2 [] ⟨4, 2, none⟩ [] _ [] (by decide +kernel) (by decide) (by simp) (by decide),
    h.2.2.1.trans (by decide +kernel)⟩

end UartWithRx

/-! ## `uart_axil` with `uart_rx` -/

/-- The registers of `uart_axil` and of the receiver in it. -/
structure UartAxilRx where
  slave : RegSlave UartAxil
  uRx : UartRx

/-- One cycle: the bus, the serial line, and what `uart_tx` drives. -/
structure UartAxilRxIn where
  bus : MasterOut
  rxd : Bool
  txTready : Bool
  txBusy : Bool
deriving Inhabited

namespace UartAxilRx

variable (init : BitVec 16) (t : UartAxilRx) (i : UartAxilRxIn)

/-- The receiver seen as a port. -/
def withPort : UartWithRx := ⟨t.slave, t.uRx.port⟩

/-- What arrives at the port, and the error pulses. -/
def portIn : UartRxIn where
  bus := i.bus
  arrival := t.uRx.arrival
  txTready := i.txTready
  txBusy := i.txBusy
  rxOverrun := t.uRx.overrunErrorReg
  rxFrame := t.uRx.frameErrorReg

/-- After a reset edge. -/
def start (s : RegSlave UartAxil) (rx : UartRx) : UartAxilRx :=
  ⟨(uartAxil init).start s, rx.reset⟩

/-- One clock edge outside reset. -/
def step : UartAxilRx where
  slave := (uartAxil init).step t.slave (t.withPort.regIn (t.portIn i))
  uRx := t.uRx.step (t.withPort.rxTready (t.portIn i)) i.rxd t.slave.dev.prescaleReg

theorem step_withPort : (t.step init i).withPort = t.withPort.step init (t.portIn i) := by
  rw [withPort, step, UartRx.step_port]
  rfl

/-- **A run with the receiver is a run in front of a port**: what `uart_rx_exact` says of the
reads and the bytes popped holds with `uart_rx` for any serial line. -/
theorem run_withPort (s : RegSlave UartAxil) (rx : UartRx) (is : List UartAxilRxIn) :
    (run (step init) (start init s rx) is).withPort =
      run (UartWithRx.step init) (UartWithRx.start init s)
        (outputs (step init) (fun t i => [t.portIn i]) (start init s rx) is) :=
  run_part withPort portIn (step_withPort init) (start init s rx) is

/-- And shows the same. -/
theorem outputs_withPort {ο : Type} (f : UartWithRx → UartRxIn → List ο) (s : RegSlave UartAxil)
    (rx : UartRx) (is : List UartAxilRxIn) :
    outputs (step init) (fun t i => f t.withPort (t.portIn i)) (start init s rx) is =
      outputs (UartWithRx.step init) f (UartWithRx.start init s)
        (outputs (step init) (fun t i => [t.portIn i]) (start init s rx) is) :=
  outputs_part withPort portIn (step_withPort init) f (start init s rx) is

end UartAxilRx

end Rv32i
