import Rv32iCore.Soc.Devices
import Rv32iCore.Soc.UartLine

/-!
# What `soc` sends

`soc` with a receiver on `uart_txd`.  What the program stores at UART DATA goes through the bus,
the register interface, the transmitter and the line, each of which may hold a byte back for a
while; none loses, doubles or reorders one.

    soc_uart_output     the receiver gets what the program stores at DATA
-/

namespace Rv32i

open Sync

/-! ## Words on their way -/

/-- The results so far are of words of the access. -/
theorem Fabric.Transit.length_le {m : MemReq} {mem : BitVec 30 → Word} {rs : List Word} {s : Fabric}
    (h : Transit m mem rs s) : rs.length ≤ m.words.length := by
  have hpart : ∀ {read phase2 : Bool}, Part m read phase2 → phase2.toNat < m.words.length := by
    intro read phase2 hw
    unfold MemReq.words
    cases phase2 with
    | false => split_ifs <;> decide
    | true => simp [hw.crosses rfl]
  cases h with
  | idle => exact Nat.zero_le _
  | requested hb | granted hb | decoding hb | data hb | writeSent hb | readSelected hb | readSent hb
  | reading hb =>
    rw [got_length]
    exact Nat.le_of_lt (hpart hb.part)
  | drop hb | writing hb | answered hb =>
    rw [List.length_append, got_length]
    exact hpart hb.part

namespace SocRun

variable {t : SocRun} {k : Fin 4}

/-- What has been served of the access in MEM is the first part of it. -/
theorem Inv.soFar_first (h : t.Inv) :
    t.bus.servedSoFar.filterMap (ServedWord.writeTo k) <+:
      t.cpu.core.memReqPending.flatMap (MemReq.stores · k) := by
  obtain ⟨mem, -, hrest | ⟨m, hbusy⟩⟩ := h.bytes
  · rw [BusRun.servedSoFar, hrest.held]
    exact List.nil_prefix
  · obtain rfl := h.held m hbusy.held
    have hpending : t.cpu.core.memReqPending = [t.soc.uCore.memReq] := if_pos hbusy.presented
    rw [BusRun.servedSoFar, hbusy.held, hpending, List.flatMap_singleton]
    show (t.soc.uCore.memReq.served t.bus.results).filterMap _ <+: _
    rw [MemReq.served_writeTo hbusy.transit.length_le]
    exact (List.take_prefix _ _).flatMap _

variable {P : Params} {s : Soc} {is : List SocIn}

/-- **What a slave has performed is a first part of what the machine stores there**, and all of it
when nothing is under way. -/
theorem IsSlave.applied_machine {δ ε : Type} {D : RegDevice δ ε} {slave : SocRun → RegSlave δ}
    {env : SocRun → SocIn → ε} (h : IsSlave P s D k slave env) :
    let t := run (SocRun.step P) (reset P s) is
    let M := memMap P s is
    let applied := outputs (SocRun.step P)
      (fun t i => (slave t).applied ⟨t.bus.fabric.ic.mOut k, env t i⟩ D) (reset P s) is
    let requests := outputs (MemMachine.step P M) (MemMachine.memReqs P)
      ⟨.reset P s.uCore, (SocRun.reset P s).bus.bytes⟩
      (outputs (SocRun.step P) schedule (reset P s) is)
    applied <+: requests.flatMap (MemReq.stores · k) ∧
      (t.bus.held = none → t.cpu.core.memReqPending = [] →
        applied = requests.flatMap (MemReq.stores · k)) := by
  intro t M applied requests
  have haccesses : _ = [] ++ requests := (refines P s is).accesses
  rw [List.nil_append] at haccesses
  have hstored : requests.flatMap (MemReq.stores · k) =
      stored P s is k ++ t.cpu.core.memReqPending.flatMap (MemReq.stores · k) := by
    rw [← haccesses, List.flatMap_append, List.flatMap_map]
    rfl
  constructor
  · have hserved := h.applied_served is
    rw [words_served, List.filterMap_append, completed_writeTo] at hserved
    calc applied <+: applied ++ (slave t).waiting := List.prefix_append _ _
      _ = stored P s is k ++ t.bus.servedSoFar.filterMap (ServedWord.writeTo k) := hserved
      _ <+: stored P s is k ++ t.cpu.core.memReqPending.flatMap (MemReq.stores · k) :=
        (List.prefix_append_right_inj _).2 (inv_run P s is).soFar_first
      _ = requests.flatMap (MemReq.stores · k) := hstored.symm
  · intro hheld hpending
    rw [hstored, hpending, List.flatMap_nil, List.append_nil]
    exact h.applied_stored hheld

end SocRun

/-! ## The receiver on the line -/

/-- `soc`, the receiver, and what is in flight between them. -/
structure Terminal where
  soc : SocRun
  rx : UartRx
  inFlight : List (BitVec 8)

structure TerminalIn where
  soc : SocIn
  /-- the reader of the receiver takes its byte -/
  tready : Bool
deriving Inhabited

namespace Terminal

variable (P : Params) (q : BitVec 16) (t : Terminal) (i : TerminalIn)

def line : UartLine := ⟨t.soc.uTx, t.rx, t.inFlight⟩

/-- The receiver's PRESCALE is `q`. -/
def lineIn : UartLineIn := ⟨t.soc.soc.txIn, i.tready, q⟩

def reset (s : Soc) (rx : UartRx) : Terminal := ⟨.reset P s, rx.reset, []⟩

def step : Terminal where
  soc := t.soc.step P i.soc
  rx := t.rx.step i.tready t.soc.soc.uartTxd q
  inFlight := (t.line.step (t.lineIn q i)).inFlight

/-- The byte that completes at the receiver. -/
def arrived : List (BitVec 8) := t.line.arrived (t.lineIn q i)

def uartIn : RegIn UartWires := ⟨t.soc.bus.fabric.ic.mOut uartPort, t.soc.soc.uartWires⟩

theorem step_line : (t.step P q i).line = t.line.step (t.lineIn q i) := rfl

/-- `uart_axil` hands over what it performs. -/
theorem handed_applied :
    t.line.handed (t.lineIn q i) =
      (t.soc.soc.uUart.applied t.uartIn socUart).filterMap UartAxil.dataByte :=
  UartAxil.handed_eq 81 t.soc.soc.uUart t.uartIn

theorem offered : t.line.tx.Offered (t.lineIn q i).tx := fun h =>
  (Bool.and_eq_true_iff.1 h).2

end Terminal

namespace SocRun

variable {P : Params} {s : Soc} {is : List SocIn}

/-- The writes that `uart_axil` performs. -/
def uartApplied (t : SocRun) (_ : SocIn) : List RegWrite :=
  t.soc.uUart.applied ⟨t.bus.fabric.ic.mOut uartPort, t.soc.uartWires⟩ socUart

/-- The accesses of the sequential machine, whose run is that of the system. -/
def requests (P : Params) (s : Soc) (is : List SocIn) : List MemReq :=
  outputs (MemMachine.step P (memMap P s is)) (MemMachine.memReqs P)
    ⟨.reset P s.uCore, (SocRun.reset P s).bus.bytes⟩
    (outputs (SocRun.step P) schedule (reset P s) is)

/-- What `uart_axil` performs, seen from the machine. -/
theorem uartApplied_first :
    outputs (SocRun.step P) uartApplied (reset P s) is <+:
      (requests P s is).flatMap (MemReq.stores · uartPort) :=
  (isUart P s).applied_machine.1

theorem uartApplied_all (hheld : (run (SocRun.step P) (reset P s) is).bus.held = none)
    (hpending : (run (SocRun.step P) (reset P s) is).cpu.core.memReqPending = []) :
    outputs (SocRun.step P) uartApplied (reset P s) is =
      (requests P s is).flatMap (MemReq.stores · uartPort) :=
  (isUart P s).applied_machine.2 hheld hpending

end SocRun

/-! ## PRESCALE while the line is busy -/

namespace UartAxil

variable {p : BitVec 16} {ws : List RegWrite}

/-- Writes that are not to it leave PRESCALE. -/
theorem foldl_writePrescale (h : ∀ w ∈ ws, selPresc w.1 = false) : ws.foldl writePrescale p = p := by
  induction ws with
  | nil => rfl
  | cons w ws ih =>
    rw [List.forall_mem_cons] at h
    rw [List.foldl_cons, writePrescale, h.1, if_neg Bool.false_ne_true]
    exact ih h.2

/-- With all writes to PRESCALE before the first to DATA, it is set when a byte is being or has been
handed over. -/
theorem prescale_set {setup sends before now : List RegWrite}
    (hpre : before ++ now <+: setup ++ sends) (hnow : now.length ≤ 1)
    (hdata : (before ++ now).filterMap dataByte ≠ []) (hsetup : ∀ w ∈ setup, dataByte w = none)
    (hsends : ∀ w ∈ sends, selPresc w.1 = false) :
    before.foldl writePrescale p = setup.foldl writePrescale p := by
  have hfirst : setup <+: setup ++ sends := List.prefix_append _ _
  have hlonger : setup.length < (before ++ now).length := by
    by_contra hle
    have hin := List.prefix_of_prefix_length_le hpre hfirst (by omega)
    exact hdata (List.filterMap_eq_nil_iff.2 fun w hw => hsetup w (hin.subset hw))
  have hdone : setup <+: before := by
    refine List.prefix_of_prefix_length_le hfirst ((List.prefix_append _ _).trans hpre) ?_
    rw [List.length_append] at hlonger
    omega
  obtain ⟨rest, rfl⟩ := hdone
  rw [List.append_assoc, List.prefix_append_right_inj] at hpre
  have hrest : rest <+: sends := (List.prefix_append _ _).trans hpre
  rw [List.foldl_append]
  exact foldl_writePrescale fun w hw => hsends w (hrest.subset hw)

end UartAxil

namespace Terminal

variable (P : Params) (s : Soc) (rx : UartRx) (q : BitVec 16) (is : List TerminalIn)

theorem step_soc (t : Terminal) (i : TerminalIn) : (t.step P q i).soc = t.soc.step P i.soc := rfl

theorem run_soc : (run (Terminal.step P q) (.reset P s rx) is).soc =
    run (SocRun.step P) (.reset P s) (is.map TerminalIn.soc) := by
  rw [← outputs_input (Terminal.step P q) TerminalIn.soc (.reset P s rx)]
  exact run_part Terminal.soc (fun _ i => i.soc) (step_soc P q) (.reset P s rx) is

/-- What is handed over is what `uart_axil` performs at DATA. -/
theorem outputs_handed :
    outputs (Terminal.step P q) (fun t i => t.line.handed (t.lineIn q i)) (.reset P s rx) is =
      (outputs (SocRun.step P) SocRun.uartApplied (.reset P s)
        (is.map TerminalIn.soc)).filterMap UartAxil.dataByte := by
  have hout := outputs_part Terminal.soc (fun _ i => i.soc) (step_soc P q) SocRun.uartApplied
    (.reset P s rx) is
  rw [outputs_input] at hout
  rw [show outputs _ _ (SocRun.reset P s) _ = _ from hout.symm, ← outputs_filterMap]
  exact outputs_congr fun _ _ => handed_applied ..

/-- What is in flight has been handed over. -/
theorem inFlight_handed : ((run (Terminal.step P q) (.reset P s rx) is).inFlight).Sublist
    (outputs (Terminal.step P q) (fun t i => t.line.handed (t.lineIn q i)) (.reset P s rx) is) := by
  have hcycle : Always (Terminal.step P q) (fun t i => ([] ++ (t.step P q i).inFlight).Sublist
      (t.inFlight ++ t.line.handed (t.lineIn q i))) (.reset P s rx) is :=
    fun c _ => List.drop_sublist _ _
  have hsub := outputs_sublist Terminal.inFlight hcycle
  rw [outputs_eq_nil fun _ _ => rfl, List.nil_append] at hsub
  exact hsub

variable {P s rx q is}

/-- If the program stores to PRESCALE only before it stores to DATA, it is what it has been set to
in every cycle in which the line is busy. -/
theorem prescale_agrees {setup sends : List RegWrite}
    (hstores : (SocRun.requests P s (is.map TerminalIn.soc)).flatMap (MemReq.stores · uartPort) =
      setup ++ sends)
    (hsetup : ∀ w ∈ setup, UartAxil.dataByte w = none)
    (hsends : ∀ w ∈ sends, UartAxil.selPresc w.1 = false) :
    Always (Terminal.step P q) (fun t i => t.line.Busy (t.lineIn q i) →
      t.soc.soc.uUart.dev.prescaleReg = setup.foldl UartAxil.writePrescale 81) (.reset P s rx) is := by
  refine always_of_prefix fun is₁ i is₂ hsplit hbusy => ?_
  have hsoc := run_soc P s rx q is₁
  have hhanded := outputs_handed P s rx q is₁
  have hflight := inFlight_handed P s rx q is₁
  generalize run (Terminal.step P q) (.reset P s rx) is₁ = t at *
  let before := outputs (SocRun.step P) SocRun.uartApplied (.reset P s) (is₁.map TerminalIn.soc)
  let now := t.soc.uartApplied i.soc
  have hfold : t.soc.soc.uUart.dev.prescaleReg = before.foldl UartAxil.writePrescale 81 := by
    rw [hsoc]
    exact (SocRun.isUart P s).run_fold UartAxil.prescaleReg _ UartAxil.prescaleReg_step _
  have hpre : before ++ now <+: setup ++ sends := by
    rw [← hstores, hsplit]
    refine List.IsPrefix.trans ?_ SocRun.uartApplied_first
    rw [List.map_append, List.map_cons, outputs_append, outputs_cons, ← hsoc, ← List.append_assoc]
    exact List.prefix_append _ _
  have hnow : now.length ≤ 1 := by
    show (if _ then [_] else []).length ≤ 1
    split_ifs <;> simp
  have hdata : (before ++ now).filterMap UartAxil.dataByte ≠ [] := by
    rw [List.filterMap_append, ← hhanded]
    rcases hbusy with hin | hv
    · intro hnone
      rw [(List.append_eq_nil_iff.1 hnone).1] at hflight
      exact hin (List.sublist_nil.1 hflight)
    · have hbyte : now.filterMap UartAxil.dataByte = t.line.handed (t.lineIn q i) :=
        (handed_applied q t i).symm
      have hready := t.offered q i hv
      rw [hbyte]
      show _ ++ (if (t.lineIn q i).tx.tvalid && t.line.tx.sAxisTreadyReg then [_] else []) ≠ []
      rw [hv, hready]
      simp
  rw [hfold]
  exact UartAxil.prescale_set hpre hnow hdata hsetup hsends

end Terminal

/-- What an access sends: the low byte of each word that it stores at DATA. -/
def MemReq.uartBytes (m : MemReq) : List (BitVec 8) :=
  (m.stores uartPort).filterMap UartAxil.dataByte

/-- **What the program stores at DATA comes out of the line.**  With a program whose stores to
PRESCALE, if any, come before those to DATA, and a receiver whose PRESCALE agrees with what they
make of the reset value: whatever else the system and the receiver do, the bytes that arrive are a
first part of those that the sequential machine stores at DATA, in order; they are all of them once
no access is under way and the transmitter is ready; and there is no framing error. -/
theorem soc_uart_output (P : Params) (s : Soc) (rx : UartRx) {q : BitVec 16}
    (setup sends : List RegWrite) (hbaud : Baud (setup.foldl UartAxil.writePrescale 81) q)
    (is : List TerminalIn) :
    let js := is.map TerminalIn.soc
    let requests := SocRun.requests P s js
    let t := run (Terminal.step P q) (.reset P s rx) is
    let arrived := outputs (Terminal.step P q) (Terminal.arrived q) (.reset P s rx) is
    requests.flatMap (MemReq.stores · uartPort) = setup ++ sends →
    (∀ w ∈ setup, UartAxil.dataByte w = none) → (∀ w ∈ sends, UartAxil.selPresc w.1 = false) →
    arrived <+: requests.flatMap MemReq.uartBytes ∧
      (t.soc.bus.held = none → t.soc.cpu.core.memReqPending = [] →
        t.soc.uTx.sAxisTreadyReg = true → arrived = requests.flatMap MemReq.uartBytes) ∧
      Always (Terminal.step P q) (fun t _ => t.rx.frameErrorReg = false) (.reset P s rx) is := by
  intro js requests t arrived hstores hsetup hsends
  let p := setup.foldl UartAxil.writePrescale 81
  have hsoc : t.soc = run (SocRun.step P) (.reset P s) js := Terminal.run_soc P s rx q is
  let applied := outputs (SocRun.step P) SocRun.uartApplied (.reset P s) js
  have hfirst : applied <+: requests.flatMap (MemReq.stores · uartPort) :=
    SocRun.uartApplied_first
  have hbytes : (requests.flatMap (MemReq.stores · uartPort)).filterMap UartAxil.dataByte =
      requests.flatMap MemReq.uartBytes := by
    rw [List.filterMap_flatMap]
    rfl
  -- the line
  have hok : Always (Terminal.step P q) (fun t i => UartLine.Ok p q t.line (t.lineIn q i))
      (.reset P s rx) is :=
    (Terminal.prescale_agrees hstores hsetup hsends).mono fun t i h =>
      ⟨h, fun _ => rfl, t.offered q i⟩
  have h0 : UartLine.Inv p q (Terminal.reset P s rx).line := UartLine.Inv.reset p q s.uTx rx
  obtain ⟨hline, -, hempty, hframe⟩ :=
    UartLine.exact_part Terminal.line (Terminal.lineIn q) (Terminal.step_line P q) hbaud h0 hok
  have hheld : arrived ++ t.inFlight = applied.filterMap UartAxil.dataByte := by
    rw [show applied.filterMap _ = _ from (Terminal.outputs_handed P s rx q is).symm]
    exact hline
  refine ⟨?_, ?_, hframe⟩
  · calc arrived <+: arrived ++ t.inFlight := List.prefix_append _ _
      _ = applied.filterMap UartAxil.dataByte := hheld
      _ <+: (requests.flatMap (MemReq.stores · uartPort)).filterMap UartAxil.dataByte :=
        hfirst.filterMap _
      _ = requests.flatMap MemReq.uartBytes := hbytes
  · intro hidle hpending hready
    rw [hsoc] at hidle hpending
    have hall : applied = requests.flatMap (MemReq.stores · uartPort) :=
      SocRun.uartApplied_all hidle hpending
    rw [show t.inFlight = [] from hempty hready, List.append_nil, hall, hbytes] at hheld
    exact hheld

/-- `lui x1, 0x10001; addi x3, x0, 1; sw x3, 8(x1); addi x2, x0, 'A'; sw x2, 0(x1); jal x0, 0` -/
def letterProgram : Params :=
  .ofWords [0x100010B7, 0x00100193, 0x0030A423, 0x04100113, 0x0020A023, 0x0000006F]

/-- The letter is there 112 cycles after reset, and it is all that is sent. -/
theorem soc_uart_output_letter :
    let is : List TerminalIn := List.replicate 112 default
    let requests := SocRun.requests letterProgram .blank (is.map TerminalIn.soc)
    let arrived := outputs (Terminal.step letterProgram 1) (Terminal.arrived 1)
      (.reset letterProgram .blank default) is
    arrived = [0x41] ∧ arrived = requests.flatMap MemReq.uartBytes := by
  intro is requests arrived
  let setup : List RegWrite := [(0x10001008, 1, 0b1111)]
  let sends : List RegWrite := [(0x10001000, 0x41, 0b1111)]
  have hstores : requests.flatMap (MemReq.stores · uartPort) = setup ++ sends := by
    decide +kernel
  have hsetup : ∀ w ∈ setup, UartAxil.dataByte w = none := by
    intro w hw
    rw [List.mem_singleton.1 hw]
    rfl
  have hsends : ∀ w ∈ sends, UartAxil.selPresc w.1 = false := by
    intro w hw
    rw [List.mem_singleton.1 hw]
    rfl
  have h := soc_uart_output letterProgram .blank default (q := 1) setup sends
    ⟨by decide, by decide⟩ is hstores hsetup hsends
  exact ⟨by decide +kernel, h.2.1 (by decide +kernel) (by decide +kernel) (by decide +kernel)⟩

end Rv32i
