import Rv32iCore.Soc.System

/-!
# The devices of `soc`, as the program sees them

The writes that a slave takes are the words that the bus has routed to it, AW and W together
(`Paired`), so what its registers have performed is what the program has stored there, in order,
but for a write that still waits (`applied_served`).

    soc_devices     LEDs and `mtimecmp` are folds over the stores of the program
-/

namespace Rv32i

open Sync

/-! ## AW and W together -/

/-- The write that slave `k` has taken. -/
def ServedWord.writeTo (k : Fin 4) : ServedWord → Option RegWrite
  | .write j addr data strb => if j = k then some (addr, data, strb) else none
  | .read _ _ _ => none

namespace Fabric

open Interconnect

variable {m : MemReq} {mem : BitVec 30 → Word} {rs : List Word} {s : Fabric} {k : Fin 4}

/-- A slave takes AW and W in the same cycle. -/
def Paired (s : Fabric) : Prop :=
  ∀ k, ((s.ic.mOut k).wvalid && (s.slaves.out k).wready) =
    ((s.ic.mOut k).awvalid && (s.slaves.out k).awready)

theorem paired_of_none (haw : s.ic.mAwvalid = noPort) (hw : s.ic.mWvalid = noPort) : s.Paired := by
  intro k
  simp [mOut, haw, hw, noPort]

theorem Idle.paired (h : s.Idle) : s.Paired := by
  obtain ⟨path, arb, hic, -⟩ := h.ic
  exact paired_of_none (by rw [hic]; rfl) (by rw [hic]; rfl)

theorem Transit.paired (h : Transit m mem rs s) : s.Paired := by
  cases h with
  | idle h => exact h.paired
  | writeSent hb hg hs =>
    intro k
    obtain ⟨haw, hw, -⟩ := hs.idle.out k
    show (onePort _ k && _) = (onePort _ k && _)
    rw [haw, hw]
  | _ => exact paired_of_none rfl rfl

/-- The write that slave `k` takes in this cycle. -/
theorem served_writeTo (s : Fabric) (k : Fin 4) :
    s.served.filterMap (ServedWord.writeTo k) =
      if (s.ic.mOut k).awvalid && (s.slaves.out k).awready then
        [((s.ic.mOut k).awaddr, (s.ic.mOut k).wdata, (s.ic.mOut k).wstrb)] else [] := by
  rw [served, List.filterMap_flatMap]
  refine (flatMap_ports (k := k) fun j hj => ?_).trans ?_
  · rw [List.filterMap_append]
    split_ifs <;> simp [ServedWord.writeTo, hj]
  · rw [List.filterMap_append]
    split_ifs <;> simp [ServedWord.writeTo]

end Fabric

theorem BusRun.Rel.paired {t : BusRun} {bytes : Word → BitVec 8} (h : t.Rel bytes) :
    t.fabric.Paired := by
  obtain ⟨mem, -, h | ⟨m, h⟩⟩ := h
  · exact h.idle.paired
  · exact h.transit.paired

/-! ## The stores of an access -/

namespace MemReq

variable (m : MemReq) (k : Fin 4)

/-- The words of the access. -/
def words : List Bool := if m.crosses then [false, true] else [false]

/-- What one of them writes to slave `k`. -/
def store (phase2 : Bool) : List RegWrite :=
  if m.we = true ∧ icDecode (m.busAddr phase2) = some k then
    [(m.busAddr phase2, m.busWdata phase2, m.busWstrb phase2)] else []

/-- What the access writes to slave `k`. -/
def stores : List RegWrite := m.words.flatMap (m.store k)

variable {m k}

theorem servedWord_writeTo (phase2 : Bool) (r : Word) :
    (m.servedWord phase2 r).filterMap (ServedWord.writeTo k) = m.store k phase2 := by
  unfold servedWord store
  cases hd : icDecode (m.busAddr phase2) with
  | none => simp
  | some j =>
    cases hwe : m.we with
    | false => simp [ServedWord.writeTo]
    | true => by_cases hj : j = k <;> simp [ServedWord.writeTo, hj]

theorem map_fst_zip_take {α β : Type} (as : List α) (bs : List β) :
    (as.zip bs).map Prod.fst = as.take bs.length := by
  induction as generalizing bs with
  | nil => simp
  | cons a as ih =>
    cases bs with
    | nil => rfl
    | cons b bs => simp [ih]

/-- The words served so far are the first ones. -/
theorem served_writeTo {rs : List Word} (h : rs.length ≤ m.words.length) :
    (m.served rs).filterMap (ServedWord.writeTo k) =
      (m.words.take rs.length).flatMap (m.store k) := by
  have hzip : [false, true].zip rs = m.words.zip rs := by
    unfold words at h ⊢
    cases hc : m.crosses with
    | true => rfl
    | false =>
      rw [hc] at h
      match rs, h with
      | [], _ => rfl
      | [r], _ => rfl
  rw [served, hzip, List.filterMap_flatMap]
  calc (m.words.zip rs).flatMap (fun w => (m.servedWord w.1 w.2).filterMap (ServedWord.writeTo k))
      = (m.words.zip rs).flatMap fun w => m.store k w.1 := by simp only [servedWord_writeTo]
    _ = ((m.words.zip rs).map Prod.fst).flatMap (m.store k) := by rw [List.flatMap_map]
    _ = (m.words.take rs.length).flatMap (m.store k) := by rw [map_fst_zip_take]

end MemReq

/-- A completed access has written what it stores. -/
theorem BusAccess.Answered.stores {c : BusAccess} (h : c.Answered) (k : Fin 4) :
    c.served.filterMap (ServedWord.writeTo k) = c.1.stores k := by
  have hlen : c.2.length = c.1.words.length := by
    rw [h.words, MemReq.words]
    split_ifs <;> rfl
  rw [BusAccess.served, MemReq.served_writeTo (Nat.le_of_eq hlen), hlen, List.take_length]
  rfl

/-! ## A slave in a run of the system -/

namespace SocRun

/-- `slave` is slave `k` of the system, a register device with the wires `env`. -/
structure IsSlave {δ ε : Type} (P : Params) (s : Soc) (D : RegDevice δ ε) (k : Fin 4)
    (slave : SocRun → RegSlave δ) (env : SocRun → SocIn → ε) : Prop where
  wr : ∀ t, (slave t).wr = t.bus.fabric.slaves.wr k
  rd : ∀ t, (slave t).rd = t.bus.fabric.slaves.rd k
  step : ∀ t i, slave (t.step P i) = D.step (slave t) ⟨t.bus.fabric.ic.mOut k, env t i⟩
  start : ∃ r, slave (reset P s) = D.start r

section

variable (P : Params) (s : Soc)

theorem isGpio : IsSlave P s gpio gpioPort (·.bus.fabric.slaves.uGpio) fun _ i => i.sw :=
  ⟨fun _ => rfl, fun _ => rfl, fun _ _ => rfl, s.bus.slaves.uGpio, rfl⟩

theorem isTimer : IsSlave P s timer timerPort (·.bus.fabric.slaves.uTimer) fun _ _ => () :=
  ⟨fun _ => rfl, fun _ => rfl, fun _ _ => rfl, s.bus.slaves.uTimer, rfl⟩

theorem isUart : IsSlave P s socUart uartPort (·.soc.uUart) fun t _ => t.soc.uartWires :=
  ⟨fun _ => rfl, fun _ => rfl, fun _ _ => rfl, s.bus.slaves.uUart, rfl⟩

end

namespace IsSlave

variable {δ ε : Type} {P : Params} {s : Soc} {D : RegDevice δ ε} {k : Fin 4}
  {slave : SocRun → RegSlave δ} {env : SocRun → SocIn → ε}

/-- **What a slave has performed** is what has been routed to it, but for a write that waits. -/
theorem applied_served (h : IsSlave P s D k slave env) (is : List SocIn) :
    outputs (SocRun.step P)
        (fun t i => (slave t).applied ⟨t.bus.fabric.ic.mOut k, env t i⟩ D) (reset P s) is ++
        (slave (run (SocRun.step P) (reset P s) is)).waiting =
      (outputs (SocRun.step P) served (reset P s) is).filterMap (ServedWord.writeTo k) := by
  obtain ⟨r, h0⟩ := h.start
  let q := fun (t : SocRun) i => (⟨t.bus.fabric.ic.mOut k, env t i⟩ : RegIn ε)
  let ins := outputs (SocRun.step P) (fun t i => [q t i]) (reset P s) is
  have hout {ο : Type} (f : RegSlave δ → RegIn ε → List ο) :
      outputs (SocRun.step P) (fun t i => f (slave t) (q t i)) (reset P s) is =
        outputs D.step f (D.start r) ins := by
    rw [← h0]
    exact outputs_part slave q h.step f (reset P s) is
  have hrun : slave (run (SocRun.step P) (reset P s) is) = run D.step (D.start r) ins := by
    rw [← h0]
    exact run_part slave q h.step (reset P s) is
  have hready : ∀ t : SocRun, (t.bus.fabric.slaves.out k).awready = (slave t).wr.awready ∧
      (t.bus.fabric.slaves.out k).wready = (slave t).wr.wready := by
    intro t
    rw [Slaves.out_eq, h.wr]
    exact ⟨rfl, rfl⟩
  have haw : outputs D.step RegSlave.awTaken (D.start r) ins =
      ((outputs (SocRun.step P) served (reset P s) is).filterMap
        (ServedWord.writeTo k)).map Prod.fst := by
    rw [← hout, ← outputs_filterMap, ← outputs_map]
    refine outputs_congr fun c _ => ?_
    show (if (c.1.bus.fabric.ic.mOut k).awvalid && (slave c.1).wr.awready then _ else _) =
      (c.1.bus.fabric.served.filterMap (ServedWord.writeTo k)).map Prod.fst
    rw [Fabric.served_writeTo, (hready c.1).1]
    split_ifs <;> rfl
  have hw : outputs D.step RegSlave.wTaken (D.start r) ins =
      ((outputs (SocRun.step P) served (reset P s) is).filterMap
        (ServedWord.writeTo k)).map Prod.snd := by
    rw [← hout, ← outputs_filterMap, ← outputs_map]
    refine outputs_congr fun c hc => ?_
    have hpaired := (always_inv P s is c hc).bytes.paired k
    show (if (c.1.bus.fabric.ic.mOut k).wvalid && (slave c.1).wr.wready then _ else _) =
      (c.1.bus.fabric.served.filterMap (ServedWord.writeTo k)).map Prod.snd
    rw [Fabric.served_writeTo, ← hpaired, (hready c.1).2]
    split_ifs <;> rfl
  have happlied := D.writes_applied r ins
  rw [RegDevice.accepted, haw, hw, List.zip_map'] at happlied
  rw [hout fun s i => s.applied i D, hrun, ← happlied]
  simp

end IsSlave

variable {P : Params} {s : Soc} {is : List SocIn}

/-- What the accesses that are over have stored at slave `k`. -/
def stored (P : Params) (s : Soc) (is : List SocIn) (k : Fin 4) : List RegWrite :=
  (outputs (SocRun.step P) completed (reset P s) is).flatMap fun c => c.1.stores k

theorem completed_writeTo (k : Fin 4) :
    ((outputs (SocRun.step P) completed (reset P s) is).flatMap BusAccess.served).filterMap
      (ServedWord.writeTo k) = stored P s is k := by
  rw [List.filterMap_flatMap, stored]
  exact List.flatMap_congr fun c hc => (answered hc).stores k

theorem waiting_idle {δ : Type} {r : RegSlave δ} (h : WrInv r.wr .idle) : r.waiting = [] := by
  have haw : r.wr.awvalid = false := h.of_idle.2.2.1
  rw [RegSlave.waiting, RegSlave.awHeld, haw]
  rfl

/-- Between two accesses no slave has a request. -/
theorem slaves_idle (hheld : (run (SocRun.step P) (reset P s) is).bus.held = none) :
    (run (SocRun.step P) (reset P s) is).bus.fabric.slaves.Idle := by
  obtain ⟨mem, -, h | ⟨m, h⟩⟩ := (inv_run P s is).bytes
  · exact h.idle.slaves
  · have hbusy := h.held
    rw [hheld] at hbusy
    cases hbusy

namespace IsSlave

variable {δ ε τ : Type} {D : RegDevice δ ε} {k : Fin 4} {slave : SocRun → RegSlave δ}
  {env : SocRun → SocIn → ε}

/-- Between two accesses a slave has performed what the program has stored there. -/
theorem applied_stored (h : IsSlave P s D k slave env)
    (hheld : (run (SocRun.step P) (reset P s) is).bus.held = none) :
    outputs (SocRun.step P)
      (fun t i => (slave t).applied ⟨t.bus.fabric.ic.mOut k, env t i⟩ D) (reset P s) is =
      stored P s is k := by
  have hserved := h.applied_served is
  have hidle := (slaves_idle hheld k).1
  rw [← h.wr] at hidle
  have hsofar : (run (SocRun.step P) (reset P s) is).bus.servedSoFar = [] := by
    rw [BusRun.servedSoFar, hheld]
    rfl
  rw [waiting_idle hidle, List.append_nil, words_served, hsofar, List.append_nil,
    completed_writeTo] at hserved
  exact hserved

/-- A register that only writes change is a fold over those performed. -/
theorem run_fold (h : IsSlave P s D k slave env) (f : δ → τ) (g : τ → RegWrite → τ)
    (hf : ∀ (r : RegSlave δ) (i : RegIn ε), f (D.step r i).dev = (r.applied i D).foldl g (f r.dev))
    (is : List SocIn) :
    f (slave (run (SocRun.step P) (reset P s) is)).dev =
      (outputs (SocRun.step P)
        (fun t i => (slave t).applied ⟨t.bus.fabric.ic.mOut k, env t i⟩ D) (reset P s) is).foldl g
        (f D.reset) := by
  obtain ⟨r, h0⟩ := h.start
  have hstep : ∀ t i, f (slave (t.step P i)).dev =
      ((slave t).applied ⟨t.bus.fabric.ic.mOut k, env t i⟩ D).foldl g (f (slave t).dev) := by
    intro t i
    rw [h.step]
    exact hf _ _
  have hfold := run_eq_foldl (fun t => f (slave t).dev) g hstep (reset P s) is
  rw [h0] at hfold
  exact hfold

/-- Between two accesses it is one over what the program has stored. -/
theorem fold_stored (h : IsSlave P s D k slave env) (f : δ → τ) (g : τ → RegWrite → τ)
    (hf : ∀ (r : RegSlave δ) (i : RegIn ε), f (D.step r i).dev = (r.applied i D).foldl g (f r.dev))
    (hheld : (run (SocRun.step P) (reset P s) is).bus.held = none) :
    f (slave (run (SocRun.step P) (reset P s) is)).dev = (stored P s is k).foldl g (f D.reset) := by
  rw [← h.applied_stored hheld]
  exact h.run_fold f g hf is

end IsSlave

end SocRun

/-! ## The registers of the devices -/

/-- What a write does to the LED register. -/
def Gpio.writeLed (led : Word) (w : RegWrite) : Word :=
  if w.1.getLsbD 2 = false then Bytes.merge led w.2.1 w.2.2 else led

theorem Gpio.ledReg_step (s : RegSlave Gpio) (i : RegIn (BitVec 16)) :
    (gpio.step s i).dev.ledReg = (s.applied i gpio).foldl writeLed s.dev.ledReg := by
  show s.dev.nextLedReg s.wr = (if s.wr.wrEn then [_] else []).foldl writeLed s.dev.ledReg
  unfold nextLedReg
  cases s.wr.wrEn with
  | false => rfl
  | true => simp [writeLed]

/-- What a write does to PRESCALE. -/
def UartAxil.writePrescale (prescale : BitVec 16) (w : RegWrite) : BitVec 16 :=
  if selPresc w.1 then w.2.1.extractLsb 15 0 else prescale

theorem UartAxil.prescaleReg_step (s : RegSlave UartAxil) (i : RegIn UartWires) :
    (socUart.step s i).dev.prescaleReg =
      (s.applied i socUart).foldl writePrescale s.dev.prescaleReg := by
  show s.dev.nextPrescaleReg s.wr =
    (if regWrAck i.env s.wr then [(s.wr.awaddr, s.wr.wdata, s.wr.wstrb)] else []).foldl
      writePrescale s.dev.prescaleReg
  unfold nextPrescaleReg regWrAck
  cases s.wr.wrEn with
  | false => rfl
  | true =>
    cases hp : selPresc s.wr.awaddr with
    | false =>
      rw [Bool.and_false, if_neg Bool.false_ne_true]
      split_ifs
      · rw [List.foldl_cons, List.foldl_nil, writePrescale, hp, if_neg Bool.false_ne_true]
      · rfl
    | true =>
      -- a write to PRESCALE is none to DATA
      have hdata : selData s.wr.awaddr = false := by
        unfold selPresc at hp
        rw [beq_iff_eq] at hp
        rw [selData, hp]
        rfl
      rw [hdata]
      simp [writePrescale, hp]

namespace SocRun

variable {P : Params} {s : Soc} {is : List SocIn}

/-- `mtime` counts every cycle while nothing but `mtimecmp` is written. -/
theorem mtime_run (h : ∀ w ∈ outputs (SocRun.step P) (fun t _ =>
      t.bus.fabric.slaves.uTimer.applied ⟨t.bus.fabric.ic.mOut timerPort, ()⟩ timer) (reset P s) is,
      Timer.ToMtimecmp w) :
    (run (SocRun.step P) (reset P s) is).bus.fabric.slaves.uTimer.dev.mtime =
      BitVec.ofNat 64 is.length := by
  let slave := fun t : SocRun => t.bus.fabric.slaves.uTimer
  let q := fun (t : SocRun) (_ : SocIn) => (⟨t.bus.fabric.ic.mOut timerPort, ()⟩ : RegIn Unit)
  have hstep : ∀ t i, slave (t.step P i) = timer.step (slave t) (q t i) := (isTimer P s).step
  rw [outputs_part slave q hstep fun s i => s.applied i timer] at h
  have hrun := run_part slave q hstep (reset P s) is
  have hcount := Timer.mtime_run h
  rw [← hrun, outputs_singleton_length] at hcount
  exact hcount.trans (BitVec.zero_add _)

end SocRun

/-- **Devices.**  Between two accesses LED, its pins, `mtimecmp` and PRESCALE are what the stores of the
program, in order, have made of their reset values; and with no store to `mtime`, `timer_irq` is up
exactly when the cycles since reset have come to `mtimecmp`. -/
theorem soc_devices (P : Params) (s : Soc) (is : List SocIn)
    (hheld : (run (SocRun.step P) (.reset P s) is).bus.held = none) :
    let t := run (SocRun.step P) (.reset P s) is
    let stored := SocRun.stored P s is
    let mtimecmp := (stored timerPort).foldl Timer.writeMtimecmp (BitVec.allOnes 64)
    t.bus.fabric.slaves.uGpio.dev.ledReg = (stored gpioPort).foldl Gpio.writeLed 0 ∧
    t.soc.led = ((stored gpioPort).foldl Gpio.writeLed 0).extractLsb 15 0 ∧
    t.soc.uUart.dev.prescaleReg = (stored uartPort).foldl UartAxil.writePrescale 81 ∧
    t.bus.fabric.slaves.uTimer.dev.mtimecmp = mtimecmp ∧
    ((∀ w ∈ stored timerPort, Timer.ToMtimecmp w) →
      (t.soc.timerIrq = true ↔ mtimecmp.toNat ≤ is.length % 2 ^ 64)) := by
  intro t stored mtimecmp
  have hcmp : t.bus.fabric.slaves.uTimer.dev.mtimecmp = mtimecmp :=
    (SocRun.isTimer P s).fold_stored Timer.mtimecmp Timer.writeMtimecmp Timer.mtimecmp_step hheld
  have hled : t.bus.fabric.slaves.uGpio.dev.ledReg = (stored gpioPort).foldl Gpio.writeLed 0 :=
    (SocRun.isGpio P s).fold_stored Gpio.ledReg Gpio.writeLed Gpio.ledReg_step hheld
  refine ⟨hled, congrArg (BitVec.extractLsb 15 0) hled, ?_, hcmp, fun h => ?_⟩
  · exact (SocRun.isUart P s).fold_stored UartAxil.prescaleReg UartAxil.writePrescale
      UartAxil.prescaleReg_step hheld
  · rw [Soc.timerIrq, Timer.timerIrq_iff]
    rw [show stored timerPort = _ from ((SocRun.isTimer P s).applied_stored hheld).symm] at h
    have hmtime := SocRun.mtime_run h
    show t.bus.fabric.slaves.uTimer.dev.mtimecmp.toNat ≤
      t.bus.fabric.slaves.uTimer.dev.mtime.toNat ↔ _
    rw [hcmp, hmtime, BitVec.toNat_ofNat]

/-- `lui x1, 0x10000; addi x2, x0, 5; sw x2, 0(x1); jal x0, 0` -/
def ledProgram : Params := .ofWords [0x100000B7, 0x00500113, 0x0020A023, 0x0000006F]

/-- Any contents of the registers, zero in `dmem`. -/
def Soc.blank : Soc where
  uCore := default
  bus := ⟨.reset, default, ⟨⟨default, default, false, fun _ => 0, 0⟩, default, default, default⟩⟩
  uTx := default
  uRx := default

/-- The store is over in the fourteenth cycle. -/
theorem soc_devices_led :
    let is : List SocIn := List.replicate 14 default
    let t := run (SocRun.step ledProgram) (.reset ledProgram .blank) is
    SocRun.stored ledProgram .blank is gpioPort = [(0x10000000, 5, 0b1111)] ∧
      t.bus.fabric.slaves.uGpio.dev.ledReg =
        (SocRun.stored ledProgram .blank is gpioPort).foldl Gpio.writeLed 0 ∧
      t.soc.led = ((SocRun.stored ledProgram .blank is gpioPort).foldl Gpio.writeLed 0).extractLsb
        15 0 := by
  intro is t
  have h := soc_devices ledProgram .blank is (by decide +kernel)
  exact ⟨by decide +kernel, h.1, h.2.1⟩

end Rv32i
