import Rv32iCore.Soc.Devices

/-!
# What the program reads of the devices

A read shown to a register device is sampled in one cycle, and its data are on offer until the
interconnect takes them; meanwhile nothing is written to the device, and the address that the
interconnect remembers is that of the read.  So what a slave serves is what it has sampled, in
order (`IsSlave.reads_sampled`), and a register that only writes change is read as the stores
before the load have left it (`IsSlave.read_value`).

    soc_register_reads    loads of LED, PRESCALE and `mtimecmp` find what was stored there
    soc_sampled_reads     loads of the switches and of `mtime` find those of later and later cycles
-/

namespace Rv32i

open Sync

/-- The read that slave `k` has answered: its address and the data. -/
def ServedWord.readFrom (k : Fin 4) : ServedWord → Option (Word × Word)
  | .read j addr data => if j = k then some (addr, data) else none
  | .write _ _ _ _ => none

/-! ## One cycle of the bus -/

namespace Fabric

open Interconnect

variable {m : MemReq} {mem : BitVec 30 → Word} {rs : List Word} {s : Fabric} {k : Fin 4}
  {e : SlavesIn}

/-- The read that slave `k` answers in this cycle. -/
theorem served_readFrom (s : Fabric) (k : Fin 4) :
    s.served.filterMap (ServedWord.readFrom k) =
      if (s.slaves.out k).rvalid && (s.ic.mOut k).rready then
        [((s.ic.mOut k).araddr, (s.slaves.out k).rdata)] else [] := by
  rw [served, List.filterMap_flatMap]
  refine (flatMap_ports (k := k) fun j hj => ?_).trans ?_
  · rw [List.filterMap_append]
    split_ifs <;> simp [ServedWord.readFrom, hj]
  · rw [List.filterMap_append]
    split_ifs <;> simp [ServedWord.readFrom]

/-- Slave `k` has a read, and the interconnect waits for its R. -/
structure AwaitsR (s : Fabric) (k : Fin 4) : Prop where
  ic : ∃ path arb, s.ic = awaitingR path arb ∧ arb.Granted true ∧ path.axilAddrValid = false ∧
    path.mSelect = k
  reading : s.slaves.Reading k s.ic.path.axilAddr

namespace AwaitsR

theorem wr (h : s.AwaitsR k) : WrInv (s.slaves.wr k) .idle := (h.reading k).1

theorem rd (h : s.AwaitsR k) : RdInv (s.slaves.rd k) (some s.ic.path.axilAddr) := by
  simpa using (h.reading k).2

theorem rready (h : s.AwaitsR k) : (s.ic.mOut k).rready = true := by
  obtain ⟨path, arb, hic, -, -, rfl⟩ := h.ic
  rw [hic]
  exact onePort_self _

theorem awvalid (h : s.AwaitsR k) : (s.ic.mOut k).awvalid = false := by
  obtain ⟨path, arb, hic, -⟩ := h.ic
  rw [hic]
  rfl

/-- The interconnect remembers the address. -/
theorem axilAddr_step (h : s.AwaitsR k) : (s.step m e).ic.path.axilAddr = s.ic.path.axilAddr := by
  obtain ⟨path, arb, hic, hg, hv, -⟩ := h.ic
  have hstep : (s.step m e).ic = s.ic.step (s.master.out m) s.slaves.out := rfl
  rw [hstep, hic, step_readWait hg hv]
  split_ifs <;> rfl

end AwaitsR

theorem Idle.rd (h : s.Idle) (k : Fin 4) : RdInv (s.slaves.rd k) none := (h.slaves k).2

/-- In every stage of an access a slave has no read, or R is waited for. -/
theorem Transit.awaitsR (h : Transit m mem rs s) (k : Fin 4) :
    RdInv (s.slaves.rd k) none ∨ s.AwaitsR k := by
  cases h with
  | idle h => exact .inl (h.rd k)
  | requested _ _ hs | granted _ _ hs | decoding _ _ hs | data _ _ hs | drop _ _ hs
  | writeSent _ _ hs | readSelected _ _ hs | readSent _ _ hs | answered _ _ hs =>
    exact .inl (hs.idle k).2
  | writing _ _ hs => exact .inl (hs.writing k).2
  | @reading phase2 wordLoReg path arb slaves d hb hg hs ha hv hd =>
    by_cases hk : k = path.mSelect
    · subst hk
      exact .inr ⟨⟨path, arb, rfl, hg, hv, rfl⟩, ha ▸ hs.reading⟩
    · have hrd := (hs.reading k).2
      rw [Function.update_of_ne hk] at hrd
      exact .inl hrd

end Fabric

theorem BusRun.Rel.awaitsR {t : BusRun} {bytes : Word → BitVec 8} (h : t.Rel bytes) (k : Fin 4) :
    RdInv (t.fabric.slaves.rd k) none ∨ t.fabric.AwaitsR k := by
  obtain ⟨mem, -, h | ⟨m, h⟩⟩ := h
  · exact .inl (h.idle.rd k)
  · exact h.transit.awaitsR k

/-! ## Reads of a slave -/

namespace SocRun

/-- The read that slave `k` has on offer. -/
def readHeld (t : SocRun) (k : Fin 4) : List (Word × Word) :=
  if (t.bus.fabric.slaves.rd k).rvalid then
    [(t.bus.fabric.ic.path.axilAddr, (t.bus.fabric.slaves.rd k).rdata)] else []

namespace IsSlave

variable {δ ε : Type} {P : Params} {s : Soc} {D : RegDevice δ ε} {k : Fin 4}
  {slave : SocRun → RegSlave δ} {env : SocRun → SocIn → ε} {t : SocRun} {i : SocIn}

/-- What comes of a read is taken or on offer, and what is on offer or sampled is all there is. -/
theorem reads_cycle (h : IsSlave P s D k slave env) (hinv : t.Inv) (i : SocIn) :
    (t.served i).filterMap (ServedWord.readFrom k) ++ (t.step P i).readHeld k =
      t.readHeld k ++ (slave t).sampled ⟨t.bus.fabric.ic.mOut k, env t i⟩ D := by
  have hserved : (t.served i).filterMap (ServedWord.readFrom k) =
      if (t.bus.fabric.slaves.rd k).rvalid && (t.bus.fabric.ic.mOut k).rready then
        [((t.bus.fabric.ic.mOut k).araddr, (t.bus.fabric.slaves.rd k).rdata)] else [] := by
    rw [served, BusRun.served, Fabric.served_readFrom, Slaves.out_eq]
  have hnext : (t.step P i).bus.fabric.slaves.rd k =
      (slave t).rd.step (t.bus.fabric.ic.mOut k)
        (D.rdData (slave t).dev (env t i) (slave t).rd.araddr) false (slave t).rd.rdEn := by
    rw [← h.rd, h.step]
    rfl
  rw [hserved, readHeld, readHeld, RegSlave.sampled, hnext, h.rd]
  rcases hinv.bytes.awaitsR k with hnone | hwait
  · obtain ⟨hen, hr, -⟩ := hnone.of_none
    rw [RegIfRd.step_rvalid, hen, hr]
    rfl
  · have haddr : (t.step P i).bus.fabric.ic.path.axilAddr = t.bus.fabric.ic.path.axilAddr :=
      hwait.axilAddr_step
    cases hen : (t.bus.fabric.slaves.rd k).rdEn with
    | true =>
      obtain ⟨ha, hr, har⟩ := hwait.rd.shown hen
      rw [RegIfRd.step_done hen har rfl, haddr, hr, Option.some.inj ha]
      rfl
    | false =>
      rw [RegIfRd.step_rvalid, hen, hwait.rready]
      cases hr : (t.bus.fabric.slaves.rd k).rvalid <;> rfl

/-- **What a slave has served of reads is what it has sampled**, in order, but for one on offer. -/
theorem reads_sampled (h : IsSlave P s D k slave env) (is : List SocIn) :
    (outputs (SocRun.step P) served (reset P s) is).filterMap (ServedWord.readFrom k) ++
        (run (SocRun.step P) (reset P s) is).readHeld k =
      outputs (SocRun.step P)
        (fun t i => (slave t).sampled ⟨t.bus.fabric.ic.mOut k, env t i⟩ D) (reset P s) is := by
  have hcycle : Always (SocRun.step P) (fun t i =>
      (t.served i).filterMap (ServedWord.readFrom k) ++ (t.step P i).readHeld k =
        t.readHeld k ++ (slave t).sampled ⟨t.bus.fabric.ic.mOut k, env t i⟩ D) (reset P s) is :=
    (always_inv P s is).mono fun _ i hinv => h.reads_cycle hinv i
  have hconserved := outputs_conserved (fun t : SocRun => t.readHeld k) hcycle
  have h0 : (reset P s).readHeld k = [] := by
    have hnone : RdInv ((reset P s).bus.fabric.slaves.rd k) none := (s.bus.slaves.reset_idle k).2
    rw [readHeld, hnone.of_none.2.1]
    rfl
  rw [h0, List.nil_append, outputs_filterMap] at hconserved
  exact hconserved

end IsSlave

end SocRun

/-- An access that reads writes nothing. -/
theorem MemReq.writeTo_of_read {m : MemReq} {rs : List Word} {j : Fin 4} {a d : Word}
    (h : .read j a d ∈ m.served rs) (k : Fin 4) :
    (m.served rs).filterMap (ServedWord.writeTo k) = [] := by
  obtain ⟨w, hw, hread⟩ := List.mem_flatMap.1 h
  have hwe : m.we = false := by
    unfold servedWord at hread
    cases hwe : m.we with
    | false => rfl
    | true =>
      rw [hwe] at hread
      cases hd : icDecode (m.busAddr w.1) <;> simp [hd] at hread
  rw [served, List.filterMap_flatMap, List.flatMap_eq_nil_iff]
  intro w _
  rw [servedWord_writeTo, store, hwe]
  exact if_neg fun h => Bool.false_ne_true h.1

/-! ## Registers that only writes change -/

/-- A part `f` of the device that only writes change, each by `g`, and that reads at the addresses
`A` show through `v`. -/
structure RegDevice.Register {δ ε τ : Type} (D : RegDevice δ ε) (f : δ → τ)
    (g : τ → RegWrite → τ) (A : Word → Prop) (v : τ → Word → Word) : Prop where
  step : ∀ (r : RegSlave δ) (i : RegIn ε), f (D.step r i).dev = (r.applied i D).foldl g (f r.dev)
  read : ∀ d e a, A a → D.rdData d e a = v (f d) a

namespace SocRun.IsSlave

variable {δ ε τ : Type} {P : Params} {s : Soc} {D : RegDevice δ ε} {k : Fin 4}
  {slave : SocRun → RegSlave δ} {env : SocRun → SocIn → ε} {t : SocRun} {is : List SocIn}
  {f : δ → τ} {g : τ → RegWrite → τ} {A : Word → Prop} {v : τ → Word → Word} {a d : Word}

/-- Nothing is written while there is a read. -/
theorem reads_awaitsR (h : IsSlave P s D k slave env) (hinv : t.Inv) {i : SocIn}
    (hx : (a, d) ∈ t.readHeld k ++ (slave t).sampled ⟨t.bus.fabric.ic.mOut k, env t i⟩ D) :
    t.bus.fabric.AwaitsR k := by
  rcases hinv.bytes.awaitsR k with hnone | hwait
  · obtain ⟨hen, hr, -⟩ := hnone.of_none
    rw [readHeld, RegSlave.sampled, h.rd, hen, hr] at hx
    cases hx
  · exact hwait

theorem applied_awaitsR (h : IsSlave P s D k slave env) (hwait : t.bus.fabric.AwaitsR k)
    (i : SocIn) : (slave t).applied ⟨t.bus.fabric.ic.mOut k, env t i⟩ D = [] := by
  have hen : (slave t).wr.wrEn = false := by
    rw [h.wr]
    exact hwait.wr.of_idle.1
  refine if_neg fun hack => ?_
  have hshown := D.ack_en _ _ _ hack
  rw [hen] at hshown
  cases hshown

/-- What slave `k` has on offer for the addresses `A` is what the register is. -/
def Fresh (slave : SocRun → RegSlave δ) (k : Fin 4) (f : δ → τ) (A : Word → Prop)
    (v : τ → Word → Word) (t : SocRun) : Prop :=
  ∀ a d, (a, d) ∈ t.readHeld k → A a → d = v (f (slave t).dev) a

/-- And so is what it samples. -/
theorem Fresh.sampled (hfresh : Fresh slave k f A v t) (hr : D.Register f g A v) {i : SocIn}
    (hx : (a, d) ∈ t.readHeld k ++ (slave t).sampled ⟨t.bus.fabric.ic.mOut k, env t i⟩ D)
    (ha : A a) : d = v (f (slave t).dev) a := by
  rcases List.mem_append.1 hx with hx | hx
  · exact hfresh a d hx ha
  · unfold RegSlave.sampled at hx
    split_ifs at hx
    · cases List.mem_singleton.1 hx
      exact hr.read _ _ _ ha
    · cases hx

theorem fresh_step (h : IsSlave P s D k slave env) (hr : D.Register f g A v) (hinv : t.Inv)
    (hfresh : Fresh slave k f A v t) (i : SocIn) : Fresh slave k f A v (t.step P i) := by
  intro a d hx ha
  have hmem : (a, d) ∈ t.readHeld k ++
      (slave t).sampled ⟨t.bus.fabric.ic.mOut k, env t i⟩ D := by
    rw [← h.reads_cycle hinv i]
    exact List.mem_append_right _ hx
  have hkept : f (slave (t.step P i)).dev = f (slave t).dev := by
    rw [h.step, hr.step, h.applied_awaitsR (h.reads_awaitsR hinv hmem)]
    rfl
  rw [hkept]
  exact hfresh.sampled hr hmem ha

theorem fresh_run (h : IsSlave P s D k slave env) (hr : D.Register f g A v) (is : List SocIn) :
    Fresh slave k f A v (run (SocRun.step P) (reset P s) is) := by
  have h0 : Fresh slave k f A v (reset P s) := by
    intro a d hx
    have hnone : RdInv ((reset P s).bus.fabric.slaves.rd k) none := (s.bus.slaves.reset_idle k).2
    rw [readHeld, hnone.of_none.2.1] at hx
    cases hx
  exact Sync.inv_run (Fresh slave k f A v) (fun _ i hfresh hinv => h.fresh_step hr hinv hfresh i)
    h0 (always_inv P s is)

/-- **A read finds the writes before it**, whichever of the words the slaves have served it is. -/
theorem served_value (h : IsSlave P s D k slave env) (hr : D.Register f g A v)
    {xs ys : List ServedWord}
    (hserved : outputs (SocRun.step P) served (reset P s) is = xs ++ .read k a d :: ys) (ha : A a) :
    d = v ((xs.filterMap (ServedWord.writeTo k)).foldl g (f D.reset)) a := by
  obtain ⟨is₁, i, is₂, us, vs, -, hout, rfl⟩ := outputs_split hserved
  have hinv : (run (SocRun.step P) (reset P s) is₁).Inv := inv_run P s is₁
  have hfresh := h.fresh_run hr is₁
  have hfold := h.run_fold f g hr.step is₁
  have happlied := h.applied_served is₁
  generalize run (SocRun.step P) (reset P s) is₁ = t at *
  have hmem : (a, d) ∈ t.readHeld k ++
      (slave t).sampled ⟨t.bus.fabric.ic.mOut k, env t i⟩ D := by
    rw [← h.reads_cycle hinv i, hout]
    exact List.mem_append_left _ (List.mem_filterMap.2
      ⟨_, List.mem_append_right _ List.mem_cons_self, if_pos rfl⟩)
  have hwait := h.reads_awaitsR hinv hmem
  have hvalue := hfresh.sampled hr hmem ha
  -- in the cycle of the read nothing has been routed to the slave before it
  have hus : us.filterMap (ServedWord.writeTo k) = [] := by
    have hnone : (us ++ .read k a d :: vs).filterMap (ServedWord.writeTo k) = [] := by
      rw [← hout]
      refine (Fabric.served_writeTo _ k).trans ?_
      rw [hwait.awvalid]
      rfl
    rw [List.filterMap_append, List.append_eq_nil_iff] at hnone
    exact hnone.1
  have hidle : WrInv (slave t).wr .idle := by
    rw [h.wr]
    exact hwait.wr
  rw [waiting_idle hidle, List.append_nil] at happlied
  rw [List.filterMap_append, hus, List.append_nil, hvalue, hfold, happlied]

/-- In terms of the accesses that are over. -/
theorem read_value (h : IsSlave P s D k slave env) (hr : D.Register f g A v)
    {before after : List BusAccess} {c : BusAccess}
    (hdone : outputs (SocRun.step P) completed (reset P s) is = before ++ c :: after)
    (hread : .read k a d ∈ c.served) (ha : A a) :
    d = v ((before.flatMap (·.1.stores k)).foldl g (f D.reset)) a := by
  obtain ⟨us, vs, hc⟩ := List.mem_iff_append.1 hread
  have hserved : outputs (SocRun.step P) served (reset P s) is =
      (before.flatMap BusAccess.served ++ us) ++ .read k a d :: (vs ++
        after.flatMap BusAccess.served ++ (run (SocRun.step P) (reset P s) is).bus.servedSoFar) := by
    rw [words_served, hdone, List.flatMap_append, List.flatMap_cons, hc]
    simp
  have hvalue := h.served_value hr hserved ha
  -- before the word come the words of the accesses before, and reads
  have hus : us.filterMap (ServedWord.writeTo k) = [] := by
    have hnone := MemReq.writeTo_of_read hread k
    rw [← BusAccess.served, hc, List.filterMap_append, List.append_eq_nil_iff] at hnone
    exact hnone.1
  have hbefore : (before.flatMap BusAccess.served).filterMap (ServedWord.writeTo k) =
      before.flatMap (·.1.stores k) := by
    rw [List.filterMap_flatMap]
    refine List.flatMap_congr fun c' hc' => ?_
    have hmem : c' ∈ outputs (SocRun.step P) completed (reset P s) is := by
      rw [hdone]
      exact List.mem_append_left _ hc'
    exact (answered hmem).stores k
  rw [List.filterMap_append, hus, List.append_nil, hbefore] at hvalue
  exact hvalue

/-- What slave `k` answers in cycle `n`: the address and the data. -/
def ReadAt (P : Params) (s : Soc) (D : RegDevice δ ε) (slave : SocRun → RegSlave δ)
    (env : SocRun → SocIn → ε) (is : List SocIn) (n : Nat) (x : Word × Word) : Prop :=
  ∃ i, is[n]? = some i ∧
    x.2 = D.rdData (slave (run (SocRun.step P) (reset P s) (is.take n))).dev
      (env (run (SocRun.step P) (reset P s) (is.take n)) i) x.1

/-- **Each read is of a cycle of its own**, later than those of the reads before. -/
theorem reads_inOrder (h : IsSlave P s D k slave env) (is : List SocIn) :
    InOrder (ReadAt P s D slave env is) is.length
      (((outputs (SocRun.step P) completed (reset P s) is).flatMap BusAccess.served).filterMap
        (ServedWord.readFrom k)) := by
  let sampled := fun (t : SocRun) (i : SocIn) =>
    (slave t).sampled ⟨t.bus.fabric.ic.mOut k, env t i⟩ D
  have hone : ∀ t i, (sampled t i).length ≤ 1 := by
    intro t i
    show (if (slave t).rd.rdEn then [_] else []).length ≤ 1
    split_ifs <;> simp
  have hsampled : ∀ is₁ i is₂, is = is₁ ++ i :: is₂ →
      ∀ x ∈ sampled (run (SocRun.step P) (reset P s) is₁) i,
        ReadAt P s D slave env is is₁.length x := by
    rintro is₁ i is₂ rfl x hx
    refine ⟨i, by simp, ?_⟩
    rw [List.take_left]
    simp only [sampled, RegSlave.sampled] at hx
    split_ifs at hx
    · rw [List.mem_singleton.1 hx]
    · cases hx
  have horder : InOrder _ is.length (outputs (SocRun.step P) sampled (reset P s) is) :=
    outputs_inOrder hone hsampled
  rw [← h.reads_sampled, words_served, List.filterMap_append, List.append_assoc] at horder
  exact horder.left

end SocRun.IsSlave

/-! ## The registers of the system -/

theorem Gpio.ledReg_register :
    gpio.Register ledReg writeLed (fun a => a.getLsbD 2 = false) fun led _ => led :=
  ⟨ledReg_step, fun _ _ _ ha => if_pos ha⟩

theorem UartAxil.prescaleReg_register :
    socUart.Register prescaleReg writePrescale (fun a => selPresc a = true)
      fun prescale _ => 0#16 ++ prescale := by
  refine ⟨prescaleReg_step, fun u e a ha => ?_⟩
  have hsel : a.extractLsb 3 2 = 0b10#2 := by simpa [selPresc] using ha
  show u.rdData e a = _
  rw [rdData, hsel]
  rfl

theorem Timer.mtimecmp_register :
    timer.Register mtimecmp writeMtimecmp
      (fun a => a.extractLsb 3 2 = 0b10#2 ∨ a.extractLsb 3 2 = 0b11#2)
      fun cmp a => if a.extractLsb 3 2 = 0b10#2 then lo cmp else hi cmp := by
  refine ⟨mtimecmp_step, fun t e a ha => ?_⟩
  show t.rdData a = _
  rcases ha with ha | ha
  · rw [rdData, ha]
    rfl
  · rw [rdData, ha]
    rfl

section

variable (P : Params) (s : Soc) (is : List SocIn)

/-- **Registers read back.**  A load of LED, PRESCALE or a half of `mtimecmp` finds what the stores
of the program before it, in order, have made of the reset value. -/
theorem soc_register_reads {before after : List BusAccess} {c : BusAccess}
    (hdone : outputs (SocRun.step P) SocRun.completed (.reset P s) is = before ++ c :: after) :
    let stored := fun k => before.flatMap (·.1.stores k)
    let prescale := (stored uartPort).foldl UartAxil.writePrescale 81
    let mtimecmp := (stored timerPort).foldl Timer.writeMtimecmp (BitVec.allOnes 64)
    (∀ a d, .read gpioPort a d ∈ c.served → a.getLsbD 2 = false →
      d = (stored gpioPort).foldl Gpio.writeLed 0) ∧
    (∀ (a d : Word), .read uartPort a d ∈ c.served → UartAxil.selPresc a = true →
      d = 0#16 ++ prescale) ∧
    (∀ a d, .read timerPort a d ∈ c.served → a.extractLsb 3 2 = 0b10#2 →
      d = Timer.lo mtimecmp) ∧
    ∀ a d, .read timerPort a d ∈ c.served → a.extractLsb 3 2 = 0b11#2 → d = Timer.hi mtimecmp := by
  intro stored prescale mtimecmp
  refine ⟨fun a d hread ha => ?_, fun a d hread ha => ?_, fun a d hread ha => ?_,
    fun a d hread ha => ?_⟩
  · exact (SocRun.isGpio P s).read_value Gpio.ledReg_register hdone hread ha
  · exact (SocRun.isUart P s).read_value UartAxil.prescaleReg_register hdone hread ha
  · have hvalue :=
      (SocRun.isTimer P s).read_value Timer.mtimecmp_register hdone hread (.inl ha)
    rwa [if_pos ha] at hvalue
  · have hvalue :=
      (SocRun.isTimer P s).read_value Timer.mtimecmp_register hdone hread (.inr ha)
    rwa [if_neg (by rw [ha]; decide)] at hvalue

end

/-- `lui x1, 0x10000; addi x2, x0, 5; sw x2, 0(x1); lw x3, 0(x1); jal x0, 0` -/
def readBackProgram : Params :=
  .ofWords [0x100000B7, 0x00500113, 0x0020A023, 0x0000A183, 0x0000006F]

/-- The load finds the 5 that the store before it has left in LED. -/
theorem soc_register_reads_led :
    let store : BusAccess :=
      ({ addr := 0x10000000, wdata := 5, funct3 := 0b010, re := false, we := true }, [0])
    let load : BusAccess :=
      ({ addr := 0x10000000, wdata := 0, funct3 := 0b010, re := true, we := false }, [5])
    outputs (SocRun.step readBackProgram) SocRun.completed (.reset readBackProgram .blank)
      (List.replicate 23 default) = [store] ++ load :: [] ∧
    (5 : Word) = ([store].flatMap (·.1.stores gpioPort)).foldl Gpio.writeLed 0 := by
  intro store load
  have hdone : outputs (SocRun.step readBackProgram) SocRun.completed
      (.reset readBackProgram .blank) (List.replicate 23 default) = [store] ++ load :: [] := by
    decide +kernel
  exact ⟨hdone, (soc_register_reads readBackProgram .blank _ hdone).1 0x10000000 5
    (by decide) (by decide)⟩

/-- **Inputs are read cycle by cycle.**  What loads find of the switches is what they are in cycles
of their own, one after the other; and so for `mtime`, whatever is stored there.  With no store to
it, it is the number of the cycle: the clock that the program reads never goes back. -/
theorem soc_sampled_reads (P : Params) (s : Soc) (is : List SocIn) :
    let read := fun k =>
      ((outputs (SocRun.step P) SocRun.completed (.reset P s) is).flatMap
        BusAccess.served).filterMap (ServedWord.readFrom k)
    let mtime := fun n =>
      (run (SocRun.step P) (.reset P s) (is.take n)).bus.fabric.slaves.uTimer.dev.mtime
    InOrder (fun n (x : Word × Word) =>
      x.1.getLsbD 2 = true → ∃ i, is[n]? = some i ∧ x.2 = 0#16 ++ i.sw)
      is.length (read gpioPort) ∧
    InOrder (fun n x =>
      (x.1.extractLsb 3 2 = 0b00#2 → x.2 = Timer.lo (mtime n)) ∧
      (x.1.extractLsb 3 2 = 0b01#2 → x.2 = Timer.hi (mtime n)))
      is.length (read timerPort) ∧
    ((∀ w ∈ (outputs (SocRun.step P) SocRun.served (.reset P s) is).filterMap
        (ServedWord.writeTo timerPort), Timer.ToMtimecmp w) →
      ∀ n < is.length, mtime n = BitVec.ofNat 64 n) := by
  intro read mtime
  refine ⟨?_, ?_, fun hwrites n hn => ?_⟩
  · refine ((SocRun.isGpio P s).reads_inOrder is).mono fun n x _ hx ha => ?_
    obtain ⟨i, hi, hdata⟩ := hx
    refine ⟨i, hi, hdata.trans ?_⟩
    exact if_neg (by rw [ha]; decide)
  · refine ((SocRun.isTimer P s).reads_inOrder is).mono fun n x _ hx => ?_
    obtain ⟨i, -, hdata⟩ := hx
    refine ⟨fun ha => hdata.trans ?_, fun ha => hdata.trans ?_⟩
    · show Timer.rdData _ x.1 = _
      rw [Timer.rdData, if_pos ha]
    · show Timer.rdData _ x.1 = _
      rw [Timer.rdData, if_neg (by rw [ha]; decide), if_pos ha]
  · -- up to cycle `n` nothing but `mtimecmp` has been written
    have hmtime : mtime n = BitVec.ofNat 64 (is.take n).length := by
      refine SocRun.mtime_run fun w hw => hwrites w ?_
      rw [← (SocRun.isTimer P s).applied_served is]
      refine List.mem_append_left _ ?_
      rw [← List.take_append_drop n is, outputs_append]
      exact List.mem_append_left _ hw
    rw [hmtime, List.length_take, Nat.min_eq_left (Nat.le_of_lt hn)]

/-- `lui x1, 0x10002; lw x2, 0(x1); lw x3, 0(x1); jal x0, 0` -/
def clockProgram : Params := .ofWords [0x100020B7, 0x0000A103, 0x0000A183, 0x0000006F]

/-- Two loads of `mtime`, nine cycles apart. -/
theorem soc_sampled_reads_clock :
    let is : List SocIn := List.replicate 22 default
    ((outputs (SocRun.step clockProgram) SocRun.completed (.reset clockProgram .blank) is).flatMap
        BusAccess.served).filterMap (ServedWord.readFrom timerPort) =
      [(0x10002000, 10), (0x10002000, 19)] ∧
    ∀ n < 22, (run (SocRun.step clockProgram) (.reset clockProgram .blank)
      (is.take n)).bus.fabric.slaves.uTimer.dev.mtime = BitVec.ofNat 64 n := by
  intro is
  have hwrites : (outputs (SocRun.step clockProgram) SocRun.served (.reset clockProgram .blank)
      is).filterMap (ServedWord.writeTo timerPort) = [] := by
    decide +kernel
  refine ⟨by decide +kernel, (soc_sampled_reads clockProgram .blank is).2.2 ?_⟩
  rw [hwrites]
  exact nofun

end Rv32i
