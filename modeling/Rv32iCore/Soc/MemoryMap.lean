import Rv32iCore.Soc.Routing

/-!
# The bus of `soc` is a memory map

Runs of the bus, from reset, with any accesses in the MEM stage: `BusRun` follows one with the
results of the access in progress.

    bus_words_routed    the words of the accesses are served in order, once, each in its window
    bus_memory_map      loads give the bytes stored last, or what the devices have given
-/

namespace Rv32i

open Sync Bytes

/-! ## Runs -/

structure BusRun where
  fabric : Fabric
  /-- the access of the last cycle, if that was stalled -/
  held : Option MemReq
  /-- of its words done -/
  results : List Word

structure BusRunIn where
  mem : MemReq
  env : SlavesIn
deriving Inhabited

/-- An access that is over, with the results of its words. -/
abbrev BusAccess : Type := MemReq × List Word

/-- The address is in the window of `axil_mem`. -/
def socRam (a : Word) : Bool := icDecode a = some dmemPort

namespace BusAccess

variable (c : BusAccess)

/-- The words of the access, as they are served. -/
def served : List ServedWord := c.1.served c.2

/-- What the access finds outside the memory. -/
def outside : Word → BitVec 8 := byteAt (c.1.wordsOutside c.2)

/-- The memory after the access. -/
def store (bytes : Word → BitVec 8) (c : BusAccess) : Word → BitVec 8 := ByteMachine.step bytes c.1

/-- What the access gives the MEM stage, if it is a load. -/
def loaded (bytes : Word → BitVec 8) (c : BusAccess) : List Word :=
  if c.1.re then [c.1.value fun a => if socRam a then bytes a else c.outside a] else []

/-- Each word has its result, and where there is no slave that is zero. -/
structure Answered : Prop where
  words : c.2.length = if c.1.crosses then 2 else 1
  dropped : ∀ w ∈ [false, true].zip c.2, icDecode (c.1.busAddr w.1) = none → w.2 = 0

end BusAccess

namespace BusRun

variable (t : BusRun) (i : BusRunIn)

def reset (s : Fabric) : BusRun := ⟨s.reset, none, []⟩

def busStall : Bool := t.fabric.busStall i.mem

def step : BusRun where
  fabric := t.fabric.step i.mem i.env
  held := if t.busStall i then some i.mem else none
  results := if t.busStall i then t.results ++ t.fabric.results else []

/-- The access that ends in this cycle. -/
def completed : List BusAccess :=
  if i.mem.presented && !t.busStall i then [(i.mem, t.results)] else []

/-- What `mem_rdata` gives a load in the cycle its stall falls. -/
def loaded : List Word :=
  if i.mem.re && !t.busStall i then [t.fabric.master.memRdata i.mem t.fabric.ic.sOut] else []

/-- The words served in this cycle. -/
def served (_ : BusRunIn) : List ServedWord := t.fabric.served

/-- Of the access in progress, the words served. -/
def servedSoFar : List ServedWord := t.held.elim [] fun m => m.served t.results

/-- What the MEM stage promises: not a load and a store at once, and what is stalled is held. -/
structure Ok (t : BusRun) (i : BusRunIn) : Prop where
  apart : i.mem.re = true → i.mem.we = false
  held : ∀ m ∈ t.held, i.mem = m

instance (t : BusRun) (i : BusRunIn) : Decidable (Ok t i) :=
  decidable_of_iff ((i.mem.re = true → i.mem.we = false) ∧ ∀ m ∈ t.held, i.mem = m)
    ⟨fun h => ⟨h.1, h.2⟩, fun h => ⟨h.apart, h.held⟩⟩

/-! ## The relation -/

/-- Between two accesses, with the memory as they have left it. -/
structure Rest (t : BusRun) (mem : BitVec 30 → Word) : Prop where
  held : t.held = none
  results : t.results = []
  idle : t.fabric.Idle
  slaves : ∃ d, t.fabric.slaves.IdleWith d ∧ Agree d mem

/-- In an access, with the memory before it. -/
structure Busy (t : BusRun) (m : MemReq) (mem : BitVec 30 → Word) : Prop where
  held : t.held = some m
  presented : m.presented = true
  transit : Fabric.Transit m mem t.results t.fabric

/-- The bytes are as the accesses that are over have left them. -/
def Rel (t : BusRun) (bytes : Word → BitVec 8) : Prop :=
  ∃ mem, bytes = byteAt mem ∧ (t.Rest mem ∨ ∃ m, t.Busy m mem)

theorem reset_rel (s : Fabric) {mem : BitVec 30 → Word} (ha : Agree s.slaves.uDmem.dmem.mem mem) :
    (reset s).Rel (byteAt mem) :=
  ⟨mem, rfl, .inl ⟨rfl, rfl, ⟨⟨_, _, _, _, rfl⟩, ⟨_, _, rfl, rfl⟩, s.slaves.reset_idle⟩,
    _, s.slaves.reset_idleWith, ha⟩⟩

/-- What one cycle does. -/
structure Cycle (t : BusRun) (bytes : Word → BitVec 8) (i : BusRunIn) : Prop where
  rel : (t.step i).Rel (run BusAccess.store bytes (t.completed i))
  served : (t.completed i).flatMap BusAccess.served ++ (t.step i).servedSoFar =
    t.servedSoFar ++ t.served i
  answered : ∀ c ∈ t.completed i, BusAccess.Answered c
  loaded : t.loaded i = outputs BusAccess.store BusAccess.loaded bytes (t.completed i)

section Cycle

variable {t : BusRun} {i : BusRunIn} {mem : BitVec 30 → Word} {m : MemReq}

/-- Bytes as a load sees them. -/
theorem byteAt_wordsSeen (m : MemReq) (mem : BitVec 30 → Word) (rs : List Word) :
    byteAt (m.wordsSeen mem rs) =
      fun a => if socRam a then byteAt mem a else BusAccess.outside (m, rs) a := by
  funext a
  have hword : icDecode (wordIdx a ++ 0#2) = icDecode a := icDecode_congr (wordIdx_append _)
  unfold byteAt MemReq.wordsSeen socRam BusAccess.outside byteAt
  rw [hword]
  by_cases hw : icDecode a = some dmemPort
  · simp [hw]
  · simp [hw]

/-- With its last word done a store is complete. -/
theorem store_eq (m : MemReq) (mem : BitVec 30 → Word) (rs : List Word) :
    byteAt (if m.we then m.storedNext mem m.crosses else mem) =
      BusAccess.store (byteAt mem) (m, rs) := by
  unfold BusAccess.store ByteMachine.step
  cases hwe : m.we with
  | true => exact MemReq.byteAt_storedNext id (by simp)
  | false => rfl

theorem Rest.cycle_rest (h : t.Rest mem) (hm : i.mem.presented = false) :
    t.Cycle (byteAt mem) i := by
  obtain ⟨hre, hwe⟩ := Bool.or_eq_false_iff.1 hm
  have hstall : t.busStall i = false := by
    show (i.mem.presented && _) = false
    rw [hm]
    rfl
  obtain ⟨d, hd, ha⟩ := h.slaves
  obtain ⟨path, arb, hic, -⟩ := h.idle.ic
  have hserved : t.fabric.served = [] := Fabric.served_none (by rw [hic]; rfl) (by rw [hic]; rfl)
  have hcompleted : t.completed i = [] := by simp [completed, hre, hwe]
  have hstep : (t.step i).Rest mem := by
    refine ⟨by simp [step, hstall], by simp [step, hstall], Fabric.step_idle_rest h.idle hm, d, ?_, ha⟩
    obtain ⟨hmaw, hmw, hmar⟩ : t.fabric.ic.mAwvalid = Interconnect.noPort ∧
        t.fabric.ic.mWvalid = Interconnect.noPort ∧ t.fabric.ic.mArvalid = Interconnect.noPort := by
      rw [hic]
      exact ⟨rfl, rfl, rfl⟩
    exact Fabric.slaves_idleWith hd hmaw hmw hmar
  refine ⟨?_, ?_, ?_, ?_⟩
  · rw [hcompleted]
    exact ⟨mem, rfl, .inl hstep⟩
  · rw [hcompleted, servedSoFar, hstep.held, servedSoFar, h.held, served, hserved]
    rfl
  · rw [hcompleted]
    exact fun c hc => by cases hc
  · rw [hcompleted, loaded, hre]
    rfl

/-- An access that goes on, or is over. -/
theorem cycle_transit (htr : Fabric.Transit i.mem mem t.results t.fabric)
    (hm : i.mem.presented = true) (hsofar : t.servedSoFar = i.mem.served t.results)
    (happart : i.mem.re = true → i.mem.we = false) : t.Cycle (byteAt mem) i := by
  rcases htr.step hm i.env with ⟨hstall, hdone⟩ | ⟨hstall, hnext⟩
  · have hstall : t.busStall i = false := hstall
    have hcompleted : t.completed i = [(i.mem, t.results)] := by
      rw [completed, hm, hstall]
      rfl
    obtain ⟨d, hd, ha⟩ := hdone.slaves
    have hstep : (t.step i).Rest (if i.mem.we then i.mem.storedNext mem i.mem.crosses else mem) :=
      ⟨by simp [step, hstall], by simp [step, hstall], hdone.idle, d, hd, ha⟩
    refine ⟨?_, ?_, ?_, ?_⟩
    · rw [hcompleted]
      exact ⟨_, (store_eq _ _ _).symm, .inl hstep⟩
    · have hserved : t.served i = [] := hdone.served
      rw [hcompleted, servedSoFar, hstep.held, hsofar, hserved]
      simp [BusAccess.served]
    · intro c hc
      rw [hcompleted, List.mem_singleton] at hc
      subst hc
      exact ⟨hdone.length, fun w hw => (hdone.sound w hw).1⟩
    · rw [hcompleted, outputs_cons, outputs_nil, List.append_nil, loaded, BusAccess.loaded, hstall]
      cases hre : i.mem.re with
      | false => rfl
      | true =>
        rw [hdone.rdata (happart hre) hre, byteAt_wordsSeen]
        rfl
  · have hstall : t.busStall i = true := hstall
    have hcompleted : t.completed i = [] := by simp [completed, hstall]
    have hstep : (t.step i).Busy i.mem mem := by
      refine ⟨by simp [step, hstall], hm, ?_⟩
      have hres : (t.step i).results = t.results ++ t.fabric.results := by simp [step, hstall]
      rw [hres]
      exact hnext.next
    refine ⟨?_, ?_, ?_, ?_⟩
    · rw [hcompleted]
      exact ⟨mem, rfl, .inr ⟨_, hstep⟩⟩
    · have hres : (t.step i).results = t.results ++ t.fabric.results := by simp [step, hstall]
      rw [hcompleted, servedSoFar, hstep.held, hsofar]
      show i.mem.served (t.step i).results = _
      rw [hres]
      exact hnext.served
    · rw [hcompleted]
      exact fun c hc => by cases hc
    · rw [hcompleted, loaded, hstall, Bool.not_true, Bool.and_false]
      rfl

theorem Rel.cycle {bytes : Word → BitVec 8} (h : t.Rel bytes) (hok : Ok t i) : t.Cycle bytes i := by
  obtain ⟨mem, rfl, h | ⟨m, h⟩⟩ := h
  · cases hm : i.mem.presented with
    | false => exact h.cycle_rest hm
    | true =>
      obtain ⟨d, hd, ha⟩ := h.slaves
      refine cycle_transit ?_ hm ?_ hok.apart
      · rw [h.results]
        exact .idle h.idle hd ha
      · rw [servedSoFar, h.held, h.results]
        rfl
  · obtain rfl : i.mem = m := hok.held m h.held
    refine cycle_transit h.transit h.presented ?_ hok.apart
    rw [servedSoFar, h.held]
    rfl

end Cycle

theorem sim : Sim BusRun.step BusAccess.store Ok completed Rel where
  step _ _ _ h hok := (h.cycle hok).rel

/-- The bytes of `axil_mem`, at each address those of its index. -/
def bytes (t : BusRun) : Word → BitVec 8 :=
  byteAt fun w => t.fabric.slaves.uDmem.dmem.mem (w.extractLsb' 0 14)

theorem reset_rel_bytes (s : Fabric) : (reset s).Rel (reset s).bytes :=
  reset_rel s fun a _ => congrArg s.slaves.uDmem.dmem.mem (dmem_wordIdx_eq a)

/-- Between two accesses the array holds the bytes. -/
theorem Rel.bytes_eq {t : BusRun} {bytes : Word → BitVec 8} (h : t.Rel bytes) (hheld : t.held = none)
    {a : Word} (ha : socRam a = true) : t.bytes a = bytes a := by
  have hd : icDecode a = some dmemPort := by simpa [socRam] using ha
  obtain ⟨mem, rfl, h | ⟨m, h⟩⟩ := h
  · obtain ⟨d, hslaves, hagree⟩ := h.slaves
    have hword := hagree a hd
    rw [← hslaves.dmem.mem_eq, dmem_wordIdx_eq] at hword
    rw [BusRun.bytes, byteAt, byteAt, hword]
  · have hbusy := h.held
    rw [hheld] at hbusy
    cases hbusy

end BusRun

/-! ## Runs from reset -/

section

variable (s : Fabric) (is : List BusRunIn) (hok : Always BusRun.step BusRun.Ok (.reset s) is)
include hok

/-- **Routing.**  The slaves serve the words of the accesses and nothing else: in program order,
each once, at the slave of its window with its address, data and strobes.  Every access has an
answer to each word, zero where there is no slave. -/
theorem bus_words_routed :
    let done := outputs BusRun.step BusRun.completed (.reset s) is
    let t := run BusRun.step (.reset s) is
    outputs BusRun.step BusRun.served (.reset s) is =
        done.flatMap BusAccess.served ++ t.servedSoFar ∧
      ∀ c ∈ done, BusAccess.Answered c := by
  intro done t
  have hcycle : Always BusRun.step (fun t i => ∃ bytes, t.Cycle bytes i) (.reset s) is :=
    (inv_always (fun t => ∃ bytes, BusRun.Rel t bytes)
      (fun _ _ ⟨_, h⟩ hok => ⟨_, (h.cycle hok).rel⟩) ⟨_, BusRun.reset_rel_bytes s⟩ hok).mono
      fun _ _ ⟨⟨_, h⟩, hok⟩ => ⟨_, h.cycle hok⟩
  constructor
  · have hserved : Always BusRun.step (fun t i => (t.completed i).flatMap BusAccess.served ++
        (t.step i).servedSoFar = t.servedSoFar ++ t.served i) (.reset s) is :=
      hcycle.mono fun _ _ ⟨_, h⟩ => h.served
    have hconserved := outputs_conserved BusRun.servedSoFar hserved
    rw [outputs_bind] at hconserved
    exact hconserved.symm
  · intro c hc
    obtain ⟨x, hx, hcx⟩ := List.mem_flatMap.1 hc
    obtain ⟨_, h⟩ := hcycle x hx
    exact h.answered c hcx

end

/-- A word store over two words of `axil_mem`, then a load from no window. -/
theorem bus_words_routed_crossing :
    let s : Fabric := ⟨.reset, default, ⟨⟨default, default, false, fun _ => 0, 0⟩, default, default,
      default⟩⟩
    let store : MemReq :=
      { addr := 0x80000002, wdata := 0x44332211, funct3 := 0b010, re := false, we := true }
    let load : MemReq := { addr := 0x30000000, wdata := 0, funct3 := 0b010, re := true, we := false }
    let is : List BusRunIn := List.replicate 17 ⟨store, default⟩ ++ List.replicate 5 ⟨load, default⟩
    let done := outputs BusRun.step BusRun.completed (.reset s) is
    done = [(store, [0, 0]), (load, [0])] ∧
      outputs BusRun.step BusRun.served (.reset s) is =
        done.flatMap BusAccess.served ++ (run BusRun.step (.reset s) is).servedSoFar := by
  intro s store load is done
  exact ⟨by decide +kernel, (bus_words_routed s is (by decide +kernel)).1⟩

section

variable (s : Fabric) (is : List BusRunIn) (hok : Always BusRun.step BusRun.Ok (.reset s) is)
include hok

/-- **Memory map.**  Each load gets, byte by byte, what the stores before it have left in the
window of `axil_mem`, and outside it what the devices have given for its words.  Between two
accesses the array holds these bytes. -/
theorem bus_memory_map :
    let done := outputs BusRun.step BusRun.completed (.reset s) is
    let t := run BusRun.step (.reset s) is
    outputs BusRun.step BusRun.loaded (.reset s) is =
        outputs BusAccess.store BusAccess.loaded (BusRun.reset s).bytes done ∧
      (t.held = none → ∀ a, socRam a = true →
        t.bytes a = run BusAccess.store (BusRun.reset s).bytes done a) := by
  intro done t
  have h0 := BusRun.reset_rel_bytes s
  constructor
  · have hpend := BusRun.sim.outputs_pending BusRun.loaded BusAccess.loaded (fun _ => [])
      (fun _ _ _ h hok => by simpa using (h.cycle hok).loaded) h0 hok
    simpa using hpend
  · exact fun hheld a ha => (BusRun.sim.run h0 hok).bytes_eq hheld ha

end

/-- The bytes of a word store over two words of `axil_mem`, each in its place. -/
theorem bus_memory_map_crossing :
    let s : Fabric := ⟨.reset, default, ⟨⟨default, default, false, fun _ => 0, 0⟩, default, default,
      default⟩⟩
    let store : MemReq :=
      { addr := 0x80000002, wdata := 0x44332211, funct3 := 0b010, re := false, we := true }
    let load : MemReq := { store with funct3 := 0b101, re := true, we := false }
    let is : List BusRunIn := List.replicate 17 ⟨store, default⟩ ++ List.replicate 10 ⟨load, default⟩
    let done := outputs BusRun.step BusRun.completed (.reset s) is
    let t := run BusRun.step (.reset s) is
    done.map Prod.fst = [store, load] ∧
      outputs BusRun.step BusRun.loaded (.reset s) is =
        outputs BusAccess.store BusAccess.loaded (BusRun.reset s).bytes done ∧
      t.bytes 0x80000005 = run BusAccess.store (BusRun.reset s).bytes done 0x80000005 := by
  intro s store load is done t
  obtain ⟨hloaded, hbytes⟩ := bus_memory_map s is (by decide +kernel)
  have hheld : t.held = none := by decide +kernel
  have hram : socRam 0x80000005 = true := by decide +kernel
  have hdone : done.map Prod.fst = [store, load] := by decide +kernel
  exact ⟨hdone, hloaded, hbytes hheld 0x80000005 hram⟩

end Rv32i
