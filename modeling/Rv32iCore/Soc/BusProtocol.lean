import Rv32iCore.Lib.Sync
import Rv32iCore.Soc.AxilMaster

/-!
# `axil_master` on the bus: one transaction at a time, each word once

`BusTracked` follows a run of `axil_master` with what the bus has seen: the access in
progress, the handshakes made for it so far, and how many there were on each channel since
reset.  `BusOk` is what the two sides promise: the MEM stage holds its request while it is
stalled, the slave answers only what it has accepted.

    axil_master_protocol     VALID stays up, one transaction outstanding, every access transfers
                             each of its words exactly once and ends the stall with the last one
-/

namespace Rv32i

open Sync

/-! ## What the bus sees -/

inductive BusEvent where
  | aw (addr : Word)
  | w (data : Word) (strb : BitVec 4)
  | b
  | ar (addr : Word)
  | r
deriving DecidableEq

structure BusIn where
  mem : MemReq
  slave : SlaveOut
deriving Inhabited

/-- The handshakes of one cycle: addresses and data before the responses they may bring. -/
def AxilMaster.events (s : AxilMaster) (i : BusIn) : List BusEvent :=
  (if s.awFire i.slave then [.aw (i.mem.busAddr s.phase2)] else []) ++
  (if s.wFire i.slave then [.w (i.mem.busWdata s.phase2) (i.mem.busWstrb s.phase2)] else []) ++
  (if s.arFire i.slave then [.ar (i.mem.busAddr s.phase2)] else []) ++
  (if s.bFire i.slave then [.b] else []) ++
  (if s.rFire i.slave then [.r] else [])

/-- The handshakes of one word: address and data in either order, then the response. -/
def WordTransfer (m : MemReq) (phase2 : Bool) (log : List BusEvent) : Prop :=
  if m.we then
    log = [.aw (m.busAddr phase2), .w (m.busWdata phase2) (m.busWstrb phase2), .b] ∨
    log = [.w (m.busWdata phase2) (m.busWstrb phase2), .aw (m.busAddr phase2), .b]
  else log = [.ar (m.busAddr phase2), .r]

/-- The handshakes of one access: word N, then word N+1 if it crosses. -/
def Transfer (m : MemReq) (log : List BusEvent) : Prop :=
  if m.crosses then
    ∃ l₁ l₂, log = l₁ ++ l₂ ∧ WordTransfer m false l₁ ∧ WordTransfer m true l₂
  else WordTransfer m false log

/-- A run of `axil_master` with its bus history. -/
structure BusTracked where
  master : AxilMaster
  /-- the access of the last cycle, if that was stalled -/
  held : Option MemReq
  /-- the handshakes made for it -/
  log : List BusEvent
  /-- handshakes since reset, by channel -/
  nAw : Nat
  nW : Nat
  nB : Nat
  nAr : Nat
  nR : Nat

namespace BusTracked

def reset : BusTracked where
  master := .reset
  held := none
  log := []
  nAw := 0
  nW := 0
  nB := 0
  nAr := 0
  nR := 0

variable (t : BusTracked) (i : BusIn)

def busStall : Bool := t.master.busStall i.mem i.slave

/-- The handshakes of the access, this cycle's included. -/
def logAfter : List BusEvent := t.log ++ t.master.events i

def step : BusTracked where
  master := t.master.step i.mem i.slave
  held := if t.busStall i then some i.mem else none
  log := if t.busStall i then t.logAfter i else []
  nAw := t.nAw + (t.master.awFire i.slave).toNat
  nW := t.nW + (t.master.wFire i.slave).toNat
  nB := t.nB + (t.master.bFire i.slave).toNat
  nAr := t.nAr + (t.master.arFire i.slave).toNat
  nR := t.nR + (t.master.rFire i.slave).toNat

end BusTracked

/-- What the MEM stage and the slave promise in one cycle. -/
structure BusOk (t : BusTracked) (i : BusIn) : Prop where
  single : i.mem.re = true → i.mem.we = false
  held : ∀ m ∈ t.held, i.mem = m
  /-- a B only for an accepted AW and W -/
  b : i.slave.bvalid = true → t.nB < t.nAw + (t.master.awFire i.slave).toNat ∧
    t.nB < t.nW + (t.master.wFire i.slave).toNat
  /-- an R only for an accepted AR -/
  r : i.slave.rvalid = true → t.nR < t.nAr + (t.master.arFire i.slave).toNat

instance (t : BusTracked) (i : BusIn) : Decidable (BusOk t i) :=
  decidable_of_iff ((i.mem.re = true → i.mem.we = false) ∧ (∀ m ∈ t.held, i.mem = m) ∧
      (i.slave.bvalid = true → t.nB < t.nAw + (t.master.awFire i.slave).toNat ∧
        t.nB < t.nW + (t.master.wFire i.slave).toNat) ∧
      (i.slave.rvalid = true → t.nR < t.nAr + (t.master.arFire i.slave).toNat))
    ⟨fun h => ⟨h.1, h.2.1, h.2.2.1, h.2.2.2⟩, fun h => ⟨h.single, h.held, h.b, h.r⟩⟩

/-! ## The invariant -/

/-- The handshakes of the phases before the current one. -/
def Earlier (m : MemReq) (phase2 : Bool) (l : List BusEvent) : Prop :=
  if phase2 then m.crosses = true ∧ WordTransfer m false l else l = []

/-- The states of `axil_master` with the bus history that goes with each. -/
inductive BusInv : BusTracked → Prop
  | idle (awDone wDone phase2 : Bool) (wordLoReg : Word) (n k : Nat) :
    BusInv ⟨⟨.idle, false, false, false, false, false, awDone, wDone, phase2, wordLoReg⟩,
      none, [], n, n, n, k, k⟩
  /-- AW or W or both are still to be accepted -/
  | write (m : MemReq) (l : List BusEvent) (awDone wDone phase2 : Bool) (wordLoReg : Word) (n k : Nat)
    (hwe : m.we = true) (hl : Earlier m phase2 l) (hdone : (awDone && wDone) = false) :
    BusInv ⟨⟨.write, !awDone, !wDone, false, false, false, awDone, wDone, phase2, wordLoReg⟩,
      some m, l ++ (if awDone then [.aw (m.busAddr phase2)] else []) ++
        (if wDone then [.w (m.busWdata phase2) (m.busWstrb phase2)] else []),
      n + awDone.toNat, n + wDone.toNat, n, k, k⟩
  /-- both are accepted, B is to come -/
  | wresp (m : MemReq) (l l' : List BusEvent) (awDone wDone phase2 : Bool) (wordLoReg : Word)
    (n k : Nat) (hwe : m.we = true) (hl : Earlier m phase2 l) (hl' : WordTransfer m phase2 (l' ++ [.b])) :
    BusInv ⟨⟨.wresp, false, false, true, false, false, awDone, wDone, phase2, wordLoReg⟩,
      some m, l ++ l', n + 1, n + 1, n, k, k⟩
  /-- R is to come, and AR to be accepted unless it has been -/
  | read (m : MemReq) (l : List BusEvent) (arDone awDone wDone phase2 : Bool) (wordLoReg : Word)
    (n k : Nat) (hre : m.re = true) (hwe : m.we = false) (hl : Earlier m phase2 l) :
    BusInv ⟨⟨.read, false, false, false, !arDone, true, awDone, wDone, phase2, wordLoReg⟩,
      some m, l ++ (if arDone then [.ar (m.busAddr phase2)] else []), n, n, n, k + arDone.toNat, k⟩

theorem BusInv.reset : BusInv .reset := .idle _ _ _ _ _ _

/-! ## One cycle -/

/-- The handshakes of the phases before and of the last one make up the access. -/
theorem Earlier.transfer {m : MemReq} {phase2 : Bool} {l l' : List BusEvent} (h : Earlier m phase2 l)
    (h' : WordTransfer m phase2 l') (hlast : (!m.crosses || phase2) = true) : Transfer m (l ++ l') := by
  unfold Earlier at h
  unfold Transfer
  cases phase2 with
  | true =>
    rw [if_pos rfl] at h
    rw [if_pos h.1]
    exact ⟨l, l', rfl, h.2, h'⟩
  | false =>
    rw [if_neg (by decide)] at h
    subst h
    rw [if_neg (by simpa using hlast)]
    exact h'

theorem Earlier.next {m : MemReq} {phase2 : Bool} {l l' : List BusEvent} (h : Earlier m phase2 l)
    (h' : WordTransfer m phase2 l') (hmore : (!m.crosses || phase2) = false) :
    Earlier m true (l ++ l') := by
  obtain ⟨hc, rfl⟩ := MemReq.of_not_last hmore
  obtain rfl : l = [] := h
  exact ⟨hc, h'⟩

section Step

variable {t : BusTracked} {m : MemReq} {o : SlaveOut}

/-- Address and data accepted, in either order, make a word's transfer with the B to come. -/
theorem WordTransfer.of_accepted {phase2 : Bool} {l : List BusEvent} (hwe : m.we = true)
    (h : l = [.aw (m.busAddr phase2), .w (m.busWdata phase2) (m.busWstrb phase2)] ∨
      l = [.w (m.busWdata phase2) (m.busWstrb phase2), .aw (m.busAddr phase2)]) :
    WordTransfer m phase2 (l ++ [.b]) := by
  rcases h with rfl | rfl <;> simp [WordTransfer, hwe]

/-- AW and W are noted as they are accepted. -/
theorem BusTracked.step_write (hwe : m.we = true) {awDone wDone phase2 : Bool} {wordLoReg : Word}
    {log : List BusEvent} {nAw nW nB nAr nR : Nat} :
    BusTracked.step
      ⟨⟨.write, !awDone, !wDone, false, false, false, awDone, wDone, phase2, wordLoReg⟩,
        some m, log, nAw, nW, nB, nAr, nR⟩ ⟨m, o⟩ =
      ⟨if (awDone || o.awready) && (wDone || o.wready) then
          ⟨.wresp, false, false, true, false, false, true, true, phase2, wordLoReg⟩
        else ⟨.write, !(awDone || o.awready), !(wDone || o.wready), false, false, false,
          awDone || o.awready, wDone || o.wready, phase2, wordLoReg⟩,
        some m, log ++ (if !awDone && o.awready then [.aw (m.busAddr phase2)] else []) ++
          (if !wDone && o.wready then [.w (m.busWdata phase2) (m.busWstrb phase2)] else []),
        nAw + (!awDone && o.awready).toNat, nW + (!wDone && o.wready).toNat, nB, nAr, nR⟩ := by
  rw [BusTracked.step, AxilMaster.step_write]
  simp [BusTracked.busStall, BusTracked.logAfter, AxilMaster.events, hwe]

/-- With both accepted the write waits for B. -/
theorem BusInv.step_write {l : List BusEvent} {awDone wDone phase2 : Bool} {wordLoReg : Word}
    {n k : Nat} (hwe : m.we = true) (hl : Earlier m phase2 l) (hdone : (awDone && wDone) = false) :
    BusInv (BusTracked.step
      ⟨⟨.write, !awDone, !wDone, false, false, false, awDone, wDone, phase2, wordLoReg⟩,
        some m, l ++ (if awDone then [.aw (m.busAddr phase2)] else []) ++
          (if wDone then [.w (m.busWdata phase2) (m.busWstrb phase2)] else []),
        n + awDone.toNat, n + wDone.toNat, n, k, k⟩ ⟨m, o⟩) := by
  have haw_w := BusInv.wresp m l _ true true phase2 wordLoReg n k hwe hl (.of_accepted hwe (.inl rfl))
  have hw_aw := BusInv.wresp m l _ true true phase2 wordLoReg n k hwe hl (.of_accepted hwe (.inr rfl))
  have hnone := BusInv.write m l false false phase2 wordLoReg n k hwe hl rfl
  have haw := BusInv.write m l true false phase2 wordLoReg n k hwe hl rfl
  have hw := BusInv.write m l false true phase2 wordLoReg n k hwe hl rfl
  rw [BusTracked.step_write hwe]
  cases awDone with
  | false =>
    cases wDone with
    | false =>
      cases o.awready with
      | false =>
        cases o.wready with
        | false => simpa using hnone
        | true => simpa using hw
      | true =>
        cases o.wready with
        | false => simpa using haw
        | true => simpa using haw_w
    | true =>
      cases o.awready with
      | false => simpa using hw
      | true => simpa using hw_aw
  | true =>
    obtain rfl : wDone = false := hdone
    cases o.wready with
    | false => simpa using haw
    | true => simpa using haw_w

/-- AR and R: an R comes with or after the acceptance of AR. -/
theorem BusInv.step_read {l : List BusEvent} {arDone awDone wDone phase2 : Bool} {wordLoReg : Word}
    {n k : Nat} (hre : m.re = true) (hwe : m.we = false) (hl : Earlier m phase2 l)
    (hr : o.rvalid = true → (arDone || o.arready) = true) :
    BusInv (BusTracked.step
      ⟨⟨.read, false, false, false, !arDone, true, awDone, wDone, phase2, wordLoReg⟩,
        some m, l ++ (if arDone then [.ar (m.busAddr phase2)] else []), n, n, n, k + arDone.toNat, k⟩
      ⟨m, o⟩) := by
  have hword : WordTransfer m phase2 [.ar (m.busAddr phase2), .r] := by simp [WordTransfer, hwe]
  cases hrv : o.rvalid with
  | false =>
    have hstay := BusInv.read m l (arDone || o.arready) awDone wDone phase2 wordLoReg n k hre hwe hl
    cases arDone <;> cases ha : o.arready <;>
      simpa [BusTracked.step, BusTracked.busStall, BusTracked.logAfter, AxilMaster.step,
        AxilMaster.stepRead, AxilMaster.events, hre, hrv, ha] using hstay
  | true =>
    have har := hr hrv
    cases hlast : (!m.crosses || phase2) with
    | true =>
      have hmore := MemReq.noMore_of_last hlast
      have hidle := BusInv.idle awDone wDone phase2 wordLoReg n (k + 1)
      have hcount : k + arDone.toNat + (!arDone && o.arready).toNat = k + 1 := by
        cases arDone with
        | true => rfl
        | false => rw [show o.arready = true from har]; rfl
      rw [BusTracked.step, AxilMaster.step_read, har]
      simpa [BusTracked.busStall, hre, hrv, hlast, hmore, hcount] using hidle
    | false =>
      have hn := hl.next hword hlast
      obtain ⟨hc, rfl⟩ := MemReq.of_not_last hlast
      have hmore := BusInv.read m _ false awDone wDone true o.rdata n (k + 1) hre hwe hn
      rw [BusTracked.step, AxilMaster.step_read, har]
      cases arDone with
      | true =>
        simpa [BusTracked.busStall, BusTracked.logAfter, AxilMaster.events, hre, hrv, hc] using hmore
      | false =>
        have ha : o.arready = true := har
        simpa [BusTracked.busStall, BusTracked.logAfter, AxilMaster.events, hre, hrv, hc, ha] using hmore

theorem BusInv.step {i : BusIn} (h : BusInv t) (hok : BusOk t i) : BusInv (t.step i) := by
  obtain ⟨m, o⟩ := i
  cases h with
  | idle awDone wDone phase2 wordLoReg n k =>
    cases hwe : m.we with
    | true =>
      simpa [BusTracked.step, BusTracked.busStall, BusTracked.logAfter, AxilMaster.step,
        AxilMaster.stepIdle, AxilMaster.events, hwe] using
        BusInv.write m [] false false false wordLoReg n k hwe rfl rfl
    | false =>
      cases hre : m.re with
      | true =>
        simpa [BusTracked.step, BusTracked.busStall, BusTracked.logAfter, AxilMaster.step,
          AxilMaster.stepIdle, AxilMaster.events, hwe, hre] using
          BusInv.read m [] false false false false wordLoReg n k hre hwe rfl
      | false =>
        simpa [BusTracked.step, BusTracked.busStall, BusTracked.logAfter, AxilMaster.step,
          AxilMaster.stepIdle, AxilMaster.events, hwe, hre] using
          BusInv.idle false false false wordLoReg n k
  | write m' l awDone wDone phase2 wordLoReg n k hwe hl hdone =>
    obtain rfl : m = m' := hok.held m' rfl
    exact step_write hwe hl hdone
  | wresp m' l l' awDone wDone phase2 wordLoReg n k hwe hl hl' =>
    obtain rfl : m = m' := hok.held m' rfl
    cases hb : o.bvalid with
    | false =>
      simpa [BusTracked.step, BusTracked.busStall, BusTracked.logAfter, AxilMaster.step,
        AxilMaster.stepWresp, AxilMaster.events, hwe, hb] using
        BusInv.wresp m l l' awDone wDone phase2 wordLoReg n k hwe hl hl'
    | true =>
      cases hlast : (!m.crosses || phase2) with
      | true =>
        have hmore := MemReq.noMore_of_last hlast
        simpa [BusTracked.step, BusTracked.busStall, BusTracked.logAfter, AxilMaster.step,
          AxilMaster.stepWresp, AxilMaster.events, hwe, hb, hlast, hmore] using
          BusInv.idle awDone wDone phase2 wordLoReg (n + 1) k
      | false =>
        have hn := hl.next hl' hlast
        obtain ⟨hc, rfl⟩ := MemReq.of_not_last hlast
        simpa [BusTracked.step, BusTracked.busStall, BusTracked.logAfter, AxilMaster.step,
          AxilMaster.stepWresp, AxilMaster.events, hwe, hb, hc] using
          BusInv.write m (l ++ (l' ++ [.b])) false false true wordLoReg (n + 1) k hwe hn rfl
  | read m' l arDone awDone wDone phase2 wordLoReg n k hre hwe hl =>
    obtain rfl : m = m' := hok.held m' rfl
    refine step_read hre hwe hl fun hrv => ?_
    have hr := hok.r hrv
    cases arDone <;> cases ha : o.arready <;> simp_all

/-! ### An access in progress is not complete -/

/-- A transfer of word N+1 exists: any order will do. -/
theorem exists_wordTransfer (m : MemReq) (phase2 : Bool) : ∃ l, WordTransfer m phase2 l := by
  unfold WordTransfer
  cases m.we
  · exact ⟨_, rfl⟩
  · exact ⟨_, .inl rfl⟩

/-- What is left of the current word can be followed by word N+1, if there is one. -/
theorem Earlier.complete {phase2 : Bool} {l l' l'' : List BusEvent} (h : Earlier m phase2 l)
    (h' : WordTransfer m phase2 (l' ++ l'')) (hne : l'' ≠ []) :
    ∃ rest, rest ≠ [] ∧ Transfer m (l ++ l' ++ rest) := by
  cases hlast : (!m.crosses || phase2) with
  | true => exact ⟨l'', hne, by simpa using h.transfer h' hlast⟩
  | false =>
    obtain ⟨l₂, h₂⟩ := exists_wordTransfer m true
    refine ⟨l'' ++ l₂, by simp [hne], ?_⟩
    have hn := (h.next h' hlast).transfer h₂ (by simp)
    simpa using hn

/-- In every state with an access in progress some handshake is still to come. -/
theorem BusInv.incomplete (h : BusInv t) (hm : t.held = some m) :
    ∃ rest, rest ≠ [] ∧ Transfer m (t.log ++ rest) := by
  cases h with
  | idle => cases hm
  | write m' l awDone wDone phase2 wordLoReg n k hwe hl hdone =>
    obtain rfl : m' = m := Option.some.inj hm
    show ∃ rest, rest ≠ [] ∧ Transfer m' (l ++ _ ++ _ ++ rest)
    rw [List.append_assoc l]
    have hb : WordTransfer m' phase2
        ([.aw (m'.busAddr phase2), .w (m'.busWdata phase2) (m'.busWstrb phase2), .b]) := by
      simp [WordTransfer, hwe]
    have hb' : WordTransfer m' phase2
        ([.w (m'.busWdata phase2) (m'.busWstrb phase2), .aw (m'.busAddr phase2), .b]) := by
      simp [WordTransfer, hwe]
    cases awDone with
    | false =>
      cases wDone with
      | false => exact hl.complete hb (by simp)
      | true => exact hl.complete hb' (by simp)
    | true =>
      obtain rfl : wDone = false := hdone
      exact hl.complete hb (by simp)
  | wresp m' l l' awDone wDone phase2 wordLoReg n k hwe hl hl' =>
    obtain rfl : m' = m := Option.some.inj hm
    exact hl.complete hl' (by simp)
  | read m' l arDone awDone wDone phase2 wordLoReg n k hre hwe hl =>
    obtain rfl : m' = m := Option.some.inj hm
    have hr : WordTransfer m' phase2 [.ar (m'.busAddr phase2), .r] := by simp [WordTransfer, hwe]
    cases arDone with
    | false => exact hl.complete hr (by simp)
    | true => exact hl.complete hr (by simp)

theorem WordTransfer.length {phase2 : Bool} {l : List BusEvent} (h : WordTransfer m phase2 l) :
    l.length = if m.we then 3 else 2 := by
  unfold WordTransfer at h
  split_ifs at h ⊢ with hwe
  · rcases h with rfl | rfl <;> rfl
  · rw [h]; rfl

/-- An access has a fixed number of handshakes, so it is complete only once. -/
theorem Transfer.length {l : List BusEvent} (h : Transfer m l) :
    l.length = (if m.we then 3 else 2) * (if m.crosses then 2 else 1) := by
  unfold Transfer at h
  split_ifs at h with hc
  · obtain ⟨l₁, l₂, rfl, h₁, h₂⟩ := h
    rw [List.length_append, h₁.length, h₂.length, if_pos hc, Nat.mul_two]
  · rw [h.length, if_neg hc, Nat.mul_one]

theorem Transfer.not_append {l rest : List BusEvent} (h : Transfer m (l ++ rest)) (hne : rest ≠ []) :
    ¬ Transfer m l := by
  intro h'
  have hlen := h.length
  rw [List.length_append, h'.length] at hlen
  have := List.length_pos_iff.2 hne
  omega

/-! ### The cycle in which an access ends -/

/-- The stall falls with a response, and with that the access is complete. -/
theorem BusInv.complete {i : BusIn} (h : BusInv t) (hok : BusOk t i) (hp : i.mem.presented = true)
    (hs : t.busStall i = false) :
    Transfer i.mem (t.logAfter i) ∧ (t.master.bFire i.slave || t.master.rFire i.slave) = true := by
  obtain ⟨m, o⟩ := i
  simp only [BusTracked.busStall, AxilMaster.busStall] at hs
  rw [hp, Bool.true_and, Bool.not_eq_false'] at hs
  cases h with
  | idle => simp at hs
  | write => simp at hs
  | wresp m' l l' awDone wDone phase2 wordLoReg n k hwe hl hl' =>
    obtain rfl : m = m' := hok.held m' rfl
    simp only [AxilMaster.xferDone, AxilMaster.phaseDone, Bool.and_eq_true] at hs
    obtain ⟨hb, hlast⟩ := hs
    have hb : o.bvalid = true := by simpa using hb
    refine ⟨?_, by simp [hb]⟩
    have ht := hl.transfer hl' hlast
    simpa [BusTracked.logAfter, AxilMaster.events, hb] using ht
  | read m' l arDone awDone wDone phase2 wordLoReg n k hre hwe hl =>
    obtain rfl : m = m' := hok.held m' rfl
    simp only [AxilMaster.xferDone, AxilMaster.phaseDone, Bool.and_eq_true] at hs
    obtain ⟨hr, hlast⟩ := hs
    have hr : o.rvalid = true := by simpa using hr
    refine ⟨?_, by simp [hr]⟩
    have har := hok.r hr
    have hword : WordTransfer m phase2 [.ar (m.busAddr phase2), .r] := by simp [WordTransfer, hwe]
    have ht := hl.transfer hword hlast
    cases arDone <;> cases ha : o.arready <;> simp [ha] at har <;>
      simpa [BusTracked.logAfter, AxilMaster.events, hr, ha] using ht

/-- With no access presented the bus is quiet. -/
theorem BusInv.quiet {i : BusIn} (h : BusInv t) (hok : BusOk t i) (hp : i.mem.presented = false) :
    t.logAfter i = [] := by
  obtain ⟨m, o⟩ := i
  cases h with
  | idle => simp [BusTracked.logAfter, AxilMaster.events]
  | write m' l awDone wDone phase2 wordLoReg n k hwe hl hdone =>
    obtain rfl : m = m' := hok.held m' rfl
    simp [hwe] at hp
  | wresp m' l l' awDone wDone phase2 wordLoReg n k hwe hl hl' =>
    obtain rfl : m = m' := hok.held m' rfl
    simp [hwe] at hp
  | read m' l arDone awDone wDone phase2 wordLoReg n k hre hwe hl =>
    obtain rfl : m = m' := hok.held m' rfl
    simp [hre] at hp

end Step

/-! ## The protocol -/

/-- What `axil_master` guarantees in one cycle. -/
structure BusCycle (t : BusTracked) (i : BusIn) : Prop where
  /-- AW, W and AR stay up, with what they carry, until accepted -/
  aw : t.master.awvalid = true → i.slave.awready = false → (t.step i).master.awvalid = true ∧
    ∀ j, BusOk (t.step i) j →
      j.mem.busAddr (t.step i).master.phase2 = i.mem.busAddr t.master.phase2
  w : t.master.wvalid = true → i.slave.wready = false → (t.step i).master.wvalid = true ∧
    ∀ j, BusOk (t.step i) j →
      j.mem.busWdata (t.step i).master.phase2 = i.mem.busWdata t.master.phase2 ∧
      j.mem.busWstrb (t.step i).master.phase2 = i.mem.busWstrb t.master.phase2
  ar : t.master.arvalid = true → i.slave.arready = false → (t.step i).master.arvalid = true ∧
    ∀ j, BusOk (t.step i) j →
      j.mem.busAddr (t.step i).master.phase2 = i.mem.busAddr t.master.phase2
  /-- requested or accepted and not answered: at most one write or one read -/
  one : t.nB ≤ t.nAw ∧ t.nB ≤ t.nW ∧ t.nR ≤ t.nAr ∧
    (t.nAw - t.nB + t.master.awvalid.toNat) + (t.nAr - t.nR + t.master.arvalid.toNat) ≤ 1 ∧
    (t.nW - t.nB + t.master.wvalid.toNat) + (t.nAr - t.nR + t.master.arvalid.toNat) ≤ 1
  /-- the handshakes of the access so far are a part of its transfer, from the first on -/
  partly : i.mem.presented = true → ∃ rest, Transfer i.mem (t.logAfter i ++ rest)
  /-- the stall is low exactly when they are all of it -/
  done : i.mem.presented = true → (t.busStall i = false ↔ Transfer i.mem (t.logAfter i))
  /-- and then a response has just arrived -/
  response : i.mem.presented = true → t.busStall i = false →
    (t.master.bFire i.slave || t.master.rFire i.slave) = true
  /-- after the first cycle of an access the master is asking or listening on some channel -/
  offers : t.held ≠ none → (t.master.awvalid || t.master.wvalid || t.master.bready ||
    t.master.arvalid || t.master.rready) = true
  /-- without an access there is neither a stall nor a handshake -/
  quiet : i.mem.presented = false → t.busStall i = false ∧ t.logAfter i = []

section Cycle

variable {t : BusTracked} {i : BusIn}

/-- A stalled cycle is followed by the same request. -/
theorem BusOk.mem_eq {j : BusIn} (hs : t.busStall i = true) (hj : BusOk (t.step i) j) :
    j.mem = i.mem :=
  hj.held _ (by simp [BusTracked.step, hs])

/-- An address or data channel that waits for its READY stalls, and stays as it is. -/
theorem BusInv.waits (h : BusInv t) (hok : BusOk t i) :
    (t.master.awvalid = true → i.slave.awready = false →
      t.busStall i = true ∧ (t.step i).master.awvalid = true ∧
        (t.step i).master.phase2 = t.master.phase2) ∧
    (t.master.wvalid = true → i.slave.wready = false →
      t.busStall i = true ∧ (t.step i).master.wvalid = true ∧
        (t.step i).master.phase2 = t.master.phase2) ∧
    (t.master.arvalid = true → i.slave.arready = false →
      t.busStall i = true ∧ (t.step i).master.arvalid = true ∧
        (t.step i).master.phase2 = t.master.phase2) := by
  obtain ⟨m, o⟩ := i
  cases h with
  | idle => simp
  | write m' l awDone wDone phase2 wordLoReg n k hwe hl hdone =>
    obtain rfl : m = m' := hok.held m' rfl
    refine ⟨fun hv hr => ?_, fun hv hr => ?_, by simp⟩ <;>
      simp_all [BusTracked.busStall, BusTracked.step, AxilMaster.step, AxilMaster.stepWrite]
  | wresp => simp
  | read m' l arDone awDone wDone phase2 wordLoReg n k hre hwe hl =>
    obtain rfl : m = m' := hok.held m' rfl
    refine ⟨by simp, by simp, fun hv hr => ?_⟩
    have hrv : o.rvalid = false := by
      by_contra hrv
      have := hok.r (by simpa using hrv)
      simp_all
    simp_all [BusTracked.busStall, BusTracked.step, AxilMaster.step, AxilMaster.stepRead]

theorem BusInv.cycle (h : BusInv t) (hok : BusOk t i) : BusCycle t i := by
  have hnext := h.step hok
  have hstalled : ∀ hs : t.busStall i = true, ∃ rest, rest ≠ [] ∧
      Transfer i.mem (t.logAfter i ++ rest) := by
    intro hs
    have hn := hnext.incomplete (m := i.mem) (by simp [BusTracked.step, hs])
    simpa [BusTracked.step, hs] using hn
  refine ⟨?_, ?_, ?_, ?_, fun hp => ?_, fun hp => ⟨fun hs => (h.complete hok hp hs).1, fun ht => ?_⟩,
    fun hp hs => (h.complete hok hp hs).2, ?_, fun hp => ⟨?_, h.quiet hok hp⟩⟩
  · intro hv hr
    obtain ⟨hs, hv', hp⟩ := (h.waits hok).1 hv hr
    exact ⟨hv', fun j hj => by rw [hj.mem_eq hs, hp]⟩
  · intro hv hr
    obtain ⟨hs, hv', hp⟩ := (h.waits hok).2.1 hv hr
    exact ⟨hv', fun j hj => by rw [hj.mem_eq hs, hp]; exact ⟨rfl, rfl⟩⟩
  · intro hv hr
    obtain ⟨hs, hv', hp⟩ := (h.waits hok).2.2 hv hr
    exact ⟨hv', fun j hj => by rw [hj.mem_eq hs, hp]⟩
  · cases h with
    | idle => simp
    | write m l awDone wDone => cases awDone <;> cases wDone <;> simp
    | wresp => simp
    | read m l arDone => cases arDone <;> simp
  · cases hs : t.busStall i with
    | true =>
      obtain ⟨rest, -, ht⟩ := hstalled hs
      exact ⟨rest, ht⟩
    | false => exact ⟨[], by simpa using (h.complete hok hp hs).1⟩
  · by_contra hs
    obtain ⟨rest, hne, ht'⟩ := hstalled (by simpa using hs)
    exact ht'.not_append hne ht
  · cases h with
    | idle => simp
    | write m l awDone wDone phase2 wordLoReg n k hwe hl hdone =>
      cases awDone <;> cases wDone <;> simp at hdone ⊢
    | wresp => simp
    | read => simp
  · simp only [MemReq.presented] at hp
    simp [BusTracked.busStall, hp]

end Cycle

/-- **Bus protocol.**  In every run from reset in which the MEM stage and the slave keep
their promises, `axil_master` keeps its own in every cycle. -/
theorem axil_master_protocol (is : List BusIn) (hok : Always BusTracked.step BusOk .reset is) :
    Always BusTracked.step BusCycle .reset is :=
  (inv_always BusInv (fun _ _ h hi => h.step hi) .reset hok).mono fun _ _ h => h.1.cycle h.2

/-- A word store at address 2: W before AW for the first word, both at once for the second. -/
theorem axil_master_protocol_crossing :
    let m : MemReq := ⟨2, 0x11223344, 0b010#3, false, true⟩
    Always BusTracked.step BusCycle .reset
      [⟨m, ⟨false, false, false, false, false, 0⟩⟩, ⟨m, ⟨false, true, false, false, false, 0⟩⟩,
        ⟨m, ⟨true, false, false, false, false, 0⟩⟩, ⟨m, ⟨false, false, true, false, false, 0⟩⟩,
        ⟨m, ⟨true, true, false, false, false, 0⟩⟩, ⟨m, ⟨false, false, true, false, false, 0⟩⟩] :=
  axil_master_protocol _ (by decide +kernel)

end Rv32i
