import Mathlib.Data.BitVec
import Rv32iCore.Soc.RegDevice

/-!
# `timer`

`mtime` and `mtimecmp` of `rtl/soc/timer.v`, behind `axil_reg_if`, written and read half by half.

`mtimecmp` is a fold over the writes performed, and `mtime` counts the cycles while none of them
is to it.  Between the writes of a re-arming the threshold is a mix of old and new halves; with
the all-ones half in between it is never below both the old and the new deadline, so no
interrupt comes early (`timer_rearm`).
-/

namespace Rv32i

open Sync

/-- The registers of `timer`. -/
structure Timer where
  mtime : BitVec 64
  mtimecmp : BitVec 64
deriving DecidableEq, Inhabited

namespace Timer

variable (t : Timer) (wr : RegIfWr)

def wrMtimeLo : Bool := wr.wrEn && wr.awaddr.extractLsb 3 2 == 0b00#2

def wrMtimeHi : Bool := wr.wrEn && wr.awaddr.extractLsb 3 2 == 0b01#2

def wrMtimecmpLo : Bool := wr.wrEn && wr.awaddr.extractLsb 3 2 == 0b10#2

def wrMtimecmpHi : Bool := wr.wrEn && wr.awaddr.extractLsb 3 2 == 0b11#2

/-- `mtime` counts, but in the cycle of a write to one of its halves. -/
def nextMtime : BitVec 64 :=
  if wrMtimeLo wr then t.mtime.extractLsb 63 32 ++ wr.wdata
  else if wrMtimeHi wr then wr.wdata ++ t.mtime.extractLsb 31 0
  else t.mtime + 1

def nextMtimecmp : BitVec 64 :=
  if wrMtimecmpLo wr then t.mtimecmp.extractLsb 63 32 ++ wr.wdata
  else if wrMtimecmpHi wr then wr.wdata ++ t.mtimecmp.extractLsb 31 0
  else t.mtimecmp

def timerIrq : Bool := t.mtimecmp.ule t.mtime

/-- `reg_rd_data` -/
def rdData (addr : Word) : Word :=
  if addr.extractLsb 3 2 = 0b00#2 then t.mtime.extractLsb 31 0
  else if addr.extractLsb 3 2 = 0b01#2 then t.mtime.extractLsb 63 32
  else if addr.extractLsb 3 2 = 0b10#2 then t.mtimecmp.extractLsb 31 0
  else t.mtimecmp.extractLsb 63 32

end Timer

/-- `timer`: a write is acknowledged at once. -/
def timer : RegDevice Timer Unit where
  wrWait _ _ _ := false
  wrAck _ _ wr := wr.wrEn
  rdData t _ addr := t.rdData addr
  next t _ wr _ := ⟨t.nextMtime wr, t.nextMtimecmp wr⟩
  reset := ⟨0, BitVec.allOnes 64⟩
  ack_en _ _ _ h := h
  answers _ _ _ h := by rw [h, Bool.true_or]

namespace Timer

/-! ## One cycle -/

theorem timerIrq_iff (t : Timer) : t.timerIrq = true ↔ t.mtimecmp.toNat ≤ t.mtime.toNat := by
  rw [timerIrq, BitVec.ule_eq_decide, decide_eq_true_eq]

/-- What a write does to `mtimecmp`. -/
def writeMtimecmp (cmp : BitVec 64) (w : RegWrite) : BitVec 64 :=
  if w.1.extractLsb 3 2 = 0b10#2 then cmp.extractLsb 63 32 ++ w.2.1
  else if w.1.extractLsb 3 2 = 0b11#2 then w.2.1 ++ cmp.extractLsb 31 0
  else cmp

theorem mtimecmp_step (s : RegSlave Timer) (i : RegIn Unit) :
    (timer.step s i).dev.mtimecmp = (s.applied i timer).foldl writeMtimecmp s.dev.mtimecmp := by
  show s.dev.nextMtimecmp s.wr = (if s.wr.wrEn then [_] else []).foldl writeMtimecmp s.dev.mtimecmp
  unfold nextMtimecmp wrMtimecmpLo wrMtimecmpHi
  cases s.wr.wrEn with
  | false => rfl
  | true => simp [writeMtimecmp]

/-- The write is to `mtimecmp`. -/
def ToMtimecmp (w : RegWrite) : Prop := w.1.extractLsb 3 2 = 0b10#2 ∨ w.1.extractLsb 3 2 = 0b11#2

theorem mtime_step {s : RegSlave Timer} {i : RegIn Unit} (h : ∀ w ∈ s.applied i timer, ToMtimecmp w) :
    (timer.step s i).dev.mtime = s.dev.mtime + 1 := by
  show s.dev.nextMtime s.wr = _
  unfold nextMtime wrMtimeLo wrMtimeHi
  cases hen : s.wr.wrEn with
  | false => rfl
  | true =>
    have hw := h (s.wr.awaddr, s.wr.wdata, s.wr.wstrb) (by
      show _ ∈ if s.wr.wrEn then [_] else []
      rw [hen]
      exact List.mem_singleton_self _)
    rcases hw with hw | hw
    all_goals
      simp only at hw
      rw [hw]
      rfl

/-! ## Runs -/

/-- `mtime` counts every cycle of a run that only writes `mtimecmp`. -/
theorem mtime_run {s : RegSlave Timer} {is : List (RegIn Unit)}
    (h : ∀ w ∈ outputs timer.step (fun s i => s.applied i timer) s is, ToMtimecmp w) :
    (run timer.step s is).dev.mtime = s.dev.mtime + BitVec.ofNat 64 is.length := by
  induction is generalizing s with
  | nil => simp
  | cons i is ih =>
    rw [outputs_cons, List.forall_mem_append] at h
    rw [run_cons, ih h.2, mtime_step h.1, List.length_cons, BitVec.ofNat_add]
    rw [BitVec.add_assoc, BitVec.add_comm 1]
    rfl

/-! ## Re-arming -/

/-- A half of `mtimecmp` or of a deadline. -/
abbrev hi (x : BitVec 64) : Word := x.extractLsb 63 32

abbrev lo (x : BitVec 64) : Word := x.extractLsb 31 0

theorem toNat_append (x y : Word) : (x ++ y).toNat = x.toNat * 2 ^ 32 + y.toNat := by
  rw [BitVec.toNat_append, ← Nat.shiftLeft_add_eq_or_of_lt y.isLt, Nat.shiftLeft_eq]

theorem toNat_hi (x : BitVec 64) : (hi x).toNat = x.toNat / 2 ^ 32 := by
  have hx := x.isLt
  rw [BitVec.extractLsb_toNat, Nat.shiftRight_eq_div_pow]
  omega

theorem hi_append_lo (x : BitVec 64) : hi x ++ lo x = x := by
  apply BitVec.eq_of_toNat_eq
  rw [toNat_append, toNat_hi, BitVec.extractLsb_toNat, Nat.shiftRight_zero]
  omega

theorem hi_append (x y : Word) : hi (x ++ y) = x := BitVec.extractLsb'_append_eq_left

theorem lo_append (x y : Word) : lo (x ++ y) = y := BitVec.extractLsb'_append_eq_right

/-- All ones in the low half is the most that the high half allows. -/
theorem le_hi_append_ones (x : BitVec 64) : x ≤ hi x ++ 0xFFFFFFFF#32 := by
  have hones : (0xFFFFFFFF#32).toNat = 2 ^ 32 - 1 := rfl
  rw [BitVec.le_def, toNat_append, toNat_hi, hones]
  omega

theorem eq_take_zip {α β : Type} {l : List (α × β)} {as : List α} {bs : List β}
    (has : l.map Prod.fst <+: as) (hbs : l.map Prod.snd <+: bs) : l = (as.zip bs).take l.length := by
  rw [List.prefix_iff_eq_take, List.length_map] at has hbs
  calc l = (l.map Prod.fst).zip (l.map Prod.snd) := by rw [List.zip_map']; simp
    _ = (as.take l.length).zip (bs.take l.length) := by rw [← has, ← hbs]
    _ = (as.zip bs).take l.length := List.take_zipWith.symm

/-- The three writes of a re-arming, at addresses of the two halves. -/
def rearm (aLo aHi aLo' : Word) (deadline : BitVec 64) : List RegWrite :=
  [(aLo, 0xFFFFFFFF, 0b1111), (aHi, hi deadline, 0b1111), (aLo', lo deadline, 0b1111)]

section Rearm

variable {aLo aHi aLo' : Word} (hlo : aLo.extractLsb 3 2 = 0b10#2) (hhi : aHi.extractLsb 3 2 = 0b11#2)
  (hlo' : aLo'.extractLsb 3 2 = 0b10#2) (old deadline : BitVec 64)
include hlo hhi hlo'

theorem rearm_toMtimecmp : ∀ w ∈ rearm aLo aHi aLo' deadline, ToMtimecmp w := by
  intro w hw
  simp only [rearm, List.mem_cons, List.not_mem_nil, or_false] at hw
  rcases hw with rfl | rfl | rfl
  · exact .inl hlo
  · exact .inr hhi
  · exact .inl hlo'

/-- `mtimecmp` after the first `k` writes: never below both deadlines, and at the end the new
one. -/
theorem rearm_fold (k : Nat) :
    let cmp := ((rearm aLo aHi aLo' deadline).take k).foldl writeMtimecmp old
    (old ≤ cmp ∨ deadline ≤ cmp) ∧ (3 ≤ k → cmp = deadline) := by
  have hsel : ¬ aHi.extractLsb 3 2 = 0b10#2 := by rw [hhi]; decide
  have h1 : writeMtimecmp old (aLo, 0xFFFFFFFF, 0b1111) = hi old ++ 0xFFFFFFFF#32 := if_pos hlo
  have h2 : writeMtimecmp (hi old ++ 0xFFFFFFFF#32) (aHi, hi deadline, 0b1111) =
      hi deadline ++ 0xFFFFFFFF#32 := by
    rw [writeMtimecmp, if_neg hsel, if_pos hhi]
    exact congrArg (hi deadline ++ ·) (lo_append _ _)
  have h3 : writeMtimecmp (hi deadline ++ 0xFFFFFFFF#32) (aLo', lo deadline, 0b1111) = deadline := by
    rw [writeMtimecmp, if_pos hlo']
    exact (congrArg (· ++ lo deadline) (hi_append _ _)).trans (hi_append_lo deadline)
  rcases k with - | - | - | k <;> intro cmp
  · exact ⟨.inl (BitVec.le_refl _), by omega⟩
  · have hcmp : cmp = hi old ++ 0xFFFFFFFF#32 := h1
    rw [hcmp]
    exact ⟨.inl (le_hi_append_ones old), by omega⟩
  · have hcmp : cmp = hi deadline ++ 0xFFFFFFFF#32 := (congrArg (writeMtimecmp · _) h1).trans h2
    rw [hcmp]
    exact ⟨.inr (le_hi_append_ones deadline), by omega⟩
  · have hall : (rearm aLo aHi aLo' deadline).take (k + 1 + 1 + 1) = rearm aLo aHi aLo' deadline :=
      List.take_of_length_le (by simp [rearm])
    have hcmp : cmp = deadline := by
      show ((rearm aLo aHi aLo' deadline).take (k + 1 + 1 + 1)).foldl writeMtimecmp old = deadline
      rw [hall]
      show writeMtimecmp (writeMtimecmp (writeMtimecmp old _) _) _ = deadline
      rw [h1, h2, h3]
    rw [hcmp]
    exact ⟨.inr (BitVec.le_refl _), fun _ => rfl⟩

/-- **Re-arming raises no spurious interrupt.**  With no write in progress, the master writes
all ones to the low half of `mtimecmp`, the new high half and the new low half, with any cycles
and reads in between.  At any moment of this, `timer_irq` is low if `mtime` is below the old
and the new deadline; and from the last write on, it is high exactly when the cycles counted
since the start bring `mtime` to the new deadline.  A write that is performed gets its B. -/
theorem timer_rearm (s : RegSlave Timer) (h : s.Wf) (haw : s.wr.awvalid = false)
    (hw : s.wr.wvalid = false) (is : List (RegIn Unit))
    (hAw : outputs timer.step RegSlave.awTaken s is <+: [aLo, aHi, aLo'])
    (hW : outputs timer.step RegSlave.wTaken s is <+:
      [(0xFFFFFFFF, 0b1111), (hi deadline, 0b1111), (lo deadline, 0b1111)]) :
    let t := (run timer.step s is).dev
    let performed := outputs timer.step (fun s i => s.applied i timer) s is
    t.mtime.toNat = (s.dev.mtime.toNat + is.length) % 2 ^ 64 ∧
    (t.mtime < s.dev.mtimecmp → t.mtime < deadline → t.timerIrq = false) ∧
    (performed.length = 3 →
      (t.timerIrq = true ↔ deadline.toNat ≤ (s.dev.mtime.toNat + is.length) % 2 ^ 64)) ∧
    s.wr.bvalid.toNat + performed.length =
      (outputs timer.step RegSlave.bTaken s is).length + (run timer.step s is).wr.bvalid.toNat := by
  intro t performed
  -- what has been performed is the first of the three writes
  have hwf : Always timer.step (fun s _ => s.Wf) s is := always_of_step _ (fun _ _ h => h.step) h
  have hperformed : performed = (rearm aLo aHi aLo' deadline).take performed.length := by
    have h1 := outputs_conserved RegSlave.awHeld (hwf.mono fun _ i h => h.aw_conserved (i := i))
    have h2 := outputs_conserved RegSlave.wHeld (hwf.mono fun _ i h => h.w_conserved (i := i))
    have hawHeld : s.awHeld = [] := by rw [RegSlave.awHeld, haw]; rfl
    have hwHeld : s.wHeld = [] := by rw [RegSlave.wHeld, hw]; rfl
    rw [outputs_map, hawHeld, List.nil_append] at h1
    rw [outputs_map, hwHeld, List.nil_append] at h2
    have hp1 : performed.map Prod.fst <+: [aLo, aHi, aLo'] := (h1 ▸ List.prefix_append _ _).trans hAw
    have hp2 : performed.map Prod.snd <+:
        [(0xFFFFFFFF, 0b1111), (hi deadline, 0b1111), (lo deadline, 0b1111)] :=
      (h2 ▸ List.prefix_append _ _).trans hW
    exact eq_take_zip hp1 hp2
  obtain ⟨hcmp, hlast⟩ := rearm_fold hlo hhi hlo' s.dev.mtimecmp deadline performed.length
  rw [← hperformed, ← run_eq_foldl (fun s => s.dev.mtimecmp) writeMtimecmp mtimecmp_step s is]
    at hcmp hlast
  have hcmp : s.dev.mtimecmp ≤ t.mtimecmp ∨ deadline ≤ t.mtimecmp := hcmp
  have hmtime : t.mtime = s.dev.mtime + BitVec.ofNat 64 is.length := by
    apply mtime_run
    intro w hmem
    have hmem' : w ∈ performed := hmem
    rw [hperformed] at hmem'
    exact rearm_toMtimecmp hlo hhi hlo' deadline w (List.mem_of_mem_take hmem')
  have hcount : t.mtime.toNat = (s.dev.mtime.toNat + is.length) % 2 ^ 64 := by
    rw [hmtime, BitVec.toNat_add, BitVec.toNat_ofNat]
    omega
  refine ⟨hcount, ?_, ?_, ?_⟩
  · intro hold hnew
    rw [← Bool.not_eq_true, timerIrq_iff]
    rw [BitVec.lt_def] at hold hnew
    intro hirq
    rcases hcmp with hc | hc
    · rw [BitVec.le_def] at hc
      exact absurd hold (by omega)
    · rw [BitVec.le_def] at hc
      exact absurd hnew (by omega)
  · intro h3
    have hdeadline : t.mtimecmp = deadline := hlast (by omega)
    rw [timerIrq_iff, hdeadline, hcount]
  · exact timer.answered_of_wf h is

end Rearm

/-- The three writes, one after the other, with a cycle between. -/
def rearmCycles (deadline : BitVec 64) : List (RegIn Unit) :=
  let write (addr data : Word) : RegIn Unit :=
    ⟨{ (default : MasterOut) with
        awvalid := true, awaddr := addr, wvalid := true, wdata := data, wstrb := 0b1111
        bready := true }, ()⟩
  [write 8 0xFFFFFFFF, default, write 12 (hi deadline), default, write 8 (lo deadline), default]

/-- The deadline is the 21st cycle from here. -/
theorem timer_rearm_carry :
    let s : RegSlave Timer := { timer.start default with dev := ⟨0xFFFFFFF0, 0x0FFFFFFFF⟩ }
    let later := rearmCycles 0x100000005 ++ List.replicate 15 default
    (run timer.step s (rearmCycles 0x100000005)).dev.timerIrq = false ∧
      (run timer.step s later).dev.timerIrq = true := by
  intro s later
  have h := @timer_rearm 8 12 8 rfl rfl rfl 0x100000005 s
    ⟨rfl, rfl, fun h => absurd h (by decide)⟩ rfl rfl
  have hrearm := h (rearmCycles 0x100000005) (by decide +kernel) (by decide +kernel)
  have hlater := h later (by decide +kernel) (by decide +kernel)
  exact ⟨hrearm.2.1 (by decide +kernel) (by decide +kernel),
    (hlater.2.2.1 (by decide +kernel)).2 (by decide)⟩

end Timer

end Rv32i
