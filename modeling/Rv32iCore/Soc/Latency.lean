import Rv32iCore.Soc.Devices
import Rv32iCore.Soc.Liveness

/-!
# How long `soc` takes

The waits of `Rv32iCore.Soc.Liveness` in numbers of cycles.  Only a store to UART DATA waits for
the transmitter; any other access has ended after 21 cycles.

    soc_throughput          an instruction in any 126 cycles, or a store to UART DATA in MEM
    soc_interrupt_latency   a timer interrupt that is enabled waits for 20 cycles at most
-/

namespace Rv32i

open Sync

theorem Fabric.Stage.le {m : MemReq} {r : Nat} {s : Fabric} (h : Stage m r s) : r ≤ 20 := by
  have hleft : ∀ phase2, left m phase2 ≤ 10 := by
    intro phase2
    unfold left
    split_ifs <;> omega
  cases h with
  | idle => have := hleft false; omega
  | @requested read phase2 => have := hleft phase2; omega
  | @granted read phase2 => have := hleft phase2; omega
  | @decoding read phase2 => have := hleft phase2; omega
  | @data phase2 => have := hleft phase2; omega
  | @drop phase2 => have := hleft phase2; omega
  | @writeSent phase2 => have := hleft phase2; omega
  | @writing phase2 _ path _ slaves =>
    have := hleft phase2
    have := Bool.toNat_le (!(slaves.wr path.mSelect).bvalid)
    omega
  | @readSelected phase2 => have := hleft phase2; omega
  | @readSent phase2 => have := hleft phase2; omega
  | @reading phase2 _ path _ slaves =>
    have := hleft phase2
    have := slaves.readRank_le path.mSelect
    omega
  | @answered read phase2 => have := hleft phase2; omega

theorem Tracked.pipeRank_le (t : Tracked) : t.pipeRank ≤ 5 := by
  have hslot := t.slotRank_le
  unfold pipeRank
  split_ifs <;> omega

namespace SocRun

variable {P : Params} {t : SocRun} {i : SocIn}

/-- A state of a run from reset, with the stage of the access in MEM. -/
structure InStage (P : Params) (s : Soc) (b : Nat) (t : SocRun) : Prop where
  reached : ∃ is, t = run (SocRun.step P) (reset P s) is
  stage : t.soc.uCore.memReq.presented = true →
    Fabric.Stage t.soc.uCore.memReq b t.bus.fabric
  le : b ≤ 20

theorem InStage.of_run (P : Params) (s : Soc) (is : List SocIn) :
    ∃ b, InStage P s b (run (SocRun.step P) (reset P s) is) := by
  obtain ⟨b, hb⟩ := (inv_run P s is).stage
  by_cases hm : (run (SocRun.step P) (reset P s) is).soc.uCore.memReq.presented = true
  · exact ⟨b, ⟨is, rfl⟩, hb, (hb hm).le⟩
  · exact ⟨0, ⟨is, rfl⟩, fun h => absurd h hm, by omega⟩

theorem InStage.of_trace (P : Params) (s : Soc) (inp : Nat → SocIn) (n : Nat) :
    ∃ b, InStage P s b (trace (SocRun.step P) (reset P s) inp n) := by
  rw [trace_eq_run]
  exact InStage.of_run P s _

theorem InStage.next {s : Soc} {b : Nat} (h : InStage P s b t) (i : SocIn) :
    ∃ b', InStage P s b' (t.step P i) := by
  obtain ⟨is, rfl⟩ := h.reached
  have hnext := InStage.of_run P s (is ++ [i])
  rw [run_append] at hnext
  exact hnext

/-- A stalled cycle lowers the stage, unless a store to UART DATA is in MEM. -/
theorem InStage.stall {s : Soc} {b : Nat} (h : InStage P s b t)
    (hs : t.soc.coreIn.busStall = true) (huart : ¬ Fabric.writesUartData t.soc.uCore.memReq)
    (i : SocIn) : ∃ b' < b, InStage P s b' (t.step P i) := by
  obtain ⟨is, ht⟩ := h.reached
  obtain ⟨hreq, ⟨b', hlt, hb'⟩ | ⟨-, hwrites, -⟩⟩ :=
    stage_stall (P := P) (t := t) (i := i) h.stage hs
  · refine ⟨b', hlt, ⟨is ++ [i], by rw [run_append, ← ht]; rfl⟩, fun _ => ?_, ?_⟩
    · rw [hreq]
      exact hb'
    · have := h.le
      omega
  · exact absurd hwrites huart

/-- An unstalled cycle executes an instruction or brings one nearer. -/
theorem InStage.pipeRank {s : Soc} {b : Nat} (h : InStage P s b t)
    (hs : t.soc.coreIn.busStall = false) (i : SocIn) :
    t.executed i ≠ [] ∨ (t.step P i).cpu.core.pipeRank < t.cpu.core.pipeRank := by
  obtain ⟨is, ht⟩ := h.reached
  obtain ⟨ld, q, hrel, hok⟩ := exists_rel P s is i
  rw [← ht] at hrel hok
  exact Tracked.pipeRank_step hrel hok hs

end SocRun

/-- **Throughput.**  In any 126 cycles of a run from reset an instruction is executed, or a store to
UART DATA is in MEM. -/
theorem soc_throughput (P : Params) (s : Soc) (inp : Nat → SocIn) (n : Nat) :
    ∃ k ≤ 125, (trace (SocRun.step P) (.reset P s) inp (n + k)).executed (inp (n + k)) ≠ [] ∨
      Fabric.writesUartData
        (trace (SocRun.step P) (.reset P s) inp (n + k)).soc.uCore.memReq := by
  let Stage := fun (r : Nat) (t : SocRun) =>
    ∃ b, SocRun.InStage P s b t ∧ r = 21 * t.cpu.core.pipeRank + b
  let done := fun (t : SocRun) (i : SocIn) =>
    t.executed i ≠ [] ∨ Fabric.writesUartData t.soc.uCore.memReq
  have hstep : ∀ r t i, Stage r t → done t i ∨ True ∧ ∃ r' < r, Stage r' (t.step P i) := by
    rintro r t i ⟨b, hb, rfl⟩
    by_cases huart : Fabric.writesUartData t.soc.uCore.memReq
    · exact .inl (.inr huart)
    cases hs : t.soc.coreIn.busStall with
    | true =>
      obtain ⟨b', hlt, hb'⟩ := hb.stall hs huart i
      have hpipe : (t.step P i).cpu.core.pipeRank = t.cpu.core.pipeRank := Tracked.pipeRank_stall hs
      exact .inr ⟨trivial, _, by rw [hpipe]; omega, b', hb', rfl⟩
    | false =>
      rcases hb.pipeRank hs i with hexec | hlt
      · exact .inl (.inl hexec)
      · obtain ⟨b', hb'⟩ := hb.next i
        have hle := hb'.le
        exact .inr ⟨trivial, _, by omega, b', hb', rfl⟩
  obtain ⟨b, hb⟩ := SocRun.InStage.of_trace P s inp n
  let t := trace (SocRun.step P) (.reset P s) inp n
  have hstart : Stage (21 * t.cpu.core.pipeRank + b) t := ⟨b, hb, rfl⟩
  obtain ⟨k, hk, hdone, -⟩ : ∃ k ≤ 21 * t.cpu.core.pipeRank + b,
      done (trace (SocRun.step P) t (fun k => inp (n + k)) k) (inp (n + k)) ∧ ∀ j < k, True :=
    reaches_within Stage hstep hstart
  have hpipe : t.cpu.core.pipeRank ≤ 5 := t.cpu.core.pipeRank_le
  have hle := hb.le
  rw [← trace_add] at hdone
  exact ⟨k, by omega, hdone⟩

namespace SocRun

/-- A cycle that may take an interrupt takes it, unless the instruction in EX faults. -/
theorem InStage.traps {P : Params} {s : Soc} {b : Nat} {t : SocRun} (h : InStage P s b t)
    (hs : t.soc.coreIn.busStall = false)
    (hpending : t.soc.uCore.csr.interruptPending t.soc.timerIrq = true) (i : SocIn) :
    t.schedule i = [.interrupt] ∨ ∃ x, t.executed i = [x] ∧ x.trapCause.isSome = true := by
  obtain ⟨is, ht⟩ := h.reached
  obtain ⟨ld, q, hrel, -⟩ := exists_rel P s is i
  rw [← ht] at hrel
  have htake : t.cpu.core.core.takeInterrupt t.soc.coreIn = !t.cpu.core.core.syncTrap := by
    show (t.soc.uCore.csr.interruptPending t.soc.timerIrq && !t.cpu.core.core.syncTrap &&
      !t.soc.coreIn.busStall) = _
    rw [hpending, hs, Bool.true_and, Bool.not_false, Bool.and_true]
  cases hsync : t.cpu.core.core.syncTrap with
  | false =>
    rw [hsync] at htake
    refine .inl ?_
    show t.cpu.core.schedule t.soc.coreIn = _
    simp [Tracked.schedule, hs, htake]
  | true =>
    -- a bubble does not fault
    have hvalid : t.cpu.core.exValid = true := by
      by_contra hno
      have hidle := (hrel.idle (Bool.eq_false_of_not_eq_true hno)).syncTrap
      rw [hsync] at hidle
      cases hidle
    have hleaves : t.cpu.core.leavesEx t.soc.coreIn = true := by
      rw [Tracked.leavesEx, hvalid, hs, htake, hsync]
      rfl
    refine .inr ⟨_, if_pos hleaves, ?_⟩
    show (if t.cpu.core.core.syncTrap then some _ else none).isSome = true
    rw [hsync]
    rfl

end SocRun

/-- **Interrupt latency.**  Where the timer's interrupt is up and enabled, and no store to UART DATA
is in MEM, the core stalls for 20 cycles at most.  In the first cycle in which it does not, the
interrupt is taken, or the instruction in EX traps, or `timer_irq` has gone down. -/
theorem soc_interrupt_latency (P : Params) (s : Soc) (inp : Nat → SocIn) (n : Nat) :
    let t := trace (SocRun.step P) (.reset P s) inp
    (t n).soc.uCore.csr.interruptPending (t n).soc.timerIrq = true →
    ¬ Fabric.writesUartData (t n).soc.uCore.memReq →
    ∃ k ≤ 20, (∀ j < k, (t (n + j)).soc.coreIn.busStall = true) ∧
      (t (n + k)).soc.coreIn.busStall = false ∧
      ((t (n + k)).soc.timerIrq = true →
        (t (n + k)).schedule (inp (n + k)) = [.interrupt] ∨
        ∃ x, (t (n + k)).executed (inp (n + k)) = [x] ∧ x.trapCause.isSome = true) := by
  intro t hpending huart
  let Stage := fun (b : Nat) (u : SocRun) => SocRun.InStage P s b u ∧
    u.soc.uCore.memReq = (t n).soc.uCore.memReq ∧ u.soc.uCore.csr = (t n).soc.uCore.csr
  let done := fun (u : SocRun) (_ : SocIn) => u.soc.coreIn.busStall = false ∧ ∃ b, Stage b u
  let busy := fun (u : SocRun) (_ : SocIn) => u.soc.coreIn.busStall = true
  have hstep : ∀ r u i, Stage r u → done u i ∨ busy u i ∧ ∃ r' < r, Stage r' (u.step P i) := by
    rintro r u i ⟨hb, hreq, hcsr⟩
    cases hs : u.soc.coreIn.busStall with
    | false => exact .inl ⟨hs, r, hb, hreq, hcsr⟩
    | true =>
      obtain ⟨r', hlt, hb'⟩ := hb.stall hs (by rwa [hreq]) i
      have hcore : (u.step P i).soc.uCore = _ := Core.step_stall (i := u.soc.coreIn) hs
      refine .inr ⟨hs, r', hlt, hb', ?_, ?_⟩
      · rw [hcore]
        exact hreq
      · rw [hcore]
        exact hcsr
  obtain ⟨b, hb⟩ := SocRun.InStage.of_trace P s inp n
  have hle := hb.le
  have hstart : Stage b (t n) := ⟨hb, rfl, rfl⟩
  obtain ⟨k, hk, ⟨hs, r, hr, -, hcsr⟩, hbusy⟩ : ∃ k ≤ b,
      done (trace (SocRun.step P) (t n) (fun k => inp (n + k)) k) (inp (n + k)) ∧
      ∀ j < k, busy (trace (SocRun.step P) (t n) (fun k => inp (n + k)) j) (inp (n + j)) :=
    reaches_within Stage hstep hstart
  have hadd : ∀ j, t (n + j) = trace (SocRun.step P) (t n) (fun k => inp (n + k)) j :=
    trace_add (SocRun.step P) (.reset P s) inp n
  rw [← hadd] at hs hr hcsr
  refine ⟨k, by omega, fun j hj => ?_, hs, fun hirq => hr.traps hs ?_ _⟩
  · rw [hadd]
    exact hbusy j hj
  · -- the CSRs are those of cycle `n`
    rw [hcsr, hirq]
    unfold Csr.interruptPending at hpending ⊢
    rw [Bool.and_eq_true] at hpending
    rw [hpending.1]
    rfl

/-- `addi x2, x0, 0x80; csrrw x0, mie, x2; csrrsi x0, mstatus, 8; lui x1, 0x10002; sw x0, 8(x1);
sw x0, 12(x1); jal x0, 0` -/
def timerProgram : Params :=
  .ofWords [0x08000113, 0x30411073, 0x30046073, 0x100020B7, 0x0000A423, 0x0000A623, 0x0000006F]

/-- The second store raises the interrupt while it is still under way. -/
theorem soc_interrupt_latency_timer :
    let t := trace (SocRun.step timerProgram) (.reset timerProgram .blank) fun _ => default
    (t 23).soc.coreIn.busStall = true ∧
      ∃ k ≤ 20, (∀ j < k, (t (23 + j)).soc.coreIn.busStall = true) ∧
        (t (23 + k)).soc.coreIn.busStall = false := by
  intro t
  obtain ⟨k, hk, hbusy, hs, -⟩ :=
    soc_interrupt_latency timerProgram .blank (fun _ => default) 23 (by decide +kernel)
      (by decide +kernel)
  exact ⟨by decide +kernel, k, hk, hbusy, hs⟩

end Rv32i
