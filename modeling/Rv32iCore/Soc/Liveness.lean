import Mathlib.Data.Prod.Lex
import Rv32iCore.Core.Progress
import Rv32iCore.Soc.System

/-!
# `soc` never hangs

Every cycle in which no instruction leaves EX brings the system nearer to one in which one does:
the transmitter counts towards its next `tready`, the access in MEM goes on to its next stage, the
pipeline fills, and an interrupt is followed by none.  The ranks of these, in lexicographic order,
bound the wait.

    soc_never_hangs     instruction after instruction, for ever
-/

namespace Rv32i

open Sync

/-! ## The pipeline -/

/-- Unstalled cycles until an instruction is in EX. -/
def Tracked.slotRank (t : Tracked) : Nat :=
  if t.exValid then 0 else if t.core.ifIdValid then 1 else 2

/-- An interrupt may come before it, but then no other. -/
def Tracked.pipeRank (t : Tracked) : Nat :=
  (if t.core.csr.mstatusMie then 3 else 0) + t.slotRank

section Pipe

variable {P : Params} {t : Tracked} {i : CoreIn} {ld : Nat → Word} {q : Machine}

theorem Tracked.slotRank_le (t : Tracked) : t.slotRank ≤ 2 := by
  unfold slotRank
  split_ifs <;> omega

theorem Tracked.pipeRank_stall (hs : i.busStall = true) : (t.step P i).pipeRank = t.pipeRank := by
  rw [Tracked.step_stall hs]
  rfl

/-- An unstalled cycle executes an instruction or brings one nearer. -/
theorem Tracked.pipeRank_step (hrel : Rel P ld t q) (hok : Responds ld t i)
    (hs : i.busStall = false) :
    t.executed i ≠ [] ∨ (t.step P i).pipeRank < t.pipeRank := by
  have hsim := (Tracked.sim P ld).step _ _ _ hrel hok
  cases hi : t.core.takeInterrupt i with
  | true =>
    -- trap entry disables the next one
    have hmie : t.core.csr.mstatusMie = true := (Core.takeInterrupt_elim hi).2.1
    have hsched : t.schedule i = [.interrupt] := by simp [schedule, hs, hi]
    rw [hsched] at hsim
    have hmie' : (t.step P i).core.csr.mstatusMie = false := by
      rw [hsim.csr]
      rfl
    have hle := (t.step P i).slotRank_le
    refine .inr ?_
    rw [pipeRank, pipeRank, hmie, hmie', if_neg Bool.false_ne_true, if_pos rfl]
    omega
  | false =>
    cases hv : t.exValid with
    | true =>
      have hleaves : t.leavesEx i = true := by simp [leavesEx, hv, hs, hi]
      exact .inl (by simp [executed, hleaves])
    | false =>
      have hsched : t.schedule i = [] := by simp [schedule, hs, hi, hv]
      rw [hsched] at hsim
      have hcsr : (t.step P i).core.csr = t.core.csr := hsim.csr.trans hrel.csr.symm
      obtain ⟨hex, hif⟩ := Tracked.step_idle (P := P) (hrel.idle hv) hs hi
      have hslot : (t.step P i).slotRank < t.slotRank := by
        unfold slotRank
        rw [hex, hif, hv]
        cases t.core.ifIdValid <;> decide
      refine .inr ?_
      rw [pipeRank, pipeRank, hcsr]
      omega

end Pipe

/-! ## The bus -/

/-- The stage of an access, without its data. -/
theorem Fabric.Transit.stage {m : MemReq} {mem : BitVec 30 → Word} {rs : List Word} {s : Fabric}
    (h : Transit m mem rs s) : ∃ r, Stage m r s := by
  cases h with
  | idle h => exact ⟨_, .idle h⟩
  | requested hb hg hs => exact ⟨_, .requested hb.part hg hs.idle⟩
  | granted hb hg hs => exact ⟨_, .granted hb.part hg hs.idle⟩
  | decoding hb hg hs ha hv => exact ⟨_, .decoding hb.part hg hs.idle ha hv⟩
  | data hb hg hs ha hv hd => exact ⟨_, .data hb.part hg hs.idle ha hv hd⟩
  | drop hb hg hs => exact ⟨_, .drop hb.part hg hs.idle⟩
  | writeSent hb hg hs ha hd => exact ⟨_, .writeSent hb.part hg hs.idle ha hd⟩
  | writing hb hg hs ha hd =>
    rw [← ha] at hs hd
    exact ⟨_, .writing hb.part hg hs.writing ha hd⟩
  | readSelected hb hg hs ha hv => exact ⟨_, .readSelected hb.part hg hs.idle hv⟩
  | readSent hb hg hs ha hv => exact ⟨_, .readSent hb.part hg hs.idle hv⟩
  | reading hb hg hs ha hv => exact ⟨_, .reading hb.part hg hs.reading hv⟩
  | answered hb hg hs => exact ⟨_, .answered hb.part hg hs.idle⟩

/-! ## The system -/

namespace SocRun

variable {P : Params} {t : SocRun} {i : SocIn}

/-- A state of a run from reset, with the rank of its pipeline, of its access in MEM, if there is
one, and of its transmitter. -/
def Stage (P : Params) (s : Soc) (r : Nat ×ₗ Nat ×ₗ Nat) (t : SocRun) : Prop :=
  (∃ is, t = run (SocRun.step P) (reset P s) is) ∧
    ∃ b, (t.soc.uCore.memReq.presented = true → Fabric.Stage t.soc.uCore.memReq b t.bus.fabric) ∧
      r = toLex (t.cpu.core.pipeRank, toLex (b, t.uTx.rank))

/-- An access in MEM is in one of its stages. -/
theorem Inv.stage (h : t.Inv) : ∃ b, t.soc.uCore.memReq.presented = true →
    Fabric.Stage t.soc.uCore.memReq b t.bus.fabric := by
  obtain ⟨mem, -, hrest | ⟨m, hbusy⟩⟩ := h.bytes
  · exact ⟨_, fun _ => .idle hrest.idle⟩
  · obtain rfl := h.held m hbusy.held
    obtain ⟨b, hb⟩ := hbusy.transit.stage
    exact ⟨b, fun _ => hb⟩

/-- A cycle of a run from reset, with a machine that its pipeline is related to. -/
theorem exists_rel (P : Params) (s : Soc) (is : List SocIn) (i : SocIn) :
    let t := run (SocRun.step P) (reset P s) is
    ∃ ld q, Rel P ld t.cpu.core q ∧ Responds ld t.cpu.core t.soc.coreIn := by
  intro t
  have hserves := always_serves P s (is ++ [i])
  rw [always_append, always_cons] at hserves
  have hrel := (sim P _).run (CoreMem.Rel.reset P _ s.uCore s.coreIn _) hserves.1
  exact ⟨_, _, hrel.both, hserves.2.1.both⟩

theorem Stage.init (P : Params) (s : Soc) (is : List SocIn) :
    ∃ r, Stage P s r (run (SocRun.step P) (reset P s) is) := by
  obtain ⟨b, hb⟩ := (inv_run P s is).stage
  exact ⟨_, ⟨is, rfl⟩, b, hb, rfl⟩

/-- A stalled cycle brings the access in MEM to its next stage, or waits for the transmitter. -/
theorem stage_stall {b : Nat} (hb : t.soc.uCore.memReq.presented = true →
      Fabric.Stage t.soc.uCore.memReq b t.bus.fabric) (hs : t.bus.busStall (t.busIn i) = true) :
    (t.step P i).soc.uCore.memReq = t.soc.uCore.memReq ∧
      ((∃ b' < b, Fabric.Stage t.soc.uCore.memReq b' (t.step P i).bus.fabric) ∨
        Fabric.Stage t.soc.uCore.memReq b (t.step P i).bus.fabric ∧
          Fabric.writesUartData t.soc.uCore.memReq ∧ t.uTx.sAxisTreadyReg = false) := by
  have hreq : (t.step P i).soc.uCore.memReq = t.soc.uCore.memReq := by
    have hcore : (t.step P i).soc.uCore = _ := Core.step_stall (i := t.soc.coreIn) hs
    rw [hcore]
    rfl
  have hm : t.soc.uCore.memReq.presented = true := (Bool.and_eq_true_iff.1 hs).1
  refine ⟨hreq, ?_⟩
  rcases (hb hm).step hm (t.soc.slavesIn i) with ⟨hlow, -⟩ | ⟨-, hnext | ⟨hb', hgo⟩⟩
  · exact absurd (hlow.symm.trans hs) Bool.false_ne_true
  · exact .inl hnext
  · obtain ⟨hwrites, hready⟩ := Classical.not_imp.1 hgo
    exact .inr ⟨hb', hwrites, Bool.eq_false_of_not_eq_true hready⟩

/-- **One cycle** executes an instruction or lowers the rank. -/
theorem Stage.step {s : Soc} {r : Nat ×ₗ Nat ×ₗ Nat} (h : Stage P s r t) (i : SocIn) :
    t.executed i ≠ [] ∨ ∃ r' < r, Stage P s r' (t.step P i) := by
  obtain ⟨⟨is, ht⟩, b, hb, rfl⟩ := h
  have hnext : ∃ js, t.step P i = run (SocRun.step P) (reset P s) js :=
    ⟨is ++ [i], by rw [run_append, ← ht]; rfl⟩
  have hinv : t.Inv := ht ▸ inv_run P s is
  obtain ⟨ld, q, hrel, hok⟩ := exists_rel P s is i
  rw [← ht] at hrel hok
  cases hs : t.bus.busStall (t.busIn i) with
  | false =>
    rcases Tracked.pipeRank_step hrel hok hs with hexec | hlt
    · exact .inl hexec
    · obtain ⟨b', hb'⟩ := (hinv.step (P := P) (i := i)).stage
      exact .inr ⟨_, Prod.Lex.toLex_lt_toLex.2 (.inl hlt), hnext, b', hb', rfl⟩
  | true =>
    have hpipe : (t.step P i).cpu.core.pipeRank = t.cpu.core.pipeRank := Tracked.pipeRank_stall hs
    obtain ⟨hreq, ⟨b', hlt, hb'⟩ | ⟨hb', -, hready⟩⟩ := stage_stall (P := P) hb hs
    · have hlex : toLex (b', (t.step P i).uTx.rank) < toLex (b, t.uTx.rank) :=
        Prod.Lex.toLex_lt_toLex.2 (.inl hlt)
      refine .inr ⟨_, Prod.Lex.toLex_lt_toLex.2 (.inr ⟨hpipe, hlex⟩), hnext, b', fun _ => ?_, rfl⟩
      rw [hreq]
      exact hb'
    · -- the transmitter is waited for
      have hlt : (t.step P i).uTx.rank < t.uTx.rank := UartTx.rank_step hready
      have hlex : toLex (b, (t.step P i).uTx.rank) < toLex (b, t.uTx.rank) :=
        Prod.Lex.toLex_lt_toLex.2 (.inr ⟨rfl, hlt⟩)
      refine .inr ⟨_, Prod.Lex.toLex_lt_toLex.2 (.inr ⟨hpipe, hlex⟩), hnext, b, fun _ => ?_, rfl⟩
      rw [hreq]
      exact hb'

end SocRun

/-- **The system never hangs.**  Whatever the program and the pins do, after every cycle there is
another in which an instruction is executed. -/
theorem soc_never_hangs (P : Params) (s : Soc) (inp : Nat → SocIn) (n : Nat) :
    ∃ k ≥ n, (trace (SocRun.step P) (.reset P s) inp k).executed (inp k) ≠ [] := by
  obtain ⟨r, hr⟩ := SocRun.Stage.init P s ((List.range n).map inp)
  rw [← trace_eq_run] at hr
  obtain ⟨k, hdone, -⟩ : Reaches (SocRun.step P) (fun _ _ => True) (fun t i => t.executed i ≠ [])
      (trace (SocRun.step P) (.reset P s) inp n) fun k => inp (n + k) :=
    reaches_of_lt (SocRun.Stage P s) (fun r t i h => (h.step i).imp id fun h => ⟨trivial, h⟩) hr
  exact ⟨n + k, by omega, by rw [trace_add]; exact hdone⟩

end Rv32i
