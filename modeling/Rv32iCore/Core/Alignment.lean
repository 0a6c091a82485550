import Rv32iCore.Core.Privilege

/-!
# Alignment of the PC

Nothing in `core` checks a control-transfer target, and `mtvec` and `mepc` hold all 32 bits.
So alignment is an invariant of the programs that keep it: if no jump or taken branch goes to
a misaligned address and no CSR instruction writes one to `mtvec` or `mepc`, then trap entry,
`mret`, interrupts and the bubbles between them keep every PC aligned.
-/

namespace Rv32i

open Sync

def Aligned (w : Word) : Prop := w.toNat % 4 = 0

instance (w : Word) : Decidable (Aligned w) := inferInstanceAs (Decidable (w.toNat % 4 = 0))

theorem Aligned.add_four {w : Word} (h : Aligned w) : Aligned (w + 4) := by
  unfold Aligned at *
  rw [BitVec.toNat_add, show (4 : Word).toNat = 4 from rfl]
  omega

/-- What a program must keep to: the targets of its jumps and taken branches, and the values
it writes to `mtvec` and `mepc`, are aligned. -/
structure AlignedTargets (s : Core) (i : CoreIn) : Prop where
  jump : i.busStall = false → s.trap i = false → s.idEx.isMret = false → s.pcRedirect i = true →
    Aligned (s.pcTarget i)
  write : s.commitsCsrWrite i csrMtvec = true ∨ s.commitsCsrWrite i csrMepc = true →
    Aligned (s.csrAccess.csrNew (s.csrRdata i))

theorem alignedTargets_iff (s : Core) (i : CoreIn) : AlignedTargets s i ↔
    (i.busStall = false → s.trap i = false → s.idEx.isMret = false → s.pcRedirect i = true →
      Aligned (s.pcTarget i)) ∧
    (s.commitsCsrWrite i csrMtvec = true ∨ s.commitsCsrWrite i csrMepc = true →
      Aligned (s.csrAccess.csrNew (s.csrRdata i))) :=
  ⟨fun h => ⟨h.jump, h.write⟩, fun h => ⟨h.1, h.2⟩⟩

instance (s : Core) (i : CoreIn) : Decidable (AlignedTargets s i) :=
  decidable_of_iff _ (alignedTargets_iff s i).symm

section Step

variable {P : Params} {ld : Nat → Word} {t : Tracked} {q : Machine} {i : CoreIn}

/-- An aligned value, or an address other than these two, keeps `mtvec` and `mepc` aligned. -/
theorem Csr.write_aligned {c : Csr} {csrAddr : BitVec 12} {v : Word} (hmtvec : Aligned c.mtvec)
    (hmepc : Aligned c.mepc) (hv : csrAddr = csrMtvec ∨ csrAddr = csrMepc → Aligned v) :
    Aligned (c.write csrAddr v).mtvec ∧ Aligned (c.write csrAddr v).mepc := by
  unfold Csr.write
  split_ifs with h1 h2 h3 h4 h5 <;> simp_all

/-- `mtvec` and `mepc` through one edge, `mepc` getting the PC in EX at trap entry. -/
theorem Core.nextCsr_aligned {s : Core} (hmtvec : Aligned s.csr.mtvec) (hmepc : Aligned s.csr.mepc)
    (hpc : s.entersTrap i = true → Aligned s.idEx.pc) (hok : AlignedTargets s i) :
    Aligned (s.nextCsr i true).mtvec ∧ Aligned (s.nextCsr i true).mepc := by
  cases ht : s.entersTrap i with
  | true => rw [nextCsr_trap ht]; exact ⟨hmtvec, hpc ht⟩
  | false =>
    cases hm : s.commitsMret i with
    | true => rw [nextCsr_mret hm]; exact ⟨hmtvec, hmepc⟩
    | false =>
      rcases nextCsr_cases ht hm with h | ⟨hc, h⟩
      · rw [h]; exact ⟨hmtvec, hmepc⟩
      · rw [h]
        refine Csr.write_aligned hmtvec hmepc fun ha => hok.write ?_
        exact ha.imp (fun e => by rw [← e]; exact hc) fun e => by rw [← e]; exact hc

/-- A trap saves the PC of the sequential machine. -/
theorem Rel.trap_pc (h : Rel P ld t q) (ht : t.core.trap i = true) : t.core.idEx.pc = q.pc := by
  rw [Core.trap, Bool.or_eq_true] at ht
  rcases ht with ht | ht
  · cases hv : t.exValid with
    | true => exact (h.captured hv).pc_instr.1
    | false =>
      rw [(h.idle hv).syncTrap] at ht
      cases ht
  · have hm := (Core.takeInterrupt_elim ht).2.1
    rw [h.csr] at hm
    exact h.idEx_pc hm

/-- The sequential machine stands at an aligned PC, with aligned trap vectors. -/
structure AlignedRel (P : Params) (ld : Nat → Word) (t : Tracked) (q : Machine) : Prop
    extends Rel P ld t q where
  alignedPc : Aligned q.pc
  mtvec : Aligned t.core.csr.mtvec
  mepc : Aligned t.core.csr.mepc

/-- Where the sequential machine goes in one cycle is aligned. -/
theorem AlignedRel.next_pc (h : AlignedRel P ld t q) (hok : AlignedTargets t.core i) :
    Aligned (run (Machine.step P ld) q (t.schedule i)).pc := by
  unfold Tracked.schedule
  cases hs : i.busStall with
  | true => exact h.alignedPc
  | false =>
    cases hi : t.core.takeInterrupt i with
    | true =>
      show Aligned q.csr.mtvec
      exact h.csr ▸ h.mtvec
    | false =>
      cases hv : t.exValid with
      | false => exact h.alignedPc
      | true =>
        show Aligned (q.nextPc P)
        rw [h.redirect hv hi]
        split_ifs with hr
        · cases ht : t.core.trap i with
          | true => simpa [Core.pcTarget, ht] using h.mtvec
          | false =>
            cases hm : t.core.idEx.isMret with
            | true => simpa [Core.pcTarget, ht, hm] using h.mepc
            | false => exact hok.jump hs ht hm hr
        · exact h.alignedPc.add_four

theorem AlignedRel.step (h : AlignedRel P ld t q) (hok : AlignedTargets t.core i)
    (hr : Responds ld t i) :
    AlignedRel P ld (t.step P i) (run (Machine.step P ld) q (t.schedule i)) := by
  obtain ⟨hmtvec, hmepc⟩ := Core.nextCsr_aligned h.mtvec h.mepc (fun ht => by
    rw [Core.entersTrap, Bool.and_eq_true] at ht
    exact h.trap_pc ht.1 ▸ h.alignedPc) hok
  exact { (Tracked.sim P ld).step t q i h.toRel hr with
    alignedPc := h.next_pc hok, mtvec := hmtvec, mepc := hmepc }

theorem AlignedRel.followPc (h : AlignedRel P ld t q) : Aligned (t.followPc q) := by
  unfold Tracked.followPc
  split_ifs
  · exact h.alignedPc.add_four
  · exact h.alignedPc

end Step

/-- **Alignment invariant**, for runs that keep to aligned targets; every target is followed
as it is. -/
theorem pc_aligned (P : Params) (s : Core) (i₀ : CoreIn) (is : List CoreIn)
    (hreset : Aligned P.resetPc)
    (hok : Always (Tracked.step P) (fun t i => AlignedTargets t.core i) (.reset P s i₀) is) :
    let t := run (Tracked.step P) (.reset P s i₀) is
    Aligned t.core.pc ∧ (t.core.ifIdValid = true → Aligned t.core.ifIdPc) ∧
      (t.exValid = true → Aligned t.core.idEx.pc) ∧
      Aligned t.core.csr.mtvec ∧ Aligned t.core.csr.mepc ∧
      ∀ i, i.busStall = false → t.core.pcRedirect i = true →
        (t.step P i).core.pc = t.core.pcTarget i := by
  intro t
  let ld := fun k => (outputs (Tracked.step P) Tracked.responses (.reset P s i₀) is).getD k 0
  have hr : Always (Tracked.step P) (Responds ld) (.reset P s i₀) is :=
    SuppliesFrom.responds (supplies_getD _)
  have h0 : AlignedRel P ld (.reset P s i₀) (.reset P s) :=
    { Rel.reset P ld s i₀ with alignedPc := hreset, mtvec := rfl, mepc := rfl }
  obtain ⟨q, h⟩ : ∃ q, AlignedRel P ld t q :=
    inv_run (fun t => ∃ q, AlignedRel P ld t q)
      (fun t i ⟨q, h⟩ hi => ⟨_, h.step hi.1 hi.2⟩) ⟨_, h0⟩ (hok.and hr)
  refine ⟨?_, fun hf => ?_, fun hv => ?_, h.mtvec, h.mepc, fun i hs hred => ?_⟩
  · cases hf : t.core.ifIdValid with
    | true => rw [(h.fetched hf).2.2]; exact h.followPc.add_four
    | false => rw [(h.empty hf).2]; exact h.alignedPc
  · rw [(h.fetched hf).1]
    exact h.followPc
  · rw [(h.captured hv).pc_instr.1]
    exact h.alignedPc
  · rw [Tracked.step, Core.step_flush hs hred]

/-- `addi x1, x0, 8; csrrw x0, mtvec, x1; jal x0, -8` meets the condition. -/
theorem pc_aligned_loop :
    Aligned (run (Tracked.step (.ofWords [0x00800093, 0x30509073, 0xFF9FF06F]))
      (.reset (.ofWords [0x00800093, 0x30509073, 0xFF9FF06F]) default default)
      (List.replicate 6 default)).core.pc :=
  (pc_aligned (.ofWords [0x00800093, 0x30509073, 0xFF9FF06F]) default default
    (List.replicate 6 default) rfl (by decide +kernel)).1

/-- Without the condition alignment is lost: `jalr x0, 2(x0)`. -/
theorem pc_misaligned_jalr :
    ¬ ∀ (P : Params) (s : Core) (i₀ : CoreIn) (is : List CoreIn), Aligned P.resetPc →
      Aligned (run (Tracked.step P) (.reset P s i₀) is).core.pc := by
  intro h
  have hj := h (.ofWords [0x00200067]) default default (List.replicate 3 default) rfl
  revert hj
  decide +kernel

end Rv32i
