import Rv32iCore.Core.Simulation

/-!
# Stalled cycles do not count

A stalled edge freezes every register and lets WB repeat its register write: it takes `s` to
`s.settled`, and so does every further one.  The bypass shows ID the write before it is done,
so an unstalled edge does the same from `s.settled` as from `s`.  Inserting or removing stalled
cycles therefore leaves the states after the unstalled ones as they are.
-/

namespace Rv32i

open Sync

namespace Core

/-- The state with WB's register write done. -/
def settled (s : Core) : Core := { s with regs := s.nextRegs }

/-- ID reads the same before and after WB's write, through the bypass and then directly. -/
theorem settled_read (s : Core) (rs : BitVec 5) :
    regfileRead s.settled.regs s.memWb.regWe s.memWb.rdAddr s.memWb.wbData rs =
      regfileRead s.regs s.memWb.regWe s.memWb.rdAddr s.memWb.wbData rs := by
  show regfileRead (regfileWrite s.regs s.memWb.regWe s.memWb.rdAddr s.memWb.wbData) _ _ _ rs = _
  rw [regfileRead_eq, regfileRead_eq, regfileWrite_idem]

/-- ID/EX captures the same operands. -/
theorem settled_nextIdEx (s : Core) (i : CoreIn) : s.settled.nextIdEx i true = s.nextIdEx i true := by
  have h1 : s.settled.rs1Data = s.rs1Data := s.settled_read s.dec.rs1Addr
  have h2 : s.settled.rs2Data = s.rs2Data := s.settled_read s.dec.rs2Addr
  unfold nextIdEx
  rw [h1, h2]
  rfl

/-- An edge does not see whether WB's write has been done already. -/
theorem step_settled (P : Params) (s : Core) (i : CoreIn) : s.settled.step P i = s.step P i := by
  have hid := s.settled_nextIdEx i
  have hregs : s.settled.nextRegs = s.nextRegs := regfileWrite_idem _ _ _ _
  unfold step edge
  rw [hid, hregs]
  rfl

end Core

section Stalls

variable {P : Params}

/-- Stalled cycles do not show in what follows them. -/
theorem step_after_stalls (s : Core) {stalls : List CoreIn} (i : CoreIn)
    (h : ∀ j ∈ stalls, j.busStall = true) : (run (Core.step P) s stalls).step P i = s.step P i := by
  induction stalls generalizing s with
  | nil => rfl
  | cons j stalls ih =>
    rw [List.forall_mem_cons] at h
    have hj : s.step P j = s.settled := Core.step_stall h.1
    rw [run_cons, hj, ih s.settled h.2, Core.step_settled]

/-- The request in MEM stays while the bus stalls, and into the cycle that ends the stall. -/
theorem memReq_stalled (s : Core) {stalls : List CoreIn} (i : CoreIn)
    (h : ∀ j ∈ stalls, j.busStall = true) :
    Always (Core.step P) (fun t _ => t.memReq = s.memReq) s (stalls ++ [i]) := by
  induction stalls generalizing s with
  | nil => simp
  | cons j stalls ih =>
    rw [List.forall_mem_cons] at h
    have hj : s.step P j = s.settled := Core.step_stall h.1
    rw [List.cons_append, always_cons, hj]
    exact ⟨rfl, ih s.settled h.2⟩

/-- The states that the unstalled edges lead to. -/
def Core.afterUnstalled (P : Params) (s : Core) (i : CoreIn) : List Core :=
  if i.busStall then [] else [s.step P i]

/-- A run goes through the states of its unstalled cycles alone. -/
theorem outputs_afterUnstalled (s : Core) (is : List CoreIn) :
    outputs (Core.step P) (Core.afterUnstalled P) s is =
      outputs (Core.step P) (Core.afterUnstalled P) s (is.filter fun i => !i.busStall) := by
  induction is generalizing s with
  | nil => rfl
  | cons i is ih =>
    rw [outputs_cons]
    cases hi : i.busStall with
    | false =>
      rw [List.filter_cons_of_pos (by simp [hi]), outputs_cons, ih]
    | true =>
      have hstep : s.step P i = s.settled := Core.step_stall hi
      rw [List.filter_cons_of_neg (by simp [hi]), hstep, ih, Core.afterUnstalled, if_pos hi]
      -- without its stalls, a run starts the same from both states
      cases is.filter fun i => !i.busStall with
      | nil => rfl
      | cons k ks =>
        rw [outputs_cons, outputs_cons, Core.afterUnstalled, Core.afterUnstalled,
          Core.step_settled]
        rfl

/-- **Stall insertion.**  Any number of stalled cycles in front of an unstalled one, whatever
their inputs, leave the state it leads to as it is and hold the MEM request; so runs with the
same unstalled cycles go through the same states there. -/
theorem stall_insertion (P : Params) (s : Core) :
    (∀ (stalls : List CoreIn) (i : CoreIn), (∀ j ∈ stalls, j.busStall = true) →
      i.busStall = false →
        run (Core.step P) s (stalls ++ [i]) = s.step P i ∧
          Always (Core.step P) (fun t _ => t.memReq = s.memReq) s (stalls ++ [i])) ∧
    ∀ is js : List CoreIn, (is.filter fun i => !i.busStall) = (js.filter fun i => !i.busStall) →
      outputs (Core.step P) (Core.afterUnstalled P) s is =
        outputs (Core.step P) (Core.afterUnstalled P) s js := by
  constructor
  · intro stalls i hstalls _
    rw [run_append]
    exact ⟨step_after_stalls s i hstalls, memReq_stalled s i hstalls⟩
  · intro is js hsame
    rw [outputs_afterUnstalled s is, outputs_afterUnstalled s js, hsame]

/-- A load result in WB, about to be written to x1. -/
def loadInWb : Core :=
  { (default : Core) with
    memWb := { (default : MemWb) with rdata := 5, rdAddr := 1, regWe := true, wbSel := 1 } }

theorem stall_insertion_load :
    run (Core.step (.ofWords [])) loadInWb
        ([{ (default : CoreIn) with busStall := true },
          { (default : CoreIn) with busStall := true, memRdata := 7 }] ++ [default]) =
      loadInWb.step (.ofWords []) default ∧
    outputs (Core.step (.ofWords [])) (Core.afterUnstalled (.ofWords [])) loadInWb
        [{ (default : CoreIn) with busStall := true }, default] =
      outputs (Core.step (.ofWords [])) (Core.afterUnstalled (.ofWords [])) loadInWb [default] :=
  ⟨((stall_insertion (.ofWords []) loadInWb).1 _ default (by simp) rfl).1,
    (stall_insertion (.ofWords []) loadInWb).2 _ _ rfl⟩

end Stalls

end Rv32i
