import Rv32iCore.Lib.Stream
import Rv32iCore.Soc.UartRx

/-!
# `uart_tx`

The transmitter of `rtl/vendor/verilog-uart/uart_tx.v`.  `uart_axil` offers it a byte only in a
cycle in which it is ready (`Offered`); then it is ready exactly when it can begin a frame, and
begins one for each byte handed over (`step_load`).

    UartTx.ready_again    whatever it is given, it becomes ready again and again
-/

namespace Rv32i

open Sync

/-- The registers of `uart_tx`, DATA_WIDTH being 8. -/
structure UartTx where
  sAxisTreadyReg : Bool
  txdReg : Bool
  busyReg : Bool
  dataReg : BitVec 9
  prescaleReg : BitVec 19
  bitCnt : BitVec 4
deriving DecidableEq, Inhabited

/-- The stream input and the configuration. -/
structure UartTxIn where
  tdata : BitVec 8
  tvalid : Bool
  prescale : BitVec 16
deriving DecidableEq, Inhabited

namespace UartTx

variable (s : UartTx) (i : UartTxIn)

/-- Reset leaves `data_reg` as it is. -/
def reset : UartTx where
  sAxisTreadyReg := false
  txdReg := true
  busyReg := false
  dataReg := s.dataReg
  prescaleReg := 0
  bitCnt := 0

/-- One clock edge outside reset. -/
def step : UartTx :=
  if s.prescaleReg > 0 then
    { s with sAxisTreadyReg := false, prescaleReg := s.prescaleReg - 1 }
  else if s.bitCnt = 0 then
    if i.tvalid then
      { sAxisTreadyReg := !s.sAxisTreadyReg
        txdReg := false
        busyReg := true
        dataReg := 1#1 ++ i.tdata
        prescaleReg := (i.prescale.zeroExtend 19 <<< 3) - 1
        bitCnt := 9 }
    else { s with sAxisTreadyReg := true, busyReg := false }
  else if s.bitCnt > 1 then
    { s with
      txdReg := s.dataReg.getLsbD 0
      dataReg := 0#1 ++ s.dataReg.extractLsb 8 1
      prescaleReg := (i.prescale.zeroExtend 19 <<< 3) - 1
      bitCnt := s.bitCnt - 1 }
  else
    -- the stop bit is held a cycle longer
    { s with
      txdReg := true
      prescaleReg := i.prescale.zeroExtend 19 <<< 3
      bitCnt := s.bitCnt - 1 }

/-- The byte handed over: `tvalid` and `tready` are both high. -/
def handed : List (BitVec 8) := if i.tvalid && s.sAxisTreadyReg then [i.tdata] else []

/-- `uart_axil` raises `tvalid` only when `tready` is up. -/
def Offered (s : UartTx) (i : UartTxIn) : Prop := i.tvalid = true → s.sAxisTreadyReg = true

instance : Decidable (Offered s i) := inferInstanceAs (Decidable (_ → _))

/-- Ready only at rest, and the line is high after the last bit. -/
structure Wf : Prop where
  ready : s.sAxisTreadyReg = true → s.prescaleReg = 0 ∧ s.bitCnt = 0
  high : s.bitCnt = 0 → s.txdReg = true

/-! ## One cycle, by the counters -/

variable {s i}

theorem step_count (h : s.prescaleReg ≠ 0) :
    s.step i = { s with sAxisTreadyReg := false, prescaleReg := s.prescaleReg - 1 } :=
  if_pos (by bv_omega)

/-- The rest of the edge, between two bits. -/
theorem step_zero (h : s.prescaleReg = 0) :
    s.step i = if s.bitCnt = 0 then
      if i.tvalid then
        ⟨!s.sAxisTreadyReg, false, true, 1#1 ++ i.tdata, (i.prescale.zeroExtend 19 <<< 3) - 1, 9⟩
      else { s with sAxisTreadyReg := true, busyReg := false }
    else if s.bitCnt > 1 then
      { s with
        txdReg := s.dataReg.getLsbD 0
        dataReg := 0#1 ++ s.dataReg.extractLsb 8 1
        prescaleReg := (i.prescale.zeroExtend 19 <<< 3) - 1
        bitCnt := s.bitCnt - 1 }
    else { s with
      txdReg := true, prescaleReg := i.prescale.zeroExtend 19 <<< 3, bitCnt := s.bitCnt - 1 } :=
  if_neg (by rw [h]; decide)

/-- Not offered a byte, it stays at rest. -/
theorem step_rest (hb : s.bitCnt = 0) (hv : ¬ i.tvalid = true) : (s.step i).bitCnt = 0 := by
  by_cases hp : s.prescaleReg = 0
  · rw [step_zero hp, if_pos hb, if_neg hv]
    exact hb
  · rw [step_count hp]
    exact hb

theorem step_load (h : s.Wf) (hok : s.Offered i) (hv : i.tvalid = true) :
    s.step i =
      ⟨false, false, true, 1#1 ++ i.tdata, (i.prescale.zeroExtend 19 <<< 3) - 1, 9⟩ := by
  have hready := hok hv
  obtain ⟨hp, hb⟩ := h.ready hready
  rw [step_zero hp, if_pos hb, if_pos hv, hready]
  rfl

theorem reset_wf (s : UartTx) : s.reset.Wf := ⟨nofun, fun _ => rfl⟩

theorem Wf.step (h : s.Wf) (hok : s.Offered i) : (s.step i).Wf := by
  by_cases hv : i.tvalid = true
  · rw [step_load h hok hv]
    exact ⟨nofun, fun hb => absurd (show 9#4 = 0 from hb) (by decide)⟩
  · by_cases hp : s.prescaleReg = 0
    · rw [step_zero hp, if_neg hv]
      split_ifs with hb h1
      · exact ⟨fun _ => ⟨hp, hb⟩, fun _ => h.high hb⟩
      · exact ⟨fun hr => absurd (h.ready hr).2 hb, fun h0 => absurd h0 (by bv_omega)⟩
      · exact ⟨fun hr => absurd (h.ready hr).2 hb, fun _ => rfl⟩
    · rw [step_count hp]
      exact ⟨nofun, h.high⟩

/-! ## Progress -/

/-- Cycles until `tready` is up, or more. -/
def rank (s : UartTx) : Nat :=
  if s.sAxisTreadyReg then 0 else s.bitCnt.toNat * 524288 + s.prescaleReg.toNat + 1

theorem rank_step (h : s.sAxisTreadyReg = false) : (s.step i).rank < s.rank := by
  have hrank : s.rank = s.bitCnt.toNat * 524288 + s.prescaleReg.toNat + 1 :=
    if_neg (by rw [h]; exact Bool.false_ne_true)
  have hle : ∀ n : UartTx, n.rank ≤ n.bitCnt.toNat * 524288 + n.prescaleReg.toNat + 1 := by
    intro n
    unfold rank
    split_ifs <;> omega
  by_cases hp : s.prescaleReg = 0
  · rw [step_zero hp]
    split_ifs with hb hv h1
    · -- a byte offered early is taken, and acknowledged in the next cycle
      have hready : (!s.sAxisTreadyReg) = true := by rw [h]; rfl
      rw [hrank, rank, hready, if_pos rfl]
      omega
    · rw [hrank, rank, if_pos rfl]
      omega
    all_goals
      have hpos : 0 < s.bitCnt.toNat := by
        have : s.bitCnt.toNat ≠ 0 := fun h0 => hb (BitVec.eq_of_toNat_eq h0)
        omega
      refine Nat.lt_of_le_of_lt (hle _) ?_
      have hcnt : (s.bitCnt - 1).toNat = s.bitCnt.toNat - 1 := by bv_omega
      simp only [hrank, hcnt]
      have := ((i.prescale.zeroExtend 19 <<< 3) - 1).isLt
      have := (i.prescale.zeroExtend 19 <<< 3).isLt
      omega
  · rw [step_count hp]
    refine Nat.lt_of_le_of_lt (hle _) ?_
    have hcount : (s.prescaleReg - 1).toNat = s.prescaleReg.toNat - 1 := by bv_omega
    have hpos : s.prescaleReg.toNat ≠ 0 := fun h0 => hp (BitVec.eq_of_toNat_eq h0)
    simp only [hrank, hcount]
    omega

/-- Whatever it is given, the transmitter is ready again and again. -/
theorem ready_again (s : UartTx) (inp : Nat → UartTxIn) (n : Nat) :
    ∃ k ≥ n, (trace step s inp k).sAxisTreadyReg = true := by
  obtain ⟨k, hready, -⟩ : Reaches step (fun _ _ => True) (fun s _ => s.sAxisTreadyReg = true)
      (trace step s inp n) fun k => inp (n + k) := by
    refine reaches_of_lt (fun r s => s.rank = r) (fun r s i hr => ?_) rfl
    cases h : s.sAxisTreadyReg with
    | true => exact .inl rfl
    | false => exact .inr ⟨trivial, _, hr ▸ rank_step h, rfl⟩
  exact ⟨n + k, by omega, by rw [trace_add]; exact hready⟩

end UartTx

end Rv32i
