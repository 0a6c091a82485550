import Mathlib.Tactic.IntervalCases
import Rv32iCore.Soc.UartTx

/-!
# The serial line

`uart_tx` sends to `uart_rx`, each with a PRESCALE of its own.  A frame lasts `80 * p` cycles; the
receiver looks at the middle of each bit as it counts, and meets the right bit up to the stop bit
if its count is neither too short nor too long (`Baud`).

    uart_line_exact     what is handed to the transmitter arrives, in order, each byte once
-/

namespace Rv32i

open Sync

/-! ## The receiver, apart from its output -/

namespace UartRx

/-- What counts and gathers. -/
def line (s : UartRx) : BitVec 4 × BitVec 19 × BitVec 8 × Bool :=
  (s.bitCnt, s.prescaleReg, s.dataReg, s.frameErrorReg)

variable (s : UartRx) (tready rxd : Bool) (q : BitVec 16)

theorem step_rxdReg : (s.step tready rxd q).rxdReg = rxd := by
  unfold step
  extract_lets n0 n
  have hn : n = { n0 with mAxisTvalid := s.mAxisTvalid && !tready } := taken s tready n0 rfl
  clear_value n
  subst hn
  split_ifs <;> rfl

/-- The reader has no part in it. -/
theorem step_line : (s.step tready rxd q).line =
    if s.prescaleReg > 0 then (s.bitCnt, s.prescaleReg - 1, s.dataReg, false)
    else if s.bitCnt > 9 then
      if s.rxdReg then (0, 0, s.dataReg, false)
      else (s.bitCnt - 1, (q.zeroExtend 19 <<< 3) - 1, s.dataReg, false)
    else if s.bitCnt > 1 then
      (s.bitCnt - 1, (q.zeroExtend 19 <<< 3) - 1,
        BitVec.ofBool s.rxdReg ++ s.dataReg.extractLsb 7 1, false)
    else if s.bitCnt > 0 then (s.bitCnt - 1, s.prescaleReg, s.dataReg, !s.rxdReg)
    else if s.rxdReg then (s.bitCnt, s.prescaleReg, s.dataReg, false)
    else (10, (q.zeroExtend 19 <<< 2) - 2, 0, false) := by
  unfold step
  extract_lets n0 n
  have hn : n = { n0 with mAxisTvalid := s.mAxisTvalid && !tready } := taken s tready n0 rfl
  clear_value n
  subst hn
  by_cases hp : s.prescaleReg > 0
  · rw [if_pos hp, if_pos hp]
    rfl
  · rw [if_neg hp, if_neg hp]
    by_cases h0 : s.bitCnt > 0
    · rw [if_pos h0, if_pos h0]
      by_cases h9 : s.bitCnt > 9
      · rw [if_pos h9, if_pos h9]
        cases s.rxdReg <;> rfl
      · rw [if_neg h9, if_neg h9]
        by_cases h1 : s.bitCnt > 1
        · rw [if_pos h1, if_pos h1]
          rfl
        · rw [if_neg h1, if_neg h1]
          cases s.rxdReg <;> rfl
    · have h1 : ¬ s.bitCnt > 1 := by bv_omega
      have h9 : ¬ s.bitCnt > 9 := by bv_omega
      rw [if_neg h0, if_neg h9, if_neg h1, if_neg h0]
      cases s.rxdReg <;> rfl

end UartRx

structure UartLine where
  tx : UartTx
  rx : UartRx
  /-- handed over, and not arrived -/
  inFlight : List (BitVec 8)

structure UartLineIn where
  tx : UartTxIn
  /-- `m_axis_tready` and `prescale` of the receiver -/
  tready : Bool
  prescale : BitVec 16
deriving Inhabited

/-- The two prescales agree well enough for the ten bits of a frame. -/
structure Baud (p q : BitVec 16) : Prop where
  long : 18 * p.toNat < 19 * q.toNat
  short : 19 * q.toNat ≤ 20 * p.toNat

namespace UartLine

variable (t : UartLine) (i : UartLineIn)

def handed : List (BitVec 8) := t.tx.handed i.tx

def arrived (_ : UartLineIn) : List (BitVec 8) := t.rx.arrival.toList

def reset (tx : UartTx) (rx : UartRx) : UartLine := ⟨tx.reset, rx.reset, []⟩

def step : UartLine where
  tx := t.tx.step i.tx
  rx := t.rx.step i.tready t.tx.txdReg i.prescale
  inFlight := (t.inFlight ++ t.handed i).drop (t.arrived i).length

/-- A byte is in flight, or offered to the transmitter. -/
def Busy : Prop := t.inFlight ≠ [] ∨ i.tx.tvalid = true

instance : Decidable (Busy t i) := inferInstanceAs (Decidable (_ ∨ _))

/-- The prescales are `p` and `q` while the line is busy, and a byte is offered as `uart_axil`
does: only when the transmitter is ready. -/
structure Ok (p q : BitVec 16) (t : UartLine) (i : UartLineIn) : Prop where
  tx : t.Busy i → i.tx.prescale = p
  rx : t.Busy i → i.prescale = q
  offered : t.tx.Offered i.tx

instance (p q : BitVec 16) (t : UartLine) (i : UartLineIn) : Decidable (Ok p q t i) :=
  decidable_of_iff
    ((t.Busy i → i.tx.prescale = p) ∧ (t.Busy i → i.prescale = q) ∧ t.tx.Offered i.tx)
    ⟨fun h => ⟨h.1, h.2.1, h.2.2⟩, fun h => ⟨h.tx, h.rx, h.offered⟩⟩

/-! ## A frame -/

/-- The bits of a frame: start, data from the lowest, stop. -/
def frameBit (b : BitVec 8) (k : Nat) : Bool :=
  if k = 0 then false else if k ≤ 8 then b.getLsbD (k - 1) else true

/-- In cycle `t` of a frame the line has the bit `v`. -/
def OnLine (p : BitVec 16) (b : BitVec 8) (t : Nat) (v : Bool) : Prop :=
  ∃ k ≤ 9, 8 * p.toNat * k < t ∧ (k < 9 → t ≤ 8 * p.toNat * (k + 1)) ∧ v = frameBit b k

/-- The transmitter in cycle `t` of a frame: `k` bits are over. -/
def Sends (p : BitVec 16) (b : BitVec 8) (t : Nat) (tx : UartTx) : Prop :=
  tx.sAxisTreadyReg = false ∧ ∃ k ≤ 9, 8 * p.toNat * k < t ∧ tx.bitCnt.toNat = 9 - k ∧
    t + tx.prescaleReg.toNat = 8 * p.toNat * (k + 1) + (if k = 9 then 1 else 0) ∧
    tx.txdReg = frameBit b k ∧ (k ≤ 8 → tx.dataReg = (1#1 ++ b) >>> k)

/-- What the receiver has after `m` looks: a start bit and the data. -/
def gathered (b : BitVec 8) (m : Nat) : BitVec 8 := b <<< (8 - (m - 1))

/-- The receiver in cycle `t` of a frame: after `m` looks, waiting for the next. -/
def Gathers (p q : BitVec 16) (b : BitVec 8) (t : Nat) (rx : UartRx) : Prop :=
  t = 1 ∧ rx.bitCnt = 0 ∧ rx.prescaleReg = 0 ∧ rx.rxdReg = true ∨
  t = 2 ∧ rx.bitCnt = 0 ∧ rx.prescaleReg = 0 ∧ rx.rxdReg = false ∨
  3 ≤ t ∧ OnLine p b (t - 1) rx.rxdReg ∧ ∃ m ≤ 9, rx.bitCnt.toNat = 10 - m ∧
    t + rx.prescaleReg.toNat = 4 * q.toNat + 1 + 8 * q.toNat * m ∧ rx.dataReg = gathered b m

/-- Nothing is on the line. -/
structure Rest (t : UartLine) : Prop where
  tx : t.tx.bitCnt = 0
  bitCnt : t.rx.bitCnt = 0
  prescale : t.rx.prescaleReg = 0
  high : t.rx.rxdReg = true
  inFlight : t.inFlight = []

/-- Cycle `n` of the frame of `b`. -/
structure Frame (p q : BitVec 16) (t : UartLine) (b : BitVec 8) (n : Nat) : Prop where
  sends : Sends p b n t.tx
  gathers : Gathers p q b n t.rx
  inFlight : t.inFlight = [b]

structure Inv (p q : BitVec 16) (t : UartLine) : Prop where
  wf : t.tx.Wf
  line : t.Rest ∨ ∃ b n, t.Frame p q b n
  frameError : t.rx.frameErrorReg = false

/-! ## When the receiver looks -/

section Frame

variable {p q : BitVec 16} {b : BitVec 8} {n m k : Nat} {tx : UartTx} {rx : UartRx}

/-- The `m`-th look is in the `m`-th bit. -/
theorem Baud.look (h : Baud p q) (hm : m ≤ 9) :
    8 * p.toNat * m < 4 * q.toNat + 8 * q.toNat * m ∧
      (m < 9 → 4 * q.toNat + 8 * q.toNat * m ≤ 8 * p.toNat * (m + 1)) := by
  obtain ⟨hlong, hshort⟩ := h
  interval_cases m <;> omega

/-- Only one bit is on the line. -/
theorem OnLine.eq {t : Nat} {v : Bool} (h : OnLine p b t v) (hm : m ≤ 9) (hlow : 8 * p.toNat * m < t)
    (hhigh : m < 9 → t ≤ 8 * p.toNat * (m + 1)) : v = frameBit b m := by
  obtain ⟨k, hk, hklow, hkhigh, rfl⟩ := h
  have hmono : ∀ x y, x < y → 8 * p.toNat * (x + 1) ≤ 8 * p.toNat * y := fun x y h =>
    Nat.mul_le_mul_left _ h
  have hkm : k = m := by
    rcases Nat.lt_trichotomy k m with h | h | h
    · have := hmono k m h
      have := hkhigh (by omega)
      omega
    · exact h
    · have := hmono m k h
      have := hhigh (by omega)
      omega
  rw [hkm]

theorem toNat_prescale (p : BitVec 16) : (p.zeroExtend 19 <<< 3).toNat = 8 * p.toNat := by
  have hp := p.isLt
  rw [BitVec.toNat_shiftLeft, BitVec.toNat_setWidth, Nat.shiftLeft_eq]
  omega

theorem toNat_prescale_sub (hp : 0 < p.toNat) :
    ((p.zeroExtend 19 <<< 3) - 1).toNat = 8 * p.toNat - 1 := by
  have h8 := toNat_prescale p
  have hlt := p.isLt
  bv_omega

/-- The transmitter shows what it sends. -/
theorem Sends.onLine (h : Sends p b n tx) : OnLine p b n tx.txdReg := by
  obtain ⟨-, k, hk, hlow, -, hsum, htxd, -⟩ := h
  refine ⟨k, hk, hlow, fun h9 => ?_, htxd⟩
  rw [if_neg (by omega)] at hsum
  omega

/-! ### The transmitter -/

variable {i : UartTxIn}

theorem shift_data (x : BitVec 9) : 0#1 ++ x.extractLsb 8 1 = x >>> 1 := by
  refine BitVec.eq_of_getLsbD_eq fun j hj => ?_
  rw [BitVec.getLsbD_append, BitVec.getLsbD_extractLsb, BitVec.getLsbD_ushiftRight]
  grind

theorem shift_bit (hk : k < 8) : ((1#1 ++ b) >>> k).getLsbD 0 = frameBit b (k + 1) := by
  rw [BitVec.getLsbD_ushiftRight, BitVec.getLsbD_append, if_pos (by omega), frameBit,
    if_neg (by omega), if_pos (by omega)]
  rfl

/-- The next bit is the next one of the frame. -/
theorem Sends.step (h : Sends p b n tx) (hp : 0 < p.toNat) (hi : i.prescale = p)
    (hn : n < 80 * p.toNat + 1) : Sends p b (n + 1) (tx.step i) := by
  obtain ⟨hready, k, hk, hlow, hcnt, hsum, htxd, hdata⟩ := h
  by_cases hz : tx.prescaleReg = 0
  · have hprescale : tx.prescaleReg.toNat = 0 := by rw [hz]; rfl
    have hk9 : k < 9 := by
      rcases Nat.lt_or_eq_of_le hk with h | rfl
      · exact h
      · rw [if_pos rfl] at hsum
        omega
    rw [if_neg (by omega)] at hsum
    have hb : ¬ tx.bitCnt = 0 := fun h0 => by
      have h9 : 0 = 9 - k := (congrArg BitVec.toNat h0).symm.trans hcnt
      omega
    have hcnt' : (tx.bitCnt - 1).toNat = 9 - (k + 1) := by bv_omega
    rw [UartTx.step_zero hz, if_neg hb, hi]
    by_cases h1 : tx.bitCnt > 1
    · have hk8 : k < 8 := by
        have : 1 < tx.bitCnt.toNat := h1
        omega
      rw [if_pos h1]
      refine ⟨hready, k + 1, by omega, by omega, hcnt', ?_, ?_, fun _ => ?_⟩
      · rw [toNat_prescale_sub hp, if_neg (by omega), Nat.mul_succ (8 * p.toNat) (k + 1)]
        omega
      · rw [hdata (by omega)]
        exact shift_bit hk8
      · rw [hdata (by omega), shift_data, ← BitVec.shiftRight_add]
    · have hk8 : k = 8 := by
        have : ¬ 1 < tx.bitCnt.toNat := h1
        omega
      subst hk8
      rw [if_neg h1]
      refine ⟨hready, 9, by omega, by omega, hcnt', ?_, rfl, fun h => absurd h (by decide)⟩
      rw [toNat_prescale, if_pos rfl]
      omega
  · rw [UartTx.step_count hz]
    have hpos : tx.prescaleReg.toNat ≠ 0 := fun h0 => hz (BitVec.eq_of_toNat_eq h0)
    have hcount : (tx.prescaleReg - 1).toNat = tx.prescaleReg.toNat - 1 := by bv_omega
    refine ⟨rfl, k, hk, by omega, hcnt, ?_, htxd, hdata⟩
    simp only [hcount]
    omega

/-- After the data the transmitter has nothing left to send. -/
theorem Sends.step_rest (h : Sends p b n tx) (hok : tx.Offered i) (hn : 72 * p.toNat + 1 < n) :
    (tx.step i).bitCnt = 0 := by
  obtain ⟨hready, k, hk, hlow, hcnt, hsum, -, -⟩ := h
  have hk9 : k = 9 := by
    rcases Nat.lt_or_eq_of_le hk with h | rfl
    · rw [if_neg (by omega)] at hsum
      have : 8 * p.toNat * (k + 1) ≤ 8 * p.toNat * 9 := Nat.mul_le_mul_left _ h
      omega
    · rfl
  have hb : tx.bitCnt = 0 := BitVec.eq_of_toNat_eq (by rw [hcnt, hk9]; rfl)
  exact UartTx.step_rest hb fun hv => absurd (hready.symm.trans (hok hv)) Bool.false_ne_true

/-- A byte handed over begins a frame. -/
theorem sends_load (h : tx.Wf) (hok : tx.Offered i) (hv : i.tvalid = true) (hp : 0 < p.toNat)
    (hi : i.prescale = p) : Sends p i.tdata 1 (tx.step i) := by
  rw [UartTx.step_load h hok hv, hi]
  refine ⟨rfl, 0, by omega, by omega, rfl, ?_, rfl, fun _ => rfl⟩
  rw [toNat_prescale_sub hp, if_neg (by omega)]
  omega

/-! ### The receiver -/

variable {v : Bool}

theorem shift_gathered (hm : 1 ≤ m) (hm8 : m ≤ 8) :
    BitVec.ofBool (frameBit b m) ++ (gathered b m).extractLsb 7 1 = gathered b (m + 1) := by
  have hbit : frameBit b m = b.getLsbD (m - 1) := by
    rw [frameBit, if_neg (by omega), if_pos hm8]
  rw [hbit, gathered, gathered]
  refine BitVec.eq_of_getLsbD_eq fun j hj => ?_
  rw [BitVec.getLsbD_append, BitVec.getLsbD_extractLsb, BitVec.getLsbD_shiftLeft,
    BitVec.getLsbD_shiftLeft]
  by_cases h7 : j < 7
  · simp only [h7]
    grind
  · obtain rfl : j = 7 := by omega
    grind

theorem line_eq {rx : UartRx} {cnt : BitVec 4} {pre : BitVec 19} {data : BitVec 8} {err : Bool}
    (h : rx.line = (cnt, pre, data, err)) :
    rx.bitCnt = cnt ∧ rx.prescaleReg = pre ∧ rx.dataReg = data ∧ rx.frameErrorReg = err := by
  simpa [UartRx.line] using h

theorem toNat_half (hq : 0 < q.toNat) : ((q.zeroExtend 19 <<< 2) - 2).toNat = 4 * q.toNat - 2 := by
  have hlt := q.isLt
  have h4 : (q.zeroExtend 19 <<< 2).toNat = 4 * q.toNat := by
    rw [BitVec.toNat_shiftLeft, BitVec.toNat_setWidth, Nat.shiftLeft_eq]
    omega
  bv_omega

/-- In the first cycle the start bit is on the line. -/
theorem OnLine.first (h : OnLine p b 1 v) (hp : 0 < p.toNat) : v = false :=
  h.eq (m := 0) (by omega) (by omega) fun _ => by omega

/-- The receiver counts, looks and shifts. -/
theorem Gathers.step (tready : Bool) (h : Gathers p q b n rx) (hbaud : Baud p q)
    (hv : OnLine p b n v) (hn : n < 76 * q.toNat + 1) :
    Gathers p q b (n + 1) (rx.step tready v q) ∧ rx.arrival = none ∧
      (rx.step tready v q).frameErrorReg = false := by
  obtain ⟨hlong, hshort⟩ := hbaud
  have hline := rx.step_line tready v q
  have hrxd := rx.step_rxdReg tready v q
  rcases h with ⟨rfl, hb, hp, hr⟩ | ⟨rfl, hb, hp, hr⟩ | ⟨h3, hlook, m, hm, hcnt, hsum, hdata⟩
  · have ha : rx.arrival = none := if_neg fun h => by rw [hb] at h; exact absurd h.2.1 (by decide)
    rw [hp, hb, hr] at hline
    obtain ⟨hb', hp', -, herr⟩ := line_eq hline
    exact ⟨.inr (.inl ⟨rfl, hb', hp', hrxd.trans (hv.first (by omega))⟩), ha, herr⟩
  · have ha : rx.arrival = none := if_neg fun h => by rw [hb] at h; exact absurd h.2.1 (by decide)
    rw [hp, hb, hr] at hline
    obtain ⟨hb', hp', hdata', herr⟩ := line_eq hline
    refine ⟨.inr (.inr ⟨by omega, by rw [hrxd]; exact hv, 0, by omega, by rw [hb']; rfl, ?_, ?_⟩),
      ha, herr⟩
    · rw [hp', toNat_half (by omega)]
      omega
    · rw [hdata']
      exact (BitVec.shiftLeft_eq_zero (by omega)).symm
  · by_cases hz : rx.prescaleReg = 0
    · have hprescale : rx.prescaleReg.toNat = 0 := by rw [hz]; rfl
      obtain ⟨hlow, hhigh⟩ := Baud.look ⟨hlong, hshort⟩ hm
      have hbit : rx.rxdReg = frameBit b m :=
        hlook.eq hm (by omega) fun h => by have := hhigh h; omega
      have hm9 : m < 9 := by
        rcases Nat.lt_or_eq_of_le hm with h | rfl
        · exact h
        · omega
      have hone : rx.bitCnt.toNat ≠ 1 := by omega
      have ha : rx.arrival = none := if_neg fun h => hone (by rw [h.2.1]; rfl)
      have hcnt' : (rx.bitCnt - 1).toNat = 10 - (m + 1) := by bv_omega
      have hsum' : n + 1 + (8 * q.toNat - 1) = 4 * q.toNat + 1 + 8 * q.toNat * (m + 1) := by
        rw [Nat.mul_succ]
        omega
      rw [hz, if_neg (by decide)] at hline
      by_cases h9 : rx.bitCnt > 9
      · have hm0 : m = 0 := by
          have : 9 < rx.bitCnt.toNat := h9
          omega
        subst hm0
        have hlow : ¬ rx.rxdReg = true := by rw [hbit]; exact Bool.false_ne_true
        rw [if_pos h9, if_neg hlow] at hline
        obtain ⟨hb', hp', hdata', herr⟩ := line_eq hline
        refine ⟨.inr (.inr ⟨by omega, by rw [hrxd]; exact hv, 1, by omega, by rw [hb', hcnt'],
          ?_, ?_⟩), ha, herr⟩
        · rw [hp', toNat_prescale_sub (by omega), hsum']
        · rw [hdata', hdata]
          rfl
      · have hm1 : 1 ≤ m := by
          have : ¬ 9 < rx.bitCnt.toNat := h9
          omega
        have h1 : rx.bitCnt > 1 := by
          show 1 < rx.bitCnt.toNat
          omega
        rw [if_neg h9, if_pos h1] at hline
        obtain ⟨hb', hp', hdata', herr⟩ := line_eq hline
        refine ⟨.inr (.inr ⟨by omega, by rw [hrxd]; exact hv, m + 1, by omega, by rw [hb', hcnt'],
          ?_, ?_⟩), ha, herr⟩
        · rw [hp', toNat_prescale_sub (by omega), hsum']
        · rw [hdata', hdata, hbit]
          exact shift_gathered hm1 (by omega)
    · have hpos : rx.prescaleReg.toNat ≠ 0 := fun h0 => hz (BitVec.eq_of_toNat_eq h0)
      have ha : rx.arrival = none := if_neg fun h => hz h.1
      have hcount : (rx.prescaleReg - 1).toNat = rx.prescaleReg.toNat - 1 := by bv_omega
      rw [if_pos (by bv_omega)] at hline
      obtain ⟨hb', hp', hdata', herr⟩ := line_eq hline
      refine ⟨.inr (.inr ⟨by omega, by rw [hrxd]; exact hv, m, hm, by rw [hb', hcnt], ?_,
        hdata'.trans hdata⟩), ha, herr⟩
      rw [hp', hcount]
      omega

/-- The stop bit completes the byte. -/
theorem Gathers.step_stop (tready : Bool) (h : Gathers p q b n rx) (hbaud : Baud p q)
    (hv : OnLine p b n v) (hn : n = 76 * q.toNat + 1) :
    rx.arrival = some b ∧ (rx.step tready v q).bitCnt = 0 ∧ (rx.step tready v q).prescaleReg = 0 ∧
      (rx.step tready v q).rxdReg = true ∧ (rx.step tready v q).frameErrorReg = false := by
  obtain ⟨hlong, hshort⟩ := hbaud
  have hline := rx.step_line tready v q
  have hrxd := rx.step_rxdReg tready v q
  rcases h with ⟨rfl, -⟩ | ⟨rfl, -⟩ | ⟨h3, hlook, m, hm, hcnt, hsum, hdata⟩
  · omega
  · omega
  · have hm9 : m = 9 := by
      rcases Nat.lt_or_eq_of_le hm with h | rfl
      · have : 8 * q.toNat * (m + 1) ≤ 8 * q.toNat * 9 := Nat.mul_le_mul_left _ h
        rw [Nat.mul_succ] at this
        omega
      · rfl
    subst hm9
    have hz : rx.prescaleReg = 0 := BitVec.eq_of_toNat_eq (by
      rw [show (0 : BitVec 19).toNat = 0 from rfl]
      omega)
    have hb : rx.bitCnt = 1 := BitVec.eq_of_toNat_eq hcnt
    have hbit : rx.rxdReg = true := hlook.eq hm (by omega) fun h => absurd h (by decide)
    have hhigh : v = true := hv.eq (m := 9) hm (by omega) fun h => absurd h (by decide)
    have hbyte : rx.dataReg = b := hdata.trans (BitVec.shiftLeft_zero b)
    rw [hz, hb, hbit] at hline
    obtain ⟨hb', hp', -, herr⟩ := line_eq hline
    exact ⟨hbyte ▸ if_pos ⟨hz, hb, hbit⟩, hb', hp', hrxd.trans hhigh, herr⟩

theorem Gathers.le (h : Gathers p q b n rx) (hbaud : Baud p q) : n ≤ 76 * q.toNat + 1 := by
  obtain ⟨hlong, hshort⟩ := hbaud
  rcases h with ⟨rfl, -⟩ | ⟨rfl, -⟩ | ⟨-, -, m, hm, -, hsum, -⟩
  · omega
  · omega
  · have : 8 * q.toNat * m ≤ 8 * q.toNat * 9 := Nat.mul_le_mul_left _ hm
    omega

end Frame

/-! ## One cycle -/

/-- What one cycle does. -/
structure Cycle (p q : BitVec 16) (t : UartLine) (i : UartLineIn) : Prop where
  line : (t.step i).Rest ∨ ∃ b n, (t.step i).Frame p q b n
  held : t.arrived i ++ (t.step i).inFlight = t.inFlight ++ t.handed i
  frameError : (t.step i).rx.frameErrorReg = false

section Cycle

variable {p q : BitVec 16} {t} {i} {b : BitVec 8} {n : Nat}

theorem step_inFlight (harrived : t.arrived i = []) :
    (t.step i).inFlight = t.inFlight ++ t.handed i := by
  show (t.inFlight ++ t.handed i).drop (t.arrived i).length = _
  rw [harrived]
  rfl

/-- At rest, until a byte is handed over. -/
theorem Rest.cycle (h : t.Rest) (hwf : t.tx.Wf) (hbaud : Baud p q) (hok : Ok p q t i) :
    Cycle p q t i := by
  obtain ⟨hlong, hshort⟩ := hbaud
  have hline := t.rx.step_line i.tready t.tx.txdReg i.prescale
  rw [h.prescale, h.bitCnt, h.high] at hline
  obtain ⟨hb, hp, -, herr⟩ := line_eq hline
  have hrxd : (t.step i).rx.rxdReg = true := (t.rx.step_rxdReg ..).trans (hwf.high h.tx)
  have harrival : t.rx.arrival = none :=
    if_neg fun h1 => absurd (h.bitCnt.symm.trans h1.2.1) (by decide)
  have harrived : t.arrived i = [] := by rw [arrived, harrival]; rfl
  have hin : (t.step i).inFlight = t.handed i := by
    rw [step_inFlight harrived, h.inFlight, List.nil_append]
  refine ⟨?_, by rw [harrived, hin, h.inFlight], herr⟩
  by_cases hv : i.tx.tvalid = true
  · have hhanded : t.handed i = [i.tx.tdata] := by
      have hready := hok.offered hv
      show (if i.tx.tvalid && t.tx.sAxisTreadyReg then [i.tx.tdata] else []) = _
      rw [hv, hready]
      rfl
    exact .inr ⟨i.tx.tdata, 1, sends_load hwf hok.offered hv (by omega) (hok.tx (.inr hv)),
      .inl ⟨rfl, hb, hp, hrxd⟩, hin.trans hhanded⟩
  · have hhanded : t.handed i = [] := if_neg fun h => hv (Bool.and_eq_true_iff.1 h).1
    exact .inl ⟨UartTx.step_rest h.tx hv, hb, hp, hrxd, hin.trans hhanded⟩

/-- In a frame, until its stop bit is looked at. -/
theorem Frame.cycle (h : t.Frame p q b n) (hbaud : Baud p q) (hok : Ok p q t i) :
    Cycle p q t i := by
  have hlong := hbaud.long
  have hshort := hbaud.short
  have hbusy : t.Busy i := .inl (by rw [h.inFlight]; exact List.cons_ne_nil _ _)
  have hrx := hok.rx hbusy
  have hhanded : t.handed i = [] := by
    show (if i.tx.tvalid && t.tx.sAxisTreadyReg then _ else _) = _
    rw [h.sends.1, Bool.and_false]
    rfl
  have hle := h.gathers.le hbaud
  rcases Nat.lt_or_eq_of_le hle with hn | hn
  · obtain ⟨hnext, harrival, herr⟩ :=
      h.gathers.step i.tready hbaud h.sends.onLine hn
    have harrived : t.arrived i = [] := by rw [arrived, harrival]; rfl
    have hin : (t.step i).inFlight = [b] := by
      rw [step_inFlight harrived, h.inFlight, hhanded, List.append_nil]
    rw [← hrx] at hnext herr
    exact ⟨.inr ⟨b, n + 1, h.sends.step (by omega) (hok.tx hbusy) (by omega), hrx ▸ hnext, hin⟩,
      by rw [harrived, hin, h.inFlight, hhanded]; rfl, herr⟩
  · obtain ⟨harrival, hb, hp, hrxd, herr⟩ :=
      h.gathers.step_stop i.tready hbaud h.sends.onLine hn
    have harrived : t.arrived i = [b] := by rw [arrived, harrival]; rfl
    have hin : (t.step i).inFlight = [] := by
      show (t.inFlight ++ t.handed i).drop (t.arrived i).length = _
      rw [harrived, h.inFlight, hhanded]
      rfl
    rw [← hrx] at hb hp hrxd herr
    exact ⟨.inl ⟨h.sends.step_rest hok.offered (by omega), hb, hp, hrxd, hin⟩,
      by rw [harrived, hin, h.inFlight, hhanded], herr⟩

theorem Inv.cycle (h : Inv p q t) (hbaud : Baud p q) (hok : Ok p q t i) : Cycle p q t i := by
  rcases h.line with hrest | ⟨b, n, hframe⟩
  · exact hrest.cycle h.wf hbaud hok
  · exact hframe.cycle hbaud hok

theorem Inv.step (h : Inv p q t) (hbaud : Baud p q) (hok : Ok p q t i) : Inv p q (t.step i) :=
  have hcycle := h.cycle hbaud hok
  ⟨h.wf.step hok.offered, hcycle.line, hcycle.frameError⟩

/-- There is nothing in flight when the transmitter is ready. -/
theorem Inv.inFlight_ready (h : Inv p q t) (hready : t.tx.sAxisTreadyReg = true) :
    t.inFlight = [] := by
  rcases h.line with hrest | ⟨b, n, hframe⟩
  · exact hrest.inFlight
  · exact absurd (hframe.sends.1.symm.trans hready) Bool.false_ne_true

end Cycle

/-! ## Runs -/

theorem Inv.reset (p q : BitVec 16) (tx : UartTx) (rx : UartRx) : Inv p q (.reset tx rx) :=
  ⟨tx.reset_wf, .inl ⟨rfl, rfl, rfl, rfl, rfl⟩, rfl⟩

/-- The line in a larger machine, of which it is a part: what is handed over arrives, but for one
byte at most that is in flight. -/
theorem exact_part {σ ι : Type} {step' : σ → ι → σ} (line : σ → UartLine)
    (lineIn : σ → ι → UartLineIn) (hline : ∀ s i, line (step' s i) = (line s).step (lineIn s i))
    {p q : BitVec 16} (hbaud : Baud p q) {s : σ} {is : List ι} (h0 : Inv p q (line s))
    (hok : Always step' (fun s i => Ok p q (line s) (lineIn s i)) s is) :
    let t := line (run step' s is)
    outputs step' (fun s i => (line s).arrived (lineIn s i)) s is ++ t.inFlight =
        (line s).inFlight ++ outputs step' (fun s i => (line s).handed (lineIn s i)) s is ∧
      t.inFlight.length ≤ 1 ∧ (t.tx.sAxisTreadyReg = true → t.inFlight = []) ∧
      Always step' (fun s _ => (line s).rx.frameErrorReg = false) s is := by
  intro t
  have hstep : ∀ s i, Inv p q (line s) → Ok p q (line s) (lineIn s i) →
      Inv p q (line (step' s i)) := by
    intro s i h hok
    rw [hline]
    exact h.step hbaud hok
  have hinv := inv_always (fun s => Inv p q (line s)) hstep h0 hok
  have hend : Inv p q t := inv_run (fun s => Inv p q (line s)) hstep h0 hok
  refine ⟨?_, ?_, hend.inFlight_ready, hinv.mono fun _ _ h => h.1.frameError⟩
  · refine outputs_conserved (fun s => (line s).inFlight) (hinv.mono fun s i h => ?_)
    rw [hline]
    exact (h.1.cycle hbaud h.2).held
  · rcases hend.line with h | ⟨b, n, h⟩
    · rw [h.inFlight]
      exact Nat.zero_le 1
    · rw [h.inFlight]
      exact Nat.le_refl 1

/-- **The serial line loses, duplicates and changes nothing.**  Two prescales that agree within a
twentieth while the line is busy, and a transmitter that is offered a byte only when it is ready: in
every run from reset the bytes that arrive at the receiver are those handed to the transmitter, in
order, up to the one in flight; there is none when the transmitter is ready; and the receiver sees
no framing error. -/
theorem uart_line_exact {p q : BitVec 16} (hbaud : Baud p q) (tx : UartTx) (rx : UartRx)
    (is : List UartLineIn) (hok : Always step (Ok p q) (.reset tx rx) is) :
    let t := run step (.reset tx rx) is
    outputs step arrived (.reset tx rx) is ++ t.inFlight =
        outputs step handed (.reset tx rx) is ∧
      t.inFlight.length ≤ 1 ∧ (t.tx.sAxisTreadyReg = true → t.inFlight = []) ∧
      Always step (fun t _ => t.rx.frameErrorReg = false) (.reset tx rx) is :=
  exact_part id (fun _ i => i) (fun _ _ => rfl) hbaud (.reset p q tx rx) hok

/-- A letter, at the highest speed. -/
theorem uart_line_exact_letter :
    let idle : UartLineIn := ⟨⟨0, false, 1⟩, false, 1⟩
    let is : List UartLineIn :=
      idle :: { idle with tx := ⟨0x41, true, 1⟩ } :: List.replicate 77 idle
    outputs step arrived (.reset default default) is = [0x41] ∧
      outputs step arrived (.reset default default) is ++
        (run step (.reset default default) is).inFlight =
        outputs step handed (.reset default default) is := by
  intro idle is
  exact ⟨by decide +kernel, (uart_line_exact (p := 1) (q := 1) ⟨by decide, by decide⟩ default default
    is (by decide +kernel)).1⟩

end UartLine

end Rv32i
