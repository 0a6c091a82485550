import Rv32iCore.Core.Trace
import Rv32iCore.Harness.RoundTrip
import Rv32iCore.Soc.Terminal

/-!
# `tb_soc`

The testbench of `soc`, `sim/verilator/tb_soc.cpp`.  After two edges in reset it writes a line of
CSV for each cycle in which nothing traps, until the program stores a nonzero word at `tohost` or
the cycles run out.

    tb_soc_verdict   it passes iff the first such word of the sequential machine is 1
    tb_soc_csv       parse_core_csv reads its CSV: the machine's register writes, some repeated
-/

namespace Rv32i

open Sync
open Python (Text hex fileLines tooLong)

namespace TbSoc

/-- `MAX_CYCLES` -/
def maxCycles : Nat := 200000

/-- No switch is on, the serial line is idle. -/
def pins : SocIn := ⟨0, true⟩

/-- `%08x` -/
def hex8 (w : Word) : Text := hex 8 w.toNat

/-- `%d` and `%u` -/
def dec (n : Nat) : Text := Nat.toDigits 10 n

/-! ## The cycles -/

/-- What a cycle writes to the CSV.  Spike omits instructions that trap. -/
def csvLine (d : Soc) : Text :=
  if d.uCore.traceTrap d.coreIn then []
  else if d.uCore.traceWe then
    hex8 d.uCore.tracePc ++ ",".toList ++ hex8 d.uCore.traceInstr ++ ",".toList ++
      dec d.uCore.traceRd.toNat ++ ",".toList ++ hex8 d.uCore.traceWdata ++ "\n".toList
  else hex8 d.uCore.tracePc ++ ",".toList ++ hex8 d.uCore.traceInstr ++ ",-,-\n".toList

/-- The variables of `main`, and what the CSV holds. -/
structure Vars where
  d : Soc
  cycles : Nat
  tohost : Word
  finished : Bool
  csv : Text

variable (P : Params) (tohostAddr : Word)

/-- `tick`, with `rst_n` high. -/
def tick (d : Soc) : Soc := d.step P pins

/-- The HTIF exit store is in MEM. -/
def exits (d : Soc) : Bool :=
  d.uCore.traceMemWe && d.uCore.traceMemAddr == tohostAddr && d.uCore.traceMemWdata != 0

/-- The loop, with `left` cycles left of `MAX_CYCLES`. -/
def loop : Nat → Vars → Vars
  | 0, v => v
  | left + 1, v =>
    let csv := v.csv ++ csvLine v.d
    if exits tohostAddr v.d then
      { v with d := tick P v.d, tohost := v.d.uCore.traceMemWdata, finished := true, csv := csv }
    else loop left { v with d := tick P v.d, cycles := v.cycles + 1, csv := csv }

/-- Before the loop: two edges in reset. -/
def start (d : Soc) : Vars := ⟨(d.reset P).reset P, 0, 0, false, []⟩

/-! ## The verdict -/

/-- What `main` prints of the loop, and `tb_fails`. -/
def verdict (csvPath : Text) (v : Vars) : Text × Nat :=
  if !v.finished then
    ("[tb] TIMEOUT after ".toList ++ dec v.cycles ++ " cycles, pc=".toList ++
      hex8 v.d.uCore.tracePc ++ "\n[tb] trace written to ".toList ++ csvPath ++ "\n".toList, 1)
  else if v.tohost == 1 then
    ("[tb] PASS via tohost after ".toList ++ dec v.cycles ++ " instructions\n".toList, 0)
  else
    ("[tb] FAIL: tohost=0x".toList ++ hex8 v.tohost ++ " -> test case ".toList ++
      dec (v.tohost >>> 1).toNat ++ ", after ".toList ++ dec v.cycles ++ " instructions\n".toList, 1)

/-- `finish`: what it prints, and the exit status. -/
def finish (fails : Nat) : Text × Nat :=
  ("[tb] 0 checks, ".toList ++ dec fails ++ " failures -> ".toList ++
    (if fails != 0 then "FAIL\n".toList else "PASS\n".toList), if fails != 0 then 1 else 0)

structure Result where
  status : Nat
  out : Text
  csv : Text

/-- `main`, from any contents of the registers; the CSV can be opened. -/
def main (csvPath : Text) (d : Soc) : Result :=
  let v := loop P tohostAddr maxCycles (start P d)
  let report := verdict csvPath v
  let summary := finish report.2
  ⟨summary.2, report.1 ++ summary.1, v.csv⟩

end TbSoc

/-! ## Accesses stay in MEM until they are over -/

theorem Tracked.staged_memReqs (P : Params) :
    Staged (Tracked.step P) Tracked.memReqs Tracked.memReqPending := by
  intro t i
  unfold Tracked.memReqs
  cases hs : i.busStall with
  | true => exact .inl ⟨rfl, by rw [Tracked.step_stall hs]; rfl⟩
  | false => exact .inr rfl

namespace SocRun

variable (P : Params) (s : Soc) (is js : List SocIn)

theorem requests_eq : requests P s is =
    (outputs (SocRun.step P) completed (reset P s) is).map Prod.fst ++
      (run (SocRun.step P) (reset P s) is).cpu.core.memReqPending := by
  have haccesses : _ = [] ++ requests P s is := (refines P s is).accesses
  exact haccesses.symm

/-- The machine's accesses in a run are the first of those in a longer one. -/
theorem requests_first : requests P s is <+: requests P s (is ++ js) := by
  have hstaged : Staged (SocRun.step P) (fun t i => (t.completed i).map Prod.fst)
      (fun t => t.cpu.core.memReqPending) := by
    intro t i
    show ((t.completed i).map Prod.fst = [] ∧ _) ∨ (t.completed i).map Prod.fst = _
    rw [completed_memReqs]
    exact Tracked.staged_memReqs P t.cpu.core t.soc.coreIn
  have hfirst := hstaged.first (run (SocRun.step P) (reset P s) is) js
  rw [outputs_map] at hfirst
  rw [requests_eq, requests_eq, outputs_append, run_append, List.map_append, List.append_assoc]
  exact (List.prefix_append_right_inj _).2 hfirst

end SocRun

namespace TbSoc

variable (P : Params) (tohostAddr : Word) (d : Soc)

/-! ## What the loop goes through -/

/-- The system after `n` cycles. -/
def after (n : Nat) : SocRun :=
  run (SocRun.step P) (.reset P (d.reset P)) (List.replicate n pins)

/-- What `n` cycles write. -/
def lines (n : Nat) : Text :=
  outputs (SocRun.step P) (fun t _ => csvLine t.soc) (.reset P (d.reset P)) (List.replicate n pins)

def vars (n : Nat) : Vars := ⟨(after P d n).soc, n, 0, false, lines P d n⟩

theorem after_succ (n : Nat) : after P d (n + 1) = (after P d n).step P pins := by
  rw [after, List.replicate_succ', run_append]
  rfl

theorem lines_succ (n : Nat) : lines P d (n + 1) = lines P d n ++ csvLine (after P d n).soc := by
  rw [lines, List.replicate_succ', outputs_append, outputs_cons, outputs_nil, List.append_nil]
  rfl

/-- How the loop can end, with `max` cycles at most. -/
inductive Ends (max : Nat) : Vars → Prop
  | timeout (h : ∀ k < max, exits tohostAddr (after P d k).soc = false) : Ends max (vars P d max)
  | exit (n : Nat) (hn : n < max) (h : ∀ k < n, exits tohostAddr (after P d k).soc = false)
    (hexit : exits tohostAddr (after P d n).soc = true) :
    Ends max { vars P d (n + 1) with
      cycles := n, tohost := (after P d n).soc.uCore.traceMemWdata, finished := true }

theorem loop_ends (left : Nat) {n : Nat} (h : ∀ k < n, exits tohostAddr (after P d k).soc = false) :
    Ends P tohostAddr d (n + left) (loop P tohostAddr left (vars P d n)) := by
  induction left generalizing n with
  | zero => exact .timeout h
  | succ left ih =>
    have hd : tick P (after P d n).soc = (after P d (n + 1)).soc := by
      rw [after_succ]
      rfl
    show Ends P tohostAddr d (n + (left + 1))
      (if exits tohostAddr (after P d n).soc then
        ⟨tick P (after P d n).soc, n, (after P d n).soc.uCore.traceMemWdata, true,
          lines P d n ++ csvLine (after P d n).soc⟩
      else loop P tohostAddr left ⟨tick P (after P d n).soc, n + 1, 0, false,
        lines P d n ++ csvLine (after P d n).soc⟩)
    rw [hd, ← lines_succ]
    by_cases hexit : exits tohostAddr (after P d n).soc = true
    · rw [if_pos hexit]
      exact .exit n (by omega) h hexit
    · rw [if_neg hexit]
      have hrest := ih (n := n + 1) (by
        intro k hk
        by_cases hkn : k = n
        · rw [hkn]
          exact Bool.eq_false_of_not_eq_true hexit
        · exact h k (by omega))
      rw [show n + (left + 1) = n + 1 + left by omega]
      exact hrest

/-! ## The exit store -/

/-- What an access leaves at `tohost`, if the testbench takes it for the exit store.  Whatever the
width of the store, the testbench looks at the whole of `mem_wdata`. -/
def exitWord (m : MemReq) : Option Word :=
  if m.we && m.addr == tohostAddr && m.wdata != 0 then some m.wdata else none

/-- The words of the sequential machine's exit stores in `n` cycles. -/
def exitWords (n : Nat) : List Word :=
  (SocRun.requests P (d.reset P) (List.replicate n pins)).filterMap (exitWord tohostAddr)

variable {P tohostAddr d}

theorem exitWord_of_exits (h : exits tohostAddr d = true) :
    exitWord tohostAddr d.uCore.memReq = some d.uCore.traceMemWdata := if_pos h

theorem exitWord_of_not_exits (h : exits tohostAddr d = false) :
    exitWord tohostAddr d.uCore.memReq = none := if_neg (Bool.eq_false_iff.1 h)

theorem pending_exitWord (tohostAddr : Word) (t : SocRun) :
    t.cpu.core.memReqPending.filterMap (exitWord tohostAddr) =
      (exitWord tohostAddr t.soc.uCore.memReq).toList := by
  show (if t.soc.uCore.memReq.re || t.soc.uCore.memReq.we then [t.soc.uCore.memReq]
    else []).filterMap _ = _
  split_ifs with hany
  · rw [List.filterMap_cons]
    cases exitWord tohostAddr t.soc.uCore.memReq <;> rfl
  · have hwe : t.soc.uCore.memReq.we = false := by
      cases hwe : t.soc.uCore.memReq.we with
      | true => simp [hwe] at hany
      | false => rfl
    rw [exitWord, hwe]
    rfl

/-- An access that is over has been in MEM. -/
theorem completed_exitWord {n : Nat} (h : ∀ k < n, exits tohostAddr (after P d k).soc = false) :
    ((outputs (SocRun.step P) SocRun.completed (.reset P (d.reset P))
      (List.replicate n pins)).map Prod.fst).filterMap (exitWord tohostAddr) = [] := by
  induction n with
  | zero => rfl
  | succ n ih =>
    have hlast : (((after P d n).completed pins).map Prod.fst).filterMap (exitWord tohostAddr) = [] := by
      have hnone := pending_exitWord tohostAddr (after P d n)
      rw [exitWord_of_not_exits (h n (by omega))] at hnone
      rw [SocRun.completed_memReqs, Tracked.memReqs]
      split_ifs
      · rfl
      · exact hnone
    rw [List.replicate_succ', outputs_append, outputs_cons, outputs_nil, List.append_nil,
      List.map_append, List.filterMap_append, ih fun k hk => h k (by omega)]
    exact hlast

theorem exitWords_eq {n : Nat} (h : ∀ k < n, exits tohostAddr (after P d k).soc = false) :
    exitWords P tohostAddr d n =
      (exitWord tohostAddr (after P d n).soc.uCore.memReq).toList := by
  rw [exitWords, SocRun.requests_eq, List.filterMap_append, completed_exitWord h, List.nil_append]
  exact pending_exitWord tohostAddr (after P d n)

variable (P tohostAddr d) in
theorem exitWords_first {m n : Nat} (h : m ≤ n) :
    exitWords P tohostAddr d m <+: exitWords P tohostAddr d n := by
  have hsplit : List.replicate n pins = List.replicate m pins ++ List.replicate (n - m) pins := by
    rw [List.replicate_append_replicate, Nat.add_sub_cancel' h]
  rw [exitWords, exitWords, hsplit]
  exact (SocRun.requests_first P (d.reset P) _ _).filterMap _

/-- The loop ends with the first exit store. -/
theorem Ends.head {max : Nat} {v : Vars} (h : Ends P tohostAddr d max v) (hmax : 0 < max) :
    (exitWords P tohostAddr d (max - 1)).head? = (if v.finished then some v.tohost else none) ∧
      ∀ n < max, n < v.cycles ↔ exitWords P tohostAddr d n = [] := by
  have hnone : ∀ {n m : Nat}, (∀ k < m, exits tohostAddr (after P d k).soc = false) → n < m →
      exitWords P tohostAddr d n = [] := by
    intro n m hm hn
    rw [exitWords_eq fun k hk => hm k (by omega), exitWord_of_not_exits (hm n hn)]
    rfl
  cases h with
  | timeout h =>
    refine ⟨?_, fun n hn => iff_of_true hn (hnone h hn)⟩
    rw [hnone h (by omega)]
    rfl
  | exit m hm h hexit =>
    have hfirst : exitWords P tohostAddr d m = [(after P d m).soc.uCore.traceMemWdata] := by
      rw [exitWords_eq h, exitWord_of_exits hexit]
      rfl
    have hlater : ∀ n, m ≤ n → ∃ ws, exitWords P tohostAddr d n =
        (after P d m).soc.uCore.traceMemWdata :: ws := by
      intro n hn
      obtain ⟨ws, hws⟩ := exitWords_first P tohostAddr d hn
      exact ⟨ws, by rw [← hws, hfirst]; rfl⟩
    refine ⟨?_, fun n hn => ?_⟩
    · obtain ⟨ws, hws⟩ := hlater (max - 1) (by omega)
      rw [hws]
      rfl
    · by_cases hnm : n < m
      · exact iff_of_true hnm (hnone h hnm)
      · obtain ⟨ws, hws⟩ := hlater n (by omega)
        rw [hws]
        exact iff_of_false hnm (by simp)

theorem Ends.verdict {max : Nat} {v : Vars} (h : Ends P tohostAddr d max v) (hmax : 0 < max) :
    (v.finished = true ∧ v.tohost = 1 ↔ (exitWords P tohostAddr d (max - 1)).head? = some 1) ∧
      (v.finished = false ↔ exitWords P tohostAddr d (max - 1) = []) := by
  rw [← List.head?_eq_none_iff, (h.head hmax).1]
  cases v.finished with
  | false => simp
  | true => simp

/-- `tb_fails` counts the verdict, if it is not PASS. -/
theorem verdict_fails (csvPath : Text) (v : Vars) :
    (verdict csvPath v).2 = if v.finished && v.tohost == 1 then 0 else 1 := by
  unfold verdict
  cases v.finished with
  | false => rfl
  | true => cases v.tohost == 1 <;> rfl

theorem status_eq_zero (csvPath : Text) :
    (main P tohostAddr csvPath d).status = 0 ↔
      (loop P tohostAddr maxCycles (start P d)).finished = true ∧
        (loop P tohostAddr maxCycles (start P d)).tohost = 1 := by
  have hstatus : ∀ v : Vars, (if (verdict csvPath v).2 != 0 then 1 else 0) = 0 ↔
      v.finished = true ∧ v.tohost = 1 := by
    intro v
    rw [verdict_fails, ← beq_iff_eq (a := v.tohost), ← Bool.and_eq_true]
    cases v.finished && v.tohost == 1 <;> decide
  exact hstatus (loop P tohostAddr maxCycles (start P d))

theorem start_ends (P : Params) (tohostAddr : Word) (d : Soc) :
    Ends P tohostAddr d maxCycles (loop P tohostAddr maxCycles (start P d)) := by
  have hends := loop_ends P tohostAddr d maxCycles (n := 0) fun k hk => absurd hk (Nat.not_lt_zero k)
  rw [Nat.zero_add] at hends
  exact hends

end TbSoc

open TbSoc in
/-- **What a verdict of the testbench means.**  It exits with 0 if and only if the first nonzero
word that the sequential machine stores at `tohost` in the cycles before the last is 1, and runs
out of cycles if and only if there is no such word.  The cycles that it reports are those without
one. -/
theorem tb_soc_verdict (P : Params) (tohostAddr : Word) (csvPath : Text) (d : Soc) :
    let v := loop P tohostAddr maxCycles (start P d)
    let words := fun n =>
      (SocRun.requests P (d.reset P) (List.replicate n pins)).filterMap (exitWord tohostAddr)
    ((TbSoc.main P tohostAddr csvPath d).status = 0 ↔ (words (maxCycles - 1)).head? = some 1) ∧
    (v.finished = false ↔ words (maxCycles - 1) = []) ∧
    ∀ n < maxCycles, n < v.cycles ↔ words n = [] := by
  have hends := start_ends P tohostAddr d
  have hverdict := hends.verdict (by decide)
  exact ⟨(status_eq_zero csvPath).trans hverdict.1, hverdict.2, (hends.head (by decide)).2⟩

/-- `lui x1, 0x80001; addi x2, x0, 1; sw x2, 0(x1); jal x0, 0` -/
def exitProgram : Params := .ofWords [0x800010B7, 0x00100113, 0x0020A023, 0x0000006F]

/-- It passes. -/
example : (TbSoc.main exitProgram 0x80001000 "soc_trace.csv".toList .blank).status = 0 := by
  decide +kernel

/-! ## The CSV -/

open TraceDiff (Retire Printable PrintableWriteback csvText)

theorem Tracked.staged_retired (P : Params) :
    Staged (Tracked.step P) Tracked.retired Tracked.wbPending := by
  intro t i
  unfold Tracked.retired
  cases hs : i.busStall with
  | true => exact .inl ⟨rfl, by rw [Tracked.step_stall hs]; rfl⟩
  | false => exact .inr rfl

/-- What is sampled is what retires, in order, each any number of times. -/
theorem Tracked.sampled_stutters (P : Params) (t : Tracked) (is : List CoreIn) :
    Stutters (outputs (Tracked.step P) Tracked.retired t is ++ (run (Tracked.step P) t is).wbPending)
      (outputs (Tracked.step P) Tracked.sampled t is) := by
  refine (Tracked.staged_retired P).stutters (fun t => ?_) (fun t i => ?_) t is
  · unfold wbPending
    split_ifs <;> simp
  · unfold sampled
    split_ifs
    · exact .inl rfl
    · exact .inr rfl

/-- So it is in `soc`, where the sequential machine's writes retire. -/
theorem SocRun.sampled_stutters (P : Params) (s : Soc) (is : List SocIn) :
    Stutters (outputs (MemMachine.step P (memMap P s is)) (MemMachine.retired P (memMap P s is))
        ⟨.reset P s.uCore, (SocRun.reset P s).bus.bytes⟩
        (outputs (SocRun.step P) schedule (reset P s) is))
      (outputs (SocRun.step P) (fun t _ => t.cpu.core.sampled t.soc.coreIn) (reset P s) is) := by
  have hpart : ∀ (t : SocRun) (i : SocIn),
      (t.step P i).cpu.core = t.cpu.core.step P t.soc.coreIn := fun _ _ => rfl
  have hstutters := Tracked.sampled_stutters P (reset P s).cpu.core
    (outputs (SocRun.step P) (fun t _ => [t.soc.coreIn]) (reset P s) is)
  have hretired := outputs_part (fun t : SocRun => t.cpu.core) (fun t _ => t.soc.coreIn) hpart
    Tracked.retired (reset P s) is
  have hsampled := outputs_part (fun t : SocRun => t.cpu.core) (fun t _ => t.soc.coreIn) hpart
    Tracked.sampled (reset P s) is
  have hend := run_part (fun t : SocRun => t.cpu.core) (fun t _ => t.soc.coreIn) hpart (reset P s) is
  rw [← hretired, ← hsampled, ← hend] at hstutters
  have hwrites : _ = [] ++ _ := (refines P s is).retired
  rw [List.nil_append, Tracked.writesPending, ← List.append_assoc] at hwrites
  rw [← hwrites]
  exact hstutters.append_right _

namespace TbSoc

/-- The record that a line stands for. -/
def record (d : Soc) : Retire where
  pc := d.uCore.tracePc.toNat
  instr := d.uCore.traceInstr.toNat
  rd := if d.uCore.traceWe then some (d.uCore.traceRd.toNat : Int) else none
  wdata := if d.uCore.traceWe then some (d.uCore.traceWdata.toNat : Int) else none
  lineNo := 0
  raw := []

/-- The records of a cycle. -/
def reported (t : SocRun) (_ : SocIn) : List Retire :=
  if t.soc.uCore.traceTrap t.soc.coreIn then [] else [record t.soc]

theorem csvLine_eq (t : SocRun) (i : SocIn) :
    csvLine t.soc = (reported t i).flatMap fun r => csvText r ++ ['\n'] := by
  unfold csvLine reported record
  split_ifs with htrap hwe
  · rfl
  · simp [csvText, TraceDiff.csvFields, hex8, dec, List.intercalate]
  · simp [csvText, TraceDiff.csvFields, hex8, List.intercalate]

theorem dec_length {limit : Nat} (hlimit : tooLong limit 2 = false) (rd : BitVec 5) :
    tooLong limit (Nat.toDigits 10 rd.toNat).length = false := by
  have hlength : ∀ r < 32, (Nat.toDigits 10 r).length ≤ 2 := by decide
  have hrd := hlength rd.toNat rd.isLt
  simp only [tooLong, Bool.and_eq_false_iff, decide_eq_false_iff_not] at hlimit ⊢
  omega

theorem record_printable {limit : Nat} (hlimit : tooLong limit 2 = false) (d : Soc) :
    Printable limit (record d) := by
  refine ⟨⟨_, rfl⟩, ⟨_, rfl⟩, ?_⟩
  unfold record
  cases hwe : d.uCore.traceWe with
  | false => exact .inl ⟨rfl, rfl⟩
  | true =>
    refine .inr ⟨d.uCore.traceRd.toNat, d.uCore.traceWdata.toNat, rfl, rfl, ?_,
      d.uCore.traceWdata.isLt, dec_length hlimit d.uCore.traceRd⟩
    have hne : d.uCore.traceRd ≠ 0#5 := bne_iff_ne.1 (Bool.and_eq_true_iff.1 hwe).2
    intro h
    exact hne (BitVec.eq_of_toNat_eq h)

theorem Ends.csv {P : Params} {tohostAddr : Word} {d : Soc} {max : Nat} {v : Vars}
    (h : Ends P tohostAddr d max v) : v.csv = lines P d (v.cycles + v.finished.toNat) := by
  cases h with
  | timeout h => rfl
  | exit n hn h hexit => rfl

theorem lines_eq (P : Params) (d : Soc) (n : Nat) :
    lines P d n = (outputs (SocRun.step P) reported (.reset P (d.reset P))
      (List.replicate n pins)).flatMap fun r => csvText r ++ ['\n'] := by
  rw [← outputs_bind]
  exact outputs_congr fun c _ => csvLine_eq c.1 c.2

/-- The key of a register write. -/
def retiredKey (r : Retired) : Int × Int × Option Int × Option Int :=
  (r.pc.toNat, r.instr.toNat, some (r.rd.toNat : Int), some (r.wdata.toNat : Int))

/-- The keys of register lines. -/
def registerKeys (trace : List Retire) : List (Int × Int × Option Int × Option Int) :=
  (trace.map Retire.key).filter (·.2.2.1.isSome)

/-- The register lines are those sampled. -/
theorem registerKeys_reported (t : SocRun) (i : SocIn) :
    registerKeys (reported t i) = (t.cpu.core.sampled t.soc.coreIn).map retiredKey := by
  unfold registerKeys reported Tracked.sampled Tracked.wbPending record
  show _ = (if t.soc.uCore.traceTrap t.soc.coreIn then [] else
    if t.soc.uCore.traceWe then [_] else []).map retiredKey
  split_ifs with htrap hwe
  · rfl
  · rfl
  · rfl

end TbSoc

open TbSoc in
/-- **The CSV can be read.**  `parse_core_csv` takes what the testbench has written of a run, and
finds the trace outputs of the cycles without a trap.  The register writes among them are those of
the sequential machine, in order, each any number of times; and so are those of every reference
trace that `diff` takes for equal. -/
theorem tb_soc_csv (P : Params) (tohostAddr : Word) (csvPath : Text) (d : Soc) {limit : Nat}
    (hlimit : tooLong limit 2 = false) :
    let v := loop P tohostAddr maxCycles (start P d)
    let is := List.replicate (v.cycles + v.finished.toNat) pins
    let s := d.reset P
    let M := SocRun.memMap P s is
    let writes := outputs (MemMachine.step P M) (MemMachine.retired P M)
      ⟨.reset P s.uCore, (SocRun.reset P s).bus.bytes⟩
      (outputs (SocRun.step P) SocRun.schedule (.reset P s) is)
    ∃ dut, TraceDiff.parseCoreCsv limit csvPath
        (fileLines (TbSoc.main P tohostAddr csvPath d).csv) = .ok dut ∧
      dut.map Retire.key =
        (outputs (SocRun.step P) reported (.reset P s) is).map Retire.key ∧
      Stutters (writes.map retiredKey) (registerKeys dut) ∧
      ∀ ref ctx, ((TraceDiff.diff limit ref dut ctx).exec []).1 = .ok 0 →
        Stutters (writes.map retiredKey) (registerKeys ref) := by
  intro v is s M writes
  let trace := outputs (SocRun.step P) reported (.reset P s) is
  have hprintable : ∀ r ∈ trace, Printable limit r := by
    intro r hr
    obtain ⟨c, -, hc⟩ := List.mem_flatMap.1 hr
    unfold reported at hc
    split_ifs at hc
    · cases hc
    · rw [List.mem_singleton.1 hc]
      exact record_printable hlimit c.1.soc
  -- it is what `emit_csv` would have written
  obtain ⟨csv, dut, hemit, hparse, hkeys⟩ := TraceDiff.parseCoreCsv_emitCsv hprintable csvPath
  have hcsv : (TbSoc.main P tohostAddr csvPath d).csv = csv := by
    have hwritten := Python.exec_forM_print
      (fun r hr => TraceDiff.csvLine_eq (hprintable r hr)) []
    have hsame := congrArg Prod.snd (hemit.symm.trans hwritten)
    rw [List.nil_append, List.flatMap_map] at hsame
    have hlines := (start_ends P tohostAddr d).csv.trans (lines_eq P d _)
    exact hlines.trans hsame.symm
  have hregisters : registerKeys trace =
      (outputs (SocRun.step P) (fun t _ => t.cpu.core.sampled t.soc.coreIn) (.reset P s) is).map
        retiredKey := by
    unfold registerKeys
    rw [← outputs_map, ← outputs_map, ← outputs_filter]
    exact outputs_congr fun c _ => registerKeys_reported c.1 c.2
  have hstutters : Stutters (writes.map retiredKey) (registerKeys trace) := by
    rw [hregisters]
    exact (SocRun.sampled_stutters P s is).map retiredKey
  have hdut : registerKeys dut = registerKeys trace := congrArg (List.filter _) hkeys
  rw [hcsv]
  refine ⟨dut, hparse, hkeys, by rwa [hdut], fun ref ctx hzero => ?_⟩
  have href : registerKeys ref = registerKeys dut :=
    congrArg (List.filter _) ((TraceDiff.diff_eq_zero_iff limit ref dut ctx).1 hzero)
  rwa [href, hdut]

/-- Python's own limit allows the numbers of registers. -/
theorem tb_soc_csv_exit :
    ∃ dut, TraceDiff.parseCoreCsv 4300 "soc_trace.csv".toList
      (fileLines (TbSoc.main exitProgram 0x80001000 "soc_trace.csv".toList .blank).csv) =
      .ok dut := by
  have hlimit : tooLong 4300 2 = false := by decide
  obtain ⟨dut, hparse, -⟩ :=
    tb_soc_csv exitProgram 0x80001000 "soc_trace.csv".toList .blank hlimit
  exact ⟨dut, hparse⟩

end Rv32i
