import Rv32iCore.Harness.TraceDiff

/-!
# The trace CSV

Writer and reader are apart: `emit_csv` and `parse_core_csv` share no code.  What
`parse_spike` returns is `Printable`: a record that both can handle.

    parseSpikeLine_eq_none   the lines that parse_spike skips
    parseSpike_cases         parse_spike returns printable records, or raises on a register number
    parseCoreCsv_emitCsv     parse_core_csv reads back what emit_csv writes
    diff_eq_zero_iff         diff returns 0 iff the traces are equal, line numbers and texts apart
    trace_csv_round_trip     the three together
-/

namespace TraceDiff

open Python

/-! ## Records -/

/-- A register, not x0 and within the limit on decimal digits, and its 32-bit value, or neither. -/
def PrintableWriteback (limit : Nat) (rd wdata : Option Int) : Prop :=
  (rd = none ∧ wdata = none) ∨
    ∃ r w : Nat, rd = some (r : Int) ∧ wdata = some (w : Int) ∧ r ≠ 0 ∧ w < 2 ^ 32 ∧
      tooLong limit (Nat.toDigits 10 r).length = false

/-- A record that can be written and read back. -/
structure Printable (limit : Nat) (r : Retire) : Prop where
  pc : ∃ pc : Nat, r.pc = pc
  instr : ∃ instr : Nat, r.instr = instr
  writeback : PrintableWriteback limit r.rd r.wdata

theorem writeback_ne_zero {rd : Nat} (hrd : rd ≠ 0) (wdata : Nat) :
    writeback rd wdata = (some (rd : Int), some ((wdata % 2 ^ 32 : Nat) : Int)) := by
  rw [writeback, if_neg (by omega)]
  norm_cast

/-- x0 is dropped and the value cut to 32 bits, whatever was parsed. -/
theorem writeback_printable {limit rd : Nat} (wdata : Nat)
    (h : tooLong limit (Nat.toDigits 10 rd).length = false) :
    PrintableWriteback limit (writeback rd wdata).1 (writeback rd wdata).2 := by
  by_cases hrd : rd = 0
  · subst hrd
    exact .inl ⟨rfl, rfl⟩
  · rw [writeback_ne_zero hrd]
    exact .inr ⟨rd, wdata % 2 ^ 32, rfl, rfl, hrd, Nat.mod_lt _ (by omega), h⟩

/-! ## `parse_spike` -/

/-- What `SPIKE_RE` captures: three rows of hexadecimal digits and one of decimal digits. -/
theorem spikeRe_captured {line : Text} {m : Regex.Captures Char}
    (h : spikeRe.tryMatch line = some m) :
    ∃ pc instr, (pc ≠ [] ∧ ∀ c ∈ pc, isDigit 16 c = true) ∧
      (instr ≠ [] ∧ ∀ c ∈ instr, isDigit 16 c = true) ∧
      (m = [(1, pc), (2, instr)] ∨
        ∃ rd wdata, (rd ≠ [] ∧ ∀ c ∈ rd, isDecimal c = true) ∧
          (wdata ≠ [] ∧ ∀ c ∈ wdata, isDigit 16 c = true) ∧
          m = [(1, pc), (2, instr), (3, rd), (4, wdata)]) := by
  have hm := Regex.tryMatch_captured h
  simp only [spikeRe, Regex.captured_seqs_cons, Regex.captured_lit, Regex.captured_plus,
    Regex.captured_group_plus, Regex.captured_opt, Regex.captured_star, Regex.captured_seqs_nil,
    exists_and_left, existsAndEq, List.append_nil, exists_eq_right', and_true,
    exists_eq_left, List.nil_append, List.cons_append, exists_eq_or_imp] at hm
  obtain ⟨pc, m', ⟨hpc, instr, hinstr, rfl | ⟨rd, wdata, ⟨hrd, hwdata⟩, rfl⟩⟩, rfl⟩ := hm
  · exact ⟨pc, instr, hpc, hinstr, .inl rfl⟩
  · exact ⟨pc, instr, hpc, hinstr, .inr ⟨rd, wdata, hrd, hwdata, rfl⟩⟩

/-- The line's register number has more digits than `int` takes. -/
def RegisterTooLong (limit : Nat) (line : Text) : Prop :=
  ∃ m rd, spikeRe.tryMatch line = some m ∧ m.lookup 3 = some rd ∧ tooLong limit rd.length = true

/-- `parse_spike` skips a line iff `SPIKE_RE` denotes no beginning of it. -/
theorem parseSpikeLine_eq_none (limit n : Nat) (line : Text) :
    parseSpikeLine limit n line = .ok none ↔
      ∀ m t u, line = t ++ u → ¬ spikeRe.Denotes m t := by
  rw [← Regex.tryMatch_eq_none]
  unfold parseSpikeLine
  cases spikeRe.tryMatch line with
  | none => exact iff_of_true rfl rfl
  | some m =>
    refine iff_of_false ?_ (by simp)
    -- a match gives a record or raises, whatever `int` says of the groups
    dsimp only
    rcases intGroup limit 16 m 1 with _ | pc
    · intro h
      cases h
    rcases intGroup limit 16 m 2 with _ | instr
    · intro h
      cases h
    rcases spikeWriteback limit m with _ | wb
    · intro h
      cases h
    · intro h
      cases h

theorem intGroup_hexDigits {limit k : Nat} {m : Regex.Captures Char} {s : Text}
    (hk : m.lookup k = some s) (hs : s ≠ [] ∧ ∀ c ∈ s, isDigit 16 c = true) :
    intGroup limit 16 m k = .ok (ofDigits 16 s) := by
  rw [intGroup, hk]
  exact int_hexDigits hs.1 hs.2

/-- The register and its value are printable, unless the register number is too long. -/
theorem spikeWriteback_cases (limit : Nat) {m : Regex.Captures Char} {rd wdata : Text}
    (h₃ : m.lookup 3 = some rd) (hrd : rd ≠ [] ∧ ∀ c ∈ rd, isDecimal c = true)
    (h₄ : m.lookup 4 = some wdata) (hwdata : wdata ≠ [] ∧ ∀ c ∈ wdata, isDigit 16 c = true) :
    (spikeWriteback limit m = .error .valueError ∧ tooLong limit rd.length = true) ∨
    ∃ wb, spikeWriteback limit m = .ok wb ∧ PrintableWriteback limit wb.1 wb.2 := by
  have hint : intGroup limit 10 m 3 =
      if tooLong limit rd.length then .error .valueError
      else .ok (ofDigits 10 (rd.map toAscii)) := by
    rw [intGroup, h₃]
    exact int_decimals hrd.1 hrd.2
  unfold spikeWriteback
  rw [if_pos (by rw [h₃]; rfl), hint, intGroup_hexDigits h₄ hwdata]
  cases hlong : tooLong limit rd.length with
  | true => exact .inl ⟨rfl, rfl⟩
  | false =>
    refine .inr ⟨_, rfl, writeback_printable _ (tooLong_ofDigits (by simpa using hrd.1) ?_ ?_)⟩
    · exact List.forall_mem_map.2 fun c hc => isDigit_of_isDecimal (hrd.2 c hc)
    · rwa [List.length_map]

/-- A line is skipped or gives a printable record, unless its register number is too long. -/
theorem parseSpikeLine_cases (limit n : Nat) (line : Text) :
    (∃ o, parseSpikeLine limit n line = .ok o ∧ ∀ r ∈ o, Printable limit r) ∨
    (parseSpikeLine limit n line = .error .valueError ∧ RegisterTooLong limit line) := by
  unfold parseSpikeLine
  cases hm : spikeRe.tryMatch line with
  | none => exact .inl ⟨none, rfl, by simp⟩
  | some m =>
    obtain ⟨pc, instr, hpc, hinstr, hwb⟩ := spikeRe_captured hm
    have h₁ : m.lookup 1 = some pc := by rcases hwb with rfl | ⟨_, _, _, _, rfl⟩ <;> rfl
    have h₂ : m.lookup 2 = some instr := by rcases hwb with rfl | ⟨_, _, _, _, rfl⟩ <;> rfl
    simp only [intGroup_hexDigits h₁ hpc, intGroup_hexDigits h₂ hinstr]
    have hok : ∀ wb : Option Int × Option Int, PrintableWriteback limit wb.1 wb.2 →
        ∀ r ∈ some (Retire.mk (ofDigits 16 pc) (ofDigits 16 instr) wb.1 wb.2 n (rstrip line)),
          Printable limit r := by
      rintro wb hprint r ⟨⟩
      exact ⟨⟨_, rfl⟩, ⟨_, rfl⟩, hprint⟩
    rcases hwb with rfl | ⟨rd, wdata, hrd, hwdata, rfl⟩
    · exact .inl ⟨_, rfl, hok (none, none) (.inl ⟨rfl, rfl⟩)⟩
    · have hcases := spikeWriteback_cases limit
        (m := [(1, pc), (2, instr), (3, rd), (4, wdata)]) rfl hrd rfl hwdata
      rcases hcases with ⟨hwb, hlong⟩ | ⟨wb, hwb, hprint⟩
      · rw [hwb]
        exact .inr ⟨rfl, _, rd, hm, rfl, hlong⟩
      · rw [hwb]
        exact .inl ⟨_, rfl, hok wb hprint⟩

/-- A loop whose body skips a line, gives a record with `P`, or raises `e` on a bad line. -/
theorem parseLines_cases {body : Nat → Text → Except Exn (Option Retire)} {P : Retire → Prop}
    {Bad : Text → Prop} {e : Exn}
    (hbody : ∀ n line, (∃ o, body n line = .ok o ∧ ∀ r ∈ o, P r) ∨
      (body n line = .error e ∧ Bad line)) (n : Nat) (lines : List Text) :
    (∃ out, parseLines body n lines = .ok out ∧ ∀ r ∈ out, P r) ∨
    (parseLines body n lines = .error e ∧ ∃ line ∈ lines, Bad line) := by
  induction lines generalizing n with
  | nil => exact .inl ⟨[], rfl, by simp⟩
  | cons line lines ih =>
    unfold parseLines
    rcases hbody n line with ⟨o, hline, hr⟩ | ⟨hline, hbad⟩
    · rw [hline]
      rcases ih (n + 1) with ⟨out, hout, hP⟩ | ⟨hout, line', hmem, hbad⟩
      · rw [hout]
        refine .inl ⟨o.toList ++ out, rfl, fun r hmem => ?_⟩
        rcases List.mem_append.1 hmem with hmem | hmem
        · exact hr r (Option.mem_toList.1 hmem)
        · exact hP r hmem
      · rw [hout]
        exact .inr ⟨rfl, line', List.mem_cons_of_mem _ hmem, hbad⟩
    · rw [hline]
      exact .inr ⟨rfl, line, List.mem_cons_self, hbad⟩

theorem dropBootRom_subset (out : List Retire) : dropBootRom out ⊆ out := by
  unfold dropBootRom
  split
  · exact (List.dropWhile_suffix _).subset
  · exact List.Subset.refl out

/-- **`parse_spike`** returns printable records, or raises on a register number. -/
theorem parseSpike_cases (limit : Nat) (log : List Text) :
    (∃ trace, parseSpike limit log = .ok trace ∧ ∀ r ∈ trace, Printable limit r) ∨
    (parseSpike limit log = .error .valueError ∧ ∃ line ∈ log, RegisterTooLong limit line) := by
  unfold parseSpike
  rcases parseLines_cases (parseSpikeLine_cases limit) 1 log with ⟨out, hout, hP⟩ | ⟨hout, hbad⟩
  · rw [hout]
    exact .inl ⟨dropBootRom out, rfl, fun r hr => hP r (dropBootRom_subset out hr)⟩
  · rw [hout]
    exact .inr ⟨rfl, hbad⟩

/-! ## `emit_csv` -/

/-- The four fields of a printable record. -/
def csvFields (r : Retire) : List Text :=
  [hex 8 r.pc, hex 8 r.instr, r.rd.elim "-".toList fun rd => Nat.toDigits 10 rd.natAbs,
    r.wdata.elim "-".toList (hex 8)]

def csvText (r : Retire) : Text := [','].intercalate (csvFields r)

theorem csvLine_eq {limit : Nat} {r : Retire} (h : Printable limit r) :
    csvLine limit r = .ok (csvText r) := by
  rcases h.writeback with ⟨hrd, hwdata⟩ | ⟨rd, wdata, hrd, hwdata, -, -, hlim⟩
  · rw [csvLine, csvText, csvFields, hrd, hwdata]
    rfl
  · simp only [csvLine, csvText, csvFields, hrd, hwdata, dec_eq hlim]
    rfl

/-- A field has hexadecimal digits and `-` only. -/
theorem csvFields_chars {limit : Nat} {r : Retire} (h : Printable limit r) :
    ∀ f ∈ csvFields r, ∀ c ∈ f, isDigit 16 c = true ∨ c = '-' := by
  obtain ⟨pc, hpc⟩ := h.pc
  obtain ⟨instr, hinstr⟩ := h.instr
  have hhex : ∀ n : Nat, ∀ c ∈ hex 8 n, isDigit 16 c = true ∨ c = '-' :=
    fun n c hc => .inl (isDigit_hex 8 n hc)
  have hnone : ∀ c ∈ "-".toList, isDigit 16 c = true ∨ c = '-' := by simp
  have hdec : ∀ n : Nat, ∀ c ∈ Nat.toDigits 10 n, isDigit 16 c = true ∨ c = '-' :=
    fun n c hc => .inl (isDigit_mono (by omega) (isDigit_dec n hc))
  rcases h.writeback with ⟨hrd, hwdata⟩ | ⟨rd, wdata, hrd, hwdata, -⟩
  · simp only [csvFields, hpc, hinstr, hrd, hwdata, List.forall_mem_cons]
    exact ⟨hhex pc, hhex instr, hnone, hnone, by simp⟩
  · simp only [csvFields, hpc, hinstr, hrd, hwdata, List.forall_mem_cons]
    exact ⟨hhex pc, hhex instr, hdec rd, hhex wdata, by simp⟩

theorem csvText_chars {limit : Nat} {r : Retire} (h : Printable limit r) :
    ∀ c ∈ csvText r, isSpace c = false ∧ c ≠ '#' := by
  intro c hc
  rcases mem_intercalate hc with rfl | ⟨f, hf, hc⟩
  · decide
  · rcases csvFields_chars h f hf c hc with hc | rfl
    · exact ⟨isDigit_not_isSpace hc, isDigit_ne (by omega) hc (by decide)⟩
    · decide

/-- The commas of a line are those between its fields. -/
theorem csvText_split {limit : Nat} {r : Retire} (h : Printable limit r) :
    (csvText r).splitOn ',' = csvFields r := by
  refine List.splitOn_intercalate ',' (fun f hf hmem => ?_) (by simp [csvFields])
  rcases csvFields_chars h f hf ',' hmem with hc | hc
  · revert hc
    decide
  · revert hc
    decide

/-! ## `parse_core_csv` -/

/-- A decimal number does not start with `0x`, in whatever case. -/
theorem not_hexMark_dec (n : Nat) :
    "0x".toList.isPrefixOf ((Nat.toDigits 10 n).map Char.toLower) = false := by
  rw [← Bool.not_eq_true, List.isPrefixOf_iff_prefix]
  intro hpre
  have hx : 'x' ∈ (Nat.toDigits 10 n).map Char.toLower := hpre.subset (by decide)
  obtain ⟨c, hc, hlower⟩ := List.mem_map.1 hx
  rw [toLower_decimal (isDigit_dec n hc)] at hlower
  exact absurd hlower (isDigit_ne (by omega) (isDigit_dec n hc) (by decide))

theorem coreWriteback_eq {limit : Nat} {rd wdata : Option Int}
    (h : PrintableWriteback limit rd wdata) :
    coreWriteback limit (rd.elim "-".toList fun rd => Nat.toDigits 10 rd.natAbs)
      (wdata.elim "-".toList (hex 8)) = .ok (rd, wdata) := by
  rcases h with ⟨rfl, rfl⟩ | ⟨r, w, rfl, rfl, hr, hw, hlim⟩
  · rfl
  · have hdash : Nat.toDigits 10 r ≠ "-".toList := by
      intro he
      have hd : isDigit 10 '-' = true := isDigit_dec r (by rw [he]; decide)
      revert hd
      decide
    have hwb : writeback r w = (some (r : Int), some (w : Int)) := by
      rw [writeback_ne_zero hr, Nat.mod_eq_of_lt hw]
    simp only [coreWriteback, Option.elim, Int.natAbs_natCast, if_pos hdash, not_hexMark_dec,
      int_dec hlim, int_hex, Bool.false_eq_true, if_false]
    exact congrArg Except.ok hwb

/-- **A line of the CSV** is read back as the record it was written for. -/
theorem parseCoreLine_csvText {limit : Nat} {r : Retire} (h : Printable limit r) (path : Text)
    (n : Nat) :
    parseCoreLine limit path n (csvText r ++ ['\n']) =
      .ok (some { r with lineNo := n, raw := csvText r }) := by
  have hchars := csvText_chars h
  have hsplit := csvText_split h
  have hstrip : strip (csvText r ++ ['\n']) = csvText r := strip_line fun c hc => (hchars c hc).1
  have hdata : ¬ (csvText r = [] ∨ (csvText r).head? = some '#') := by
    rintro (he | he)
    · rw [he, List.splitOn_nil] at hsplit
      simp [csvFields] at hsplit
    · exact (hchars '#' (List.mem_of_head? he)).2 rfl
  obtain ⟨pc, hpc⟩ := h.pc
  obtain ⟨instr, hinstr⟩ := h.instr
  have hwb := coreWriteback_eq h.writeback
  simp only [parseCoreLine, hstrip, if_neg hdata, hsplit, csvFields, hwb, hpc, hinstr, int_hex]
  rfl

theorem parseLines_csvText {limit : Nat} {trace : List Retire} (h : ∀ r ∈ trace, Printable limit r)
    (path : Text) (n : Nat) :
    ∃ dut, parseLines (parseCoreLine limit path) n (trace.map fun r => csvText r ++ ['\n']) =
        .ok dut ∧
      dut.map Retire.key = trace.map Retire.key := by
  induction trace generalizing n with
  | nil => exact ⟨[], rfl, rfl⟩
  | cons r trace ih =>
    rw [List.forall_mem_cons] at h
    obtain ⟨dut, hdut, hkeys⟩ := ih h.2 (n + 1)
    refine ⟨{ r with lineNo := n, raw := csvText r } :: dut, ?_, ?_⟩
    · rw [List.map_cons, parseLines, parseCoreLine_csvText h.1, hdut]
      rfl
    · rw [List.map_cons, hkeys]
      rfl

/-- **`parse_core_csv`** reads back what `emit_csv` writes. -/
theorem parseCoreCsv_emitCsv {limit : Nat} {trace : List Retire}
    (h : ∀ r ∈ trace, Printable limit r) (path : Text) :
    ∃ csv dut, (emitCsv limit trace).exec [] = (.ok (), csv) ∧
      parseCoreCsv limit path (fileLines csv) = .ok dut ∧
      dut.map Retire.key = trace.map Retire.key := by
  have hemit := exec_forM_print (fun r hr => csvLine_eq (h r hr)) []
  have hclean : ∀ line ∈ trace.map csvText, '\n' ∉ line ∧ '\r' ∉ line := by
    intro line hline
    obtain ⟨r, hr, rfl⟩ := List.mem_map.1 hline
    have hspace := fun c hc => (csvText_chars (h r hr) c hc).1
    exact ⟨fun hc => absurd (hspace _ hc) (by decide), fun hc => absurd (hspace _ hc) (by decide)⟩
  obtain ⟨dut, hdut, hkeys⟩ := parseLines_csvText h path 1
  refine ⟨_, dut, hemit, ?_, hkeys⟩
  rw [List.nil_append, fileLines_lines hclean, List.map_map]
  exact hdut

/-! ## `diff` -/

/-- The comparison finds nothing, in traces of one length, iff the keys are equal. -/
theorem keys_eq_iff {ref dut : List Retire} :
    ref.map Retire.key = dut.map Retire.key ↔
      ref.length = dut.length ∧ ∀ p ∈ ref.zip dut, p.1.key = p.2.key := by
  induction ref generalizing dut with
  | nil => cases dut <;> simp
  | cons r ref ih =>
    cases dut with
    | nil => simp
    | cons d dut =>
      simp only [List.map_cons, List.cons.injEq, List.length_cons, Nat.add_right_cancel_iff, ih,
        List.zip_cons_cons, List.forall_mem_cons]
      constructor
      · rintro ⟨hkey, hlen, hzip⟩
        exact ⟨hlen, hkey, hzip⟩
      · rintro ⟨hlen, hkey, hzip⟩
        exact ⟨hkey, hlen, hzip⟩

theorem find_difference_eq_none {ref dut : List Retire} :
    ((ref.zip dut).zipIdx.find? fun ((r, d), _) => r.key ≠ d.key) = none ↔
      ∀ p ∈ ref.zip dut, p.1.key = p.2.key := by
  rw [List.find?_eq_none]
  conv_rhs => rw [← List.zipIdx_map_fst 0 (ref.zip dut), List.forall_mem_map]
  simp

/-- Once a difference is printed, `diff` can only return 1. -/
theorem diff_difference (limit : Nat) {ref dut : List Retire} (ctx : Int)
    (h : ref.map Retire.key ≠ dut.map Retire.key) : (diff limit ref dut ctx).Returns (· = 1) := by
  unfold diff
  split
  · repeat refine .bind fun _ => ?_
    exact .pure rfl
  · next hnone =>
    have hlen : ref.length ≠ dut.length :=
      fun hlen => h (keys_eq_iff.2 ⟨hlen, find_difference_eq_none.1 hnone⟩)
    rw [if_pos hlen]
    refine .bind fun _ => ?_
    dsimp only
    split
    · exact .bind fun _ => .pure rfl
    · exact .bind fun _ => .pure rfl

/-- **`diff`** returns 0 iff the traces are equal in what it compares, and so of one length. -/
theorem diff_eq_zero_iff (limit : Nat) (ref dut : List Retire) (ctx : Int) :
    ((diff limit ref dut ctx).exec []).1 = .ok 0 ↔ ref.map Retire.key = dut.map Retire.key := by
  constructor
  · intro hzero
    by_contra hne
    exact absurd (diff_difference limit ctx hne [] 0 hzero) (by omega)
  · intro heq
    obtain ⟨hlen, hzip⟩ := keys_eq_iff.1 heq
    unfold diff
    rw [find_difference_eq_none.2 hzip]
    simp only [if_neg (not_not.2 hlen)]
    rfl

/-! ## The round trip -/

/-- **Trace CSV round trip.**  Of every Spike log that `parse_spike` gets through, the CSV is
read back with the same PCs, instructions, registers and values, and `diff` says so.  It does
not get through a register number that `int` refuses.  Of any two traces, `diff` returns 0
iff they agree in these four, record by record, and in length. -/
theorem trace_csv_round_trip (limit : Nat) (path : Text) :
    (∀ log : List Text,
      (∃ trace csv dut, parseSpike limit log = .ok trace ∧
        (emitCsv limit trace).exec [] = (.ok (), csv) ∧
        parseCoreCsv limit path (fileLines csv) = .ok dut ∧
        dut.map Retire.key = trace.map Retire.key ∧
        ∀ ctx, ((diff limit trace dut ctx).exec []).1 = .ok 0) ∨
      (parseSpike limit log = .error .valueError ∧ ∃ line ∈ log, RegisterTooLong limit line)) ∧
    ∀ (ref dut : List Retire) (ctx : Int),
      ((diff limit ref dut ctx).exec []).1 = .ok 0 ↔ ref.map Retire.key = dut.map Retire.key := by
  constructor
  · intro log
    rcases parseSpike_cases limit log with ⟨trace, htrace, hprint⟩ | herr
    · obtain ⟨csv, dut, hemit, hparse, hkeys⟩ := parseCoreCsv_emitCsv hprint path
      exact .inl ⟨trace, csv, dut, htrace, hemit, hparse, hkeys,
        fun ctx => (diff_eq_zero_iff limit trace dut ctx).2 hkeys.symm⟩
    · exact .inr herr
  · exact diff_eq_zero_iff limit

example :
    (parseSpike 4300 ["core   0: 3 0x80000010 (0x00100093) x1  0x00000001\n".toList]).map
        (·.map csvText) =
      .ok ["80000010,00100093,1,00000001".toList] := by
  decide +kernel

end TraceDiff
