import Rv32iCore.Lib.Python
import Rv32iCore.Lib.Regex

/-!
# `trace_diff.py`

The trace harness of `tests/trace_diff.py`: the Spike commit log and the core's CSV are parsed
into lists of retired instructions, `emit_csv` writes such a list as CSV, and `diff` reports
where two of them part.  A file is the list of its lines, as iterating over it gives them.
`limit` is the interpreter's limit on decimal digits.

`int(group)` raises on a register number beyond the limit, and on nothing else that
`SPIKE_RE` lets through.
-/

namespace TraceDiff

open Python

/-! ## `Retire` -/

structure Retire where
  pc : Int
  instr : Int
  rd : Option Int
  wdata : Option Int
  lineNo : Nat
  raw : Text

namespace Retire

/-- `(r.pc, r.instr, r.rd, r.wdata)`, what `diff` compares. -/
def key (r : Retire) : Int × Int × Option Int × Option Int := (r.pc, r.instr, r.rd, r.wdata)

def brief (limit : Nat) (r : Retire) : Except Exn Text := do
  let wb ←
    match r.rd with
    | none => pure "--".toList
    | some rd => do
      let rd ← dec limit rd
      match r.wdata with
      | none => throw .typeError  -- `None` has no format `08x`
      | some wdata => pure ("x".toList ++ rd ++ "=0x".toList ++ hex 8 wdata)
  pure ("pc=0x".toList ++ hex 8 r.pc ++ " instr=0x".toList ++ hex 8 r.instr ++ " ".toList ++ wb)

end Retire

/-- A loop over the lines of a file from number `n` on: a line is skipped, gives a record, or
raises. -/
def parseLines (body : Nat → Text → Except Exn (Option Retire)) :
    Nat → List Text → Except Exn (List Retire)
  | _, [] => pure []
  | n, line :: lines => do
    let r ← body n line
    let out ← parseLines body (n + 1) lines
    pure (r.toList ++ out)

/-- `rd` and `wdata & 0xFFFFFFFF`, or neither for x0. -/
def writeback (rd wdata : Int) : Option Int × Option Int :=
  if rd = 0 then (none, none) else (some rd, some (wdata % 2 ^ 32))

/-! ## `parse_spike` -/

/-- `SPIKE_RE`; a match is anchored anyway. -/
def spikeRe : Regex Char :=
  .seqs [.lit "core".toList, .plus isSpace, .plus isDecimal, .lit ":".toList, .plus isSpace,
    .plus isDecimal, .plus isSpace, .lit "0x".toList, .group 1 (.plus (isDigit 16)), .plus isSpace,
    .lit "(0x".toList, .group 2 (.plus (isDigit 16)), .lit ")".toList,
    .opt (.seqs [.plus isSpace, .lit "x".toList, .star isSpace, .group 3 (.plus isDecimal),
      .plus isSpace, .lit "0x".toList, .group 4 (.plus (isDigit 16))])]

/-- `int(m.group(k), base)` -/
def intGroup (limit base : Nat) (m : Regex.Captures Char) (k : Nat) : Except Exn Int :=
  match m.lookup k with
  | none => throw .typeError
  | some s => int limit base s

/-- `rd` and `wdata` of a match. -/
def spikeWriteback (limit : Nat) (m : Regex.Captures Char) : Except Exn (Option Int × Option Int) :=
  if (m.lookup 3).isSome then do
    let rd ← intGroup limit 10 m 3
    let wdata ← intGroup limit 16 m 4
    pure (writeback rd wdata)
  else pure (none, none)

def parseSpikeLine (limit n : Nat) (line : Text) : Except Exn (Option Retire) :=
  match spikeRe.tryMatch line with
  | none => pure none
  | some m => do
    let pc ← intGroup limit 16 m 1
    let instr ← intGroup limit 16 m 2
    let (rd, wdata) ← spikeWriteback limit m
    pure (some { pc, instr, rd, wdata, lineNo := n, raw := rstrip line })

/-- Drops Spike's boot ROM: all before the first PC in DRAM, if there is one. -/
def dropBootRom (out : List Retire) : List Retire :=
  if out.any (0x80000000 ≤ ·.pc) then out.dropWhile (·.pc < 0x80000000) else out

def parseSpike (limit : Nat) (lines : List Text) : Except Exn (List Retire) := do
  let out ← parseLines (parseSpikeLine limit) 1 lines
  pure (dropBootRom out)

/-! ## `parse_core_csv` -/

/-- `rd` and `wdata` of the last two fields. -/
def coreWriteback (limit : Nat) (part2 part3 : Text) : Except Exn (Option Int × Option Int) :=
  if part2 ≠ "-".toList then do
    let rd ←
      if "0x".toList.isPrefixOf (part2.map Char.toLower) then int limit 16 part2
      else int limit 10 part2
    let wdata ← int limit 16 part3
    pure (writeback rd wdata)
  else pure (none, none)

def parseCoreLine (limit : Nat) (path : Text) (n : Nat) (line : Text) :
    Except Exn (Option Retire) :=
  let line := strip line
  if line = [] ∨ line.head? = some '#' then pure none
  else
    match line.splitOn ',' with
    | [part0, part1, part2, part3] => do
      let pc ← int limit 16 part0
      let instr ← int limit 16 part1
      let (rd, wdata) ← coreWriteback limit part2 part3
      pure (some { pc, instr, rd, wdata, lineNo := n, raw := line })
    | parts =>
      throw (.systemExit (path ++ ":".toList ++ Nat.toDigits 10 n ++ ": expected 4 fields, got ".toList ++
        Nat.toDigits 10 parts.length ++ ": ".toList ++ line))

def parseCoreCsv (limit : Nat) (path : Text) (lines : List Text) : Except Exn (List Retire) :=
  parseLines (parseCoreLine limit path) 1 lines

/-! ## `emit_csv` -/

def csvLine (limit : Nat) (r : Retire) : Except Exn Text :=
  match r.rd with
  | none => pure ([','].intercalate [hex 8 r.pc, hex 8 r.instr, "-".toList, "-".toList])
  | some rd => do
    let rd ← dec limit rd
    match r.wdata with
    | none => throw .typeError
    | some wdata => pure ([','].intercalate [hex 8 r.pc, hex 8 r.instr, rd, hex 8 wdata])

def emitCsv (limit : Nat) (retires : List Retire) : Py Unit :=
  retires.forM fun r => Py.ofExcept (csvLine limit r) >>= print

/-! ## `diff` -/

/-- The records from `idx - ctx` to `idx + ctx`, as far as there are such. -/
def showContext (limit : Nat) (tag : Text) (trace : List Retire) (idx : Nat) (ctx : Int) : Py Unit :=
  let lo := max 0 ((idx : Int) - ctx)
  let hi := min (trace.length : Int) (idx + ctx + 1)
  (trace.zipIdx.filter fun (_, i) => lo ≤ i && (i : Int) < hi).forM fun (r, i) => do
    let marker := if i = idx then ">>".toList else "  ".toList
    let brief ← Py.ofExcept (r.brief limit)
    print ("  ".toList ++ marker ++ " [".toList ++ tag ++ " #".toList ++ Nat.toDigits 10 i ++
      ", line ".toList ++ Nat.toDigits 10 r.lineNo ++ "] ".toList ++ brief)

/-- The exit status: 0 for equal traces, 1 otherwise. -/
def diff (limit : Nat) (ref dut : List Retire) (ctx : Int) : Py Nat := do
  let n := min ref.length dut.length
  match (ref.zip dut).zipIdx.find? fun ((r, d), _) => r.key ≠ d.key with
  | some ((r, d), i) =>
    print ("DIVERGENCE at retired-instruction index ".toList ++ Nat.toDigits 10 i ++ ":".toList)
    let brief ← Py.ofExcept (r.brief limit)
    print ("  ref: ".toList ++ brief)
    let brief ← Py.ofExcept (d.brief limit)
    print ("  dut: ".toList ++ brief)
    print "\nReference context:".toList
    showContext limit "ref".toList ref i ctx
    print "\nDUT context:".toList
    showContext limit "dut".toList dut i ctx
    pure 1
  | none =>
    if ref.length ≠ dut.length then
      print ("LENGTH MISMATCH after ".toList ++ Nat.toDigits 10 n ++
        " matching instructions: ref has ".toList ++ Nat.toDigits 10 ref.length ++
        ", dut has ".toList ++ Nat.toDigits 10 dut.length)
      if ref.length > dut.length then showContext limit "ref".toList ref n ctx
      else showContext limit "dut".toList dut n ctx
      pure 1
    else
      print ("PASS: ".toList ++ Nat.toDigits 10 n ++ " retired instructions match".toList)
      pure 0

end TraceDiff
