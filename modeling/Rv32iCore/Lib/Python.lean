import Mathlib.Data.List.DropRight
import Mathlib.Data.List.TakeWhile
import Mathlib.Data.Nat.Digits.Defs

/-!
# Python's text, integers and output

What a script does with the strings it reads and writes: `strip`, `int(s, base)` for the bases
10 and 16, `f"{n}"` and `f"{n:0wx}"`, the lines of a text file, `print`, and the exceptions.
Characters are classified by Unicode 14.  The interpreter's limit on the digits of a decimal
integer (`sys.set_int_max_str_digits`, 0 for none) is a parameter.

    int_digits        a row of digits is read as its value
    int_hex           what `f"{n:0wx}"` writes, `int(s, 16)` reads
    int_dec           what `f"{n}"` writes, `int(s)` reads
    fileLines_lines   what is printed line by line is read line by line
-/

namespace Python

abbrev Text := List Char

inductive Exn where
  | valueError
  | typeError
  /-- `sys.exit(message)` -/
  | systemExit (message : Text)
deriving DecidableEq

/-! ## Characters -/

/-- The characters of category Nd come in rows of ten; these are the zeros. -/
def decimalZeros : List Nat :=
  [0x30, 0x660, 0x6f0, 0x7c0, 0x966, 0x9e6, 0xa66, 0xae6, 0xb66, 0xbe6, 0xc66, 0xce6, 0xd66, 0xde6,
   0xe50, 0xed0, 0xf20, 0x1040, 0x1090, 0x17e0, 0x1810, 0x1946, 0x19d0, 0x1a80, 0x1a90, 0x1b50,
   0x1bb0, 0x1c40, 0x1c50, 0xa620, 0xa8d0, 0xa900, 0xa9d0, 0xa9f0, 0xaa50, 0xabf0, 0xff10, 0x104a0,
   0x10d30, 0x11066, 0x110f0, 0x11136, 0x111d0, 0x112f0, 0x11450, 0x114d0, 0x11650, 0x116c0, 0x11730,
   0x118e0, 0x11950, 0x11c50, 0x11d50, 0x11da0, 0x16a60, 0x16ac0, 0x16b50, 0x1d7ce, 0x1d7d8, 0x1d7e2,
   0x1d7ec, 0x1d7f6, 0x1e140, 0x1e2f0, 0x1e950, 0x1fbf0]

/-- The value of a decimal digit of any script. -/
def decimal (c : Char) : Option Nat :=
  decimalZeros.findSome? fun z =>
    if z ≤ c.toNat ∧ c.toNat < z + 10 then some (c.toNat - z) else none

/-- `\d` -/
def isDecimal (c : Char) : Bool := (decimal c).isSome

def spaceRanges : List (Nat × Nat) :=
  [(0x9, 0xd), (0x1c, 0x20), (0x85, 0x85), (0xa0, 0xa0), (0x1680, 0x1680), (0x2000, 0x200a),
   (0x2028, 0x2029), (0x202f, 0x202f), (0x205f, 0x205f), (0x3000, 0x3000)]

/-- `\s`, and what `strip` removes. -/
def isSpace (c : Char) : Bool := spaceRanges.any fun (lo, hi) => lo ≤ c.toNat && c.toNat ≤ hi

def rstrip (s : Text) : Text := s.rdropWhile isSpace

def strip (s : Text) : Text := rstrip (s.dropWhile isSpace)

/-! ## Integers -/

/-- The value of an ASCII digit or letter as a digit. -/
def digitValue (c : Char) : Option Nat :=
  if 48 ≤ c.toNat ∧ c.toNat ≤ 57 then some (c.toNat - 48)               -- 0-9
  else if 97 ≤ c.toNat ∧ c.toNat ≤ 122 then some (c.toNat - 97 + 10)    -- a-z
  else if 65 ≤ c.toNat ∧ c.toNat ≤ 90 then some (c.toNat - 65 + 10)     -- A-Z
  else none

def isDigit (base : Nat) (c : Char) : Bool := (digitValue c).any (· < base)

def ofDigits (base : Nat) (s : Text) : Nat :=
  Nat.ofDigits base (s.reverse.map fun c => (digitValue c).getD 0)

/-- `int` first maps the spaces and decimal digits of other scripts to ASCII. -/
def toAscii (c : Char) : Char :=
  if c.toNat < 127 then c
  else if isSpace c then ' '
  else (decimal c).elim '?' Nat.digitChar

/-- What `int` skips around a number, after `toAscii`. -/
def isCSpace (c : Char) : Bool := c == ' ' || (9 ≤ c.toNat && c.toNat ≤ 13)

/-- An optional sign, and what follows it. -/
def splitSign : Text → Bool × Text
  | '-' :: s => (true, s)
  | '+' :: s => (false, s)
  | s => (false, s)

/-- Base 16 allows `0x` in front, and an underscore after it. -/
def dropHexMark : Text → Text
  | '0' :: x :: s =>
    if x = 'x' ∨ x = 'X' then
      match s with
      | '_' :: s => s
      | s => s
    else '0' :: x :: s
  | s => s

/-- `limit` is exceeded by `n` digits. -/
def tooLong (limit n : Nat) : Bool := 0 < limit && limit < n

/-- `int(s, base)` for the bases 10 and 16.  Single underscores may stand between digits; the
limit on digits is for decimal numbers. -/
def int (limit base : Nat) (s : Text) : Except Exn Int :=
  let (neg, s) := splitSign ((s.map toAscii).dropWhile isCSpace)
  let s := if base = 16 then dropHexMark s else s
  let body := s.takeWhile fun c => isDigit base c || c == '_'
  let rest := s.dropWhile fun c => isDigit base c || c == '_'
  let digits := body.filter (· != '_')
  if (body.splitOn '_').any List.isEmpty || !rest.all isCSpace then .error .valueError
  else if base = 10 ∧ tooLong limit digits.length then .error .valueError
  else .ok (if neg then -(ofDigits base digits : Int) else ofDigits base digits)

/-- `f"{n}"` -/
def dec (limit : Nat) (n : Int) : Except Exn Text :=
  let digits := Nat.toDigits 10 n.natAbs
  if tooLong limit digits.length then .error .valueError
  else .ok (if n < 0 then '-' :: digits else digits)

/-- `f"{n:0wx}"`: the sign counts for the width. -/
def hex (width : Nat) (n : Int) : Text :=
  let digits := Nat.toDigits 16 n.natAbs
  if n < 0 then '-' :: digits.leftpad (width - 1) '0' else digits.leftpad width '0'

/-! ## Files and output -/

/-- `\r\n` and `\r` are read as `\n`. -/
def universalNewlines : Text → Text
  | '\r' :: '\n' :: s => '\n' :: universalNewlines s
  | '\r' :: s => '\n' :: universalNewlines s
  | c :: s => c :: universalNewlines s
  | [] => []

/-- The lines of a text, each with the newline that ends it. -/
def splitLines : Text → List Text
  | [] => []
  | c :: s =>
    if c = '\n' then ['\n'] :: splitLines s
    else
      match splitLines s with
      | [] => [[c]]
      | line :: lines => (c :: line) :: lines

/-- What iterating over an open text file gives. -/
def fileLines (text : Text) : List Text := splitLines (universalNewlines text)

/-- A computation that prints and may raise; what was printed before stays printed. -/
abbrev Py := ExceptT Exn (StateM Text)

def print (line : Text) : Py Unit := modify fun out => out ++ (line ++ ['\n'])

def Py.ofExcept {α : Type} (x : Except Exn α) : Py α := ExceptT.mk (pure x)

/-- The result, and all that is printed when `out` is printed already. -/
def Py.exec {α : Type} (x : Py α) (out : Text) : Except Exn α × Text :=
  Id.run (StateT.run (ExceptT.run x) out)

/-! ## Rows of digits -/

theorem isDigit_iff {base : Nat} {c : Char} :
    isDigit base c = true ↔ ∃ d, digitValue c = some d ∧ d < base := by
  unfold isDigit
  cases digitValue c <;> simp

theorem digitValue_digitChar {d : Nat} (hd : d < 16) : digitValue (Nat.digitChar d) = some d := by
  revert d
  decide

/-- A digit is a letter or a decimal digit, and below 128. -/
theorem isDigit_bounds {base : Nat} {c : Char} (h : isDigit base c = true) :
    (48 ≤ c.toNat ∧ c.toNat ≤ 57) ∨ (65 ≤ c.toNat ∧ c.toNat ≤ 122) := by
  obtain ⟨d, hd, -⟩ := isDigit_iff.1 h
  unfold digitValue at hd
  split_ifs at hd with h₁ h₂ h₃ <;> omega

theorem isDigit_not_isSpace {base : Nat} {c : Char} (h : isDigit base c = true) :
    isSpace c = false := by
  have hb := isDigit_bounds h
  simp only [isSpace, spaceRanges, List.any_cons, List.any_nil, Bool.or_eq_false_iff,
    Bool.and_eq_false_iff, decide_eq_false_iff_not, and_true]
  omega

theorem toLower_decimal {c : Char} (h : isDigit 10 c = true) : c.toLower = c := by
  obtain ⟨d, hd, hlt⟩ := isDigit_iff.1 h
  have hc : c.toNat ≤ 57 := by
    unfold digitValue at hd
    split_ifs at hd with h₁ h₂ h₃ <;> simp only [Option.some.injEq] at hd <;> omega
  exact dif_neg fun hup => absurd (UInt32.le_iff_toNat_le.1 hup.1) (by
    change ¬ 65 ≤ c.toNat
    omega)

theorem isDigit_toDigits {base n : Nat} (hb : 1 < base) (hb' : base ≤ 16) {c : Char}
    (hc : c ∈ Nat.toDigits base n) : isDigit base c = true := by
  have hdigit : ∀ d < base, isDigit base (Nat.digitChar d) = true := by
    intro d hd
    exact isDigit_iff.2 ⟨d, digitValue_digitChar (by omega), hd⟩
  induction n using Nat.base_induction base hb with
  | single m hm =>
    rw [Nat.toDigits_of_lt_base hm, List.mem_singleton] at hc
    rw [hc]
    exact hdigit m hm
  | digit m k hk hm ih =>
    rw [← Nat.toDigits_append_toDigits hb hm hk, List.mem_append, Nat.toDigits_of_lt_base hk,
      List.mem_singleton] at hc
    rcases hc with hc | rfl
    · exact ih hc
    · exact hdigit k hk

theorem ofDigits_append_singleton (base : Nat) (s : Text) (c : Char) :
    ofDigits base (s ++ [c]) = (digitValue c).getD 0 + base * ofDigits base s := by
  simp [ofDigits, Nat.ofDigits_cons]

/-- Zeros in front change nothing. -/
theorem ofDigits_zeros (base k : Nat) (s : Text) :
    ofDigits base (List.replicate k '0' ++ s) = ofDigits base s := by
  have h0 : (digitValue '0').getD 0 = 0 := by decide
  simp only [ofDigits, List.reverse_append, List.reverse_replicate, List.map_append,
    List.map_replicate, h0, Nat.ofDigits_append_replicate_zero]

theorem ofDigits_toDigits {base : Nat} (hb : 1 < base) (hb' : base ≤ 16) (n : Nat) :
    ofDigits base (Nat.toDigits base n) = n := by
  induction n using Nat.base_induction base hb with
  | single m hm =>
    rw [Nat.toDigits_of_lt_base hm]
    simp [ofDigits, digitValue_digitChar (show m < 16 by omega)]
  | digit m k hk hm ih =>
    rw [← Nat.toDigits_append_toDigits hb hm hk, Nat.toDigits_of_lt_base hk,
      ofDigits_append_singleton, ih, digitValue_digitChar (by omega)]
    simp [Nat.add_comm]

/-- The value of `k` digits has at most `k` digits. -/
theorem length_toDigits_ofDigits {base : Nat} (hb : 1 < base) {s : Text} (hs : s ≠ [])
    (hd : ∀ c ∈ s, isDigit base c = true) :
    (Nat.toDigits base (ofDigits base s)).length ≤ s.length := by
  rw [Nat.length_toDigits_le_iff hb (List.length_pos_iff.2 hs)]
  have hlt := Nat.ofDigits_lt_base_pow_length (b := base)
    (l := s.reverse.map fun c => (digitValue c).getD 0) hb (fun x hx => by
      obtain ⟨c, hc, rfl⟩ := List.mem_map.1 hx
      obtain ⟨d, hv, hlt⟩ := isDigit_iff.1 (hd c (List.mem_reverse.1 hc))
      rw [hv]
      exact hlt)
  simpa [ofDigits] using hlt

/-! ## Digits of any script -/

theorem decimal_eq_some {c : Char} {d : Nat} (h : decimal c = some d) :
    d < 10 ∧ c.toNat - d ∈ decimalZeros ∧ d ≤ c.toNat := by
  obtain ⟨z, hz, hd⟩ := List.exists_of_findSome?_eq_some h
  split_ifs at hd with hrow
  cases hd
  refine ⟨by omega, ?_, by omega⟩
  rwa [Nat.sub_sub_self hrow.1]

/-- No row of digits meets a range of spaces. -/
theorem decimal_not_isSpace {c : Char} (h : isDecimal c = true) : isSpace c = false := by
  have hapart : ∀ z ∈ decimalZeros, ∀ p ∈ spaceRanges, p.2 < z ∨ z + 10 ≤ p.1 := by decide
  obtain ⟨d, hd⟩ := Option.isSome_iff_exists.1 h
  obtain ⟨hlt, hz, hle⟩ := decimal_eq_some hd
  rw [isSpace, List.any_eq_false]
  rintro ⟨lo, hi⟩ hp
  have := hapart _ hz _ hp
  simp only [Bool.and_eq_true, decide_eq_true_eq]
  omega

/-- `int` reads a decimal digit of any script as a digit. -/
theorem isDigit_of_isDecimal {c : Char} (h : isDecimal c = true) :
    isDigit 10 (toAscii c) = true := by
  have hascii : ∀ z ∈ decimalZeros, z < 127 → z = 48 := by decide
  obtain ⟨d, hd⟩ := Option.isSome_iff_exists.1 h
  obtain ⟨hlt, hz, hle⟩ := decimal_eq_some hd
  unfold toAscii
  by_cases hc : c.toNat < 127
  · have hrow := hascii _ hz (by omega)
    have hval : digitValue c = some (c.toNat - 48) := if_pos (by omega)
    rw [if_pos hc]
    exact isDigit_iff.2 ⟨_, hval, by omega⟩
  · rw [if_neg hc, decimal_not_isSpace h, hd]
    exact isDigit_iff.2 ⟨d, digitValue_digitChar (by omega), hlt⟩

/-! ## Reading integers -/

theorem isDigit_mono {base base' : Nat} (hb : base ≤ base') {c : Char}
    (h : isDigit base c = true) : isDigit base' c = true := by
  obtain ⟨d, hd, hlt⟩ := isDigit_iff.1 h
  exact isDigit_iff.2 ⟨d, hd, by omega⟩

theorem isDigit_ne {base : Nat} (hb : base ≤ 16) {c c' : Char} (h : isDigit base c = true)
    (h' : isDigit 16 c' = false) : c ≠ c' := by
  rintro rfl
  rw [isDigit_mono hb h] at h'
  cases h'

theorem isDigit_not_isCSpace {base : Nat} {c : Char} (h : isDigit base c = true) :
    isCSpace c = false := by
  have hb := isDigit_bounds h
  have hne : c ≠ ' ' := by
    rintro rfl
    revert hb
    decide
  simp only [isCSpace, Bool.or_eq_false_iff, beq_eq_false_iff_ne, Bool.and_eq_false_iff,
    decide_eq_false_iff_not]
  exact ⟨hne, by omega⟩

section Digits

variable {base : Nat} {s : Text} (hb : base ≤ 16) (hd : ∀ c ∈ s, isDigit base c = true)
include hb hd

/-- Digits have no sign in front. -/
theorem splitSign_digits : splitSign s = (false, s) := by
  unfold splitSign
  split
  · exact absurd rfl (isDigit_ne hb (hd _ List.mem_cons_self) (by decide))
  · exact absurd rfl (isDigit_ne hb (hd _ List.mem_cons_self) (by decide))
  · rfl

/-- Nor a `0x`: `x` is no digit. -/
theorem dropHexMark_digits : dropHexMark s = s := by
  unfold dropHexMark
  split
  · next x s =>
    have hx : isDigit base x = true := hd x (by simp)
    rw [if_neg]
    rintro (rfl | rfl)
    · exact absurd rfl (isDigit_ne hb hx (by decide))
    · exact absurd rfl (isDigit_ne hb hx (by decide))
  · rfl

end Digits

/-- **A row of digits** is read as its value, unless it is decimal and too long. -/
theorem int_digits {limit base : Nat} {s : Text} (hb : base ≤ 16) (hs : s ≠ [])
    (hd : ∀ c ∈ s, isDigit base (toAscii c) = true) :
    int limit base s =
      if base = 10 ∧ tooLong limit s.length then .error .valueError
      else .ok (ofDigits base (s.map toAscii)) := by
  have ha : ∀ c ∈ s.map toAscii, isDigit base c = true := List.forall_mem_map.2 hd
  have hus : ∀ c ∈ s.map toAscii, c ≠ '_' := fun c hc => isDigit_ne hb (ha c hc) (by decide)
  have hspace : (s.map toAscii).dropWhile isCSpace = s.map toAscii := by
    rw [List.dropWhile_eq_self_iff]
    intro hl
    rw [isDigit_not_isCSpace (ha _ (List.getElem_mem hl))]
    exact Bool.false_ne_true
  have hmark : (if base = 16 then dropHexMark (s.map toAscii) else s.map toAscii) = s.map toAscii := by
    rw [dropHexMark_digits hb ha, ite_self]
  have hbody : ∀ c ∈ s.map toAscii, (isDigit base c || c == '_') = true := by
    intro c hc
    rw [ha c hc, Bool.true_or]
  have hsplit : (s.map toAscii).splitOn '_' = [s.map toAscii] :=
    List.splitOn_eq_singleton fun h => hus _ h rfl
  have hfilter : (s.map toAscii).filter (· != '_') = s.map toAscii :=
    List.filter_eq_self.2 fun c hc => by simpa using hus c hc
  have hempty : (s.map toAscii).isEmpty = false := by simpa using hs
  simp only [int, hspace, splitSign_digits hb ha, hmark, List.takeWhile_eq_self_iff.2 hbody,
    List.dropWhile_eq_nil_iff.2 hbody, hsplit, hfilter, List.any_cons, List.any_nil, hempty,
    List.length_map, List.all_nil, Bool.not_true, Bool.or_false, Bool.false_eq_true, if_false]

theorem toAscii_digits {base : Nat} {s : Text} (hd : ∀ c ∈ s, isDigit base c = true) :
    s.map toAscii = s := by
  have hid : ∀ c ∈ s, toAscii c = c := by
    intro c hc
    have hlt := isDigit_bounds (hd c hc)
    rw [toAscii, if_pos (by omega)]
  exact (List.map_congr_left hid).trans (List.map_id s)

/-- ASCII digits stand for themselves. -/
theorem int_asciiDigits {limit base : Nat} {s : Text} (hb : base ≤ 16) (hs : s ≠ [])
    (hd : ∀ c ∈ s, isDigit base c = true) :
    int limit base s =
      if base = 10 ∧ tooLong limit s.length then .error .valueError
      else .ok (ofDigits base s) := by
  have hmap := toAscii_digits hd
  rw [int_digits hb hs (List.forall_mem_map.1 (by rwa [hmap])), hmap]

theorem int_hexDigits {limit : Nat} {s : Text} (hs : s ≠ [])
    (hd : ∀ c ∈ s, isDigit 16 c = true) : int limit 16 s = .ok (ofDigits 16 s) := by
  rw [int_asciiDigits (by omega) hs hd, if_neg (by omega)]

theorem int_decimals {limit : Nat} {s : Text} (hs : s ≠ [])
    (hd : ∀ c ∈ s, isDecimal c = true) :
    int limit 10 s =
      if tooLong limit s.length then .error .valueError else .ok (ofDigits 10 (s.map toAscii)) := by
  rw [int_digits (by omega) hs fun c hc => isDigit_of_isDecimal (hd c hc)]
  simp

/-! ## Writing and reading back -/

theorem isDigit_hex (width n : Nat) {c : Char} (hc : c ∈ hex width n) : isDigit 16 c = true := by
  rw [hex, if_neg (by omega), List.leftpad, List.mem_append] at hc
  rcases hc with hc | hc
  · rw [List.eq_of_mem_replicate hc]
    decide
  · exact isDigit_toDigits (by omega) (by omega) hc

theorem hex_ne_nil (width n : Nat) : hex width n ≠ [] := by
  rw [hex, if_neg (by omega), List.leftpad]
  simp

/-- `f"{n:0wx}"` is read back by `int(s, 16)`. -/
theorem int_hex (limit width n : Nat) : int limit 16 (hex width n) = .ok n := by
  rw [int_hexDigits (hex_ne_nil width n) fun c hc => isDigit_hex width n hc, hex,
    if_neg (by omega), List.leftpad, ofDigits_zeros, ofDigits_toDigits (by omega) (by omega)]
  simp

theorem isDigit_dec (n : Nat) {c : Char} (hc : c ∈ Nat.toDigits 10 n) : isDigit 10 c = true :=
  isDigit_toDigits (by omega) (by omega) hc

theorem dec_eq {limit n : Nat} (h : tooLong limit (Nat.toDigits 10 n).length = false) :
    dec limit n = .ok (Nat.toDigits 10 n) := by
  have hn : ¬ (n : Int) < 0 := by omega
  simp only [dec, Int.natAbs_natCast, h, if_neg hn, Bool.false_eq_true, if_false]

/-- `f"{n}"` is read back by `int(s)`: both have the same limit. -/
theorem int_dec {limit n : Nat} (h : tooLong limit (Nat.toDigits 10 n).length = false) :
    int limit 10 (Nat.toDigits 10 n) = .ok n := by
  rw [int_asciiDigits (by omega) Nat.toDigits_ne_nil fun c hc => isDigit_dec n hc, h,
    if_neg (by simp), ofDigits_toDigits (by omega) (by omega)]

/-- A number that `int` has read from a row of digits is short enough to be written. -/
theorem tooLong_ofDigits {limit : Nat} {s : Text} (hs : s ≠ [])
    (hd : ∀ c ∈ s, isDigit 10 c = true) (h : tooLong limit s.length = false) :
    tooLong limit (Nat.toDigits 10 (ofDigits 10 s)).length = false := by
  have hlen := length_toDigits_ofDigits (by omega) hs hd
  simp only [tooLong, Bool.and_eq_false_iff, decide_eq_false_iff_not] at h ⊢
  omega

/-! ## Lines -/

theorem mem_intercalate {sep c : Char} {fields : List Text}
    (h : c ∈ [sep].intercalate fields) : c = sep ∨ ∃ f ∈ fields, c ∈ f := by
  induction fields with
  | nil => simp at h
  | cons f fields ih =>
    by_cases hf : fields = []
    · subst hf
      rw [List.intercalate_singleton] at h
      exact .inr ⟨f, List.mem_cons_self, h⟩
    · rw [List.intercalate_cons_of_ne_nil hf, List.mem_append, List.mem_append,
        List.mem_singleton] at h
      rcases h with (h | h) | h
      · exact .inr ⟨f, List.mem_cons_self, h⟩
      · exact .inl h
      · rcases ih h with h | ⟨f', hmem, h⟩
        · exact .inl h
        · exact .inr ⟨f', List.mem_cons_of_mem f hmem, h⟩

/-- `strip` takes the newline off a line without spaces. -/
theorem strip_line {s : Text} (hs : ∀ c ∈ s, isSpace c = false) : strip (s ++ ['\n']) = s := by
  have hnl : isSpace '\n' = true := by decide
  have hlast : s.rdropWhile isSpace = s := by
    rw [List.rdropWhile_eq_self_iff]
    intro hne
    rw [hs _ (List.getLast_mem hne)]
    exact Bool.false_ne_true
  unfold strip rstrip
  cases s with
  | nil => decide
  | cons c s =>
    rw [List.cons_append, List.dropWhile_cons_of_neg (by simp [hs c]), ← List.cons_append,
      List.rdropWhile_concat_pos _ _ _ hnl, hlast]

theorem universalNewlines_eq {s : Text} (hs : '\r' ∉ s) : universalNewlines s = s := by
  fun_induction universalNewlines s with
  | case1 s ih => simp at hs
  | case2 s hne ih => simp at hs
  | case3 c s h₁ h₂ ih => rw [ih (fun h => hs (List.mem_cons_of_mem c h))]
  | case4 => rfl

theorem splitLines_append {line : Text} (hline : '\n' ∉ line) (s : Text) :
    splitLines (line ++ '\n' :: s) = (line ++ ['\n']) :: splitLines s := by
  induction line with
  | nil => rfl
  | cons c line ih =>
    rw [List.mem_cons, not_or] at hline
    rw [List.cons_append, splitLines, if_neg (Ne.symm hline.1), ih hline.2]
    rfl

theorem splitLines_lines {lines : List Text} (h : ∀ line ∈ lines, '\n' ∉ line) :
    splitLines (lines.flatMap fun line => line ++ ['\n']) =
      lines.map fun line => line ++ ['\n'] := by
  induction lines with
  | nil => rfl
  | cons line lines ih =>
    rw [List.forall_mem_cons] at h
    rw [List.flatMap_cons, List.append_assoc, List.singleton_append, splitLines_append h.1, ih h.2,
      List.map_cons]

/-- **Lines** that contain no newline, printed one by one, are read one by one. -/
theorem fileLines_lines {lines : List Text} (h : ∀ line ∈ lines, '\n' ∉ line ∧ '\r' ∉ line) :
    fileLines (lines.flatMap fun line => line ++ ['\n']) = lines.map fun line => line ++ ['\n'] := by
  have hcr : '\r' ∉ lines.flatMap fun line => line ++ ['\n'] := by
    rw [List.mem_flatMap]
    rintro ⟨line, hline, hmem⟩
    rw [List.mem_append] at hmem
    rcases hmem with hmem | hmem
    · exact (h line hline).2 hmem
    · revert hmem
      decide
  rw [fileLines, universalNewlines_eq hcr, splitLines_lines fun line hline => (h line hline).1]

/-! ## Output -/

section Output

variable {α β : Type}

@[simp] theorem exec_pure (a : α) (out : Text) : (pure a : Py α).exec out = (.ok a, out) := rfl

@[simp] theorem exec_print (line out : Text) :
    (print line).exec out = (.ok (), out ++ (line ++ ['\n'])) := rfl

@[simp] theorem exec_ofExcept (x : Except Exn α) (out : Text) :
    (Py.ofExcept x).exec out = (x, out) := rfl

theorem exec_bind (x : Py α) (f : α → Py β) (out : Text) :
    (x >>= f).exec out =
      match x.exec out with
      | (.ok a, out') => (f a).exec out'
      | (.error e, out') => (.error e, out') := by
  rw [Py.exec, ExceptT.run_bind, StateT.run_bind]
  unfold Py.exec
  rcases StateT.run (ExceptT.run x) out with ⟨_ | a, out'⟩ <;> rfl

/-- Printing a text for each element, none of which raises. -/
theorem exec_forM_print {xs : List α} {f : α → Except Exn Text} {g : α → Text}
    (h : ∀ x ∈ xs, f x = .ok (g x)) (out : Text) :
    (xs.forM fun x => Py.ofExcept (f x) >>= print).exec out =
      (.ok (), out ++ (xs.map g).flatMap fun line => line ++ ['\n']) := by
  induction xs generalizing out with
  | nil => simp [List.forM]
  | cons x xs ih =>
    rw [List.forall_mem_cons] at h
    rw [List.forM, exec_bind, exec_bind, exec_ofExcept, h.1]
    simp only [exec_print]
    rw [ih h.2, List.map_cons, List.flatMap_cons, List.append_assoc]

/-- Whenever `x` returns, what it returns satisfies `Q`. -/
def Py.Returns (x : Py α) (Q : α → Prop) : Prop := ∀ out a, (x.exec out).1 = .ok a → Q a

theorem Py.Returns.pure {a : α} {Q : α → Prop} (h : Q a) : (Pure.pure a : Py α).Returns Q := by
  intro out b hb
  cases hb
  exact h

/-- What is printed before does not matter. -/
theorem Py.Returns.bind {x : Py α} {f : α → Py β} {Q : β → Prop} (h : ∀ a, (f a).Returns Q) :
    (x >>= f).Returns Q := by
  intro out b hb
  rw [exec_bind] at hb
  split at hb
  · exact h _ _ b hb
  · cases hb

end Output

end Python
