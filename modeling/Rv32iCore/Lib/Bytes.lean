import Mathlib.Data.BitVec
import Mathlib.Logic.Function.Basic
import Mathlib.Tactic.SplitIfs
import Mathlib.Tactic.IntervalCases

/-!
# Bytes of words, and memories of words seen as memories of bytes

`byteOf v k` is byte `k` of a bit vector, little-endian.  A memory of 32-bit words with byte
strobes (`merge`) is a memory of bytes (`byteAt`): a strobed write of one word changes the
strobed bytes of that word, and nothing else.

    byteAt_writeWord         one strobed word write, byte by byte
    store_one, store_two     the word writes that store n bytes at any byte address
    byteAt_add               the bytes of a load from any byte address, in one word or two
-/

namespace Bytes

/-! ## Bytes of a bit vector -/

/-- Byte `k`, little-endian. -/
def byteOf {w : Nat} (v : BitVec w) (k : Nat) : BitVec 8 := v.extractLsb' (8 * k) 8

theorem getLsbD_byteOf {w : Nat} (v : BitVec w) (k i : Nat) :
    (byteOf v k).getLsbD i = (decide (i < 8) && v.getLsbD (8 * k + i)) := by
  rw [byteOf, BitVec.getLsbD_extractLsb']

/-- There are no bytes past the end. -/
theorem byteOf_eq_zero {w : Nat} (v : BitVec w) {k : Nat} (hk : w ≤ 8 * k) : byteOf v k = 0 := by
  apply BitVec.eq_of_getLsbD_eq
  intro i hi
  rw [getLsbD_byteOf, BitVec.getLsbD_of_ge _ _ (by omega)]
  simp

/-- Words with the same bytes are equal. -/
theorem eq_of_byteOf_eq {n : Nat} {a b : BitVec (8 * n)}
    (h : ∀ k, k < n → byteOf a k = byteOf b k) : a = b := by
  apply BitVec.eq_of_getLsbD_eq
  intro i hi
  have hk := congrArg (·.getLsbD (i % 8)) (h (i / 8) (by omega))
  simp only [getLsbD_byteOf] at hk
  rw [show 8 * (i / 8) + i % 8 = i by omega] at hk
  simpa [show i % 8 < 8 by omega] using hk

theorem byteOf_append {m n : Nat} (hi : BitVec m) (lo : BitVec (8 * n)) (k : Nat) :
    byteOf (hi ++ lo) k = if k < n then byteOf lo k else byteOf hi (k - n) := by
  apply BitVec.eq_of_getLsbD_eq
  intro i hi'
  split_ifs with hk
  · simp [getLsbD_byteOf, BitVec.getLsbD_append, show 8 * k + i < 8 * n by omega]
  · simp only [getLsbD_byteOf, BitVec.getLsbD_append, show ¬ 8 * k + i < 8 * n by omega,
      show 8 * k + i - 8 * n = 8 * (k - n) + i by omega]
    simp

@[simp] theorem byteOf_byte (b : BitVec 8) : byteOf b 0 = b := by
  apply BitVec.eq_of_getLsbD_eq
  intro i hi
  rw [getLsbD_byteOf]
  simp [hi]

/-- The bytes of a concatenation of bytes, one at a time. -/
theorem byteOf_append_byte {m : Nat} (hi : BitVec m) (lo : BitVec 8) (k : Nat) :
    byteOf (hi ++ lo) k = if k = 0 then lo else byteOf hi (k - 1) := by
  have h := byteOf_append (n := 1) hi lo k
  rcases k with - | k
  · simpa using h
  · simpa using h

theorem byteOf_shiftLeft {w : Nat} (v : BitVec w) (l k : Nat) (hk : 8 * (k + 1) ≤ w) :
    byteOf (v <<< (8 * l)) k = if k < l then 0 else byteOf v (k - l) := by
  apply BitVec.eq_of_getLsbD_eq
  intro i hi
  split_ifs with hl
  · simp [getLsbD_byteOf, show 8 * k + i < 8 * l by omega]
  · simp only [getLsbD_byteOf, BitVec.getLsbD_shiftLeft, show 8 * k + i < w by omega,
      show ¬ 8 * k + i < 8 * l by omega, show 8 * k + i - 8 * l = 8 * (k - l) + i by omega]
    simp

theorem byteOf_ushiftRight {w : Nat} (v : BitVec w) (l k : Nat) :
    byteOf (v >>> (8 * l)) k = byteOf v (k + l) := by
  apply BitVec.eq_of_getLsbD_eq
  intro i hi
  simp only [getLsbD_byteOf, BitVec.getLsbD_ushiftRight,
    show 8 * l + (8 * k + i) = 8 * (k + l) + i by omega]

/-- Shifted up and down again, the top `l` bytes are gone. -/
theorem byteOf_shiftLeft_ushiftRight {n : Nat} (v : BitVec (8 * n)) (l k : Nat) :
    byteOf ((v <<< (8 * l)) >>> (8 * l)) k = if k + l < n then byteOf v k else 0 := by
  rw [byteOf_ushiftRight]
  split_ifs with hk
  · rw [byteOf_shiftLeft _ _ _ (by omega), if_neg (by omega), Nat.add_sub_cancel]
  · exact byteOf_eq_zero _ (by omega)

theorem byteOf_extractLsb' {w : Nat} (v : BitVec w) (j n k : Nat) (hk : k < n) :
    byteOf (v.extractLsb' (8 * j) (8 * n)) k = byteOf v (j + k) := by
  apply BitVec.eq_of_getLsbD_eq
  intro i hi
  simp only [getLsbD_byteOf, BitVec.getLsbD_extractLsb', show 8 * k + i < 8 * n by omega,
    decide_true, Bool.true_and, show 8 * j + (8 * k + i) = 8 * (j + k) + i by omega]

/-- The two low bytes. -/
theorem extractLsb'_two_bytes {w : Nat} (v : BitVec w) :
    v.extractLsb' 0 16 = byteOf v 1 ++ byteOf v 0 := by
  refine eq_of_byteOf_eq (n := 2) fun k hk => ?_
  have h : byteOf (v.extractLsb' (8 * 0) (8 * 2)) k = byteOf v (0 + k) :=
    byteOf_extractLsb' v 0 2 k hk
  rw [byteOf_append_byte]
  interval_cases k
  · exact h
  · rw [if_neg (by decide), byteOf_byte]
    exact h

/-- Sign extension is a replicated top bit. -/
theorem eq_signExtend_of_replicate {n k : Nat} {x : BitVec (n + 1)} {b : BitVec 1}
    (hb : b.getLsbD 0 = x.getLsbD n) {y : BitVec (k + (n + 1))}
    (hy : ∀ i, y.getLsbD i = (b.replicate k ++ x).getLsbD i) : y = x.signExtend (k + (n + 1)) := by
  apply BitVec.eq_of_getLsbD_eq
  intro i hi
  rw [hy, BitVec.getLsbD_signExtend, BitVec.getLsbD_append, BitVec.getLsbD_replicate, Nat.one_mul,
    Nat.mod_one, hb, BitVec.msb_eq_getLsbD_last]
  by_cases h : i < n + 1
  · simp [h, hi]
  · simp [h, hi, show i - (n + 1) < k by omega]

theorem zero_append_eq_zeroExtend {n k : Nat} (x : BitVec n) : 0#k ++ x = x.zeroExtend (k + n) := by
  apply BitVec.eq_of_toNat_eq
  have h : x.toNat < 2 ^ (k + n) := lt_of_lt_of_le x.isLt (Nat.pow_le_pow_right (by decide) (by omega))
  rw [BitVec.toNat_append, BitVec.toNat_setWidth, Nat.mod_eq_of_lt h]
  simp

/-! ## Strobed writes -/

/-- `old` with the bytes of `new` whose strobe is set. -/
def merge (old new : BitVec 32) (strb : BitVec 4) : BitVec 32 :=
  let byte (k : Nat) := if strb.getLsbD k then byteOf new k else byteOf old k
  byte 3 ++ byte 2 ++ byte 1 ++ byte 0

theorem byteOf_merge (old new : BitVec 32) (strb : BitVec 4) {k : Nat} (hk : k < 4) :
    byteOf (merge old new strb) k = if strb.getLsbD k then byteOf new k else byteOf old k := by
  unfold merge
  interval_cases k <;> simp [byteOf_append_byte]

@[simp] theorem merge_none (old new : BitVec 32) : merge old new 0#4 = old := by
  refine eq_of_byteOf_eq (n := 4) fun k hk => ?_
  rw [byteOf_merge _ _ _ hk]
  simp

/-! ## Memories -/

/-- A strobed write of one word. -/
def writeWord {ι : Type} [DecidableEq ι] (mem : ι → BitVec 32) (idx : ι) (new : BitVec 32)
    (strb : BitVec 4) : ι → BitVec 32 :=
  Function.update mem idx (merge (mem idx) new strb)

@[simp] theorem writeWord_none {ι : Type} [DecidableEq ι] (mem : ι → BitVec 32) (idx : ι)
    (new : BitVec 32) : writeWord mem idx new 0#4 = mem := by
  rw [writeWord, merge_none, Function.update_eq_self]

section Memory

variable (mem : BitVec 30 → BitVec 32) (idx : BitVec 30) (a x : BitVec 32)

/-- The word that byte `a` is in. -/
def wordIdx : BitVec 30 := a.extractLsb' 2 30

/-- Its place in that word. -/
def byteLane : Nat := a.toNat % 4

theorem byteLane_lt : byteLane a < 4 := Nat.mod_lt _ (by decide)

theorem toNat_wordIdx : (wordIdx a).toNat = a.toNat / 4 := by
  have := a.isLt
  rw [wordIdx, BitVec.extractLsb'_toNat, Nat.shiftRight_eq_div_pow]
  omega

/-- The memory read byte by byte. -/
def byteAt : BitVec 8 := byteOf (mem (wordIdx a)) (byteLane a)

/-- It changes the strobed bytes of its word. -/
theorem byteAt_writeWord (new : BitVec 32) (strb : BitVec 4) :
    byteAt (writeWord mem idx new strb) x =
      if wordIdx x = idx ∧ strb.getLsbD (byteLane x) = true then byteOf new (byteLane x)
      else byteAt mem x := by
  unfold byteAt writeWord
  by_cases hx : wordIdx x = idx
  · rw [hx, Function.update_self, byteOf_merge _ _ _ (byteLane_lt x)]
    simp
  · rw [Function.update_of_ne hx, if_neg (fun h => hx h.1)]

/-- Where byte `x` lies when it is `d < 4` bytes after byte `a`: in the same word or at the
start of the next. -/
theorem sub_eq_iff (d : Nat) (hd : d < 4) : (x - a).toNat = d ↔
    (wordIdx x = wordIdx a ∧ byteLane x = byteLane a + d) ∨
    (wordIdx x = wordIdx a + 1 ∧ byteLane x + 4 = byteLane a + d) := by
  have hx := x.isLt
  have ha := a.isLt
  rw [← BitVec.toNat_inj, ← BitVec.toNat_inj, BitVec.toNat_add, toNat_wordIdx, toNat_wordIdx,
    BitVec.toNat_sub, show (1 : BitVec 30).toNat = 1 from rfl]
  unfold byteLane
  omega

/-! ### Stores and loads at any byte address -/

/-- The little-endian store of `n` bytes at `a`, addresses modulo 2^32. -/
def storeBytes (bytes : BitVec 32 → BitVec 8) (a : BitVec 32) (n : Nat) (v : BitVec 32) :
    BitVec 32 → BitVec 8 :=
  fun x => if (x - a).toNat < n then byteOf v (x - a).toNat else bytes x

/-- Word writes that put the bytes of `v` in the lanes from that of `a` on: those that fit
into its word, and those that spill into the next. -/
structure StoreLanes (a : BitVec 32) (n : Nat) (v : BitVec 32) (data : Bool → BitVec 32)
    (strb : Bool → BitVec 4) : Prop where
  strbLo : ∀ k < 4, (strb false).getLsbD k = decide (byteLane a ≤ k ∧ k < byteLane a + n)
  strbHi : ∀ k < 4, (strb true).getLsbD k = decide (k + 4 < byteLane a + n)
  dataLo : ∀ k < 4, byteLane a ≤ k → byteOf (data false) k = byteOf v (k - byteLane a)
  dataHi : ∀ k < 4, k < byteLane a → byteOf (data true) k = byteOf v (k + 4 - byteLane a)

variable {a} {n : Nat} {v : BitVec 32} {data : Bool → BitVec 32} {strb : Bool → BitVec 4}

/-- The write to the word of `a` stores the bytes that fit into it. -/
theorem StoreLanes.byteAt_lo (h : StoreLanes a n v data strb) (hn : n ≤ 4) :
    byteAt (writeWord mem (wordIdx a) (data false) (strb false)) x =
      if wordIdx x = wordIdx a ∧ (x - a).toNat < n then byteOf v (x - a).toNat
      else byteAt mem x := by
  have hlt := byteLane_lt x
  rw [byteAt_writeWord, h.strbLo _ hlt]
  simp only [decide_eq_true_eq]
  by_cases hx : wordIdx x = wordIdx a
  · by_cases hd : byteLane a ≤ byteLane x
    · have hsub : (x - a).toNat = byteLane x - byteLane a :=
        (sub_eq_iff a x _ (by omega)).2 (.inl ⟨hx, by omega⟩)
      rw [hsub, h.dataLo _ hlt hd]
      congr 1
      simp only [hx, true_and, eq_iff_iff]
      omega
    · rw [if_neg (by omega), if_neg]
      rintro ⟨-, hlt'⟩
      rcases (sub_eq_iff a x _ (by omega)).1 rfl with ⟨-, h'⟩ | ⟨h', -⟩
      · omega
      · rw [hx] at h'
        simp at h'
  · rw [if_neg (fun e => hx e.1), if_neg (fun e => hx e.1)]

/-- A store that fits into one word takes one write. -/
theorem StoreLanes.store_one (h : StoreLanes a n v data strb) (hfit : byteLane a + n ≤ 4) :
    byteAt (writeWord mem (wordIdx a) (data false) (strb false)) =
      storeBytes (byteAt mem) a n v := by
  funext x
  rw [h.byteAt_lo mem x (by omega), storeBytes]
  congr 1
  simp only [and_iff_right_iff_imp, eq_iff_iff]
  intro hd
  rcases (sub_eq_iff a x _ (by omega)).1 rfl with ⟨hx, -⟩ | ⟨-, hl⟩
  · exact hx
  · omega

/-- A store into two words takes one write to each. -/
theorem StoreLanes.store_two (h : StoreLanes a n v data strb) (hn : n ≤ 4) :
    byteAt (writeWord (writeWord mem (wordIdx a) (data false) (strb false)) (wordIdx a + 1)
      (data true) (strb true)) = storeBytes (byteAt mem) a n v := by
  funext x
  have hlt := byteLane_lt x
  have hla := byteLane_lt a
  rw [byteAt_writeWord, h.strbHi _ hlt, h.byteAt_lo mem x hn, storeBytes]
  simp only [decide_eq_true_eq]
  by_cases hx : wordIdx x = wordIdx a + 1
  · have hne : wordIdx x ≠ wordIdx a := by rw [hx]; simp
    by_cases hd : byteLane x + 4 < byteLane a + n
    · have hsub : (x - a).toNat = byteLane x + 4 - byteLane a :=
        (sub_eq_iff a x _ (by omega)).2 (.inr ⟨hx, by omega⟩)
      rw [if_pos ⟨hx, hd⟩, hsub, if_pos (by omega), h.dataHi _ hlt (by omega)]
    · rw [if_neg (fun e => hd e.2), if_neg (fun e => hne e.1), if_neg]
      intro hlt'
      rcases (sub_eq_iff a x _ (by omega)).1 rfl with ⟨h', -⟩ | ⟨-, h'⟩
      · exact hne h'
      · omega
  · rw [if_neg (fun e => hx e.1)]
    congr 1
    simp only [and_iff_right_iff_imp, eq_iff_iff]
    intro hd
    rcases (sub_eq_iff a x _ (by omega)).1 rfl with ⟨h', -⟩ | ⟨h', -⟩
    · exact h'
    · exact absurd h' hx

variable (a) in
/-- The `d`-th byte from `a`, in the word of `a` or in the next. -/
theorem byteAt_add (d : Nat) (hd : d < 4) :
    byteAt mem (a + BitVec.ofNat 32 d) =
      if byteLane a + d < 4 then byteOf (mem (wordIdx a)) (byteLane a + d)
      else byteOf (mem (wordIdx a + 1)) (byteLane a + d - 4) := by
  have hsub : (a + BitVec.ofNat 32 d - a).toNat = d := by
    rw [BitVec.add_comm, BitVec.add_sub_cancel, BitVec.toNat_ofNat]
    omega
  have hlt := byteLane_lt (a + BitVec.ofNat 32 d)
  unfold byteAt
  rcases (sub_eq_iff a _ d hd).1 hsub with ⟨hw, hl⟩ | ⟨hw, hl⟩
  · rw [hw, hl, if_pos (by omega)]
  · rw [hw, if_neg (by omega), ← hl, Nat.add_sub_cancel]

end Memory

end Bytes
