import Rv32iCore.Lib.Python
import Rv32iCore.Soc.Devices

/-!
# The program image

A binary gets into the two memories of `soc` in two steps: `sw/common/makehex.py` prints its words
in hexadecimal, and `$readmemh` reads them into `mem` of `imem` and of `dmem`, 16384 words each.

    readmemh_makehex   what is printed is read, from address 0 on, if it fits
    soc_image          the system starts with the image in its memory, and fetches from it
-/

namespace Rv32i

open Sync Bytes
open Python (Text Py hex isDigit ofDigits)

namespace Image

/-! ## `makehex.py` -/

/-- `int.from_bytes(bs, "little")` -/
def fromBytes : List (BitVec 8) → Nat
  | [] => 0
  | b :: bs => b.toNat + 256 * fromBytes bs

/-- `data` with `-len(data) % 4` zeros after it. -/
def padded (data : List (BitVec 8)) : List (BitVec 8) :=
  data ++ List.replicate (-(data.length : Int) % 4).toNat 0

/-- `data[i:i+4]` as a word. -/
def wordAt (data : List (BitVec 8)) (i : Nat) : Nat := fromBytes ((data.drop i).take 4)

def makehex (data : List (BitVec 8)) : Py Unit :=
  (List.range' 0 ((padded data).length / 4) 4).forM fun i =>
    Python.print (hex 8 (wordAt (padded data) i))

/-- What it prints. -/
def hexText (data : List (BitVec 8)) : Text := ((makehex data).exec []).2

/-! ## `$readmemh` -/

/-- White space: blanks, newlines, tabs and form feeds. -/
def isBlank (c : Char) : Bool := c == ' ' || c == '\n' || c == '\t' || c.toNat == 12

def tokens (text : Text) : List Text := (text.splitOnP isBlank).filter fun token => !token.isEmpty

/-- A number: hexadecimal digits, underscores apart. -/
def number (token : Text) : Option Nat :=
  let digits := token.filter (· != '_')
  if token.all (fun c => isDigit 16 c || c == '_') && !digits.isEmpty then some (ofDigits 16 digits)
  else none

/-- `@` sets the address, a number is stored there; past the end of the memory is an error. -/
def load (s : Nat × (BitVec 14 → Word)) (token : Text) : Option (Nat × (BitVec 14 → Word)) :=
  match token with
  | '@' :: addr => (number addr).map fun n => (n, s.2)
  | token =>
    (number token).bind fun w =>
      if s.1 < 16384 then
        some (s.1 + 1, Function.update s.2 (BitVec.ofNat 14 s.1) (BitVec.ofNat 32 w))
      else none

/-- `$readmemh(file, mem)`; a file with comments, or with x or z among its digits, is left out. -/
def readmemh (text : Text) (mem : BitVec 14 → Word) : Option (BitVec 14 → Word) :=
  ((tokens text).foldlM load (0, mem)).map Prod.snd

/-! ## Bytes of a word -/

theorem fromBytes_byte (bs : List (BitVec 8)) (j : Nat) :
    fromBytes bs / 256 ^ j % 256 = (bs.getD j 0).toNat := by
  induction bs generalizing j with
  | nil => simp [fromBytes]
  | cons b bs ih =>
    have hb := b.isLt
    cases j with
    | zero =>
      rw [fromBytes, Nat.pow_zero, Nat.div_one, List.getD_cons_zero]
      omega
    | succ j =>
      have hrest : (b.toNat + 256 * fromBytes bs) / 256 = fromBytes bs := by omega
      rw [fromBytes, Nat.pow_succ', ← Nat.div_div_eq_div_mul, hrest, List.getD_cons_succ]
      exact ih j

theorem byteOf_fromBytes (bs : List (BitVec 8)) {j : Nat} (hj : j < 4) :
    byteOf (BitVec.ofNat 32 (fromBytes bs)) j = bs.getD j 0 := by
  have hbyte := fromBytes_byte bs j
  rw [← BitVec.toNat_inj, ← hbyte, byteOf, BitVec.extractLsb'_toNat, BitVec.toNat_ofNat,
    Nat.shiftRight_eq_div_pow]
  interval_cases j <;> omega

theorem byteOf_wordAt (data : List (BitVec 8)) (i : Nat) {j : Nat} (hj : j < 4) :
    byteOf (BitVec.ofNat 32 (wordAt data i)) j = data.getD (i + j) 0 := by
  rw [wordAt, byteOf_fromBytes _ hj]
  simp [List.getD_eq_getElem?_getD, hj, List.getElem?_drop]

/-! ## What is printed is read -/

theorem length_padded (data : List (BitVec 8)) :
    (padded data).length = (data.length + 3) / 4 * 4 := by
  rw [padded, List.length_append, List.length_replicate]
  omega

/-- The words that are printed. -/
def imageWords (data : List (BitVec 8)) : List Nat :=
  (List.range' 0 ((padded data).length / 4) 4).map (wordAt (padded data))

theorem hexText_eq (data : List (BitVec 8)) :
    hexText data = ((imageWords data).map fun w => hex 8 (w : Nat)).flatMap
      fun line => line ++ ['\n'] := by
  have hline : ∀ i ∈ List.range' 0 ((padded data).length / 4) 4,
      (Except.ok (hex 8 (wordAt (padded data) i)) : Except Python.Exn Text) =
        .ok (hex 8 (wordAt (padded data) i)) := fun _ _ => rfl
  have hprint := Python.exec_forM_print hline []
  rw [imageWords, List.map_map]
  exact congrArg Prod.snd hprint

theorem hex_digits (w : Nat) : hex 8 w ≠ [] ∧ ∀ c ∈ hex 8 (w : Nat), isDigit 16 c = true :=
  ⟨Python.hex_ne_nil 8 w, fun _ hc => Python.isDigit_hex 8 w hc⟩

theorem digit_not_isBlank {c : Char} (hc : isDigit 16 c = true) : isBlank c = false := by
  have hspace := Python.isDigit_not_isSpace hc
  cases hblank : isBlank c with
  | false => rfl
  | true =>
    simp only [isBlank, Bool.or_eq_true, beq_iff_eq] at hblank
    rcases hblank with ((rfl | rfl) | rfl) | hff
    · exact absurd hspace (by decide)
    · exact absurd hspace (by decide)
    · exact absurd hspace (by decide)
    · rw [show c = Char.ofNat 12 by rw [← hff, Char.ofNat_toNat]] at hspace
      exact absurd hspace (by decide)

theorem tokens_lines {lines : List Text}
    (h : ∀ line ∈ lines, line ≠ [] ∧ ∀ c ∈ line, isBlank c = false) :
    tokens (lines.flatMap fun line => line ++ ['\n']) = lines := by
  induction lines with
  | nil => rfl
  | cons line lines ih =>
    rw [List.forall_mem_cons] at h
    obtain ⟨⟨hne, hline⟩, hlines⟩ := h
    have hrest := ih hlines
    unfold tokens at hrest ⊢
    rw [List.flatMap_cons, List.append_assoc, List.singleton_append,
      List.splitOnP_append_cons_of_forall_mem hline '\n' rfl,
      List.filter_cons_of_pos (by simpa using hne), hrest]

theorem number_hex (w : Nat) : number (hex 8 w) = some w := by
  obtain ⟨hne, hdigits⟩ := hex_digits w
  have hvalue : ofDigits 16 (hex 8 w) = w := by
    have hread : Python.int 0 16 (hex 8 w) = .ok (ofDigits 16 (hex 8 w)) :=
      Python.int_hexDigits hne hdigits
    rw [Python.int_hex] at hread
    exact (Int.ofNat.inj (Except.ok.inj hread)).symm
  have hfilter : (hex 8 w).filter (· != '_') = hex 8 w := by
    rw [List.filter_eq_self]
    intro c hc
    exact bne_iff_ne.2 (Python.isDigit_ne (by omega) (hdigits c hc) (by decide))
  have hall : (hex 8 w).all (fun c => isDigit 16 c || c == '_') = true := by
    rw [List.all_eq_true]
    intro c hc
    rw [hdigits c hc]
    rfl
  simp only [number, hfilter, hall, hvalue]
  simp [hne]

theorem load_hex (k : Nat) (mem : BitVec 14 → Word) (w : Nat) :
    load (k, mem) (hex 8 w) =
      if k < 16384 then some (k + 1, Function.update mem (BitVec.ofNat 14 k) (BitVec.ofNat 32 w))
      else none := by
  unfold load
  split
  · next addr haddr =>
    have hat := (hex_digits w).2 '@' (by rw [haddr]; exact List.mem_cons_self)
    exact absurd hat (by decide)
  · rw [number_hex]
    rfl

/-- The words `ws` stored from address `k` on. -/
def placed (k : Nat) (ws : List Nat) (mem : BitVec 14 → Word) : BitVec 14 → Word := fun a =>
  if k ≤ a.toNat then (ws[a.toNat - k]?).elim (mem a) (BitVec.ofNat 32) else mem a

theorem placed_cons {k : Nat} (hk : k < 16384) (w : Nat) (ws : List Nat) (mem : BitVec 14 → Word) :
    placed (k + 1) ws (Function.update mem (BitVec.ofNat 14 k) (BitVec.ofNat 32 w)) =
      placed k (w :: ws) mem := by
  funext a
  have hsame : a = BitVec.ofNat 14 k ↔ a.toNat = k := by
    rw [← BitVec.toNat_inj, BitVec.toNat_ofNat]
    omega
  unfold placed
  by_cases ha : a.toNat = k
  · rw [if_neg (by omega), if_pos (by omega), hsame.2 ha, Function.update_self]
    simp [Nat.mod_eq_of_lt hk]
  · rw [Function.update_of_ne fun he => ha (hsame.1 he)]
    by_cases hlt : k < a.toNat
    · rw [if_pos (by omega), if_pos (by omega), show a.toNat - k = a.toNat - (k + 1) + 1 by omega,
        List.getElem?_cons_succ]
    · rw [if_neg (by omega), if_neg (by omega)]

theorem foldlM_load (k : Nat) (ws : List Nat) (mem : BitVec 14 → Word) (hk : k ≤ 16384) :
    (ws.map fun w => hex 8 (w : Nat)).foldlM load (k, mem) =
      if k + ws.length ≤ 16384 then some (k + ws.length, placed k ws mem) else none := by
  induction ws generalizing k mem with
  | nil =>
    have hplaced : placed k [] mem = mem := by
      funext a
      simp [placed]
    rw [hplaced]
    simp [hk]
  | cons w ws ih =>
    rw [List.map_cons, List.foldlM_cons, load_hex]
    by_cases hlt : k < 16384
    · rw [if_pos hlt, ← placed_cons hlt, show k + (w :: ws).length = k + 1 + ws.length by
        rw [List.length_cons]; omega]
      exact ih (k + 1) _ (by omega)
    · rw [if_neg hlt, if_neg (by rw [List.length_cons]; omega)]
      rfl

/-- **Round trip.**  `$readmemh` puts the words that `makehex.py` prints at the addresses from 0 on
and leaves the rest of the memory; it fails if and only if there are more words than the memory
has. -/
theorem readmemh_makehex (data : List (BitVec 8)) (mem : BitVec 14 → Word) :
    readmemh (hexText data) mem =
      if data.length ≤ 65536 then
        some fun a => if 4 * a.toNat < data.length then
          BitVec.ofNat 32 (wordAt (padded data) (4 * a.toNat)) else mem a
      else none := by
  have htokens : tokens (hexText data) = (imageWords data).map fun w => hex 8 (w : Nat) := by
    rw [hexText_eq]
    refine tokens_lines (List.forall_mem_map.2 fun w _ => ?_)
    exact ⟨(hex_digits w).1, fun c hc => digit_not_isBlank ((hex_digits w).2 c hc)⟩
  have hlength : (imageWords data).length = (data.length + 3) / 4 := by
    rw [imageWords, List.length_map, List.length_range', length_padded]
    omega
  have hplaced : placed 0 (imageWords data) mem = fun a => if 4 * a.toNat < data.length then
      BitVec.ofNat 32 (wordAt (padded data) (4 * a.toNat)) else mem a := by
    funext a
    unfold placed
    rw [if_pos (Nat.zero_le _), Nat.sub_zero]
    by_cases ha : 4 * a.toNat < data.length
    · rw [if_pos ha]
      have hmem : (imageWords data)[a.toNat]? = some (wordAt (padded data) (4 * a.toNat)) := by
        rw [imageWords, List.getElem?_map, List.getElem?_range' (by rw [length_padded]; omega)]
        simp
      rw [hmem]
      rfl
    · rw [if_neg ha, List.getElem?_eq_none (by rw [hlength]; omega)]
      rfl
  rw [readmemh, htokens, foldlM_load 0 _ mem (by omega), Nat.zero_add, hlength, hplaced]
  by_cases hfits : data.length ≤ 65536
  · rw [if_pos hfits, if_pos (by omega)]
    rfl
  · rw [if_neg hfits, if_neg (by omega)]
    rfl

example : hexText [0x6F, 0, 0, 0, 0x2A] = "0000006f\n0000002a\n".toList := by decide

theorem isSome_readmemh_makehex (data : List (BitVec 8)) (mem : BitVec 14 → Word) :
    (readmemh (hexText data) mem).isSome = true ↔ data.length ≤ 65536 := by
  rw [readmemh_makehex]
  split_ifs with h
  · exact iff_of_true rfl h
  · exact iff_of_false Bool.false_ne_true h

theorem readmemh_makehex_word {data : List (BitVec 8)} {mem mem' : BitVec 14 → Word}
    (h : readmemh (hexText data) mem = some mem') {n : Nat} (hn : n < 16384) :
    mem' (BitVec.ofNat 14 n) = if 4 * n < data.length then
      BitVec.ofNat 32 (wordAt (padded data) (4 * n)) else mem (BitVec.ofNat 14 n) := by
  have hfits : data.length ≤ 65536 := by
    rw [← isSome_readmemh_makehex data mem, h]
    rfl
  rw [readmemh_makehex, if_pos hfits] at h
  rw [← Option.some.inj h]
  simp only [BitVec.toNat_ofNat, Nat.mod_eq_of_lt hn]

/-! ## What the system starts with -/

/-- Byte `n` of the window of `axil_mem`. -/
def ramAddr (n : Nat) : Word := 0x80000000#32 + BitVec.ofNat 32 n

theorem toNat_ramAddr {n : Nat} (hn : n < 65536) : (ramAddr n).toNat = 0x80000000 + n := by
  rw [ramAddr, BitVec.toNat_add, BitVec.toNat_ofNat, BitVec.toNat_ofNat]
  omega

theorem bytes_ramAddr (P : Params) (s : Soc) {n : Nat} (hn : n < 65536) :
    (SocRun.reset P s).bus.bytes (ramAddr n) =
      byteOf (s.bus.slaves.uDmem.dmem.mem (BitVec.ofNat 14 (n / 4))) (n % 4) := by
  have hword : (wordIdx (ramAddr n)).extractLsb' 0 14 = BitVec.ofNat 14 (n / 4) := by
    rw [← BitVec.toNat_inj, BitVec.extractLsb'_toNat, toNat_wordIdx, toNat_ramAddr hn,
      BitVec.toNat_ofNat, Nat.shiftRight_zero]
    omega
  have hlane : byteLane (ramAddr n) = n % 4 := by
    rw [byteLane, toNat_ramAddr hn]
    omega
  show byteOf (s.bus.slaves.uDmem.dmem.mem ((wordIdx (ramAddr n)).extractLsb' 0 14))
    (byteLane (ramAddr n)) = _
  rw [hword, hlane]

theorem fetch_ramAddr (P : Params) {n : Nat} (hn : 4 * n < 65536) :
    P.fetch (ramAddr (4 * n)) = P.imem (BitVec.ofNat 14 n) := by
  have hword : (ramAddr (4 * n)).extractLsb 15 2 = BitVec.ofNat 14 n := by
    rw [← BitVec.toNat_inj, BitVec.extractLsb_toNat, toNat_ramAddr hn, BitVec.toNat_ofNat,
      Nat.shiftRight_eq_div_pow]
    omega
  exact congrArg P.imem hword

end Image

open Image in
/-- **The system starts with the image.**  A memory can be loaded from the text of `makehex.py` if
and only if the binary has at most 64 KB.  Where both have been loaded, the sequential machine's
bytes are those of the binary, from 0x80000000 on, then zeros up to a word, then what was there
before; and the instructions fetched are the words that these bytes make. -/
theorem soc_image (data : List (BitVec 8)) (imem dmem : BitVec 14 → Word) (P : Params) (s : Soc) :
    let bytes := (SocRun.reset P s).bus.bytes
    (∀ mem, (readmemh (hexText data) mem).isSome = true ↔ data.length ≤ 65536) ∧
    (readmemh (hexText data) imem = some P.imem →
      readmemh (hexText data) dmem = some s.bus.slaves.uDmem.dmem.mem →
      (∀ n, (h : n < data.length) → bytes (ramAddr n) = data[n]) ∧
      (∀ n < (data.length + 3) / 4 * 4, data.length ≤ n → bytes (ramAddr n) = 0) ∧
      (∀ n < 65536, (data.length + 3) / 4 * 4 ≤ n →
        bytes (ramAddr n) = byteOf (dmem (BitVec.ofNat 14 (n / 4))) (n % 4)) ∧
      ∀ n, 4 * n < data.length → P.fetch (ramAddr (4 * n)) =
        bytes (ramAddr (4 * n + 3)) ++ bytes (ramAddr (4 * n + 2)) ++ bytes (ramAddr (4 * n + 1)) ++
          bytes (ramAddr (4 * n))) := by
  intro bytes
  refine ⟨isSome_readmemh_makehex data, fun himem hdmem => ?_⟩
  have hfits : data.length ≤ 65536 := by
    rw [← isSome_readmemh_makehex data dmem, hdmem]
    rfl
  have hpadded := length_padded data
  -- byte `n` of the image, zeros included
  have himage : ∀ n < (padded data).length, bytes (ramAddr n) = (padded data).getD n 0 := by
    intro n hn
    rw [show bytes (ramAddr n) = _ from bytes_ramAddr P s (by omega),
      readmemh_makehex_word hdmem (by omega), if_pos (by omega),
      byteOf_wordAt _ _ (Nat.mod_lt n (by omega)), Nat.div_add_mod]
  refine ⟨fun n hn => ?_, fun n hn hge => ?_, fun n hn hge => ?_, fun n hn => ?_⟩
  · rw [himage n (by omega), padded, List.getD_eq_getElem?_getD, List.getElem?_append_left hn,
      List.getElem?_eq_getElem hn, Option.getD_some]
  · rw [himage n (by omega), padded, List.getD_eq_getElem?_getD, List.getElem?_append_right hge,
      List.getElem?_replicate]
    split_ifs <;> rfl
  · rw [show bytes (ramAddr n) = _ from bytes_ramAddr P s hn,
      readmemh_makehex_word hdmem (by omega), if_neg (by omega)]
  · have hfetch : P.fetch (ramAddr (4 * n)) = BitVec.ofNat 32 (wordAt (padded data) (4 * n)) := by
      rw [fetch_ramAddr P (by omega), readmemh_makehex_word himem (by omega), if_pos hn]
    have hbytes : ∀ j < 4, byteOf (BitVec.ofNat 32 (wordAt (padded data) (4 * n))) j =
        bytes (ramAddr (4 * n + j)) := by
      intro j hj
      rw [himage (4 * n + j) (by omega)]
      exact byteOf_wordAt _ _ hj
    rw [hfetch, ← hbytes 3 (by omega), ← hbytes 2 (by omega), ← hbytes 1 (by omega),
      show bytes (ramAddr (4 * n)) = _ from (hbytes 0 (by omega)).symm]
    exact word_bytes _

open Image in
/-- Five bytes, the first four `jal x0, 0`. -/
theorem soc_image_jal :
    let data : List (BitVec 8) := [0x6F, 0, 0, 0, 0x2A]
    let image : BitVec 14 → Word := fun a =>
      if 4 * a.toNat < data.length then BitVec.ofNat 32 (wordAt (padded data) (4 * a.toNat)) else 0
    let P : Params := ⟨0x80000000, image⟩
    let s : Soc := { Soc.blank with
      bus := ⟨.reset, default, ⟨⟨default, default, false, image, 0⟩, default, default, default⟩⟩ }
    (SocRun.reset P s).bus.bytes (ramAddr 4) = 0x2A := by
  intro data image P s
  have hload : readmemh (hexText data) (fun _ => 0) = some image := by
    rw [readmemh_makehex]
    exact if_pos (by decide)
  have himem : readmemh (hexText data) (fun _ => 0) = some P.imem := hload
  have hdmem : readmemh (hexText data) (fun _ => 0) = some s.bus.slaves.uDmem.dmem.mem := hload
  exact ((soc_image data _ _ P s).2 himem hdmem).1 4 (by decide)

end Rv32i
