import Mathlib
import Minos.Lib.Bitmap
import Minos.Types

/-!
# Bit searches over words

A bitmap is an array of words of 64 bits. The searches go through it word by word, with the first
word masked, and the search for an area begins again behind each bit that is in its way. All
positions are `unsigned long` values and wrap as such.

A search that needs more rounds than it is given has no result.
-/

namespace Minos.Core.FindBit

open Bitmap

def BITS_PER_LONG : ℕ := 64

/-! ### The lowest bit of a word -/

/-- `if ((word & mask) == 0) { num += width; word >>= width; }`, where the mask has `width` bits -/
def ffsStep (s : ℕ × BitVec 64) (width : ℕ) : ℕ × BitVec 64 :=
  if s.2 &&& BitVec.ofNat 64 (2 ^ width - 1) = 0 then (s.1 + width, s.2 >>> width) else s

/-- `__ffs`. The last step of the source leaves the word as it is, and nothing reads it. -/
def ffs (word : BitVec 64) : ℕ := ([32, 16, 8, 4, 2, 1].foldl ffsStep (0, word)).1

/-! ### The searches -/

/-- `addr[start / BITS_PER_LONG] ^ invert` -/
def fetch (addr : ℕ → BitVec 64) (invert : BitVec 64) (start : ℕ) : BitVec 64 :=
  addr (start / BITS_PER_LONG) ^^^ invert

/-- `BITMAP_FIRST_WORD_MASK(start)` -/
def firstWordMask (start : ℕ) : BitVec 64 :=
  BitVec.allOnes 64 <<< (start &&& (BITS_PER_LONG - 1))

/-- The loop of `_find_next_bit`, and its result -/
def scanLoop (addr : ℕ → BitVec 64) (nbits : ℕ) (invert : BitVec 64) :
    ℕ → ℕ → BitVec 64 → Option ℕ
  | 0, _, _ => none
  | fuel + 1, start, tmp =>
    if tmp = 0 then
      let start := add64 start BITS_PER_LONG
      if nbits ≤ start then some nbits
      else scanLoop addr nbits invert fuel start (fetch addr invert start)
    else some (min (add64 start (ffs tmp)) nbits)

/-- `_find_next_bit` -/
def scanNextBit (fuel : ℕ) (addr : ℕ → BitVec 64) (nbits start : ℕ) (invert : BitVec 64) :
    Option ℕ :=
  if nbits = 0 ∨ nbits ≤ start then some nbits
  else scanLoop addr nbits invert fuel (align start BITS_PER_LONG)
    (fetch addr invert start &&& firstWordMask start)

/-- `find_next_bit` -/
def findNextBit (fuel : ℕ) (addr : ℕ → BitVec 64) (size offset : ℕ) : Option ℕ :=
  scanNextBit fuel addr size offset 0

/-- `find_next_zero_bit` -/
def findNextZeroBit (fuel : ℕ) (addr : ℕ → BitVec 64) (size offset : ℕ) : Option ℕ :=
  scanNextBit fuel addr size offset (BitVec.allOnes 64)

/-- `_find_next_bit_loop`: with the offset 0 there is no second search. -/
def scanNextBitLoop (fuel : ℕ) (addr : ℕ → BitVec 64) (size offset : ℕ) (invert : BitVec 64) :
    Option ℕ := do
  let bit ← scanNextBit fuel addr size offset invert
  if size ≤ bit ∧ offset ≠ 0 then scanNextBit fuel addr size 0 invert else some bit

/-- `find_next_zero_bit_loop` -/
def findNextZeroBitLoop (fuel : ℕ) (addr : ℕ → BitVec 64) (size offset : ℕ) : Option ℕ :=
  scanNextBitLoop fuel addr size offset (BitVec.allOnes 64)

/-- The rounds of `bitmap_find_next_zero_area_align` -/
def areaLoop (fuel : ℕ) (map : ℕ → BitVec 64) (size nr align : ℕ) : ℕ → ℕ → Option ℕ
  | 0, _ => none
  | rounds + 1, start => do
    let index ← findNextZeroBit fuel map size start
    let stop := add64 index nr
    if size < stop then some stop
    else if index &&& sub64 align 1 ≠ 0 then
      areaLoop fuel map size nr align rounds (add64 index 1)
    else
      let i ← findNextBit fuel map stop index
      if i < stop then areaLoop fuel map size nr align rounds (add64 i 1) else some index

/-- `bitmap_find_next_zero_area_align` -/
def bitmapFindNextZeroAreaAlign (fuel : ℕ) (map : ℕ → BitVec 64) (size start nr align : ℕ) :
    Option ℕ :=
  areaLoop fuel map size nr align fuel start

/-- The multiples of `align` from the start on where `nr` bits are zero -/
def areas (m : Bitmap) (size start nr align : ℕ) : Set ℕ :=
  {i | start ≤ i ∧ align ∣ i ∧ i + nr ≤ size ∧ ∀ j, i ≤ j → j < i + nr → m j = false}

/-- A search comes to an end with the result, whatever more it is given. -/
def Yields (search : ℕ → Option ℕ) (r : ℕ) : Prop := ∃ n, ∀ fuel, n ≤ fuel → search fuel = some r

/-- The bits of the words -/
def bits (addr : ℕ → BitVec 64) : Bitmap :=
  fun i => (addr (i / BITS_PER_LONG)).getLsbD (i % BITS_PER_LONG)

example : ffs 0x50000000000 = 40 := by decide

/-! ### What `__ffs` finds -/

/-- The number of zero bits below the lowest bit -/
structure IsLowest (x : BitVec 64) (n : ℕ) : Prop where
  bit : x.getLsbD n = true
  below : ∀ i < n, x.getLsbD i = false

/-- The word is what is left above zero bits, and one of its first `width` bits is set. -/
structure Narrowed (x : BitVec 64) (width : ℕ) (s : ℕ × BitVec 64) : Prop where
  word : s.2 = x >>> s.1
  below : ∀ i < s.1, x.getLsbD i = false
  some : ∃ i < width, s.2.getLsbD i = true

section Ffs

variable {x : BitVec 64} {s : ℕ × BitVec 64} {width : ℕ}

lemma and_mask_eq_zero_iff {w : BitVec 64} :
    w &&& BitVec.ofNat 64 (2 ^ width - 1) = 0 ↔ ∀ i < width, w.getLsbD i = false := by
  have hbit : ∀ i, (w &&& BitVec.ofNat 64 (2 ^ width - 1)).getLsbD i =
      (w.getLsbD i && decide (i < width)) := by
    intro i
    rw [BitVec.getLsbD_and, BitVec.getLsbD_ofNat, Nat.testBit_two_pow_sub_one]
    by_cases hi : i < 64
    · simp [hi]
    · rw [BitVec.getLsbD_of_ge w i (not_lt.1 hi), Bool.false_and, Bool.false_and]
  constructor
  · intro h i hi
    have := hbit i
    rw [h, decide_eq_true hi, Bool.and_true] at this
    simpa using this.symm
  · intro h
    apply BitVec.eq_of_getLsbD_eq
    intro i _
    rw [hbit]
    refine Eq.trans ?_ BitVec.getLsbD_zero.symm
    by_cases hi : i < width
    · rw [h i hi, Bool.false_and]
    · rw [decide_eq_false hi, Bool.and_false]

/-- A step halves the bits among which one is set. -/
lemma Narrowed.step (h : Narrowed x (width + width) s) : Narrowed x width (ffsStep s width) := by
  rw [ffsStep]
  split_ifs with hzero
  · rw [and_mask_eq_zero_iff] at hzero
    constructor
    case word => rw [h.word, BitVec.shiftRight_add]
    case below =>
      intro i hi
      rcases Nat.lt_or_ge i s.1 with hlt | hge
      · exact h.below i hlt
      · have hbit := hzero (i - s.1) (by dsimp only at hi; omega)
        rwa [h.word, BitVec.getLsbD_ushiftRight, Nat.add_sub_cancel' hge] at hbit
    case some =>
      obtain ⟨i, hi, hbit⟩ := h.some
      have hge : width ≤ i := by
        by_contra hlt
        rw [hzero i (not_le.1 hlt)] at hbit
        exact Bool.false_ne_true hbit
      refine ⟨i - width, by omega, ?_⟩
      rwa [BitVec.getLsbD_ushiftRight, Nat.add_sub_cancel' hge]
  · rw [and_mask_eq_zero_iff] at hzero
    refine ⟨h.word, h.below, ?_⟩
    push Not at hzero
    obtain ⟨i, hi, hbit⟩ := hzero
    exact ⟨i, hi, by simpa using hbit⟩

lemma narrowed_start (hx : x ≠ 0) : Narrowed x 64 (0, x) := by
  refine ⟨(BitVec.ushiftRight_zero x).symm, fun i hi => absurd hi (Nat.not_lt_zero i), ?_⟩
  by_contra hnone
  push Not at hnone
  refine hx (BitVec.eq_of_getLsbD_eq fun i hi => Eq.trans ?_ BitVec.getLsbD_zero.symm)
  simpa using hnone i hi

lemma isLowest_ffs (hx : x ≠ 0) : IsLowest x (ffs x) := by
  have h : Narrowed x 1 ([32, 16, 8, 4, 2, 1].foldl ffsStep (0, x)) :=
    (narrowed_start hx).step.step.step.step.step.step
  refine ⟨?_, h.below⟩
  obtain ⟨i, hi, hbit⟩ := h.some
  obtain rfl : i = 0 := by omega
  rwa [h.word, BitVec.getLsbD_ushiftRight, Nat.add_zero] at hbit

lemma ffs_lt (hx : x ≠ 0) : ffs x < 64 := by
  by_contra hge
  have hbit := (isLowest_ffs hx).bit
  rw [BitVec.getLsbD_of_ge x _ (not_lt.1 hge)] at hbit
  exact Bool.false_ne_true hbit

end Ffs

/-! ### A scan of the words -/

/-- The bit that a search with `invert` looks at -/
def fetched (addr : ℕ → BitVec 64) (invert : BitVec 64) (i : ℕ) : Bool :=
  (fetch addr invert i).getLsbD (i % BITS_PER_LONG)

section Scan

variable {addr : ℕ → BitVec 64} {invert tmp : BitVec 64} {nbits start first fuel i : ℕ}

lemma fetch_getLsbD (hstart : 64 ∣ start) (hi : i < 64) :
    (fetch addr invert start).getLsbD i = fetched addr invert (start + i) := by
  have hdiv : (start + i) / BITS_PER_LONG = start / BITS_PER_LONG := by
    rw [BITS_PER_LONG]
    omega
  have hmod : (start + i) % BITS_PER_LONG = i := by
    rw [BITS_PER_LONG]
    omega
  rw [fetched, fetch, fetch, hdiv, hmod]

/-- The mask leaves the bits from the start on. -/
lemma firstWordMask_getLsbD (hi : i < 64) :
    (firstWordMask start).getLsbD i = decide (start % 64 ≤ i) := by
  have hand : start &&& (BITS_PER_LONG - 1) = start % 64 := Nat.and_two_pow_sub_one_eq_mod start 6
  rw [firstWordMask, hand, BitVec.getLsbD_shiftLeft, BitVec.getLsbD_allOnes, decide_eq_true hi,
    decide_eq_true (show i - start % 64 < 64 by omega), Bool.true_and, Bool.and_true]
  by_cases hlt : i < start % 64
  · rw [decide_eq_true hlt, decide_eq_false (not_le.2 hlt), Bool.not_true]
  · rw [decide_eq_false hlt, decide_eq_true (not_lt.1 hlt), Bool.not_false]

/-- What the loop of a search from `first` knows at a word: nothing was found before it, and `tmp`
has the bits of the word from `first` on. -/
structure Scanning (addr : ℕ → BitVec 64) (invert : BitVec 64) (nbits first start : ℕ)
    (tmp : BitVec 64) : Prop where
  word : 64 ∣ start
  lt : start < nbits
  before : ∀ j, first ≤ j → j < start → fetched addr invert j = false
  tmp : ∀ i < 64, tmp.getLsbD i =
    (decide (first ≤ start + i) && fetched addr invert (start + i))

/-- An empty word: the search goes on behind it. -/
lemma Scanning.behind (h : Scanning addr invert nbits first start 0) :
    ∀ j, first ≤ j → j < start + 64 → fetched addr invert j = false := by
  intro j hlo hhi
  rcases Nat.lt_or_ge j start with hlt | hge
  · exact h.before j hlo hlt
  · have hbit := h.tmp (j - start) (by omega)
    rw [Nat.add_sub_cancel' hge, decide_eq_true hlo, Bool.true_and] at hbit
    exact hbit.symm.trans BitVec.getLsbD_zero

lemma Scanning.next (h : Scanning addr invert nbits first start 0) (hlt : start + 64 < nbits)
    (hfirst : first < start + 64) :
    Scanning addr invert nbits first (start + 64) (fetch addr invert (start + 64)) where
  word := dvd_add h.word (dvd_refl 64)
  lt := hlt
  before := h.behind
  tmp i hi := by
    rw [fetch_getLsbD (dvd_add h.word (dvd_refl 64)) hi, decide_eq_true (by omega), Bool.true_and]

/-- The lowest bit of the word is the first one, or the first one is not among the bits. -/
lemma Scanning.found (h : Scanning addr invert nbits first start tmp) (htmp : tmp ≠ 0) :
    min (start + ffs tmp) nbits = findNext (fetched addr invert) nbits first := by
  obtain ⟨hbit, hbelow⟩ := isLowest_ffs htmp
  have hlt := ffs_lt htmp
  rw [h.tmp _ hlt, Bool.and_eq_true, decide_eq_true_iff] at hbit
  have hnone : ∀ j, first ≤ j → j < start + ffs tmp → fetched addr invert j = false := by
    intro j hlo hhi
    rcases Nat.lt_or_ge j start with hbefore | hge
    · exact h.before j hlo hbefore
    · have hzero := hbelow (j - start) (by omega)
      rwa [h.tmp _ (by omega), Nat.add_sub_cancel' hge, decide_eq_true hlo, Bool.true_and] at hzero
  rcases Nat.lt_or_ge (start + ffs tmp) nbits with hin | hout
  · rw [min_eq_left hin.le]
    exact (findNext_eq hbit.1 hin hbit.2 hnone).symm
  · rw [min_eq_right hout]
    exact (findNext_eq_size fun j hlo hhi => hnone j hlo (hhi.trans_le hout)).symm

/-- The loop finds the first bit. By induction on the rounds, each of which takes a word. -/
lemma scanLoop_eq (hnbits : nbits ≤ 2 ^ 64 - 64) (hfirst : first < start + 64)
    (h : Scanning addr invert nbits first start tmp) (hfuel : nbits ≤ start + 64 * fuel) :
    scanLoop addr nbits invert fuel start tmp =
      some (findNext (fetched addr invert) nbits first) := by
  have hlt := h.lt
  obtain ⟨q, hq⟩ := h.word
  induction fuel generalizing start tmp q with
  | zero => omega
  | succ fuel ih =>
    have hnext : add64 start BITS_PER_LONG = start + 64 := add64_of_lt (by
      rw [BITS_PER_LONG]
      omega)
    rw [scanLoop]
    by_cases htmp : tmp = 0
    · rw [htmp] at h
      dsimp only
      rw [if_pos htmp, hnext]
      by_cases hend : nbits ≤ start + 64
      · rw [if_pos hend]
        exact congrArg some
          (findNext_eq_size fun j hlo hhi => h.behind j hlo (hhi.trans_le hend)).symm
      · rw [if_neg hend]
        exact ih (by omega) (h.next (not_le.1 hend) hfirst) (by omega) (not_le.1 hend) (q + 1)
          (by omega)
    · have hbound := ffs_lt htmp
      rw [if_neg htmp, add64_of_lt (by omega), h.found htmp]

/-- Where no step wraps, the scan of the words is the search over the bits. -/
lemma scanNextBit_eq (hnbits : nbits ≤ 2 ^ 64 - 64) (hfuel : nbits ≤ fuel) :
    scanNextBit fuel addr nbits start invert =
      some (findNext (fetched addr invert) nbits start) := by
  rw [scanNextBit]
  by_cases hout : nbits ≤ start
  · rw [if_pos (Or.inr hout), findNext, if_pos hout]
  have hlt := not_le.1 hout
  have hround : align start BITS_PER_LONG = start / 64 * 64 :=
    align_pow (x := start) (k := 6) (by omega) (by norm_num)
  have hfetch : fetch addr invert start = fetch addr invert (start / 64 * 64) := by
    rw [fetch, fetch, BITS_PER_LONG, Nat.mul_div_cancel _ (by norm_num)]
  rw [if_neg (by omega), hround, hfetch]
  refine scanLoop_eq hnbits (by omega) ⟨Dvd.intro_left _ rfl, by omega, ?_, ?_⟩ (by omega)
  · intro j hlo hhi
    omega
  · intro i hi
    rw [BitVec.getLsbD_and, fetch_getLsbD (Dvd.intro_left _ rfl) hi, firstWordMask_getLsbD hi,
      Bool.and_comm]
    congr 1
    exact decide_eq_decide.2 (by omega)

end Scan

/-! ### The searches over the bits -/

section Searches

variable {map : ℕ → BitVec 64} {size start offset nr align fuel : ℕ}

lemma fetched_zero : fetched map 0 = bits map := by
  funext i
  rw [fetched, fetch, show (0 : BitVec 64) = 0#64 from rfl, BitVec.xor_zero, bits]

lemma fetched_allOnes : fetched map (BitVec.allOnes 64) = fun i => !bits map i := by
  funext i
  have hi : i % BITS_PER_LONG < 64 := Nat.mod_lt i (by decide)
  rw [fetched, fetch, BitVec.xor_allOnes, BitVec.getLsbD_not, decide_eq_true hi, Bool.true_and,
    bits]

lemma findNextBit_eq (hsize : size ≤ 2 ^ 64 - 64) (hfuel : size ≤ fuel) :
    findNextBit fuel map size offset = some (Bitmap.findNextBit (bits map) size offset) := by
  rw [findNextBit, scanNextBit_eq hsize hfuel, fetched_zero, Bitmap.findNextBit]

lemma findNextZeroBit_eq (hsize : size ≤ 2 ^ 64 - 64) (hfuel : size ≤ fuel) :
    findNextZeroBit fuel map size offset =
      some (Bitmap.findNextZeroBit (bits map) size offset) := by
  rw [findNextZeroBit, scanNextBit_eq hsize hfuel, fetched_allOnes, Bitmap.findNextZeroBit]

lemma findNextZeroBitLoop_eq (hsize : size ≤ 2 ^ 64 - 64) (hfuel : size ≤ fuel) :
    findNextZeroBitLoop fuel map size offset =
      some (Bitmap.findNextZeroBitLoop (bits map) size offset) := by
  rw [findNextZeroBitLoop, scanNextBitLoop, scanNextBit_eq hsize hfuel, Option.bind_eq_bind,
    Option.bind_some, scanNextBit_eq hsize hfuel, fetched_allOnes, Bitmap.findNextZeroBitLoop,
    Bitmap.findNextZeroBit, Bitmap.findNextZeroBit]
  split_ifs
  · rfl
  · rfl

/-- The rounds of the source do what the rounds over the bits do: no end of a window wraps, and the
next start is not above the size. -/
lemma areaLoop_eq {rounds n : ℕ} (hsize : size ≤ 2 ^ 64 - 64) (hfuel : size ≤ fuel) (hnr : 0 < nr)
    (hend : size + nr < 2 ^ 64) (halign : 0 < align) (halign' : align < 2 ^ 64)
    (hrounds : size + 1 ≤ start + rounds) (hpos : 0 < rounds) (hn : size < start + n) :
    areaLoop fuel map size nr align rounds start =
      some (findZeroAreaFrom (bits map) size nr align n start) := by
  have hmask : sub64 align 1 = align - 1 := sub64_of_le halign halign'
  induction rounds generalizing start n with
  | zero => omega
  | succ rounds ih =>
    set index := Bitmap.findNextZeroBit (bits map) size start with hindex
    have hle : index ≤ size := findNext_le _ _ _
    rw [areaLoop, findNextZeroBit_eq hsize hfuel, ← hindex, Option.bind_eq_bind,
      Option.bind_some, add64_of_lt (show index + nr < 2 ^ 64 by omega), hmask]
    cases n with
    | zero =>
      have hout : index = size := by
        rw [hindex, Bitmap.findNextZeroBit, findNext, if_pos (by omega)]
      rw [findZeroAreaFrom, hout, if_pos (by omega)]
    | succ n =>
      rw [findZeroAreaFrom]
      simp only [← hindex]
      by_cases hover : size < index + nr
      · rw [if_pos hover, if_pos hover]
      have hge : start ≤ index := by
        rcases Nat.lt_or_ge start size with hs | hs
        · exact le_findNext _ hs
        · rw [hindex, Bitmap.findNextZeroBit, findNext, if_pos hs] at hover
          omega
      rw [if_neg hover, if_neg hover]
      by_cases hmiss : index &&& (align - 1) ≠ 0
      · rw [if_pos hmiss, if_pos hmiss, add64_of_lt (by omega)]
        exact ih (by omega) (by omega) (by omega)
      rw [if_neg hmiss, if_neg hmiss, findNextBit_eq (by omega) (by omega), Option.bind_some]
      have hge' : index ≤ Bitmap.findNextBit (bits map) (index + nr) index :=
        le_findNext _ (by omega)
      split_ifs with hset
      · rw [add64_of_lt (by omega)]
        exact ih (by omega) (by omega) (by omega)
      · rfl

lemma bitmapFindNextZeroAreaAlign_eq (hsize : size ≤ 2 ^ 64 - 64) (hfuel : size < fuel)
    (hnr : 0 < nr) (hend : size + nr < 2 ^ 64) (halign : 0 < align) (halign' : align < 2 ^ 64) :
    bitmapFindNextZeroAreaAlign fuel map size start nr align =
      some (findZeroAreaFrom (bits map) size nr align (size + 1) start) :=
  areaLoop_eq hsize hfuel.le hnr hend halign halign' (by omega) (by omega) (by omega)

lemma areas_two_pow {m : Bitmap} {k : ℕ} :
    areas m size start nr (2 ^ k) = {i | start ≤ i ∧ IsArea m size nr (2 ^ k) i} :=
  Set.ext fun _ => and_congr_right fun _ => isArea_two_pow.symm

end Searches

section Results

variable {map : ℕ → BitVec 64} {size start offset nr k : ℕ}

/-- The search for an area ends, with the first area or with what is no place in the map. -/
lemma area_found (hsize : size ≤ 2 ^ 64 - 64) (hnr : 0 < nr) (hend : size + nr < 2 ^ 64)
    (hk : k < 64) :
    ∃ r, Yields (fun fuel => bitmapFindNextZeroAreaAlign fuel map size start nr (2 ^ k)) r ∧
      (IsLeast (areas (bits map) size start nr (2 ^ k)) r ∨
        (areas (bits map) size start nr (2 ^ k) = ∅ ∧ size < r)) := by
  have halign : 2 ^ k < 2 ^ 64 := Nat.pow_lt_pow_right (by norm_num) hk
  refine ⟨_, ⟨size + 1, fun fuel hfuel =>
    bitmapFindNextZeroAreaAlign_eq hsize hfuel hnr hend (by positivity) halign⟩, ?_⟩
  rw [areas_two_pow]
  refine (findZeroAreaFrom_least hnr (by omega)).imp_right fun h => ⟨?_, h.1⟩
  exact Set.eq_empty_of_forall_notMem fun b hb => h.2 b hb.1 hb.2

/-- The search with wrap-around ends, and has a zero bit if there is one. -/
lemma zero_bit_found (hsize : size ≤ 2 ^ 64 - 64) :
    ∃ r, Yields (fun fuel => findNextZeroBitLoop fuel map size offset) r ∧
      ((r < size ∧ bits map r = false) ↔ ∃ i < size, bits map i = false) ∧
      (r < size → IsLeast {i | offset ≤ i ∧ i < size ∧ bits map i = false} r ∨
        ((∀ i, offset ≤ i → i < size → bits map i = true) ∧
          IsLeast {i | i < size ∧ bits map i = false} r)) := by
  refine ⟨_, ⟨size, fun fuel hfuel => findNextZeroBitLoop_eq hsize hfuel⟩, ?_,
    findNextZeroBitLoop_first⟩
  rw [← @findNextZeroBitLoop_lt_iff size (bits map) offset]
  exact and_iff_left_of_imp findNextZeroBitLoop_prop

/-- Both searches end in a map whose last word and whose windows do not wrap. The one finds the
first aligned area from the start on, or returns more than the size if there is none; the other
finds a zero bit if there is one, the first from the offset on or else the first. -/
theorem zero_searches (hsize : size ≤ 2 ^ 64 - 64) :
    (∀ start nr k, 0 < nr → size + nr < 2 ^ 64 → k < 64 →
      ∃ r, Yields (fun fuel => bitmapFindNextZeroAreaAlign fuel map size start nr (2 ^ k)) r ∧
        (IsLeast (areas (bits map) size start nr (2 ^ k)) r ∨
          (areas (bits map) size start nr (2 ^ k) = ∅ ∧ size < r))) ∧
    ∀ offset ≤ size,
      ∃ r, Yields (fun fuel => findNextZeroBitLoop fuel map size offset) r ∧
        ((r < size ∧ bits map r = false) ↔ ∃ i < size, bits map i = false) ∧
        (r < size → IsLeast {i | offset ≤ i ∧ i < size ∧ bits map i = false} r ∨
          ((∀ i, offset ≤ i → i < size → bits map i = true) ∧
            IsLeast {i | i < size ∧ bits map i = false} r)) :=
  ⟨fun _ _ _ hnr hend hk => area_found hsize hnr hend hk, fun _ _ => zero_bit_found hsize⟩

/-- A map of 100 bits with the lowest 5 bits of each word set -/
theorem zero_searches_hundred :
    100 ≤ 2 ^ 64 - 64 ∧
    (∃ r, Yields (fun fuel => bitmapFindNextZeroAreaAlign fuel (fun _ => 0x1f) 100 3 6 (2 ^ 2)) r ∧
      (IsLeast (areas (bits fun _ => 0x1f) 100 3 6 (2 ^ 2)) r ∨
        (areas (bits fun _ => 0x1f) 100 3 6 (2 ^ 2) = ∅ ∧ 100 < r))) ∧
    ∃ r, Yields (fun fuel => findNextZeroBitLoop fuel (fun _ => 0x1f) 100 64) r ∧
      ((r < 100 ∧ bits (fun _ => 0x1f) r = false) ↔ ∃ i < 100, bits (fun _ => 0x1f) i = false) ∧
      (r < 100 → IsLeast {i | 64 ≤ i ∧ i < 100 ∧ bits (fun _ => 0x1f) i = false} r ∨
        ((∀ i, 64 ≤ i → i < 100 → bits (fun _ => 0x1f) i = true) ∧
          IsLeast {i | i < 100 ∧ bits (fun _ => 0x1f) i = false} r)) := by
  have h := @zero_searches (fun _ => 0x1f) 100 (by norm_num)
  exact ⟨by norm_num, h.1 3 6 2 (by norm_num) (by norm_num) (by norm_num), h.2 64 (by norm_num)⟩

/-! ### Maps at the end of the range -/

/-- Words without a zero bit: the scan for one goes round the address space. -/
lemma scanLoop_full (fuel : ℕ) (hstart : 64 ∣ start) (hlt : start < 2 ^ 64) :
    scanLoop (fun _ => BitVec.allOnes 64) (2 ^ 64 - 1) (BitVec.allOnes 64) fuel start 0 = none := by
  have hfetch : ∀ i, fetch (fun _ => BitVec.allOnes 64) (BitVec.allOnes 64) i = 0 :=
    fun _ => BitVec.xor_self
  induction fuel generalizing start with
  | zero => rfl
  | succ fuel ih =>
    have hdvd : 64 ∣ add64 start BITS_PER_LONG := by
      rw [add64, BITS_PER_LONG]
      omega
    have hnext := add64_lt start BITS_PER_LONG
    rw [scanLoop, if_pos rfl]
    dsimp only
    rw [if_neg (by omega), hfetch]
    exact ih hdvd hnext

/-- At the size `2 ^ 64 - 1` the end of the window wraps to zero, and the search for one bit from
the end of the map returns the size although there is no place left. In a map without a zero bit
the other search does not end. -/
theorem zero_searches_wrap :
    Yields (fun fuel => bitmapFindNextZeroAreaAlign fuel (fun _ => 0) (2 ^ 64 - 1) (2 ^ 64 - 1) 1 1)
      (2 ^ 64 - 1) ∧
    areas (bits fun _ => 0) (2 ^ 64 - 1) (2 ^ 64 - 1) 1 1 = ∅ ∧ ¬ 2 ^ 64 - 1 < 2 ^ 64 - 1 ∧
    ∀ fuel, findNextZeroBitLoop fuel (fun _ => BitVec.allOnes 64) (2 ^ 64 - 1) 0 = none := by
  refine ⟨⟨1, fun fuel hfuel => ?_⟩, ?_, lt_irrefl _, fun fuel => ?_⟩
  · obtain ⟨fuel, rfl⟩ := Nat.exists_eq_add_of_le' hfuel
    have hindex : findNextZeroBit (fuel + 1) (fun _ => 0) (2 ^ 64 - 1) (2 ^ 64 - 1) =
        some (2 ^ 64 - 1) := by
      rw [findNextZeroBit, scanNextBit, if_pos (Or.inr le_rfl)]
    have hstop : add64 (2 ^ 64 - 1) 1 = 0 := by decide +kernel
    have hmask : sub64 1 1 = 0 := by decide +kernel
    have hset : findNextBit (fuel + 1) (fun _ => 0) 0 (2 ^ 64 - 1) = some 0 := by
      rw [findNextBit, scanNextBit, if_pos (Or.inl rfl)]
    dsimp only
    rw [bitmapFindNextZeroAreaAlign, areaLoop, hindex, Option.bind_eq_bind, Option.bind_some, hstop,
      hmask, Nat.and_zero, if_neg (Nat.not_lt_zero _), if_neg (not_not.2 rfl), hset,
      Option.bind_some, if_neg (lt_irrefl 0)]
  · refine Set.eq_empty_of_forall_notMem fun i hi => ?_
    obtain ⟨hlo, -, hend, -⟩ := hi
    omega
  · have halign : align 0 BITS_PER_LONG = 0 := by decide +kernel
    have hfirst : fetch (fun _ => BitVec.allOnes 64) (BitVec.allOnes 64) 0 &&& firstWordMask 0 =
        0 := by decide
    rw [findNextZeroBitLoop, scanNextBitLoop, scanNextBit, if_neg (by norm_num), halign, hfirst,
      scanLoop_full fuel (dvd_zero 64) (by norm_num)]
    rfl

end Results

end Minos.Core.FindBit
