import Mathlib

/-!
# Bitmaps and bit searches

A bitmap is the function that gives each bit. The searches return the size of the map when they
find nothing, as the searches over arrays of words do.
-/

/-- The bits of an array of words, of which a user looks at the first few. -/
abbrev Bitmap : Type := ℕ → Bool

namespace Bitmap

/-- The first of the `n` positions from `i` on that has the property, and `i + n` if none has. -/
def findFrom (p : ℕ → Bool) : ℕ → ℕ → ℕ
  | 0, i => i
  | n + 1, i => if p i then i else findFrom p n (i + 1)

/-- `_find_next_bit`, over the bits that have the property -/
def findNext (p : ℕ → Bool) (size start : ℕ) : ℕ :=
  if size ≤ start then size else findFrom p (size - start) start

/-- `find_next_bit` -/
def findNextBit (m : Bitmap) (size offset : ℕ) : ℕ := findNext m size offset

/-- `find_next_zero_bit` -/
def findNextZeroBit (m : Bitmap) (size offset : ℕ) : ℕ := findNext (fun i => !m i) size offset

/-- `find_next_zero_bit_loop`: from the offset to the end, then from the beginning -/
def findNextZeroBitLoop (m : Bitmap) (size offset : ℕ) : ℕ :=
  if size ≤ findNextZeroBit m size offset ∧ offset ≠ 0 then findNextZeroBit m size 0
  else findNextZeroBit m size offset

/-- The loop of `bitmap_find_next_zero_area_align`, which goes on from a higher start each time. -/
def findZeroAreaFrom (m : Bitmap) (size nr align : ℕ) : ℕ → ℕ → ℕ
  | 0, _ => size + nr
  | fuel + 1, start =>
    let index := findNextZeroBit m size start
    if size < index + nr then index + nr
    else if index &&& (align - 1) ≠ 0 then findZeroAreaFrom m size nr align fuel (index + 1)
    else
      let i := findNextBit m (index + nr) index
      if i < index + nr then findZeroAreaFrom m size nr align fuel (i + 1) else index

/-- `bitmap_find_next_zero_area_align` -/
def findNextZeroAreaAlign (m : Bitmap) (size start nr align : ℕ) : ℕ :=
  findZeroAreaFrom m size nr align (size + 1) start

/-- `bitmap_set` -/
def setRange (m : Bitmap) (start len : ℕ) : Bitmap :=
  fun i => if start ≤ i ∧ i < start + len then true else m i

/-- `bitmap_clear` -/
def clearRange (m : Bitmap) (start len : ℕ) : Bitmap :=
  fun i => if start ≤ i ∧ i < start + len then false else m i

/-- `set_bit` -/
def setBit (m : Bitmap) (bit : ℕ) : Bitmap := Function.update m bit true

/-- `clear_bit` -/
def clearBit (m : Bitmap) (bit : ℕ) : Bitmap := Function.update m bit false

/-! ### What a search finds -/

variable {p : ℕ → Bool} {n i j : ℕ}

lemma findFrom_le (p : ℕ → Bool) (n i : ℕ) : findFrom p n i ≤ i + n := by
  induction n generalizing i with
  | zero => simp [findFrom]
  | succ n ih =>
    rw [findFrom]
    split
    · omega
    · have := ih (i + 1)
      omega

lemma le_findFrom (p : ℕ → Bool) (n i : ℕ) : i ≤ findFrom p n i := by
  induction n generalizing i with
  | zero => simp [findFrom]
  | succ n ih =>
    rw [findFrom]
    split
    · exact le_rfl
    · have := ih (i + 1)
      omega

lemma findFrom_prop (h : findFrom p n i < i + n) : p (findFrom p n i) = true := by
  induction n generalizing i with
  | zero => simp [findFrom] at h
  | succ n ih =>
    rw [findFrom] at h ⊢
    split
    · assumption
    · rename_i hp
      rw [if_neg hp] at h
      exact ih (by omega)

lemma findFrom_first (hi : i ≤ j) (hj : j < findFrom p n i) : p j = false := by
  induction n generalizing i with
  | zero =>
    rw [findFrom] at hj
    omega
  | succ n ih =>
    rw [findFrom] at hj
    split at hj
    · omega
    · rename_i hp
      rcases hi.eq_or_lt with rfl | hlt
      · simpa using hp
      · exact ih hlt hj

variable {size start : ℕ}

lemma findNext_le (p : ℕ → Bool) (size start : ℕ) : findNext p size start ≤ size := by
  rw [findNext]
  split
  · exact le_rfl
  · have := findFrom_le p (size - start) start
    omega

lemma le_findNext (p : ℕ → Bool) (h : start < size) : start ≤ findNext p size start := by
  rw [findNext, if_neg (by omega)]
  exact le_findFrom p _ _

lemma findNext_prop (h : findNext p size start < size) : p (findNext p size start) = true := by
  rw [findNext] at h ⊢
  split
  · rename_i hs
    rw [if_pos hs] at h
    omega
  · rename_i hs
    rw [if_neg hs] at h
    exact findFrom_prop (by omega)

/-- Everything between the start of the search and its result lacks the property. -/
lemma findNext_first (hi : start ≤ j) (hj : j < findNext p size start) (hs : j < size) :
    p j = false := by
  rw [findNext, if_neg (by omega)] at hj
  exact findFrom_first hi hj

/-- A search that finds nothing has seen every position. -/
lemma findNext_none (h : size ≤ findNext p size start) (hi : start ≤ j) (hj : j < size) :
    p j = false :=
  findNext_first hi (by omega) hj

lemma findNext_eq_size (h : ∀ j, start ≤ j → j < size → p j = false) :
    findNext p size start = size := by
  refine le_antisymm (findNext_le p size start) (not_lt.1 fun hlt => ?_)
  have hge : start ≤ findNext p size start := by
    by_contra hbelow
    rw [findNext] at hbelow hlt
    split_ifs at hbelow hlt
    · omega
    · exact hbelow (le_findFrom p _ _)
  have hset := findNext_prop hlt
  rw [h _ hge hlt] at hset
  exact Bool.false_ne_true hset

/-- The first position with the property is what the search finds. -/
lemma findNext_eq (hi : start ≤ i) (hs : i < size) (hp : p i = true)
    (hfirst : ∀ j, start ≤ j → j < i → p j = false) : findNext p size start = i := by
  rcases lt_trichotomy (findNext p size start) i with hlt | heq | hgt
  · have hset := findNext_prop (hlt.trans hs)
    rw [hfirst _ (le_findNext p (hi.trans_lt hs)) hlt] at hset
    exact absurd hset Bool.false_ne_true
  · exact heq
  · rw [findNext_first hi hgt hs] at hp
    exact absurd hp Bool.false_ne_true

variable {m : Bitmap} {offset : ℕ}

lemma findNextZeroBit_prop (h : findNextZeroBit m size start < size) :
    m (findNextZeroBit m size start) = false := by
  have := findNext_prop h
  simpa [findNextZeroBit] using this

lemma findNextZeroBitLoop_prop (h : findNextZeroBitLoop m size offset < size) :
    m (findNextZeroBitLoop m size offset) = false := by
  rw [findNextZeroBitLoop] at h ⊢
  split
  · rename_i hc
    rw [if_pos hc] at h
    exact findNextZeroBit_prop h
  · rename_i hc
    rw [if_neg hc] at h
    exact findNextZeroBit_prop h

/-- The search with wrap-around finds a zero bit whenever there is one. -/
lemma findNextZeroBitLoop_none (h : size ≤ findNextZeroBitLoop m size offset) (hj : j < size) :
    m j = true := by
  have hzero : size ≤ findNextZeroBit m size 0 := by
    rw [findNextZeroBitLoop] at h
    split at h
    · exact h
    · rename_i hc
      rcases Nat.eq_zero_or_pos offset with rfl | hpos
      · exact h
      · exact absurd ⟨h, by omega⟩ hc
  simpa using findNext_none hzero (Nat.zero_le j) hj

/-- The area that is found lies in the map, is aligned and has only zero bits. -/
lemma findZeroAreaFrom_prop {nr align fuel : ℕ} (hnr : 0 < nr)
    (h : findZeroAreaFrom m size nr align fuel start < size) :
    findZeroAreaFrom m size nr align fuel start + nr ≤ size ∧
    findZeroAreaFrom m size nr align fuel start &&& (align - 1) = 0 ∧
    ∀ j, findZeroAreaFrom m size nr align fuel start ≤ j →
      j < findZeroAreaFrom m size nr align fuel start + nr → m j = false := by
  induction fuel generalizing start with
  | zero =>
    simp only [findZeroAreaFrom] at h
    omega
  | succ fuel ih =>
    simp only [findZeroAreaFrom] at h ⊢
    split_ifs at h ⊢ with hend halign hi
    · omega
    · exact ih h
    · exact ih h
    · refine ⟨by omega, not_not.1 halign, fun j hj hlt => ?_⟩
      exact findNext_none (not_lt.1 hi) hj hlt

/-- The start grows, so that more than `size` rounds find nothing else. -/
lemma findZeroAreaFrom_fuel {nr align fuel : ℕ} (hnr : 0 < nr) (hfuel : size < start + fuel) :
    findZeroAreaFrom m size nr align (fuel + 1) start =
      findZeroAreaFrom m size nr align fuel start := by
  induction fuel generalizing start with
  | zero =>
    have hidx : findNextZeroBit m size start = size := by
      rw [findNextZeroBit, findNext, if_pos (by omega)]
    simp [findZeroAreaFrom, hidx, hnr]
  | succ fuel ih =>
    have hle : ∀ index, index = findNextZeroBit m size start → ¬ size < index + nr →
        start ≤ index := by
      rintro index rfl hend
      rcases Nat.lt_or_ge start size with hs | hs
      · exact le_findNext _ hs
      · rw [findNextZeroBit, findNext, if_pos hs] at hend
        omega
    conv_lhs => rw [findZeroAreaFrom]
    conv_rhs => rw [findZeroAreaFrom]
    dsimp only
    split_ifs with hend halign hi
    · rfl
    · have := hle _ rfl hend
      exact ih (by omega)
    · have h1 := hle _ rfl hend
      have h2 : findNextZeroBit m size start ≤ findNextBit m (findNextZeroBit m size start + nr)
          (findNextZeroBit m size start) := le_findNext _ (by omega)
      exact ih (by omega)
    · rfl

/-! ### Counting zero bits -/

/-- The number of zero bits among the first `n`. -/
def zeros (m : Bitmap) (n : ℕ) : ℕ := (List.range n).countP fun i => !m i

lemma zeros_succ (m : Bitmap) (n : ℕ) : zeros m (n + 1) = zeros m n + if m n then 0 else 1 := by
  rw [zeros, List.range_succ, List.countP_append, zeros]
  cases h : m n <;> simp [h]

lemma zeros_eq_zero_iff : zeros m n = 0 ↔ ∀ i < n, m i = true := by
  simp [zeros, List.countP_eq_zero]

lemma zeros_const (n : ℕ) : zeros (fun _ => false) n = n := by
  simp [zeros]

lemma zeros_congr {m' : Bitmap} (h : ∀ i < n, m i = m' i) : zeros m n = zeros m' n := by
  apply List.countP_congr
  intro i hi
  rw [h i (List.mem_range.1 hi)]

lemma zeros_setBit (hi : i < n) (h : m i = false) : zeros m n = zeros (setBit m i) n + 1 := by
  induction n with
  | zero => omega
  | succ n ih =>
    rw [zeros_succ, zeros_succ]
    rcases (Nat.lt_succ_iff.1 hi).eq_or_lt with rfl | hlt
    · have : zeros (setBit m i) i = zeros m i :=
        zeros_congr fun j hj => by rw [setBit, Function.update_of_ne (by omega)]
      rw [this, h, setBit, Function.update_self]
      simp
    · rw [ih hlt, setBit, Function.update_of_ne (by omega)]
      omega

/-- Setting the first bits of an empty map. -/
lemma zeros_setRange (h : i ≤ n) : zeros (setRange (fun _ => false) 0 i) n = n - i := by
  induction n with
  | zero => simp [zeros]
  | succ n ih =>
    rw [zeros_succ]
    rcases h.eq_or_lt with rfl | hlt
    · have hfull : zeros (setRange (fun _ => false) 0 (n + 1)) n = 0 :=
        zeros_eq_zero_iff.2 fun j hj => by simp [setRange]; omega
      simp [hfull, setRange]
    · have hlast : setRange (fun _ => false) 0 i n = false := by
        rw [setRange, if_neg (by omega)]
      rw [ih (by omega), hlast]
      simp
      omega

lemma setRange_succ (m : Bitmap) (start len : ℕ) :
    setRange m start (len + 1) = setBit (setRange m start len) (start + len) := by
  funext i
  by_cases hi : i = start + len
  · simp [setRange, setBit, hi]
  · simp only [setRange, setBit, Function.update_of_ne hi]
    refine if_congr ?_ rfl rfl
    omega

/-- Setting a range of zero bits. -/
lemma zeros_setRange_zeros {len : ℕ} (hend : start + len ≤ n)
    (h : ∀ i, start ≤ i → i < start + len → m i = false) :
    zeros m n = zeros (setRange m start len) n + len := by
  induction len with
  | zero =>
    have hsame : setRange m start 0 = m := by
      funext i
      rw [setRange, if_neg (by omega)]
    rw [hsame, Nat.add_zero]
  | succ len ih =>
    have hlast : setRange m start len (start + len) = false := by
      rw [setRange, if_neg (by omega)]
      exact h _ (by omega) (by omega)
    rw [ih (by omega) fun i hlo hhi => h i hlo (by omega), setRange_succ,
      zeros_setBit (show start + len < n by omega) hlast]
    omega

/-- Clearing a range of bits that are set. -/
lemma zeros_clearRange {len : ℕ} (hend : start + len ≤ n)
    (h : ∀ i, start ≤ i → i < start + len → m i = true) :
    zeros (clearRange m start len) n = zeros m n + len := by
  have hback : setRange (clearRange m start len) start len = m := by
    funext i
    by_cases hi : start ≤ i ∧ i < start + len
    · rw [setRange, if_pos hi, h i hi.1 hi.2]
    · rw [setRange, if_neg hi, clearRange, if_neg hi]
  rw [zeros_setRange_zeros (m := clearRange m start len) hend
    fun i hlo hhi => by rw [clearRange, if_pos ⟨hlo, hhi⟩], hback]

/-! ### Areas of zero bits -/

/-- An area of `nr` zero bits whose place fits the mask of `align`. -/
structure IsArea (m : Bitmap) (size nr align b : ℕ) : Prop where
  le : b + nr ≤ size
  aligned : b &&& (align - 1) = 0
  zero : ∀ i, b ≤ i → i < b + nr → m i = false

/-- For a power of two the place is a multiple. -/
lemma isArea_two_pow {nr k b : ℕ} : IsArea m size nr (2 ^ k) b ↔
    2 ^ k ∣ b ∧ b + nr ≤ size ∧ ∀ i, b ≤ i → i < b + nr → m i = false := by
  have hdvd : b &&& (2 ^ k - 1) = 0 ↔ 2 ^ k ∣ b := by
    rw [Nat.and_two_pow_sub_one_eq_mod, Nat.dvd_iff_mod_eq_zero]
  exact ⟨fun h => ⟨hdvd.1 h.aligned, h.le, h.zero⟩, fun h => ⟨h.2.1, hdvd.2 h.1, h.2.2⟩⟩

lemma findNextZeroBit_lt_iff :
    findNextZeroBit m size start < size ↔ ∃ i, start ≤ i ∧ i < size ∧ m i = false := by
  constructor
  · intro h
    refine ⟨_, ?_, h, findNextZeroBit_prop h⟩
    rcases Nat.lt_or_ge start size with hs | hs
    · exact le_findNext _ hs
    · rw [findNextZeroBit, findNext, if_pos hs] at h
      omega
  · rintro ⟨i, hlo, hhi, hzero⟩
    by_contra hno
    have := findNext_none (not_lt.1 hno) hlo hhi
    simp [hzero] at this

/-- The search does not pass over a zero bit. -/
lemma findNextZeroBit_le (hlo : start ≤ i) (hhi : i < size) (hzero : m i = false) :
    findNextZeroBit m size start ≤ i := by
  by_contra hlt
  have := findNext_first hlo (not_le.1 hlt) hhi
  simp [hzero] at this

/-- The search finds the first zero bit. -/
lemma findNextZeroBit_eq_iff (hj : j < size) : findNextZeroBit m size start = j ↔
    start ≤ j ∧ m j = false ∧ ∀ i, start ≤ i → i < j → m i = true := by
  constructor
  · rintro rfl
    refine ⟨?_, findNextZeroBit_prop hj, fun i hlo hhi => ?_⟩
    · rcases Nat.lt_or_ge start size with hs | hs
      · exact le_findNext _ hs
      · rw [findNextZeroBit, findNext, if_pos hs] at hj
        omega
    · simpa using findNext_first hlo hhi (hhi.trans hj)
  · rintro ⟨hlo, hzero, hfirst⟩
    rcases (findNextZeroBit_le hlo hj hzero).eq_or_lt with heq | hlt
    · exact heq
    · have hset := hfirst _ (le_findNext _ (by omega)) hlt
      have hclear := findNextZeroBit_prop (hlt.trans hj)
      exact absurd (hclear.symm.trans hset) Bool.false_ne_true

lemma findNextZeroBit_isLeast (h : findNextZeroBit m size start < size) :
    IsLeast {i | start ≤ i ∧ i < size ∧ m i = false} (findNextZeroBit m size start) := by
  obtain ⟨hlo, hzero, -⟩ := (findNextZeroBit_eq_iff h).1 rfl
  exact ⟨⟨hlo, h, hzero⟩, fun i hi => findNextZeroBit_le hi.1 hi.2.1 hi.2.2⟩

lemma findNextZeroBitLoop_lt_iff :
    findNextZeroBitLoop m size offset < size ↔ ∃ i < size, m i = false := by
  constructor
  · intro h
    exact ⟨_, h, findNextZeroBitLoop_prop h⟩
  · rintro ⟨i, hi, hzero⟩
    by_contra hno
    rw [findNextZeroBitLoop_none (not_lt.1 hno) hi] at hzero
    exact Bool.false_ne_true hzero.symm

/-- The search with wrap-around finds the first zero bit from the offset on, or else the first. -/
lemma findNextZeroBitLoop_first (h : findNextZeroBitLoop m size offset < size) :
    IsLeast {i | offset ≤ i ∧ i < size ∧ m i = false} (findNextZeroBitLoop m size offset) ∨
      ((∀ i, offset ≤ i → i < size → m i = true) ∧
        IsLeast {i | i < size ∧ m i = false} (findNextZeroBitLoop m size offset)) := by
  rw [findNextZeroBitLoop] at h ⊢
  split_ifs at h ⊢ with hnone
  · right
    refine ⟨fun i hlo hhi => by simpa using findNext_none hnone.1 hlo hhi, ?_⟩
    simpa using findNextZeroBit_isLeast h
  · exact Or.inl (findNextZeroBit_isLeast h)

/-- The search does not pass over an area: it goes on only from a bit that no area behind it has in
its inside. -/
lemma findZeroAreaFrom_le {nr align fuel b : ℕ} (hnr : 0 < nr) (hb : IsArea m size nr align b)
    (hlo : start ≤ b) (hfuel : size < start + fuel) :
    findZeroAreaFrom m size nr align fuel start ≤ b := by
  have hend := hb.le
  induction fuel generalizing start with
  | zero => omega
  | succ fuel ih =>
    rw [findZeroAreaFrom]
    dsimp only
    have hidx : findNextZeroBit m size start ≤ b :=
      findNextZeroBit_le hlo (by omega) (hb.zero b le_rfl (by omega))
    have hge : start ≤ findNextZeroBit m size start := le_findNext _ (by omega)
    rw [if_neg (by omega)]
    split_ifs with halign hi
    · have hne : findNextZeroBit m size start ≠ b := by
        intro heq
        exact halign (heq ▸ hb.aligned)
      exact ih (by omega) (by omega)
    · have hset : m (findNextBit m (findNextZeroBit m size start + nr)
          (findNextZeroBit m size start)) = true := findNext_prop hi
      have hge' : findNextZeroBit m size start ≤ findNextBit m (findNextZeroBit m size start + nr)
          (findNextZeroBit m size start) := le_findNext _ (by omega)
      have hout : ¬ b ≤ findNextBit m (findNextZeroBit m size start + nr)
          (findNextZeroBit m size start) := by
        intro hle
        have hin := hb.zero _ hle (by omega)
        exact Bool.false_ne_true (hin.symm.trans hset)
      exact ih (by omega) (by omega)
    · exact hidx

/-- The result is an area from the start on, or it is no position. -/
lemma findZeroAreaFrom_cases {nr align fuel : ℕ} (hnr : 0 < nr) :
    size < findZeroAreaFrom m size nr align fuel start ∨
      (start ≤ findZeroAreaFrom m size nr align fuel start ∧
        IsArea m size nr align (findZeroAreaFrom m size nr align fuel start)) := by
  induction fuel generalizing start with
  | zero =>
    left
    rw [findZeroAreaFrom]
    omega
  | succ fuel ih =>
    rw [findZeroAreaFrom]
    dsimp only
    by_cases hend : size < findNextZeroBit m size start + nr
    · rw [if_pos hend]
      exact Or.inl hend
    have hge : start ≤ findNextZeroBit m size start := by
      rcases Nat.lt_or_ge start size with hs | hs
      · exact le_findNext _ hs
      · rw [findNextZeroBit, findNext, if_pos hs] at hend
        omega
    rw [if_neg hend]
    split_ifs with halign hi
    · exact ih.imp_right fun h => ⟨by omega, h.2⟩
    · have hge' : findNextZeroBit m size start ≤ findNextBit m (findNextZeroBit m size start + nr)
          (findNextZeroBit m size start) := le_findNext _ (by omega)
      exact ih.imp_right fun h => ⟨by omega, h.2⟩
    · exact Or.inr ⟨hge, not_lt.1 hend, not_not.1 halign,
        fun j hj hlt => findNext_none (not_lt.1 hi) hj hlt⟩

/-- The first area from the start on, or no position if there is none. -/
lemma findZeroAreaFrom_least {nr align fuel : ℕ} (hnr : 0 < nr) (hfuel : size < start + fuel) :
    IsLeast {b | start ≤ b ∧ IsArea m size nr align b}
        (findZeroAreaFrom m size nr align fuel start) ∨
      (size < findZeroAreaFrom m size nr align fuel start ∧
        ∀ b, start ≤ b → ¬ IsArea m size nr align b) := by
  rcases @findZeroAreaFrom_cases size start m nr align fuel hnr with hout | harea
  · refine Or.inr ⟨hout, fun b hlo hb => ?_⟩
    have hle := findZeroAreaFrom_le hnr hb hlo hfuel
    have hend := hb.le
    omega
  · exact Or.inl ⟨harea, fun b hb => findZeroAreaFrom_le hnr hb.2 hb.1 hfuel⟩

/-- The search finds the first area. -/
lemma findNextZeroAreaAlign_eq_iff {nr align b : ℕ} (hnr : 0 < nr) (hb : b < size) :
    findNextZeroAreaAlign m size 0 nr align = b ↔
      IsArea m size nr align b ∧ ∀ b' < b, ¬ IsArea m size nr align b' := by
  constructor
  · rintro rfl
    obtain ⟨hle, halign, hzero⟩ := findZeroAreaFrom_prop hnr hb
    refine ⟨⟨hle, halign, hzero⟩, fun b' hlt harea => ?_⟩
    exact absurd (findZeroAreaFrom_le hnr harea (Nat.zero_le _) (by omega)) (not_le.2 hlt)
  · rintro ⟨harea, hfirst⟩
    have hle := findZeroAreaFrom_le hnr harea (Nat.zero_le _) (show size < 0 + (size + 1) by omega)
    rcases hle.eq_or_lt with heq | hlt
    · exact heq
    · obtain ⟨h₁, h₂, h₃⟩ := findZeroAreaFrom_prop hnr (hlt.trans hb)
      exact absurd ⟨h₁, h₂, h₃⟩ (hfirst _ hlt)

/-- An empty map has its first area at the start. -/
lemma findNextZeroAreaAlign_empty {nr : ℕ} (align : ℕ) (hsize : 0 < size) (hnr : nr ≤ size) :
    findNextZeroAreaAlign (fun _ => false) size 0 nr align = 0 := by
  have hindex : findNextZeroBit (fun _ => false) size 0 = 0 :=
    (findNextZeroBit_eq_iff hsize).2 ⟨le_rfl, rfl, fun i _ hi => absurd hi (by omega)⟩
  have hbit : nr ≤ findNextBit (fun _ => false) (0 + nr) 0 := by
    by_contra hlt
    rw [findNextBit] at hlt
    have hfound := findNext_prop (show findNext (fun _ => false) (0 + nr) 0 < 0 + nr by omega)
    exact Bool.false_ne_true hfound
  rw [findNextZeroAreaAlign, findZeroAreaFrom, hindex]
  dsimp only
  rw [if_neg (by omega), if_neg (by simp), if_neg (by omega)]

end Bitmap
