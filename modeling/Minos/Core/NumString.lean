import Mathlib

/-!
# Numbers as strings

`num_to_str` writes the digits of a number in a base, and `strtoul` reads them back. The digits come
out lowest first, into a buffer of 64 characters, and are copied from its end. Characters are their
codes.
-/

namespace Minos.Core

/-! ### Writing -/

/-- `hex` of `num_to_str`, without its terminator -/
def hex : List ℕ :=
  ['0', '1', '2', '3', '4', '5', '6', '7', '8', '9', 'a', 'b', 'c', 'd', 'e', 'f'].map Char.toNat

/-- `*tmp++ = hex[m]`, for the characters stored so far: `tmp_buf` has 64 places. -/
def pushDigit (tmp : List ℕ) (m : ℕ) : Option (List ℕ) := do
  let ch ← hex[m]?
  if tmp.length < 64 then some (tmp ++ [ch]) else none

/-- The loop of `num_to_str`, which fills a place of `tmp_buf` in each round. -/
def digitLoop (bdho : ℕ) : ℕ → ℕ → List ℕ → Option (ℕ × List ℕ)
  | 0, _, _ => none
  | rounds + 1, num, tmp => do
    let tmp ← pushDigit tmp (num % bdho)
    if bdho ≤ num / bdho then digitLoop bdho rounds (num / bdho) tmp
    else some (num / bdho, tmp)

/-- What is left after the loop is the last digit, unless it is zero. -/
def lastDigit (r : ℕ × List ℕ) : Option (List ℕ) :=
  if r.1 ≠ 0 then pushDigit r.2 r.1 else some r.2

/-- `num_to_str`: the characters that are stored into `buf` in order, and the value returned. The
places of `tmp_buf` that were not reached hold a zero digit. -/
def numToStr (num b : ℕ) : Option (List ℕ × ℕ) := do
  let bdho := if b = 32 then 16 else b
  let tmp ← (digitLoop bdho 64 num []).bind lastDigit
  let len := if b = 32 then 16 else tmp.length
  some ((List.range len).reverse.map fun i => tmp.getD i '0'.toNat, len)

/-- `ptoa`: base 32 stands for the 16 hexadecimal digits of a pointer. -/
def ptoa (num : ℕ) : Option (List ℕ × ℕ) := numToStr num 32

/-! ### Reading -/

/-- `TOLOWER(x)` -/
def tolower (x : ℕ) : ℕ := x ||| 0x20

def isdigit (ch : ℕ) : Prop := '0'.toNat ≤ ch ∧ ch ≤ '9'.toNat

def isxdigit (ch : ℕ) : Prop := isdigit ch ∨ ('a'.toNat ≤ ch ∧ ch ≤ 'f'.toNat)

instance (ch : ℕ) : Decidable (isdigit ch) := inferInstanceAs (Decidable (_ ∧ _))

instance (ch : ℕ) : Decidable (isxdigit ch) := inferInstanceAs (Decidable (_ ∨ _))

/-- `value` of `strtoul` -/
def digitValue (ch : ℕ) : ℕ :=
  if isdigit ch then ch - '0'.toNat else tolower ch - 'a'.toNat + 10

/-- The loop of `strtoul`, with the number of characters before `cp`; it stays in the string. -/
def strtoulLoop (base : ℕ) : List ℕ → ℕ → ℕ → Option (ℕ × ℕ)
  | [], _, _ => none
  | ch :: cp, result, pos =>
    if isxdigit ch then
      if base ≤ digitValue ch then some (result, pos)
      else strtoulLoop base cp ((result * base + digitValue ch) % 2 ^ 64) (pos + 1)
    else some (result, pos)

/-- `cp[0] == '0' && TOLOWER(cp[1]) == 'x'` -/
def hexMark : List ℕ → Option Bool
  | [] => none
  | ch :: cp =>
    if ch = '0'.toNat then cp.head?.map fun ch' => tolower ch' = 'x'.toNat else some false

/-- `strtoul`: the value, and the offset of `*endp` -/
def strtoul (cp : List ℕ) (base : ℕ) : Option (ℕ × ℕ) := do
  let base := if base = 0 then 10 else base
  let skip ← if base = 16 then hexMark cp else some false
  if skip then strtoulLoop base (cp.drop 2) 0 2 else strtoulLoop base cp 0 0

example : (numToStr 255 16).bind (fun r => strtoul (r.1 ++ [0]) 16) = some (255, 2) := by decide

/-! ### Digits -/

/-- The digits of a number, lowest first, where zero has one digit. -/
def digitList (b n : ℕ) : List ℕ := if n = 0 then [0] else Nat.digits b n

section Digits

variable {b n d k : ℕ}

lemma digitList_of_lt (h : n < b) : digitList b n = [n] := by
  rw [digitList]
  split_ifs with hn
  · rw [hn]
  · exact Nat.digits_of_lt b n hn h

lemma digitList_of_le (hb : 1 < b) (h : b ≤ n) :
    digitList b n = n % b :: digitList b (n / b) := by
  have hquot : n / b ≠ 0 := (Nat.div_pos h (by omega)).ne'
  rw [digitList, if_neg (by omega), digitList, if_neg hquot]
  exact Nat.digits_def' hb (by omega)

lemma length_digitList_le (hb : 1 < b) (hk : 0 < k) (h : n < b ^ k) :
    (digitList b n).length ≤ k := by
  rw [digitList]
  split_ifs with hn
  · exact hk
  · exact (Nat.digits_length_le_iff hb n).2 h

lemma mem_digitList_lt (hb : 1 < b) (hd : d ∈ digitList b n) : d < b := by
  rw [digitList] at hd
  split_ifs at hd with hn
  · rw [List.mem_singleton] at hd
    omega
  · exact Nat.digits_lt_base hb hd

lemma ofDigits_digitList : Nat.ofDigits b (digitList b n) = n := by
  rw [digitList]
  split_ifs with hn
  · simp [hn]
  · exact Nat.ofDigits_digits b n

/-- Only zero has a leading zero. -/
lemma getLast?_digitList : (digitList b n).getLast? = some 0 ↔ n = 0 := by
  rw [digitList]
  split_ifs with hn
  · simp [hn]
  · have hne : Nat.digits b n ≠ [] := Nat.digits_ne_nil_iff_ne_zero.2 hn
    rw [List.getLast?_eq_getLast_of_ne_nil hne, Option.some.injEq]
    exact iff_of_false (Nat.getLast_digit_ne_zero b hn) hn

end Digits

/-! ### The characters of digits -/

/-- The character of a digit -/
def digitChar (d : ℕ) : ℕ := hex.getD d 0

lemma isxdigit_digitChar : ∀ d < 16, isxdigit (digitChar d) := by decide

lemma digitValue_digitChar : ∀ d < 16, digitValue (digitChar d) = d := by decide

lemma digitChar_eq_zero_iff : ∀ d < 16, digitChar d = '0'.toNat ↔ d = 0 := by decide

lemma tolower_digitChar_ne : ∀ d < 16, tolower (digitChar d) ≠ 'x'.toNat := by decide

lemma pushDigit_eq {tmp : List ℕ} {m : ℕ} (hm : m < 16) (h : tmp.length < 64) :
    pushDigit tmp m = some (tmp ++ [digitChar m]) := by
  have hget : hex[m]? = some (digitChar m) := by
    rw [digitChar, List.getD_eq_getElem?_getD,
      List.getElem?_eq_getElem (show m < hex.length from hm)]
    rfl
  rw [pushDigit, hget, Option.bind_eq_bind, Option.bind_some, if_pos h]

/-! ### What is written -/

section Written

variable {b num rounds : ℕ} {tmp : List ℕ}

/-- The loop and the last digit store the digits, lowest first, if there is room for them. By
induction on the rounds that are left; each divides the number by the base. -/
lemma digitLoop_eq (hb : 1 < b) (hb' : b ≤ 16) (hrounds : (digitList b num).length ≤ rounds)
    (hroom : tmp.length + (digitList b num).length ≤ 64) :
    (digitLoop b rounds num tmp).bind lastDigit =
      some (tmp ++ (digitList b num).map digitChar) := by
  have hmod : num % b < 16 := (Nat.mod_lt num (by omega)).trans_le hb'
  induction rounds generalizing num tmp with
  | zero =>
    have hnil : digitList b num = [] := List.length_eq_zero_iff.1 (by omega)
    have hn := ofDigits_digitList (b := b) (n := num)
    rw [hnil, Nat.ofDigits_nil] at hn
    rw [← hn] at hnil
    cases hnil
  | succ rounds ih =>
    rcases Nat.lt_or_ge num b with hlt | hge
    · -- one digit: the loop ends with zero
      rw [digitList_of_lt hlt] at hroom ⊢
      have hquot : num / b = 0 := Nat.div_eq_of_lt hlt
      rw [digitLoop, pushDigit_eq hmod (by simpa using hroom), Option.bind_eq_bind,
        Option.bind_some, hquot, if_neg (by omega), Option.bind_some, lastDigit,
        Nat.mod_eq_of_lt hlt]
      rfl
    · rw [digitList_of_le hb hge, List.length_cons] at hroom hrounds
      have hpush := pushDigit_eq hmod (show tmp.length < 64 by omega)
      rw [digitLoop, hpush, Option.bind_eq_bind, Option.bind_some, digitList_of_le hb hge,
        List.map_cons]
      split_ifs with hquot
      · rw [ih (by omega) (by rw [List.length_append, List.length_singleton]; omega)
          ((Nat.mod_lt _ (by omega)).trans_le hb'), List.append_assoc, List.singleton_append]
      · -- two digits are left, and the second is not zero
        have hlast := not_le.1 hquot
        rw [digitList_of_lt hlast, List.length_singleton] at hroom
        rw [digitList_of_lt hlast, Option.bind_some, lastDigit,
          if_pos (Nat.div_pos hge (by omega)).ne',
          pushDigit_eq (hlast.trans_le hb')
            (by rw [List.length_append, List.length_singleton]; omega),
          List.append_assoc, List.singleton_append, List.map_singleton]

/-- The digits of a 64-bit number fit in `tmp_buf` in every base. -/
lemma digits_room (hb : 1 < b) (hn : num < 2 ^ 64) : (digitList b num).length ≤ 64 :=
  length_digitList_le hb (by norm_num) (hn.trans_le (Nat.pow_le_pow_left hb 64))

/-- Places that were not stored hold the character they were filled with. -/
lemma map_range_getD {l : List ℕ} {n : ℕ} (x : ℕ) (h : l.length ≤ n) :
    ((List.range n).map fun i => l.getD i x) = l ++ List.replicate (n - l.length) x := by
  apply List.ext_getElem
  · simp
    omega
  · intro i hi _
    rw [List.getElem_map, List.getElem_range, List.getElem_append]
    split_ifs with hlt
    · rw [List.getD_eq_getElem l x hlt]
    · rw [List.getD_eq_default l x (not_lt.1 hlt), List.getElem_replicate]

/-- The string is the digits, highest first. -/
lemma numToStr_eq (hb : 1 < b) (hb' : b ≤ 16) (hn : num < 2 ^ 64) :
    numToStr num b =
      some (((digitList b num).map digitChar).reverse, (digitList b num).length) := by
  have hlen := digits_room hb hn
  have hne : b ≠ 32 := by omega
  rw [numToStr]
  simp only [if_neg hne]
  rw [digitLoop_eq hb hb' hlen (by simpa using hlen)]
  simp only [List.nil_append, Option.bind_eq_bind, Option.bind_some, List.map_reverse,
    map_range_getD '0'.toNat le_rfl, Nat.sub_self, List.replicate_zero, List.append_nil,
    List.length_map]

/-- The digits of a pointer, lowest first -/
def pointerDigits (n : ℕ) : List ℕ :=
  digitList 16 n ++ List.replicate (16 - (digitList 16 n).length) 0

lemma length_digitList_16 (hn : num < 2 ^ 64) : (digitList 16 num).length ≤ 16 :=
  length_digitList_le (by norm_num) (by norm_num) (hn.trans_le (by norm_num))

lemma length_pointerDigits (hn : num < 2 ^ 64) : (pointerDigits num).length = 16 := by
  rw [pointerDigits, List.length_append, List.length_replicate,
    Nat.add_sub_cancel' (length_digitList_16 hn)]

lemma ofDigits_pointerDigits : Nat.ofDigits 16 (pointerDigits num) = num := by
  rw [pointerDigits, Nat.ofDigits_append_replicate_zero, ofDigits_digitList]

lemma mem_pointerDigits_lt {d : ℕ} (hd : d ∈ pointerDigits num) : d < 16 := by
  rcases List.mem_append.1 hd with hd | hd
  · exact mem_digitList_lt (by norm_num) hd
  · rw [List.eq_of_mem_replicate hd]
    norm_num

lemma ptoa_eq (hn : num < 2 ^ 64) :
    ptoa num = some (((pointerDigits num).map digitChar).reverse, 16) := by
  have hlen := length_digitList_16 hn
  have hzero : digitChar 0 = '0'.toNat := by decide
  have hmap : ((digitList 16 num).map digitChar).length ≤ 16 := by rwa [List.length_map]
  rw [ptoa, numToStr]
  simp only [if_true]
  rw [digitLoop_eq (by norm_num) le_rfl (by omega) (by rw [List.length_nil]; omega)]
  simp only [List.nil_append, Option.bind_eq_bind, Option.bind_some, List.map_reverse,
    map_range_getD '0'.toNat hmap, pointerDigits, List.length_map, List.map_append,
    List.map_replicate, hzero]

end Written

/-! ### What is read -/

section Read

variable {b n : ℕ} {ds : List ℕ}

/-- The loop reads digits up to the end of the string. By induction on the digits, with the result
taken modulo the word. -/
lemma strtoulLoop_digits (hb : b ≤ 16) (hds : ∀ d ∈ ds, d < b) (rest : List ℕ) (result pos : ℕ) :
    strtoulLoop b (ds.map digitChar ++ 0 :: rest) (result % 2 ^ 64) pos =
      some (ds.foldl (fun r d => r * b + d) result % 2 ^ 64, pos + ds.length) := by
  induction ds generalizing result pos with
  | nil =>
    rw [List.map_nil, List.nil_append, strtoulLoop, if_neg (by decide)]
    rfl
  | cons d ds ih =>
    have hd : d < b := hds d List.mem_cons_self
    have hnext : (result % 2 ^ 64 * b + d) % 2 ^ 64 = (result * b + d) % 2 ^ 64 := by
      rw [Nat.add_mod, Nat.mod_mul_mod, ← Nat.add_mod]
    rw [List.map_cons, List.cons_append, strtoulLoop,
      if_pos (isxdigit_digitChar d (hd.trans_le hb)), digitValue_digitChar d (hd.trans_le hb),
      if_neg (not_le.2 hd), hnext, ih fun x hx => hds x (List.mem_cons_of_mem d hx)]
    rw [List.foldl_cons, List.length_cons, add_right_comm, add_assoc]

/-- Digits are not taken for the mark of a hexadecimal number. -/
lemma hexMark_digits (hne : ds ≠ []) (hds : ∀ d ∈ ds, d < 16) (rest : List ℕ) :
    hexMark (ds.map digitChar ++ 0 :: rest) = some false := by
  obtain ⟨d, ds, rfl⟩ := List.exists_cons_of_ne_nil hne
  rw [List.map_cons, List.cons_append, hexMark]
  split_ifs with hd
  · cases ds with
    | nil =>
      rw [List.map_nil, List.nil_append, List.head?_cons, Option.map_some,
        decide_eq_false (by decide)]
    | cons d' ds =>
      have hd' := tolower_digitChar_ne d' (hds d' (by simp))
      rw [List.map_cons, List.cons_append, List.head?_cons, Option.map_some,
        decide_eq_false hd']
  · rfl

lemma strtoul_digits (hpos : 0 < b) (hb : b ≤ 16) (hne : ds ≠ []) (hds : ∀ d ∈ ds, d < b)
    (rest : List ℕ) : strtoul (ds.map digitChar ++ 0 :: rest) b =
      some (ds.foldl (fun r d => r * b + d) 0 % 2 ^ 64, ds.length) := by
  have hloop := strtoulLoop_digits hb hds rest 0 0
  rw [Nat.zero_mod, Nat.zero_add] at hloop
  rw [strtoul]
  simp only [if_neg hpos.ne']
  split_ifs with h16
  · rw [hexMark_digits hne (fun d hd => (hds d hd).trans_le hb) rest]
    exact hloop
  · exact hloop

/-- Horner's scheme from the highest digit -/
lemma foldl_reverse_eq_ofDigits (b : ℕ) (ds : List ℕ) :
    ds.reverse.foldl (fun r d => r * b + d) 0 = Nat.ofDigits b ds := by
  rw [List.foldl_reverse, Nat.ofDigits_eq_foldr]
  congr
  funext d r
  rw [Nat.cast_id, mul_comm, add_comm]

/-- Digits from the highest on are read as the number that they are. -/
lemma strtoul_reverse (hpos : 0 < b) (hb : b ≤ 16) (hne : ds ≠ []) (hds : ∀ d ∈ ds, d < b)
    (hn : Nat.ofDigits b ds < 2 ^ 64) (rest : List ℕ) :
    strtoul ((ds.map digitChar).reverse ++ 0 :: rest) b =
      some (Nat.ofDigits b ds, ds.length) := by
  have hrev : ∀ d ∈ ds.reverse, d < b := fun d hd => hds d (List.mem_reverse.1 hd)
  rw [← List.map_reverse, strtoul_digits hpos hb (by simpa using hne) hrev,
    foldl_reverse_eq_ofDigits, Nat.mod_eq_of_lt hn, List.length_reverse]

end Read

/-! ### There and back -/

section RoundTrip

variable {b n : ℕ}

lemma digitList_ne_nil : digitList b n ≠ [] := by
  rw [digitList]
  split_ifs with hn
  · simp
  · exact Nat.digits_ne_nil_iff_ne_zero.2 hn

/-- Only the string of zero begins with a zero. -/
lemma head?_digits (hb : 1 < b) (hb' : b ≤ 16) :
    ((digitList b n).map digitChar).reverse.head? = some '0'.toNat ↔ n = 0 := by
  rw [List.head?_reverse, List.getLast?_map, Option.map_eq_some_iff, ← getLast?_digitList (b := b)]
  constructor
  · rintro ⟨d, hlast, hd⟩
    have hlt := mem_digitList_lt hb (List.mem_of_getLast? hlast)
    rwa [(digitChar_eq_zero_iff d (hlt.trans_le hb')).1 hd] at hlast
  · intro hlast
    exact ⟨0, hlast, by decide⟩

/-- Writing a number in any base up to 16 and reading it back -/
lemma numToStr_round_trip (hb : 1 < b) (hb' : b ≤ 16) (hn : n < 2 ^ 64) :
    ∃ s, numToStr n b = some (s, s.length) ∧ s.length ≤ 64 ∧
      (s.head? = some '0'.toNat ↔ n = 0) ∧
      ∀ rest, strtoul (s ++ 0 :: rest) b = some (n, s.length) := by
  refine ⟨((digitList b n).map digitChar).reverse, ?_, ?_, head?_digits hb hb', fun rest => ?_⟩
  · rw [numToStr_eq hb hb' hn, List.length_reverse, List.length_map]
  · rw [List.length_reverse, List.length_map]
    exact digits_room hb hn
  · have hof := ofDigits_digitList (b := b) (n := n)
    rw [strtoul_reverse (by omega) hb' digitList_ne_nil (fun d hd => mem_digitList_lt hb hd)
      (by rwa [hof]) rest, hof, List.length_reverse, List.length_map]

/-- In the bases that the sources use, a 64-bit number becomes at most 64 characters, with a leading
zero for zero only, and these are read back to the end as the number. -/
theorem strtoul_numToStr (hb : b = 2 ∨ b = 8 ∨ b = 10 ∨ b = 16) (hn : n < 2 ^ 64) :
    ∃ s, numToStr n b = some (s, s.length) ∧ s.length ≤ 64 ∧
      (s.head? = some '0'.toNat ↔ n = 0) ∧
      ∀ rest, strtoul (s ++ 0 :: rest) b = some (n, s.length) := by
  rcases hb with rfl | rfl | rfl | rfl
  all_goals exact numToStr_round_trip (by norm_num) (by norm_num) hn

/-- The number with the longest string -/
theorem strtoul_numToStr_top :
    (2 = 2 ∨ 2 = 8 ∨ 2 = 10 ∨ 2 = 16) ∧ 2 ^ 64 - 1 < 2 ^ 64 ∧
    ∃ s, numToStr (2 ^ 64 - 1) 2 = some (s, s.length) ∧ s.length ≤ 64 ∧
      (s.head? = some '0'.toNat ↔ 2 ^ 64 - 1 = 0) ∧
      ∀ rest, strtoul (s ++ 0 :: rest) 2 = some (2 ^ 64 - 1, s.length) :=
  ⟨Or.inl rfl, by norm_num, strtoul_numToStr (Or.inl rfl) (by norm_num)⟩

/-- A pointer is always 16 characters long, and is read back in base 16. -/
lemma ptoa_round_trip (hn : n < 2 ^ 64) :
    ∃ s, ptoa n = some (s, 16) ∧ s.length = 16 ∧
      ∀ rest, strtoul (s ++ 0 :: rest) 16 = some (n, 16) := by
  have hlen := length_pointerDigits hn
  have hne : pointerDigits n ≠ [] := List.ne_nil_of_length_pos (by omega)
  refine ⟨_, ptoa_eq hn, by rw [List.length_reverse, List.length_map, hlen], fun rest => ?_⟩
  rw [strtoul_reverse (by norm_num) le_rfl hne (fun _ => mem_pointerDigits_lt)
    (by rwa [ofDigits_pointerDigits]) rest, ofDigits_pointerDigits, hlen]

end RoundTrip

end Minos.Core
