import Mathlib
import Minos.Types
import Minos.Lib.Remap

/-!
# Page table descriptors

The constants and the descriptor words of `minos/memattr.h`, `asm/pagetable.h` and
`asm/asm_mmu.h`, and the format in which the hardware reads them.
-/

namespace Minos.Mmu

open Radix

/-! ### Mapping flags -/

def VM_NONE : ℕ := 0x00000000
def VM_IO : ℕ := 0x00000001
def VM_NORMAL : ℕ := 0x00000002
def VM_TYPE_MASK : ℕ := 0x000000ff
def VM_DES_FAULT : ℕ := 0x00000000
def VM_DES_BLOCK : ℕ := 0x00000100
def VM_DES_PAGE : ℕ := 0x00000200
def VM_DES_TABLE : ℕ := 0x00000400
def VM_DES_MASK : ℕ := 0x00000f00
def VM_HOST : ℕ := 0x00001000
def VM_RO : ℕ := 0x00100000
def VM_WO : ℕ := 0x00200000
def VM_RW_MASK : ℕ := 0x00300000

/-! ### Attributes of a descriptor -/

def TT_S2_ATTR_BLOCK : ℕ := 0b01
def TT_S2_ATTR_TABLE : ℕ := 0b11
def TT_S2_ATTR_PAGE : ℕ := 0b11
def TT_S2_ATTR_AP_RO : ℕ := 0b01 <<< 6
def TT_S2_ATTR_AP_WO : ℕ := 0b10 <<< 6
def TT_S2_ATTR_AP_RW : ℕ := 0b11 <<< 6
def TT_S2_ATTR_SH_INNER : ℕ := 0b11 <<< 8
def TT_S2_ATTR_MEMATTR_DEVICE : ℕ := 0b00 <<< 4
def TT_S2_ATTR_MEMATTR_OUTER_WB : ℕ := 0b11 <<< 4
def TT_S2_ATTR_MEMATTR_DEV_nGnRnE : ℕ := 0b00 <<< 2
def TT_S2_ATTR_MEMATTR_NORMAL_INNER_WB : ℕ := 0b11 <<< 2
def TT_S2_ATTR_AF : ℕ := 1 <<< 10
def TT_S2_ATTR_XN : ℕ := 1 <<< 54

def TT_S1_ATTR_FAULT : ℕ := 0b00
def TT_S1_ATTR_BLOCK : ℕ := 0b01
def TT_S1_ATTR_TABLE : ℕ := 0b11
def TT_S1_ATTR_PAGE : ℕ := 0b11
def TT_S1_ATTR_MATTR_LSB : ℕ := 2
def TT_S1_ATTR_NS : ℕ := 1 <<< 5
def TT_S1_ATTR_AP_RW_PL1 : ℕ := 0b00 <<< 6
def TT_S1_ATTR_AP_RO_PL1 : ℕ := 0b10 <<< 6
def TT_S1_ATTR_SH_INNER : ℕ := 0b11 <<< 8
def TT_S1_ATTR_AF : ℕ := 1 <<< 10
def TT_S1_ATTR_PXN : ℕ := 1 <<< 53
def TT_S1_ATTR_UXN : ℕ := 1 <<< 54

/-- The memory type of a mapping: nothing given means normal memory. -/
def mType (flags : ℕ) : ℕ :=
  if flags &&& VM_TYPE_MASK = VM_NONE then VM_NORMAL else flags &&& VM_TYPE_MASK

/-- The part of a stage 2 leaf descriptor that depends on the memory type only. -/
def guestMemAttr (flags : ℕ) : ℕ :=
  if mType flags = VM_NORMAL then
    TT_S2_ATTR_SH_INNER ||| TT_S2_ATTR_AF ||| TT_S2_ATTR_MEMATTR_OUTER_WB |||
      TT_S2_ATTR_MEMATTR_NORMAL_INNER_WB
  else
    TT_S2_ATTR_SH_INNER ||| TT_S2_ATTR_AF ||| TT_S2_ATTR_XN ||| TT_S2_ATTR_MEMATTR_DEVICE |||
      TT_S2_ATTR_MEMATTR_DEV_nGnRnE

def archGuestTtDescription (flags : ℕ) : ℕ :=
  let dType := flags &&& VM_DES_MASK
  let rw := flags &&& VM_RW_MASK
  if dType = VM_DES_TABLE then TT_S2_ATTR_TABLE
  else
    let attr :=
      if dType = VM_DES_BLOCK then TT_S2_ATTR_BLOCK ||| guestMemAttr flags
      else if dType = VM_DES_PAGE then TT_S2_ATTR_PAGE ||| guestMemAttr flags
      else 0
    if rw = VM_RO then attr ||| TT_S2_ATTR_AP_RO
    else if rw = VM_WO then attr ||| TT_S2_ATTR_AP_WO
    else attr ||| TT_S2_ATTR_AP_RW

/-- The part of a stage 1 leaf descriptor that depends on the memory type only. -/
def hostMemAttr (flags : ℕ) : ℕ :=
  if mType flags = VM_NORMAL then
    4 <<< TT_S1_ATTR_MATTR_LSB ||| TT_S1_ATTR_NS ||| TT_S1_ATTR_SH_INNER ||| TT_S1_ATTR_AF
  else
    0 <<< TT_S1_ATTR_MATTR_LSB ||| TT_S1_ATTR_NS ||| TT_S1_ATTR_AF ||| TT_S1_ATTR_PXN |||
      TT_S1_ATTR_UXN

def archHostTtDescription (flags : ℕ) : ℕ :=
  let dType := flags &&& VM_DES_MASK
  let rw := flags &&& VM_RW_MASK
  if dType = VM_DES_TABLE then TT_S1_ATTR_TABLE
  else
    let attr :=
      if dType = VM_DES_BLOCK then TT_S1_ATTR_BLOCK ||| hostMemAttr flags
      else if dType = VM_DES_PAGE then TT_S1_ATTR_PAGE ||| hostMemAttr flags
      else 0
    if rw = VM_RO then attr ||| TT_S1_ATTR_AP_RO_PL1
    else attr ||| TT_S1_ATTR_AP_RW_PL1

def pageTableDescription (flags : ℕ) : ℕ :=
  if flags &&& VM_HOST ≠ 0 then archHostTtDescription flags else archGuestTtDescription flags

/-! ### Levels -/

/-- The levels of a table, `PGD` to `PTE`. -/
inductive Level where
  | pgd | pud | pmd | pte
deriving DecidableEq, Repr

namespace Level

/-- The number of the level. -/
def lvl : Level → ℕ
  | pgd => 0
  | pud => 1
  | pmd => 2
  | pte => 3

/-- `attr->next` -/
def next : Level → Option Level
  | pgd => some pud
  | pud => some pmd
  | pmd => some pte
  | pte => none

def rangeOffset : Level → ℕ
  | pgd => 39
  | pud => 30
  | pmd => 21
  | pte => 12

def desOffset (_ : Level) : ℕ := 12

def offsetMask (l : Level) : ℕ := 0x1ff <<< l.rangeOffset

def mapSize (l : Level) : ℕ := 1 <<< l.rangeOffset

/-- How many levels are below. -/
def below : Level → ℕ
  | pgd => 3
  | pud => 2
  | pmd => 1
  | pte => 0

/-- `(vir & attr->offset_mask) >> attr->range_offset` -/
def index (l : Level) (vir : ℕ) : ℕ := (vir &&& l.offsetMask) >>> l.rangeOffset

lemma rangeOffset_eq (l : Level) : l.rangeOffset = 12 + 9 * l.below := by
  cases l <;> rfl

lemma mapSize_eq (l : Level) : l.mapSize = 2 ^ (12 + 9 * l.below) := by
  cases l <;> rfl

lemma mapSize_pos (l : Level) : 0 < l.mapSize := by
  cases l <;> decide

lemma index_eq (l : Level) (vir : ℕ) : l.index vir = slot l.below vir % 512 := by
  rw [index, offsetMask, slot, ← rangeOffset_eq, show 0x1ff = 2 ^ 9 - 1 from rfl,
    BitField.and_mask_shiftRight]
  norm_num

lemma below_of_next {l l' : Level} (h : l.next = some l') : l.below = l'.below + 1 := by
  cases l <;> simp only [next, Option.some.injEq, reduceCtorEq] at h <;> subst h <;> rfl

end Level

/-- The type of an entry as the unmapping code reads it at level `lvl`. -/
def getMappingType (lvl addr : ℕ) : ℕ :=
  let type := addr &&& 0x03
  if type = TT_S1_ATTR_FAULT then VM_DES_FAULT
  else if lvl = Level.pte.lvl then
    if type ≠ TT_S1_ATTR_PAGE then VM_DES_FAULT else VM_DES_PAGE
  else if lvl = Level.pmd.lvl ∨ lvl = Level.pud.lvl then
    if type = TT_S1_ATTR_TABLE then VM_DES_TABLE
    else if type = TT_S1_ATTR_BLOCK then VM_DES_BLOCK
    else VM_DES_TABLE
  else if lvl = Level.pgd.lvl then
    if type ≠ TT_S1_ATTR_TABLE then VM_DES_FAULT else VM_DES_TABLE
  else VM_DES_FAULT

/-! ### The descriptor format -/

/-- The output field of a descriptor with `n` levels below: bits 47 down to `12 + 9 * n`. -/
def outField (n w : ℕ) : ℕ := w % 2 ^ 48 / 2 ^ (12 + 9 * n) * 2 ^ (12 + 9 * n)

/-- How the hardware reads a descriptor in a table with `n` levels below it. -/
def desDecode (n w : ℕ) : Entry :=
  if w % 4 = 3 then
    if n = 0 then .leaf (outField 0 w) else .table (outField 0 w)
  else if w % 4 = 1 then
    if n = 1 ∨ n = 2 then .leaf (outField n w) else .fault
  else .fault

/-- The tables of the development. `plain` tables have nothing but zero and page descriptors at the
last level, and no attribute above the address field of a table descriptor; `gib` tables may have
1GiB blocks. Above the last level an entry is zero, a table or a block. -/
def desFormat (plain gib : Bool) : Format where
  decode := desDecode
  Legal := fun n w => w = 0 ∨ (w % 4 = 3 ∧ (n = 0 ∨ w < 2 ^ 48 ∨ plain = false)) ∨
    (w % 4 = 1 ∧ (n = 1 ∨ n = 2 ∧ gib = true)) ∨ n = 0 ∧ plain = false
  decode_zero := by intro n; simp [desDecode]
  legal_zero := by intro n; simp

/-- A guest table: a root of tables, and tables or 2MiB blocks below it. -/
abbrev guestFormat : Format := desFormat false false

/-- What the mapping code needs of a descriptor format. -/
structure IsDes (F : Format) : Prop where
  decode : F.decode = desDecode
  legal_cases : ∀ n w, F.Legal (n + 1) w →
    w = 0 ∨ w % 4 = 3 ∨ ((n + 1 = 1 ∨ n + 1 = 2) ∧ w % 4 = 1)
  legal_table : ∀ n w, w % 4 = 3 → w < 2 ^ 48 → F.Legal n w
  legal_block : ∀ w, w % 4 = 1 → F.Legal 1 w
  legal_page : ∀ w, w % 4 = 3 → F.Legal 0 w

lemma isDes_desFormat (plain gib : Bool) : IsDes (desFormat plain gib) where
  decode := rfl
  legal_cases := by
    intro n w h
    simp only [desFormat] at h
    omega
  legal_table := by
    intro n w h h'
    exact Or.inr (Or.inl ⟨h, Or.inr (Or.inl h')⟩)
  legal_block := by
    intro w h
    exact Or.inr (Or.inr (Or.inl ⟨h, Or.inl rfl⟩))
  legal_page := by
    intro w h
    exact Or.inr (Or.inl ⟨h, Or.inl rfl⟩)

/-! ### The words the mapping code stores -/

/-- `DESC_MASK(n)` -/
def DESC_MASK (n : ℕ) : ℕ := lnot (1 <<< n - 1)

/-- A descriptor for `phy`, as it is put together from attributes and an address. -/
def desWord (attr phy : ℕ) : ℕ := attr ||| (phy &&& DESC_MASK 12)

/-- The address that `create_table_entry` takes out of an entry. -/
def entryBase (value : ℕ) : ℕ := (value &&& 0x0000ffffffffffff) >>> 12 <<< 12

lemma entryBase_eq (w : ℕ) : entryBase w = outField 0 w := by
  rw [entryBase, BitField.shiftRight_shiftLeft, show 0x0000ffffffffffff = 2 ^ 48 - 1 from rfl,
    Nat.and_two_pow_sub_one_eq_mod]
  rfl

/-- Attributes that leave the address field alone. -/
def AttrOnly (attr : ℕ) : Prop := attr % 2 ^ 48 / 2 ^ 12 = 0

lemma desWord_mod_four (attr : ℕ) {phy : ℕ} (hp : phy < 2 ^ 64) :
    desWord attr phy % 4 = attr % 4 := by
  have hz : (phy &&& DESC_MASK 12) % 2 ^ 2 = 0 := by
    rw [DESC_MASK, Nat.one_shiftLeft, and_lnot_pow hp (by norm_num)]
    omega
  rw [desWord, show 4 = 2 ^ 2 from rfl, Nat.or_mod_two_pow, hz, Nat.or_zero]

lemma desWord_outField {attr phy : ℕ} (n : ℕ) (ha : AttrOnly attr) (hp : phy < 2 ^ 64) :
    outField n (desWord attr phy) = outField n phy := by
  have hfield : desWord attr phy % 2 ^ 48 / 2 ^ 12 = phy % 2 ^ 48 / 2 ^ 12 := by
    rw [desWord, DESC_MASK, Nat.one_shiftLeft, and_lnot_pow hp (by norm_num), Nat.or_mod_two_pow,
      Nat.or_div_two_pow, ha, Nat.zero_or]
    omega
  have hsplit : ∀ x, x % 2 ^ 48 / 2 ^ (12 + 9 * n) = x % 2 ^ 48 / 2 ^ 12 / 2 ^ (9 * n) := by
    intro x
    rw [Nat.div_div_eq_div_mul, ← pow_add]
  rw [outField, outField, hsplit, hsplit, hfield]

lemma flags_or_des (flags d : ℕ) (h : flags &&& VM_DES_MASK = 0) (hd : d &&& VM_DES_MASK = d) :
    (flags ||| d) &&& VM_DES_MASK = d := by
  rw [Nat.and_or_distrib_right, h, hd, Nat.zero_or]

lemma pageTableDescription_table {flags : ℕ} (h : flags &&& VM_DES_MASK = 0) :
    pageTableDescription (flags ||| VM_DES_TABLE) = 3 := by
  have hd := flags_or_des flags VM_DES_TABLE h rfl
  simp [pageTableDescription, archHostTtDescription, archGuestTtDescription, hd,
    TT_S1_ATTR_TABLE, TT_S2_ATTR_TABLE]

/-- A leaf description has the type bits `type` and leaves the address field alone. -/
def IsLeafDesc (type attr : ℕ) : Prop := attr % 4 = type ∧ AttrOnly attr

instance (type attr : ℕ) : Decidable (IsLeafDesc type attr) :=
  inferInstanceAs (Decidable (_ ∧ _ = 0))

lemma pageTableDescription_leaf {flags d type : ℕ} (h : flags &&& VM_DES_MASK = 0)
    (hd : d = VM_DES_BLOCK ∧ type = 1 ∨ d = VM_DES_PAGE ∧ type = 3) :
    IsLeafDesc type (pageTableDescription (flags ||| d)) := by
  have hmask : (flags ||| d) &&& VM_DES_MASK = d := by
    apply flags_or_des flags d h
    rcases hd with ⟨rfl, -⟩ | ⟨rfl, -⟩ <;> rfl
  unfold pageTableDescription archHostTtDescription archGuestTtDescription guestMemAttr hostMemAttr
  rw [hmask]
  rcases hd with ⟨rfl, rfl⟩ | ⟨rfl, rfl⟩
  · have hne : ¬ VM_DES_BLOCK = VM_DES_TABLE := by decide
    simp only [hne, if_false, if_true]
    split_ifs <;> decide
  · have hne : ¬ VM_DES_PAGE = VM_DES_TABLE := by decide
    have hne' : ¬ VM_DES_PAGE = VM_DES_BLOCK := by decide
    simp only [hne, hne', if_false, if_true]
    split_ifs <;> decide

end Minos.Mmu
