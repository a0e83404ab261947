import Mathlib
import Minos.Lib.Run

/-!
# Pending registers of the BCM2836

`virt/virq_chips/bcm_virq.c` shows the pending SPIs of a VM in three registers that the guest
reads with `bcm2835_get_pending`. Eleven interrupts have shortcut bits in the first register,
where bits 8 and 9 say that the other two registers are not empty.
-/

namespace Minos.Virq.Bcm

open Run

/-! ### Registers -/

def BAD_IRQ : ℕ := 1023
def NR_BANKS : ℤ := 3
def BIT (n : ℕ) : BitVec 32 := 1#32 <<< n
def BANK0_HWIRQ_MASK : BitVec 32 := 0xff
def SHORTCUT1_MASK : BitVec 32 := 0x00007c00
def SHORTCUT2_MASK : BitVec 32 := 0x001f8000
def SHORTCUT_SHIFT : ℕ := 10
def BANK1_HWIRQ : BitVec 32 := BIT 8
def BANK2_HWIRQ : BitVec 32 := BIT 9
def BANK0_VALID_MASK : BitVec 32 :=
  BANK0_HWIRQ_MASK ||| BANK1_HWIRQ ||| BANK2_HWIRQ ||| SHORTCUT1_MASK ||| SHORTCUT2_MASK

/-- `MAKE_HWIRQ` -/
def makeHwirq (bank n : ℕ) : ℕ := ((bank + 1) <<< 5) ||| n

/-- `HWIRQ_BANK`, as the `int` it is stored in: a virq below 32 has the bank -1. -/
def hwirqBank (virq : ℕ) : ℤ := ((virq >>> 5 : ℕ) : ℤ) - 1

/-- The registers `BCM2835_IRQ_BASIC_PENDING`, `PENDING1` and `PENDING2`, and
`LOCAL_IRQ_PENDING0`. -/
structure PendingRegs where
  pending : Fin 3 → BitVec 32
  localPending : BitVec 32

namespace PendingRegs

def write (s : PendingRegs) (reg : Fin 3) (v : BitVec 32) : PendingRegs :=
  { s with pending := Function.update s.pending reg v }

@[simp]
lemma write_pending (s : PendingRegs) (reg : Fin 3) (v : BitVec 32) :
    (s.write reg v).pending = Function.update s.pending reg v := rfl

end PendingRegs

/-- The registers after `bcm2836_virqchip_init` and `bcm2836_virq_reset` -/
def noPending : PendingRegs := ⟨fun _ => 0, 0⟩

/-! ### Injecting and clearing -/

/-- The bit of a virq and its bank. -/
structure SpiBank where
  reg : Fin 3
  bit : ℕ
  bank : ℤ
deriving DecidableEq

/-- `bcm2836_get_spi_bank` -/
def getSpiBank (virq : ℕ) : Option SpiBank :=
  let bank := hwirqBank virq
  let virq := virq % 32
  if NR_BANKS ≤ bank then none
  else if bank = 0 then
    if 10 ≤ virq ∧ virq ≤ 20 then none else some ⟨0, virq, bank⟩
  else if bank = 1 then
    match virq with
    | 19 => some ⟨0, 14, bank⟩
    | 18 => some ⟨0, 13, bank⟩
    | 10 => some ⟨0, 12, bank⟩
    | 9 => some ⟨0, 11, bank⟩
    | 7 => some ⟨0, 10, bank⟩
    | virq => some ⟨1, virq, bank⟩
  else
    match virq with
    | 30 => some ⟨0, 20, bank⟩
    | 25 => some ⟨0, 19, bank⟩
    | 24 => some ⟨0, 18, bank⟩
    | 23 => some ⟨0, 17, bank⟩
    | 22 => some ⟨0, 16, bank⟩
    | 21 => some ⟨0, 15, bank⟩
    | virq => some ⟨2, virq, bank⟩

/-- `bcm2836_clear_spi`; `none` is `-EINVAL`. -/
def clearSpi (virq : ℕ) (s : PendingRegs) : Option PendingRegs :=
  match getSpiBank virq with
  | none => none
  | some ⟨base, bit, _⟩ =>
    let s := s.write base (s.pending base &&& ~~~BIT bit)
    let p0 := s.pending 0
    let p0 := if s.pending 1 = 0 then p0 &&& ~~~BIT 8 else p0
    let p0 := if s.pending 2 = 0 then p0 &&& ~~~BIT 9 else p0
    some (s.write 0 p0)

/-- `bcm2836_inject_spi` -/
def injectSpi (virq : ℕ) (s : PendingRegs) : Option PendingRegs :=
  match getSpiBank virq with
  | none => none
  | some ⟨base, bit, bank⟩ =>
    let s := if bank > 0 then s.write 0 (s.pending 0 ||| BIT (bank + 7).toNat) else s
    let s := s.write base (s.pending base ||| BIT bit)
    some { s with localPending := s.localPending ||| BIT 8 }

/-! ### The decoder -/

/-- One halving of `__ffs` -/
def ffsStep (k : ℕ) (s : ℕ × ℕ) : ℕ × ℕ :=
  if s.2 &&& (2 ^ k - 1) = 0 then (s.1 + k, s.2 >>> k) else s

/-- `__ffs` of a word of 64 bits -/
def ffs (word : ℕ) : ℕ := (ffsStep 1 (ffsStep 2 (ffsStep 4 (ffsStep 8 (ffsStep 16
  (ffsStep 32 (0, word))))))).1

/-- `shortcuts` -/
def shortcuts : List ℕ := [7, 9, 10, 18, 19, 21, 22, 23, 24, 25, 30]

/-- `armctrl_translate_bank` -/
def armctrlTranslateBank (s : PendingRegs) (bank : Fin 3) : ℕ :=
  makeHwirq bank (ffs (s.pending bank).toNat)

/-- `armctrl_translate_shortcut` -/
def armctrlTranslateShortcut (bank : ℕ) (stat : BitVec 32) : ℕ :=
  makeHwirq bank (shortcuts.getD (ffs (stat >>> SHORTCUT_SHIFT).toNat) 0)

/-- `bcm2835_get_pending`; `none` is `BUG`. -/
def getPending (s : PendingRegs) : Option ℕ :=
  let stat := s.pending 0 &&& BANK0_VALID_MASK
  if stat = 0 then some BAD_IRQ
  else if stat &&& BANK0_HWIRQ_MASK ≠ 0 then
    some (makeHwirq 0 (ffs (stat &&& BANK0_HWIRQ_MASK).toNat))
  else if stat &&& SHORTCUT1_MASK ≠ 0 then
    some (armctrlTranslateShortcut 1 (stat &&& SHORTCUT1_MASK))
  else if stat &&& SHORTCUT2_MASK ≠ 0 then
    some (armctrlTranslateShortcut 2 (stat &&& SHORTCUT2_MASK))
  else if stat &&& BANK1_HWIRQ ≠ 0 then some (armctrlTranslateBank s 1)
  else if stat &&& BANK2_HWIRQ ≠ 0 then some (armctrlTranslateBank s 2)
  else none

/-! ### Runs -/

inductive SpiOp where
  | inject (virq : ℕ)
  | clear (virq : ℕ)

namespace SpiOp

def virq : SpiOp → ℕ
  | inject virq | clear virq => virq

def isInject : SpiOp → Bool
  | inject _ => true
  | clear _ => false

end SpiOp

def spiStep (s : PendingRegs) : SpiOp → PendingRegs
  | .inject virq => (injectSpi virq s).getD s
  | .clear virq => (clearSpi virq s).getD s

def spiRun (ops : List SpiOp) : PendingRegs := exec spiStep noPending ops

/-- Whether the last operation on a virq was an inject. -/
def lastInject (injected : ℕ → Bool) (op : SpiOp) : ℕ → Bool :=
  Function.update injected op.virq op.isInject

def injectedBy (ops : List SpiOp) : ℕ → Bool := exec lastInject (fun _ => false) ops

/-- Bits 8 and 9 of the first register are in step with the other two registers. -/
def Summary (s : PendingRegs) : Prop :=
  ∀ bank : Fin 3, bank ≠ 0 → ((s.pending 0).getLsbD (bank + 7) = true ↔ s.pending bank ≠ 0)

instance (s : PendingRegs) : Decidable (Summary s) := inferInstanceAs (Decidable (∀ _ : Fin 3, _))

/-- The registers encode which virqs of `U` are injected. -/
structure Encodes (U : Set ℕ) (injected : ℕ → Bool) (s : PendingRegs) : Prop where
  bits : ∀ v ∈ U, ∀ b, getSpiBank v = some b →
    ((s.pending b.reg).getLsbD b.bit = true ↔ injected v = true)
  summary : Summary s
  decoded : ∃ irq, getPending s = some irq ∧ (irq = BAD_IRQ ∨ injected irq = true)

/-- The virqs that have a bit of their own. -/
def OwnBit (virq : ℕ) : Prop := (getSpiBank virq).isSome → 32 ≤ virq ∧ virq ≠ 40 ∧ virq ≠ 41

/-- A virq with a shortcut bit is injected when the register of its bank is not empty. -/
def ShortcutSeen (s : PendingRegs) : SpiOp → Prop
  | .inject virq => ∀ b, getSpiBank virq = some b → b.reg = 0 →
      ∀ bank : Fin 3, bank ≠ 0 → b.bank = (bank : ℕ) → s.pending bank ≠ 0
  | .clear _ => True

/-! ### Bits -/

lemma getLsbD_bit {n : ℕ} (hn : n < 32) (k : ℕ) : (BIT n).getLsbD k = decide (k = n) := by
  rw [BIT, ← BitVec.twoPow_eq, BitVec.getLsbD_twoPow]
  simp [hn, eq_comm]

lemma getLsbD_or_bit {n : ℕ} (hn : n < 32) (x : BitVec 32) (k : ℕ) :
    (x ||| BIT n).getLsbD k = (x.getLsbD k || decide (k = n)) := by
  rw [BitVec.getLsbD_or, getLsbD_bit hn]

lemma getLsbD_clear_bit {n : ℕ} (hn : n < 32) (x : BitVec 32) (k : ℕ) :
    (x &&& ~~~BIT n).getLsbD k = (x.getLsbD k && !decide (k = n)) := by
  rw [BitVec.getLsbD_and, BitVec.getLsbD_not, getLsbD_bit hn]
  by_cases hk : k < 32
  · simp [hk]
  · simp [BitVec.getLsbD_of_ge x k (by omega)]

lemma ne_zero_iff {x : BitVec 32} : x ≠ 0 ↔ ∃ k, x.getLsbD k = true := by
  constructor
  · intro hx
    by_contra! hnone
    exact hx (BitVec.eq_of_getLsbD_eq fun k _ => by simpa using hnone k)
  · rintro ⟨k, hk⟩ rfl
    simp at hk

/-- The low `m` bits of what is left of the word hold the first bit that is set. -/
def FirstIn (word m : ℕ) (s : ℕ × ℕ) : Prop :=
  s.2 % 2 ^ m ≠ 0 ∧ ∀ j, word.testBit (s.1 + j) = s.2.testBit j

lemma FirstIn.halve {word k : ℕ} {s : ℕ × ℕ} (h : FirstIn word (2 * k) s) :
    FirstIn word k (ffsStep k s) := by
  unfold ffsStep
  rw [Nat.and_two_pow_sub_one_eq_mod]
  split_ifs with hlow
  · refine ⟨fun hzero => h.1 ?_, fun j => ?_⟩
    · dsimp only at hzero
      rw [two_mul, pow_add, Nat.mod_mul, hlow, ← Nat.shiftRight_eq_div_pow, hzero]
      rfl
    · rw [Nat.testBit_shiftRight, add_assoc, h.2]
  · exact ⟨hlow, h.2⟩

/-- `__ffs` finds a bit that is set. -/
lemma testBit_ffs {word : ℕ} (h : word % 2 ^ 64 ≠ 0) : word.testBit (ffs word) = true := by
  have hall : FirstIn word (2 * 32) (0, word) := ⟨h, fun j => by rw [zero_add]⟩
  obtain ⟨hlow, hbits⟩ := FirstIn.halve (k := 1) (FirstIn.halve (k := 2)
    (FirstIn.halve (k := 4) (FirstIn.halve (k := 8) (FirstIn.halve (k := 16) hall.halve))))
  have hzero := hbits 0
  rw [add_zero] at hzero
  rw [ffs, hzero, Nat.testBit_zero, decide_eq_true_eq]
  omega

lemma getLsbD_ffs {x : BitVec 32} (h : x ≠ 0) : x.getLsbD (ffs x.toNat) = true := by
  refine testBit_ffs ?_
  rw [Nat.mod_eq_of_lt (x.isLt.trans (by norm_num))]
  exact fun hzero => h (BitVec.eq_of_toNat_eq (by simpa using hzero))

/-- The bits of a masked word. -/
lemma and_ne_zero_iff {x m : BitVec 32} :
    x &&& m ≠ 0 ↔ ∃ k, x.getLsbD k = true ∧ m.getLsbD k = true := by
  rw [ne_zero_iff]
  simp

/-- The first bit of a masked word that is shifted down. -/
lemma getLsbD_ffs_shift {x m : BitVec 32} (h : x &&& m ≠ 0)
    (hm : ∀ k, m.getLsbD k = true → SHORTCUT_SHIFT ≤ k) :
    x.getLsbD (10 + ffs ((x &&& m) >>> SHORTCUT_SHIFT).toNat) = true ∧
      m.getLsbD (10 + ffs ((x &&& m) >>> SHORTCUT_SHIFT).toNat) = true := by
  have hne : (x &&& m) >>> SHORTCUT_SHIFT ≠ 0 := by
    obtain ⟨k, hx, hk⟩ := and_ne_zero_iff.1 h
    refine ne_zero_iff.2 ⟨k - SHORTCUT_SHIFT, ?_⟩
    rw [BitVec.getLsbD_ushiftRight, Nat.add_sub_cancel' (hm k hk), BitVec.getLsbD_and, hx, hk]
    rfl
  have hset := getLsbD_ffs hne
  rwa [BitVec.getLsbD_ushiftRight, BitVec.getLsbD_and, Bool.and_eq_true] at hset

section Masks

variable {k : ℕ}

lemma bank0_hwirq_mask_iff : BANK0_HWIRQ_MASK.getLsbD k = true ↔ k < 8 := by
  by_cases hk : k < 32
  · exact (show ∀ k < 32, BANK0_HWIRQ_MASK.getLsbD k = true ↔ k < 8 by decide) k hk
  · rw [BitVec.getLsbD_of_ge _ _ (by omega)]
    simp
    omega

lemma shortcut1_mask_iff : SHORTCUT1_MASK.getLsbD k = true ↔ 10 ≤ k ∧ k < 15 := by
  by_cases hk : k < 32
  · exact (show ∀ k < 32, SHORTCUT1_MASK.getLsbD k = true ↔ 10 ≤ k ∧ k < 15 by decide) k hk
  · rw [BitVec.getLsbD_of_ge _ _ (by omega)]
    simp
    omega

lemma shortcut2_mask_iff : SHORTCUT2_MASK.getLsbD k = true ↔ 15 ≤ k ∧ k < 21 := by
  by_cases hk : k < 32
  · exact (show ∀ k < 32, SHORTCUT2_MASK.getLsbD k = true ↔ 15 ≤ k ∧ k < 21 by decide) k hk
  · rw [BitVec.getLsbD_of_ge _ _ (by omega)]
    simp
    omega

lemma bank0_valid_mask_iff : BANK0_VALID_MASK.getLsbD k = true ↔ k < 21 := by
  by_cases hk : k < 32
  · exact (show ∀ k < 32, BANK0_VALID_MASK.getLsbD k = true ↔ k < 21 by decide) k hk
  · rw [BitVec.getLsbD_of_ge _ _ (by omega)]
    simp
    omega

lemma bit_of_mask {x : BitVec 32} {n : ℕ} (hn : n < 32)
    (h : x &&& BANK0_VALID_MASK &&& BIT n ≠ 0) : x.getLsbD n = true := by
  obtain ⟨k, hx, hk⟩ := and_ne_zero_iff.1 h
  rw [getLsbD_bit hn, decide_eq_true_eq] at hk
  rw [BitVec.getLsbD_and, Bool.and_eq_true, hk] at hx
  exact hx.1

lemma bit_clear_of_mask {x m : BitVec 32} (hk : k < 21) (h : ¬x &&& BANK0_VALID_MASK &&& m ≠ 0)
    (hm : m.getLsbD k = true) : x.getLsbD k = false := by
  by_contra hx
  refine h (and_ne_zero_iff.2 ⟨k, ?_, hm⟩)
  rw [BitVec.getLsbD_and, bank0_valid_mask_iff.2 hk, Bool.and_true]
  simpa using hx

end Masks

/-! ### Places -/

/-- The virq whose bit it is. -/
def virqAt (reg : Fin 3) (bit : ℕ) : ℕ :=
  if reg = 1 then makeHwirq 1 bit
  else if reg = 2 then makeHwirq 2 bit
  else if bit < 10 then makeHwirq 0 bit
  else if bit < 15 then makeHwirq 1 (shortcuts.getD (bit - 10) 0)
  else if bit < 21 then makeHwirq 2 (shortcuts.getD (bit - 10) 0)
  else makeHwirq 0 bit

/-- A virq of its own bit `(reg, bit)` in the bank `bank`. -/
def Place (v : ℕ) (b : SpiBank) : Prop :=
  getSpiBank v = some b ∧ 32 ≤ v ∧ v ≠ 40 ∧ v ≠ 41

lemma getSpiBank_lt {v : ℕ} {b : SpiBank} (h : getSpiBank v = some b) : v < 128 := by
  unfold getSpiBank hwirqBank NR_BANKS at h
  dsimp only at h
  rw [Nat.shiftRight_eq_div_pow] at h
  split_ifs at h with h₁
  all_goals omega

/-- What the bit of a virq says: the virq, and the bank of a shortcut bit. -/
def Says (v : ℕ) (b : SpiBank) : Prop :=
  v = virqAt b.reg b.bit ∧ b.bit < 32 ∧ (b.reg = 0 → b.bit ≠ 8 ∧ b.bit ≠ 9) ∧
    (b.bank = (b.reg : ℕ) ∨ b.reg = 0 ∧
      (b.bank = 1 ∧ 10 ≤ b.bit ∧ b.bit < 15 ∨ b.bank = 2 ∧ 15 ≤ b.bit ∧ b.bit < 21))

instance (v : ℕ) (b : SpiBank) : Decidable (Says v b) :=
  inferInstanceAs (Decidable (_ ∧ _ ∧ _ ∧ _))

lemma Place.placed {v : ℕ} {b : SpiBank} (h : Place v b) : Says v b := by
  obtain ⟨hb, h32, h40, h41⟩ := h
  have hall : ∀ v < 128, 32 ≤ v → v ≠ 40 → v ≠ 41 →
      (getSpiBank v).all (fun b => decide (Says v b)) = true := by
    decide +kernel
  have hv := hall v (getSpiBank_lt hb) h32 h40 h41
  rw [hb] at hv
  exact of_decide_eq_true hv

/-- The bits outside the two summary bits show the injected virqs, and a summary bit is set when
its register is not empty, and only when a virq of its bank is injected. -/
structure Shows (injected : ℕ → Bool) (s : PendingRegs) : Prop where
  bits : ∀ reg bit, (reg = 0 → bit ≠ 8 ∧ bit ≠ 9) → ((s.pending reg).getLsbD bit = true ↔
    ∃ v b, Place v b ∧ b.reg = reg ∧ b.bit = bit ∧ injected v = true)
  seen : ∀ bank : Fin 3, bank ≠ 0 → s.pending bank ≠ 0 →
    (s.pending 0).getLsbD (bank + 7) = true
  held : ∀ bank : Fin 3, bank ≠ 0 → (s.pending 0).getLsbD (bank + 7) = true →
    ∃ v b, Place v b ∧ b.bank = (bank : ℕ) ∧ injected v = true

namespace Shows

variable {injected : ℕ → Bool} {s : PendingRegs}

lemma virqAt_of_bit (h : Shows injected s) (reg : Fin 3) (bit : ℕ)
    (hns : reg = 0 → bit ≠ 8 ∧ bit ≠ 9) (hset : (s.pending reg).getLsbD bit = true) :
    injected (virqAt reg bit) = true := by
  obtain ⟨v, b, hp, rfl, rfl, hinj⟩ := (h.bits reg bit hns).1 hset
  exact hp.placed.1 ▸ hinj

/-- A virq of a bank is in the register of the bank when none of the shortcut bits is set. -/
lemma pending_ne_zero (h : Shows injected s) {bank : Fin 3} (hne : bank ≠ 0)
    (hsum : (s.pending 0).getLsbD (bank + 7) = true)
    (hnone : ∀ k, 10 ≤ k → k < 21 → (s.pending 0).getLsbD k = false) : s.pending bank ≠ 0 := by
  obtain ⟨v, ⟨reg, bit, bank'⟩, hp, hbank, hinj⟩ := h.held bank hne hsum
  obtain ⟨-, -, hns, hplace⟩ := hp.placed
  have hset : (s.pending reg).getLsbD bit = true := (h.bits _ _ hns).2 ⟨v, _, hp, rfl, rfl, hinj⟩
  dsimp only at hplace hbank
  obtain hreg | ⟨rfl, hshort⟩ := hplace
  · have : bank = reg := by omega
    exact ne_zero_iff.2 ⟨bit, this ▸ hset⟩
  · rw [hnone bit (by omega) (by omega)] at hset
    cases hset

/-- `bcm2835_get_pending` finds an injected virq, if it finds one. -/
lemma decoded (h : Shows injected s) :
    ∃ irq, getPending s = some irq ∧ (irq = BAD_IRQ ∨ injected irq = true) := by
  have hshort : ¬s.pending 0 &&& BANK0_VALID_MASK &&& SHORTCUT1_MASK ≠ 0 →
      ¬s.pending 0 &&& BANK0_VALID_MASK &&& SHORTCUT2_MASK ≠ 0 →
      ∀ k, 10 ≤ k → k < 21 → (s.pending 0).getLsbD k = false := by
    intro h₁ h₂ k hlo hhi
    rcases lt_or_ge k 15 with hk | hk
    · exact bit_clear_of_mask hhi h₁ (shortcut1_mask_iff.2 ⟨hlo, hk⟩)
    · exact bit_clear_of_mask hhi h₂ (shortcut2_mask_iff.2 ⟨hk, hhi⟩)
  unfold getPending
  dsimp only
  split_ifs with h0 h1 h2 h3 h4 h5
  · exact ⟨_, rfl, .inl rfl⟩
  · refine ⟨_, rfl, .inr ?_⟩
    have hset := getLsbD_ffs h1
    generalize ffs (s.pending 0 &&& BANK0_VALID_MASK &&& BANK0_HWIRQ_MASK).toNat = i at hset ⊢
    simp only [BitVec.getLsbD_and, Bool.and_eq_true, bank0_hwirq_mask_iff] at hset
    have hinj := h.virqAt_of_bit 0 i (fun _ => by omega) hset.1.1
    rwa [virqAt, if_neg (by decide), if_neg (by decide), if_pos (by omega)] at hinj
  · refine ⟨_, rfl, .inr ?_⟩
    obtain ⟨hbit, hmask⟩ := getLsbD_ffs_shift h2 fun k hk => (shortcut1_mask_iff.1 hk).1
    rw [armctrlTranslateShortcut]
    generalize ffs _ = j at hbit hmask ⊢
    rw [BitVec.getLsbD_and, Bool.and_eq_true] at hbit
    rw [shortcut1_mask_iff] at hmask
    have hinj := h.virqAt_of_bit 0 (10 + j) (fun _ => by omega) hbit.1
    rwa [virqAt, if_neg (by decide), if_neg (by decide), if_neg (by omega), if_pos (by omega),
      Nat.add_sub_cancel_left] at hinj
  · refine ⟨_, rfl, .inr ?_⟩
    obtain ⟨hbit, hmask⟩ := getLsbD_ffs_shift h3 fun k hk => by
      have := (shortcut2_mask_iff.1 hk).1
      unfold SHORTCUT_SHIFT
      omega
    rw [armctrlTranslateShortcut]
    generalize ffs _ = j at hbit hmask ⊢
    rw [BitVec.getLsbD_and, Bool.and_eq_true] at hbit
    rw [shortcut2_mask_iff] at hmask
    have hinj := h.virqAt_of_bit 0 (10 + j) (fun _ => by omega) hbit.1
    rwa [virqAt, if_neg (by decide), if_neg (by decide), if_neg (by omega), if_neg (by omega),
      if_pos (by omega), Nat.add_sub_cancel_left] at hinj
  · refine ⟨_, rfl, .inr ?_⟩
    have hne : s.pending 1 ≠ 0 :=
      h.pending_ne_zero (by decide) (bit_of_mask (n := 8) (by norm_num) h4) (hshort h2 h3)
    exact h.virqAt_of_bit 1 _ (by simp) (getLsbD_ffs hne)
  · refine ⟨_, rfl, .inr ?_⟩
    have hne : s.pending 2 ≠ 0 :=
      h.pending_ne_zero (by decide) (bit_of_mask (n := 9) (by norm_num) h5) (hshort h2 h3)
    exact h.virqAt_of_bit 2 _ (by simp) (getLsbD_ffs hne)
  · -- every valid bit is in one of the masks
    exfalso
    obtain ⟨k, hk⟩ := ne_zero_iff.1 h0
    obtain ⟨hset, hvalid⟩ := by simpa only [BitVec.getLsbD_and, Bool.and_eq_true] using hk
    rw [bank0_valid_mask_iff] at hvalid
    suffices hclear : (s.pending 0).getLsbD k = false by
      rw [hclear] at hset
      cases hset
    obtain hlt | rfl | rfl | hge : k < 8 ∨ k = 8 ∨ k = 9 ∨ 10 ≤ k := by omega
    · exact bit_clear_of_mask hvalid h1 (bank0_hwirq_mask_iff.2 hlt)
    · exact bit_clear_of_mask hvalid h4 (by decide)
    · exact bit_clear_of_mask hvalid h5 (by decide)
    · exact hshort h2 h3 k hge hvalid

end Shows

/-! ### Steps -/

section Step

variable {injected : ℕ → Bool} {s : PendingRegs} {v : ℕ} {b : SpiBank}

lemma write_or_bit (s : PendingRegs) {n : ℕ} (hn : n < 32) (r reg : Fin 3) (k : ℕ) :
    ((s.write r (s.pending r ||| BIT n)).pending reg).getLsbD k =
      ((s.pending reg).getLsbD k || decide (reg = r ∧ k = n)) := by
  by_cases h : reg = r
  · subst h
    simp [getLsbD_or_bit hn]
  · simp [h]

lemma write_clear_bit (s : PendingRegs) {n : ℕ} (hn : n < 32) (r reg : Fin 3) (k : ℕ) :
    ((s.write r (s.pending r &&& ~~~BIT n)).pending reg).getLsbD k =
      ((s.pending reg).getLsbD k && !decide (reg = r ∧ k = n)) := by
  by_cases h : reg = r
  · subst h
    simp [getLsbD_clear_bit hn]
  · simp [h]

lemma getLsbD_ite_clear_bit {n : ℕ} (hn : n < 32) (c : Prop) [Decidable c] (x : BitVec 32)
    (k : ℕ) : (if c then x &&& ~~~BIT n else x).getLsbD k =
      (x.getLsbD k && !decide (c ∧ k = n)) := by
  split_ifs with h
  · simp only [getLsbD_clear_bit hn, h, true_and]
  · simp [h]

/-- The bits after an inject. -/
lemma injectSpi_bits (hp : Place v b) : ∃ s', injectSpi v s = some s' ∧
    ∀ reg k, (s'.pending reg).getLsbD k = ((s.pending reg).getLsbD k ||
      decide (reg = b.reg ∧ k = b.bit) ||
      decide (reg = 0 ∧ 0 < b.bank ∧ (k : ℤ) = b.bank + 7)) := by
  obtain ⟨reg, bit, bank⟩ := b
  obtain ⟨-, hbit, -, hplace⟩ := hp.placed
  refine ⟨_, by rw [injectSpi, hp.1], fun r k => ?_⟩
  dsimp only at *
  rw [write_or_bit _ hbit]
  split_ifs with hpos
  · have hk : k = (bank + 7).toNat ↔ (k : ℤ) = bank + 7 := by omega
    rw [write_or_bit _ (by omega), Bool.or_right_comm]
    simp [hk, show 0 < bank from hpos]
  · simp [show ¬0 < bank from hpos]

/-- The bits after a clear: the summary bits stay when their registers are not empty. -/
lemma clearSpi_bits (hp : Place v b) : ∃ s', clearSpi v s = some s' ∧
    (∀ reg k, (reg = 0 → k ≠ 8 ∧ k ≠ 9) → (s'.pending reg).getLsbD k =
      ((s.pending reg).getLsbD k && !decide (reg = b.reg ∧ k = b.bit))) ∧
    ∀ bank : Fin 3, bank ≠ 0 → ((s'.pending 0).getLsbD (bank + 7) = true ↔
      (s.pending 0).getLsbD (bank + 7) = true ∧ s'.pending bank ≠ 0) := by
  obtain ⟨reg, bit, bank⟩ := b
  obtain ⟨-, hbit, hns, -⟩ := hp.placed
  refine ⟨_, by rw [clearSpi, hp.1], ?_⟩
  dsimp only at *
  have hbits := write_clear_bit s hbit reg
  generalize s.write reg (s.pending reg &&& ~~~BIT bit) = t at hbits ⊢
  refine ⟨fun r k hk => ?_, fun n hn => ?_⟩ <;> rw [PendingRegs.write_pending]
  · rw [← hbits]
    by_cases hr : r = 0
    · subst hr
      obtain ⟨h8, h9⟩ := hk rfl
      rw [Function.update_self, getLsbD_ite_clear_bit (by norm_num),
        getLsbD_ite_clear_bit (by norm_num)]
      simp [h8, h9]
    · rw [Function.update_of_ne hr]
  · have hother : ¬((0 : Fin 3) = reg ∧ (n : ℕ) + 7 = bit) := by
      rintro ⟨rfl, h⟩
      have := hns rfl
      omega
    rw [Function.update_self, Function.update_of_ne hn, getLsbD_ite_clear_bit (by norm_num),
      getLsbD_ite_clear_bit (by norm_num), hbits, decide_eq_false hother]
    obtain rfl | rfl : n = 1 ∨ n = 2 := by omega
    · simp
    · simp

/-- Two virqs do not have the same bit. -/
lemma Place.inj {w : ℕ} {c : SpiBank} (hv : Place v b) (hw : Place w c) (hreg : c.reg = b.reg)
    (hbit : c.bit = b.bit) : w = v := by
  rw [hw.placed.1, hv.placed.1, hreg, hbit]

lemma Shows.inject (h : Shows injected s) (hp : Place v b) :
    Shows (Function.update injected v true) (spiStep s (.inject v)) := by
  obtain ⟨s', hs', hbits⟩ := injectSpi_bits (s := s) hp
  obtain ⟨-, -, hns, hplace⟩ := hp.placed
  have hself : Function.update injected v true v = true := Function.update_self _ _ _
  have hkeep : ∀ w, injected w = true → Function.update injected v true w = true := by
    intro w hw
    rcases eq_or_ne w v with rfl | hne
    · exact hself
    · rwa [Function.update_of_ne hne]
  simp only [spiStep, hs', Option.getD_some]
  constructor
  · intro reg bit hns'
    have hsum : ¬(reg = 0 ∧ 0 < b.bank ∧ (bit : ℤ) = b.bank + 7) := by
      rintro ⟨h0, hpos, hbit⟩
      have := hns' h0
      omega
    rw [hbits, decide_eq_false hsum, Bool.or_false, Bool.or_eq_true, h.bits reg bit hns',
      decide_eq_true_eq]
    constructor
    · rintro (⟨w, c, hw, hr, hk, hinj⟩ | ⟨hr, hk⟩)
      · exact ⟨w, c, hw, hr, hk, hkeep w hinj⟩
      · exact ⟨v, b, hp, hr.symm, hk.symm, hself⟩
    · rintro ⟨w, c, hw, hr, hk, hinj⟩
      rcases eq_or_ne w v with rfl | hne
      · have : b = c := by simpa [hp.1] using hw.1
        exact .inr (this ▸ ⟨hr.symm, hk.symm⟩)
      · rw [Function.update_of_ne hne] at hinj
        exact .inl ⟨w, c, hw, hr, hk, hinj⟩
  · intro bank hbank hne
    rw [hbits]
    obtain ⟨k, hk⟩ := ne_zero_iff.1 hne
    rw [hbits] at hk
    simp only [Bool.or_eq_true, decide_eq_true_eq] at hk ⊢
    obtain (hold | ⟨rfl, -⟩) | ⟨h0, -⟩ := hk
    · exact .inl (.inl (h.seen bank hbank (ne_zero_iff.2 ⟨k, hold⟩)))
    · refine .inr ⟨trivial, ?_⟩
      obtain hreg | ⟨h0, -⟩ := hplace
      · omega
      · exact absurd h0 hbank
    · exact absurd h0 hbank
  · intro bank hbank hset
    rw [hbits] at hset
    simp only [Bool.or_eq_true, decide_eq_true_eq] at hset
    obtain (hold | ⟨hreg, hbit⟩) | ⟨-, -, hk⟩ := hset
    · obtain ⟨w, c, hw, hb, hinj⟩ := h.held bank hbank hold
      exact ⟨w, c, hw, hb, hkeep w hinj⟩
    · have := hns hreg.symm
      omega
    · exact ⟨v, b, hp, by omega, hself⟩

lemma Shows.clear (h : Shows injected s) (hp : Place v b) :
    Shows (Function.update injected v false) (spiStep s (.clear v)) := by
  obtain ⟨s', hs', hbits, hsum⟩ := clearSpi_bits (s := s) hp
  simp only [spiStep, hs', Option.getD_some]
  have hbits' : ∀ reg bit, (reg = 0 → bit ≠ 8 ∧ bit ≠ 9) → ((s'.pending reg).getLsbD bit = true ↔
      ∃ w c, Place w c ∧ c.reg = reg ∧ c.bit = bit ∧
        Function.update injected v false w = true) := by
    intro reg bit hns
    rw [hbits reg bit hns, Bool.and_eq_true, h.bits reg bit hns, Bool.not_eq_true',
      decide_eq_false_iff_not]
    constructor
    · rintro ⟨⟨w, c, hw, hr, hk, hinj⟩, hne⟩
      refine ⟨w, c, hw, hr, hk, ?_⟩
      rw [Function.update_of_ne]
      · exact hinj
      · rintro rfl
        have : b = c := by simpa [hp.1] using hw.1
        exact hne (this ▸ ⟨hr.symm, hk.symm⟩)
    · rintro ⟨w, c, hw, hr, hk, hinj⟩
      have hne : w ≠ v := by
        rintro rfl
        simp at hinj
      rw [Function.update_of_ne hne] at hinj
      refine ⟨⟨w, c, hw, hr, hk, hinj⟩, fun hplace => hne (hp.inj hw ?_ ?_)⟩
      · exact hr.trans hplace.1
      · exact hk.trans hplace.2
  refine ⟨hbits', fun bank hbank hne => ?_, fun bank hbank hset => ?_⟩
  · refine (hsum bank hbank).2 ⟨?_, hne⟩
    obtain ⟨k, hk⟩ := ne_zero_iff.1 hne
    rw [hbits bank k fun h0 => absurd h0 hbank, Bool.and_eq_true] at hk
    exact h.seen bank hbank (ne_zero_iff.2 ⟨k, hk.1⟩)
  · obtain ⟨k, hk⟩ := ne_zero_iff.1 ((hsum bank hbank).1 hset).2
    obtain ⟨w, c, hw, hr, hk, hinj⟩ := (hbits' bank k fun h0 => absurd h0 hbank).1 hk
    obtain ⟨-, -, -, hreg | ⟨h0, -⟩⟩ := hw.placed
    · exact ⟨w, c, hw, by rw [hreg, hr], hinj⟩
    · exact absurd (hr.symm.trans h0) hbank

/-- An inject keeps the summary bits in step when a shortcut is seen, and only then. -/
lemma summary_inject_iff (h : Summary s) (hp : Place v b) :
    Summary (spiStep s (.inject v)) ↔ ShortcutSeen s (.inject v) := by
  obtain ⟨s', hs', hbits⟩ := injectSpi_bits (s := s) hp
  obtain ⟨-, -, hns, hplace⟩ := hp.placed
  simp only [spiStep, hs', Option.getD_some, ShortcutSeen]
  have hold : ∀ bank : Fin 3, bank ≠ 0 → s.pending bank ≠ 0 → s'.pending bank ≠ 0 := by
    intro bank _ hne
    obtain ⟨k, hk⟩ := ne_zero_iff.1 hne
    exact ne_zero_iff.2 ⟨k, by rw [hbits, hk]; rfl⟩
  have hnew : ∀ bank : Fin 3, bank ≠ 0 → s'.pending bank ≠ 0 →
      s.pending bank ≠ 0 ∨ bank = b.reg := by
    intro bank hbank hne
    obtain ⟨k, hk⟩ := ne_zero_iff.1 hne
    rw [hbits] at hk
    simp only [Bool.or_eq_true, decide_eq_true_eq] at hk
    obtain (hset | ⟨hreg, -⟩) | ⟨h0, -⟩ := hk
    · exact .inl (ne_zero_iff.2 ⟨k, hset⟩)
    · exact .inr hreg
    · exact absurd h0 hbank
  have hsum : ∀ bank : Fin 3, bank ≠ 0 → ((s'.pending 0).getLsbD (bank + 7) = true ↔
      s.pending bank ≠ 0 ∨ b.bank = (bank : ℕ)) := by
    intro bank hbank
    rw [hbits]
    simp only [Bool.or_eq_true, decide_eq_true_eq, h bank hbank]
    have hother : ¬(0 = b.reg ∧ (bank : ℕ) + 7 = b.bit) := by
      rintro ⟨hreg, hbit⟩
      have := hns hreg.symm
      omega
    simp only [hother, or_false, true_and]
    refine or_congr_right ⟨fun hb => by omega, fun hb => ?_⟩
    omega
  constructor
  · intro h' b' hb' hreg bank hbank hb
    obtain rfl : b = b' := by simpa [hp.1] using hb'
    obtain hset | hreg' := hnew bank hbank ((h' bank hbank).1 ((hsum bank hbank).2 (.inr hb)))
    · exact hset
    · exact absurd (hreg'.trans hreg) hbank
  · intro hseen bank hbank
    rw [hsum bank hbank]
    constructor
    · rintro (hset | hb)
      · exact hold bank hbank hset
      · obtain hreg | ⟨h0, -⟩ := hplace
        · have : bank = b.reg := by omega
          exact ne_zero_iff.2 ⟨b.bit, by rw [hbits]; simp [this]⟩
        · exact hold bank hbank (hseen b hp.1 h0 bank hbank hb)
    · intro hset
      obtain hset | rfl := hnew bank hbank hset
      · exact .inl hset
      · obtain hreg | ⟨h0, -⟩ := hplace
        · exact .inr hreg
        · exact absurd h0 hbank

lemma summary_clear (h : Summary s) (hp : Place v b) : Summary (spiStep s (.clear v)) := by
  obtain ⟨s', hs', hbits, hsum⟩ := clearSpi_bits (s := s) hp
  simp only [spiStep, hs', Option.getD_some]
  intro bank hbank
  rw [hsum bank hbank, and_iff_right_iff_imp]
  intro hne
  obtain ⟨k, hk⟩ := ne_zero_iff.1 hne
  rw [hbits bank k fun h0 => absurd h0 hbank, Bool.and_eq_true] at hk
  exact (h bank hbank).2 (ne_zero_iff.2 ⟨k, hk.1⟩)

end Step

/-! ### Every run -/

section Runs

variable {injected : ℕ → Bool} {s : PendingRegs} {op : SpiOp}

/-- An operation is rejected, or its virq has a bit of its own. -/
lemma ownBit_cases {v : ℕ} (h : OwnBit v) : getSpiBank v = none ∨ ∃ b, Place v b := by
  rcases hb : getSpiBank v with _ | b
  · exact .inl rfl
  · exact .inr ⟨b, hb, h (by rw [hb]; rfl)⟩

lemma spiStep_of_none (h : getSpiBank op.virq = none) : spiStep s op = s := by
  cases op with
  | inject v => simp [spiStep, injectSpi, show getSpiBank v = none from h]
  | clear v => simp [spiStep, clearSpi, show getSpiBank v = none from h]

lemma Shows.step (h : Shows injected s) (hop : OwnBit op.virq) :
    Shows (lastInject injected op) (spiStep s op) := by
  rcases ownBit_cases hop with hnone | ⟨b, hp⟩
  · rw [spiStep_of_none hnone]
    have hsame : ∀ v b, Place v b → lastInject injected op v = injected v := by
      intro v b hp
      refine Function.update_of_ne ?_ _ _
      rintro rfl
      rw [hp.1] at hnone
      cases hnone
    refine ⟨fun reg bit hns => (h.bits reg bit hns).trans ?_, h.seen, fun bank hbank hset => ?_⟩
    · constructor
      · rintro ⟨v, b, hp, hr, hk, hinj⟩
        exact ⟨v, b, hp, hr, hk, by rwa [hsame v b hp]⟩
      · rintro ⟨v, b, hp, hr, hk, hinj⟩
        exact ⟨v, b, hp, hr, hk, by rwa [← hsame v b hp]⟩
    · obtain ⟨v, b, hp, hb, hinj⟩ := h.held bank hbank hset
      exact ⟨v, b, hp, hb, by rwa [hsame v b hp]⟩
  · cases op with
    | inject v => exact h.inject hp
    | clear v => exact h.clear hp

lemma summary_spiStep_iff (h : Summary s) (hop : OwnBit op.virq) :
    Summary (spiStep s op) ↔ ShortcutSeen s op := by
  rcases ownBit_cases hop with hnone | ⟨b, hp⟩
  · rw [spiStep_of_none hnone]
    refine iff_of_true h ?_
    cases op with
    | inject v => exact fun b hb => by simp [show getSpiBank v = none from hnone] at hb
    | clear v => trivial
  · cases op with
    | inject v => exact summary_inject_iff h hp
    | clear v => exact iff_of_true (summary_clear h hp) trivial

lemma shows_noPending : Shows (fun _ => false) noPending := by
  constructor <;> simp [noPending]

lemma Shows.encodes_shown (h : Shows injected s) {U : Set ℕ} (hU : ∀ v ∈ U, OwnBit v) :
    Encodes U injected s ↔ Summary s := by
  refine ⟨Encodes.summary, fun hsum => ⟨fun v hv b hb => ?_, hsum, h.decoded⟩⟩
  have hp : Place v b := ⟨hb, hU v hv (by rw [hb]; rfl)⟩
  rw [h.bits b.reg b.bit hp.placed.2.2.1]
  constructor
  · rintro ⟨w, c, hw, hr, hk, hinj⟩
    exact hp.inj hw hr hk ▸ hinj
  · exact fun hinj => ⟨v, b, hp, rfl, rfl, hinj⟩

/-- A virq without a bit of its own is seen at once: its summary bit is wrong, or the decoder finds
another virq. -/
lemma not_ownBit_seen : ∀ v < 42, v < 32 ∨ v = 40 ∨ v = 41 →
    ¬Summary (spiStep noPending (.inject v)) ∨
      getPending (spiStep noPending (.inject v)) = some (v + 96) := by
  decide +kernel

lemma shortcutSeen_noPending : ∀ v < 42, v < 32 ∨ v = 40 ∨ v = 41 →
    (getSpiBank v).all (fun b => b.bank ≤ 0) = true := by
  decide +kernel

/-- In every run over a set of virqs the registers encode which ones are injected just when each
shortcut is injected while its bank is not empty, and this is so for the sets without a virq below
32 and without virqs 40 and 41, and for no others. -/
theorem encodes_iff (U : Set ℕ) :
    (∀ ops : List SpiOp, (∀ op ∈ ops, op.virq ∈ U) →
      ((∀ pre, pre <+: ops → Encodes U (injectedBy pre) (spiRun pre)) ↔
        Along spiStep ShortcutSeen noPending ops)) ↔
    ∀ v ∈ U, OwnBit v := by
  constructor
  · intro hall v hv
    by_contra hown
    unfold OwnBit at hown
    push Not at hown
    have hbad : v < 32 ∨ v = 40 ∨ v = 41 := by
      by_contra hgood
      have := hown.2 (by omega) (by omega)
      omega
    have hseen : Along spiStep ShortcutSeen noPending [.inject v] := by
      refine ⟨fun b hb _ bank hbank hb' => ?_, trivial⟩
      have hle := shortcutSeen_noPending v (by omega) hbad
      rw [hb, Option.all_some, decide_eq_true_eq] at hle
      omega
    have henc := (hall [.inject v] (by simpa [SpiOp.virq] using hv)).2 hseen _ List.prefix_rfl
    rcases not_ownBit_seen v (by omega) hbad with hsum | hpend
    · exact hsum henc.summary
    · obtain ⟨irq, hirq, hdec⟩ := henc.decoded
      obtain rfl : v + 96 = irq := by simpa [hpend] using hpend.symm.trans hirq
      rcases hdec with hbadIrq | hinj
      · unfold BAD_IRQ at hbadIrq
        omega
      · simp [injectedBy, lastInject, SpiOp.virq] at hinj
  · intro hU ops hops
    have hown : ∀ {pre}, pre <+: ops → Along spiStep (fun _ op => OwnBit op.virq) noPending pre :=
      fun hpre => along_const.2 fun op hop => hU _ (hops op (hpre.subset hop))
    have hshows : ∀ pre, pre <+: ops → Shows (injectedBy pre) (spiRun pre) := by
      intro pre hpre
      exact exec_simulation (R := fun s injected => Shows injected s)
        (fun s injected op h hop => h.step hop) shows_noPending (hown hpre)
    have hpre : (∀ pre, pre <+: ops → Encodes U (injectedBy pre) (spiRun pre)) ↔
        ∀ pre, pre <+: ops → Summary (exec spiStep noPending pre) :=
      forall₂_congr fun pre hpre => (hshows pre hpre).encodes_shown hU
    have hnew : Summary noPending := by decide
    rw [hpre, forall_prefix_iff, and_iff_right hnew]
    exact along_iff (I := Summary) (fun s op h hop => summary_spiStep_iff h hop)
      (fun s op h hop hseen => (summary_spiStep_iff h hop).2 hseen) hnew (hown List.prefix_rfl)

/-- Virq 40 has the summary bit of bank 1, which is cleared with the last virq of the bank, and the
shortcut of virq 71 sets the summary bit of an empty register. -/
theorem encodes_diverges :
    ¬Encodes {v | (getSpiBank v).isSome} (injectedBy [.inject 40, .inject 64, .clear 64])
        (spiRun [.inject 40, .inject 64, .clear 64]) ∧
      ¬Encodes {v | (getSpiBank v).isSome} (injectedBy [.inject 71]) (spiRun [.inject 71]) := by
  constructor
  · intro h
    exact absurd ((h.bits 40 rfl ⟨0, 8, 0⟩ (by decide)).2 (by decide)) (by decide)
  · exact fun h => absurd h.summary (by decide)

end Runs

end Minos.Virq.Bcm
