import Mathlib
import Minos.Types
import Minos.Lib.BitField

/-!
# Boot images

`read_bootimage_header` in `mvm/main/bootimage.c` checks that the parts of an image are in its file,
with 64-bit arithmetic. `linux_load_bootimage` in `mvm/main/os_linux.c` seeks to the parts and reads
them into the memory of the guest, with 32-bit arithmetic and no look at the size of that memory.
-/

namespace Minos.Mvm

def VM_FLAGS_NO_RAMDISK : ℕ := 1 <<< 3
def VM_MEM_START : UInt64 := 0x80000000
def VM_MIN_MEM_SIZE : ℕ := 64 * 1024 * 1024
def EIO : ℤ := 5

/-- `BOOT_MAGIC`, in ASCII -/
def BOOT_MAGIC : List UInt8 := [0x41, 0x4e, 0x44, 0x52, 0x4f, 0x49, 0x44, 0x21]

/-- `struct boot_img_hdr`, without the texts -/
structure BootImgHdr where
  magic : List UInt8
  kernelSize : UInt32
  kernelAddr : UInt32
  ramdiskSize : UInt32
  ramdiskAddr : UInt32
  secondSize : UInt32
  secondAddr : UInt32
  pageSize : UInt32
deriving DecidableEq

/-- `sizeof(boot_img_hdr)` -/
def bootImgHdrSize : ℤ := 608

/-- The file of an image: what the `read` of the header returned, and what `fstat` says -/
structure ImageFile where
  headerRead : ℤ
  statOk : Bool
  isReg : Bool
  size : ℕ

/-- The number of pages of a part, in 64 bits -/
def pages (size pageSize : UInt32) : UInt64 :=
  (size.toUInt64 + pageSize.toUInt64 - 1) / pageSize.toUInt64

/-- `read_bootimage_header` -/
def readBootimageHeader (file : ImageFile) (hdr : BootImgHdr) : ℤ :=
  if file.headerRead ≠ bootImgHdrSize then - EIO
  else if hdr.magic ≠ BOOT_MAGIC then 1
  else if hdr.kernelSize = 0 then 1
  else if hdr.pageSize = 0 then 1
  else
    let k := pages hdr.kernelSize hdr.pageSize
    let r := pages hdr.ramdiskSize hdr.pageSize
    let o := pages hdr.secondSize hdr.pageSize
    let t := (1 + k + r + o) * hdr.pageSize.toUInt64
    if file.statOk = false ∨ file.isReg = false then 1
    else if file.size < t.toNat then -EINVAL
    else 0

/-- `struct vm` of the process, as far as the loader looks at it -/
structure Vm where
  mmap : ℕ
  memSize : ℕ
  memStart : UInt64
  entry : UInt64
  setupData : UInt64
  flags : ℕ

/-- `linux_parse_bootimage` for an accepted header, and the defaults of `mvm_main` after it -/
def linuxParseBootimage (vm : Vm) (hdr : BootImgHdr) : Vm :=
  let entry := hdr.kernelAddr.toUInt64
  let memStart := entry &&& ~~~(0x200000 - 1)
  { vm with
    entry := if entry = 0 then VM_MEM_START else entry
    setupData := hdr.secondAddr.toUInt64
    memStart := if memStart = 0 then VM_MEM_START else memStart
    memSize := if vm.memSize = 0 then VM_MIN_MEM_SIZE else vm.memSize }

/-! ### The loader -/

inductive BootPart where
  | kernel
  | ramdisk
  | dtb
deriving DecidableEq

/-- `BALIGN(v, s)` -/
def balign (v s : UInt32) : UInt32 := (v + s - 1) &&& ~~~(s - 1)

namespace BootImgHdr

variable (hdr : BootImgHdr)

/-- `seek` in `linux_load_bootimage`, with `tmp` for the ramdisk and `pages` for the device tree -/
def seek : BootPart → UInt32
  | .kernel => 1 * hdr.pageSize
  | .ramdisk =>
    let tmp := 1 + (hdr.kernelSize + hdr.pageSize - 1) / hdr.pageSize
    tmp * hdr.pageSize
  | .dtb =>
    let pages := balign hdr.kernelSize hdr.pageSize + balign hdr.ramdiskSize hdr.pageSize
    (pages / hdr.pageSize + 1) * hdr.pageSize

/-- `load_size` -/
def loadSize : BootPart → UInt32
  | .kernel => hdr.kernelSize
  | .ramdisk => hdr.ramdiskSize
  | .dtb => balign hdr.secondSize hdr.pageSize

def addr : BootPart → UInt32
  | .kernel => hdr.kernelAddr
  | .ramdisk => hdr.ramdiskAddr
  | .dtb => hdr.secondAddr

/-- `load_offset` -/
def loadOffset (vm : Vm) (p : BootPart) : UInt32 :=
  ((hdr.addr p).toUInt64 - vm.memStart).toUInt32

end BootImgHdr

/-- What the calls of `lseek` and `read` for a part return -/
structure ImageIo where
  lseekOk : BootPart → Bool
  read : BootPart → ℤ

/-- A call of `load_image`: where it seeks to in the file, and the bytes that it writes -/
structure Load where
  part : BootPart
  seek : ℕ
  start : ℕ
  bytes : ℕ
deriving DecidableEq

/-- `load_image` -/
def loadImage (vm : Vm) (hdr : BootImgHdr) (io : ImageIo) (p : BootPart) : ℤ × Load :=
  let start := vm.mmap + (hdr.loadOffset vm p).toNat
  if io.lseekOk p = false then (- EIO, ⟨p, (hdr.seek p).toNat, start, 0⟩)
  else
    let ret := io.read p
    (if ret ≤ 0 then ret else 0, ⟨p, (hdr.seek p).toNat, start, ret.toNat⟩)

/-- `linux_load_bootimage`, with the loads that it makes -/
def linuxLoadBootimage (vm : Vm) (hdr : BootImgHdr) (io : ImageIo) : ℤ × List Load :=
  let k := loadImage vm hdr io .kernel
  if k.1 ≠ 0 then (k.1, [k.2])
  else
    let r := if vm.flags &&& VM_FLAGS_NO_RAMDISK ≠ 0 then (0, [])
      else
        let r := loadImage vm hdr io .ramdisk
        (r.1, [r.2])
    if r.1 ≠ 0 then (r.1, k.2 :: r.2)
    else if hdr.secondSize = 0 then (-EINVAL, k.2 :: r.2)
    else
      let d := loadImage vm hdr io .dtb
      (d.1, k.2 :: r.2 ++ [d.2])

/-- The part is loaded unless a part before it fails. -/
def BootImgHdr.Loaded (hdr : BootImgHdr) (vm : Vm) : BootPart → Prop
  | .kernel => True
  | .ramdisk => vm.flags &&& VM_FLAGS_NO_RAMDISK = 0
  | .dtb => hdr.secondSize ≠ 0

section Loads

variable {vm : Vm} {hdr : BootImgHdr} {io : ImageIo} {l : Load} {p : BootPart}

/-- Every load is one of a part that is loaded. -/
lemma load_of_mem (h : l ∈ (linuxLoadBootimage vm hdr io).2) :
    ∃ p, hdr.Loaded vm p ∧ l = (loadImage vm hdr io p).2 := by
  rw [linuxLoadBootimage] at h
  dsimp only at h
  have hkernel : l = (loadImage vm hdr io .kernel).2 → ∃ p, hdr.Loaded vm p ∧
      l = (loadImage vm hdr io p).2 := fun hl => ⟨.kernel, trivial, hl⟩
  split at h
  · exact hkernel (List.mem_singleton.1 h)
  by_cases hflags : vm.flags &&& VM_FLAGS_NO_RAMDISK ≠ 0
  · rw [if_pos hflags] at h
    dsimp only at h
    split at h
    · exact hkernel (List.mem_singleton.1 h)
    split at h
    · exact hkernel (List.mem_singleton.1 h)
    rcases List.mem_cons.1 h with hl | hl
    · exact hkernel hl
    · exact ⟨.dtb, ‹_›, List.mem_singleton.1 hl⟩
  · rw [if_neg hflags] at h
    dsimp only at h
    have hramdisk : l = (loadImage vm hdr io .ramdisk).2 → ∃ p, hdr.Loaded vm p ∧
        l = (loadImage vm hdr io p).2 := fun hl => ⟨.ramdisk, not_not.1 hflags, hl⟩
    split at h
    · rcases List.mem_cons.1 h with hl | hl
      · exact hkernel hl
      · exact hramdisk (List.mem_singleton.1 hl)
    split at h
    · rcases List.mem_cons.1 h with hl | hl
      · exact hkernel hl
      · exact hramdisk (List.mem_singleton.1 hl)
    rcases List.mem_cons.1 h with hl | hl
    · exact hkernel hl
    rcases List.mem_cons.1 hl with hl | hl
    · exact hramdisk hl
    · exact ⟨.dtb, ‹_›, List.mem_singleton.1 hl⟩

/-- If no call fails, every part is loaded. -/
lemma mem_of_loaded (hok : ∀ p, (loadImage vm hdr io p).1 = 0) (h : hdr.Loaded vm p) :
    (loadImage vm hdr io p).2 ∈ (linuxLoadBootimage vm hdr io).2 := by
  rw [linuxLoadBootimage]
  dsimp only
  rw [if_neg (not_not.2 (hok .kernel))]
  by_cases hflags : vm.flags &&& VM_FLAGS_NO_RAMDISK ≠ 0
  · rw [if_pos hflags]
    dsimp only
    rw [if_neg (not_not.2 rfl)]
    cases p with
    | kernel => split <;> exact List.mem_cons_self
    | ramdisk => exact absurd h hflags
    | dtb =>
      rw [if_neg (id h : ¬ hdr.secondSize = 0)]
      exact List.mem_cons_of_mem _ List.mem_cons_self
  · rw [if_neg hflags]
    dsimp only
    rw [if_neg (not_not.2 (hok .ramdisk))]
    cases p with
    | kernel => split <;> exact List.mem_cons_self
    | ramdisk => split <;> exact List.mem_cons_of_mem _ List.mem_cons_self
    | dtb =>
      rw [if_neg (id h : ¬ hdr.secondSize = 0)]
      exact List.mem_cons_of_mem _ (List.mem_cons_of_mem _ List.mem_cons_self)

end Loads

/-! ### Where the parts go -/

/-- How many bytes a `read` of `count` bytes at `seek` returns at most: not more than the file has,
and not more than Linux transfers -/
def readMax (size : ℕ) (seek count : UInt32) : ℕ :=
  min (min count.toNat (size - seek.toNat)) 0x7ffff000

/-- `read` returns an error, or a number of bytes. -/
def ImageIo.Reads (io : ImageIo) (hdr : BootImgHdr) (size : ℕ) : Prop :=
  ∀ p, io.read p ≤ readMax size (hdr.seek p) (hdr.loadSize p)

/-- The bytes that are written are in the memory of the guest. -/
def Load.Inside (vm : Vm) (l : Load) : Prop :=
  ∀ x, l.start ≤ x → x < l.start + l.bytes → vm.mmap ≤ x ∧ x < vm.mmap + vm.memSize

/-- The part, as far as it is in the file, fits in the memory of the guest. -/
def BootImgHdr.Fits (hdr : BootImgHdr) (vm : Vm) (size : ℕ) (p : BootPart) : Prop :=
  let n := readMax size (hdr.seek p) (hdr.loadSize p)
  n = 0 ∨ (hdr.loadOffset vm p).toNat + n ≤ vm.memSize

section Inside

variable {vm : Vm} {hdr : BootImgHdr} {io : ImageIo} {p : BootPart} {n off size : ℕ}

lemma inside_iff {seek : ℕ} : Load.Inside vm ⟨p, seek, vm.mmap + off, n⟩ ↔
    n = 0 ∨ off + n ≤ vm.memSize := by
  rw [Load.Inside]
  constructor
  · intro h
    by_cases hn : n = 0
    · exact Or.inl hn
    · have hlast := h (vm.mmap + off + n - 1) (by dsimp only; omega) (by dsimp only; omega)
      omega
  · intro h x hlo hhi
    dsimp only at hlo hhi
    omega

/-- A `read` of fewer bytes stays where one of all bytes does. -/
lemma BootImgHdr.Fits.inside (h : hdr.Fits vm size p) (hio : io.Reads hdr size) :
    (loadImage vm hdr io p).2.Inside vm := by
  have hle := hio p
  rw [loadImage]
  dsimp only
  split
  · exact inside_iff.2 (Or.inl rfl)
  · refine inside_iff.2 ?_
    rcases h with h | h
    · omega
    · omega

/-- Every call succeeds and reads as much as there is. -/
def ImageIo.full (hdr : BootImgHdr) (size : ℕ) : ImageIo :=
  ⟨fun _ => true, fun p => readMax size (hdr.seek p) (hdr.loadSize p)⟩

lemma loadImage_full : (loadImage vm hdr (.full hdr size) p) = (0, ⟨p, (hdr.seek p).toNat,
    vm.mmap + (hdr.loadOffset vm p).toNat, readMax size (hdr.seek p) (hdr.loadSize p)⟩) := by
  rw [loadImage, ImageIo.full]
  dsimp only
  rw [if_neg (by simp)]
  have hret : ∀ n : ℕ, (if (n : ℤ) ≤ 0 then (n : ℤ) else 0) = 0 := by
    intro n
    split <;> omega
  rw [hret, Int.toNat_natCast]

end Inside

/-- Whatever the reads return, all bytes go into the memory of the guest if and only if every part
that is loaded fits. -/
theorem bootimage_load_inside_iff (vm : Vm) (hdr : BootImgHdr) (file : ImageFile) :
    let vm := linuxParseBootimage vm hdr
    (∀ io : ImageIo, io.Reads hdr file.size →
      ∀ l ∈ (linuxLoadBootimage vm hdr io).2, l.Inside vm) ↔
    ∀ p, hdr.Loaded vm p → hdr.Fits vm file.size p := by
  intro vm
  constructor
  · intro h p hp
    have hmem := @mem_of_loaded vm hdr (.full hdr file.size) p (fun p => by rw [loadImage_full]) hp
    have hinside := h _ (fun p => le_rfl) _ hmem
    rw [loadImage_full] at hinside
    exact inside_iff.1 hinside
  · intro h io hio l hl
    obtain ⟨p, hp, rfl⟩ := load_of_mem hl
    exact (h p hp).inside hio

/-- A guest with 64MiB, mapped at `0x10000000` -/
def smallVm : Vm := ⟨0x10000000, 0x4000000, 0, 0, 0, 0⟩

/-- An image with pages of 2KiB and a ramdisk that goes to `ramdiskAddr` -/
def imageHdr (ramdiskAddr : UInt32) : BootImgHdr :=
  ⟨BOOT_MAGIC, 0x1000, 0x80080000, 0x1000, ramdiskAddr, 0x800, 0x83e00000, 0x800⟩

def imageFile (size : ℕ) : ImageFile := ⟨bootImgHdrSize, true, true, size⟩

/-- A ramdisk below the memory of the guest goes to 2GiB behind its start. -/
theorem bootimage_load_outside :
    readBootimageHeader (imageFile 0x3000) (imageHdr 0) = 0 ∧
    ¬ ∀ io : ImageIo, io.Reads (imageHdr 0) 0x3000 →
      ∀ l ∈ (linuxLoadBootimage (linuxParseBootimage smallVm (imageHdr 0)) (imageHdr 0) io).2,
        l.Inside (linuxParseBootimage smallVm (imageHdr 0)) := by
  refine ⟨by decide +kernel, fun h => ?_⟩
  have hramdisk := h (.full (imageHdr 0) 0x3000) (fun p => le_rfl)
    ⟨.ramdisk, 0x1800, 0x90000000, 0x1000⟩ (by decide +kernel) 0x90000000 (by decide) (by decide)
  revert hramdisk
  decide +kernel

/-! ### Where the parts come from -/

/-- The offset of a part in the file, without overflow -/
def BootImgHdr.fileOffset (hdr : BootImgHdr) : BootPart → ℕ
  | .kernel => hdr.pageSize.toNat
  | .ramdisk => (1 + (pages hdr.kernelSize hdr.pageSize).toNat) * hdr.pageSize.toNat
  | .dtb => (1 + (pages hdr.kernelSize hdr.pageSize).toNat +
      (pages hdr.ramdiskSize hdr.pageSize).toNat) * hdr.pageSize.toNat

/-- The offset has 32 bits, and for the device tree the masks of `BALIGN` give the number of pages
before it. -/
def BootImgHdr.SeekOk (hdr : BootImgHdr) : BootPart → Prop
  | .kernel => True
  | .ramdisk => hdr.fileOffset .ramdisk < 2 ^ 32
  | .dtb => hdr.fileOffset .dtb < 2 ^ 32 ∧
      ((balign hdr.kernelSize hdr.pageSize + balign hdr.ramdiskSize hdr.pageSize) /
        hdr.pageSize).toNat =
      (pages hdr.kernelSize hdr.pageSize).toNat + (pages hdr.ramdiskSize hdr.pageSize).toNat

instance (hdr : BootImgHdr) : (p : BootPart) → Decidable (hdr.SeekOk p)
  | .kernel => inferInstanceAs (Decidable True)
  | .ramdisk => inferInstanceAs (Decidable (_ < _))
  | .dtb => inferInstanceAs (Decidable (_ ∧ _))

section Seeks

variable {hdr : BootImgHdr} {size pageSize : UInt32} {j : ℕ}

lemma toNat_pos (h : pageSize ≠ 0) : 0 < pageSize.toNat :=
  Nat.pos_of_ne_zero fun h0 => h (UInt32.toNat_inj.1 h0)

/-- The page count of the validator does not overflow. -/
lemma pages_toNat (h : pageSize ≠ 0) :
    (pages size pageSize).toNat = (size.toNat + pageSize.toNat - 1) / pageSize.toNat := by
  have hsize := size.toNat_lt
  have hpage := pageSize.toNat_lt
  have hpos := toNat_pos h
  rw [pages, UInt64.toNat_div, UInt64.toNat_sub, UInt64.toNat_add, UInt32.toNat_toUInt64,
    UInt32.toNat_toUInt64, UInt64.toNat_one]
  congr 1
  omega

/-- The pages of a part have room for it, and the last one is needed. -/
lemma pages_bounds (h : pageSize ≠ 0) :
    size.toNat ≤ (pages size pageSize).toNat * pageSize.toNat ∧
      (pages size pageSize).toNat * pageSize.toNat < size.toNat + pageSize.toNat := by
  have hpos := toNat_pos h
  rw [pages_toNat h]
  have hdiv := Nat.div_add_mod (size.toNat + pageSize.toNat - 1) pageSize.toNat
  have hmod := Nat.mod_lt (size.toNat + pageSize.toNat - 1) hpos
  rw [mul_comm] at hdiv
  omega

/-- The 32-bit page count is right where the offset behind it has 32 bits. -/
lemma seek_ramdisk_iff (h : hdr.pageSize ≠ 0) :
    (hdr.seek .ramdisk).toNat = hdr.fileOffset .ramdisk ↔ hdr.SeekOk .ramdisk := by
  have hlt := (hdr.seek .ramdisk).toNat_lt
  rw [BootImgHdr.SeekOk]
  refine ⟨fun heq => heq ▸ hlt, fun hoff => ?_⟩
  have hpos := toNat_pos h
  obtain ⟨hlo, -⟩ := @pages_bounds hdr.kernelSize _ h
  rw [BootImgHdr.fileOffset] at hoff ⊢
  have hpages := @pages_toNat hdr.kernelSize _ h
  generalize (pages hdr.kernelSize hdr.pageSize).toNat = k at *
  have hsplit : (1 + k) * hdr.pageSize.toNat = hdr.pageSize.toNat + k * hdr.pageSize.toNat := by
    ring
  have hk : k < 2 ^ 32 - 1 := by
    have : 1 + k ≤ (1 + k) * hdr.pageSize.toNat := Nat.le_mul_of_pos_right _ hpos
    omega
  have hcount : ((hdr.kernelSize + hdr.pageSize - 1) / hdr.pageSize).toNat = k := by
    rw [UInt32.toNat_div, UInt32.toNat_sub, UInt32.toNat_add, UInt32.toNat_one, hpages]
    congr 1
    omega
  rw [BootImgHdr.seek, UInt32.toNat_mul, UInt32.toNat_add, hcount, UInt32.toNat_one,
    Nat.mod_eq_of_lt (show 1 + k < 2 ^ 32 by omega), Nat.mod_eq_of_lt hoff]

/-- The offset of the device tree is right where the masks give its number of pages. -/
lemma seek_dtb_iff (h : hdr.pageSize ≠ 0) :
    (hdr.seek .dtb).toNat = hdr.fileOffset .dtb ↔ hdr.SeekOk .dtb := by
  have hlt := (hdr.seek .dtb).toNat_lt
  have hpos := toNat_pos h
  have hpage := hdr.pageSize.toNat_lt
  rw [BootImgHdr.SeekOk]
  have hseek : (hdr.seek .dtb).toNat = (((balign hdr.kernelSize hdr.pageSize +
      balign hdr.ramdiskSize hdr.pageSize) / hdr.pageSize).toNat + 1) % 2 ^ 32 *
      hdr.pageSize.toNat % 2 ^ 32 := by
    rw [BootImgHdr.seek, UInt32.toNat_mul, UInt32.toNat_add, UInt32.toNat_one]
  have hquot : ((balign hdr.kernelSize hdr.pageSize + balign hdr.ramdiskSize hdr.pageSize) /
      hdr.pageSize).toNat * hdr.pageSize.toNat < 2 ^ 32 := by
    rw [UInt32.toNat_div]
    exact (Nat.div_mul_le_self _ _).trans_lt (UInt32.toNat_lt _)
  have hsum : hdr.fileOffset .dtb = (1 + ((pages hdr.kernelSize hdr.pageSize).toNat +
      (pages hdr.ramdiskSize hdr.pageSize).toNat)) * hdr.pageSize.toNat := by
    rw [BootImgHdr.fileOffset, add_assoc]
  rw [hseek] at hlt ⊢
  rw [hsum]
  generalize (pages hdr.kernelSize hdr.pageSize).toNat +
    (pages hdr.ramdiskSize hdr.pageSize).toNat = n
  generalize ((balign hdr.kernelSize hdr.pageSize + balign hdr.ramdiskSize hdr.pageSize) /
    hdr.pageSize).toNat = q at *
  generalize hdr.pageSize.toNat = ps at *
  constructor
  · intro heq
    refine ⟨heq ▸ hlt, ?_⟩
    have hn : ps ≤ (1 + n) * ps := Nat.le_mul_of_pos_left _ (by omega)
    have hsucc : (q + 1) * ps = q * ps + ps := by ring
    by_cases hq : q + 1 < 2 ^ 32
    · rw [Nat.mod_eq_of_lt hq] at heq
      -- an offset that overflows would be less than a page
      have hsmall : (q + 1) * ps < 2 ^ 32 := by omega
      rw [Nat.mod_eq_of_lt hsmall] at heq
      have := Nat.eq_of_mul_eq_mul_right hpos heq
      omega
    · have hle : q ≤ q * ps := Nat.le_mul_of_pos_right _ hpos
      rw [show q + 1 = 2 ^ 32 by omega, Nat.mod_self, zero_mul, Nat.zero_mod] at heq
      omega
  · rintro ⟨hoff, rfl⟩
    have hq : q + 1 < 2 ^ 32 := by
      have : 1 + q ≤ (1 + q) * ps := Nat.le_mul_of_pos_right _ hpos
      omega
    rw [Nat.mod_eq_of_lt hq, add_comm q 1, Nat.mod_eq_of_lt hoff]

/-- With pages of a power of two `BALIGN` rounds up to whole pages. -/
lemma balign_two_pow (hpage : pageSize.toNat = 2 ^ j) (hlt : size.toNat + 2 ^ j ≤ 2 ^ 32) :
    (balign size pageSize).toNat = (pages size pageSize).toNat * 2 ^ j := by
  have hpos : 0 < 2 ^ j := Nat.two_pow_pos j
  have hj : j ≤ 32 := by
    by_contra h
    have := Nat.pow_lt_pow_right (show 1 < 2 by omega) (Nat.lt_of_not_le h)
    omega
  have hne : pageSize ≠ 0 := by
    rintro rfl
    exact absurd hpage hpos.ne
  have hmask : (~~~(pageSize - 1)).toNat = 2 ^ 32 - 2 ^ j := by
    rw [UInt32.toNat_not, UInt32.toNat_sub, UInt32.toNat_one, hpage, UInt32.size]
    omega
  have hsum : (size + pageSize - 1).toNat = size.toNat + 2 ^ j - 1 := by
    rw [UInt32.toNat_sub, UInt32.toNat_add, UInt32.toNat_one, hpage]
    omega
  rw [balign, UInt32.toNat_and, hmask, hsum, BitField.and_compl_mask (by omega) hj,
    pages_toNat hne, hpage]

/-- With pages of a power of two the masks count the pages wherever the offset has 32 bits. -/
lemma seekOk_of_two_pow (hpage : hdr.pageSize.toNat = 2 ^ j)
    (hoff : hdr.fileOffset .dtb < 2 ^ 32) : hdr.SeekOk .dtb := by
  refine ⟨hoff, ?_⟩
  have hpos : 0 < 2 ^ j := Nat.two_pow_pos j
  have hne : hdr.pageSize ≠ 0 := by
    intro hzero
    rw [hzero] at hpage
    exact absurd hpage hpos.ne
  obtain ⟨hk, -⟩ := @pages_bounds hdr.kernelSize _ hne
  obtain ⟨hr, -⟩ := @pages_bounds hdr.ramdiskSize _ hne
  rw [BootImgHdr.fileOffset, add_mul, add_mul, one_mul] at hoff
  rw [hpage] at hk hr hoff
  rw [UInt32.toNat_div, UInt32.toNat_add, balign_two_pow hpage (by omega),
    balign_two_pow hpage (by omega), hpage, ← add_mul, Nat.mod_eq_of_lt (by rw [add_mul]; omega),
    Nat.mul_div_cancel _ hpos]

end Seeks

/-- For an image that is accepted, the loader seeks to the parts where the validator has them if and
only if the offsets of the parts that it loads have 32 bits, and the masks count their pages. -/
theorem bootimage_seeks_agree_iff (vm : Vm) (hdr : BootImgHdr) (file : ImageFile)
    (h : readBootimageHeader file hdr = 0) :
    (∀ io : ImageIo, ∀ l ∈ (linuxLoadBootimage vm hdr io).2, l.seek = hdr.fileOffset l.part) ↔
      ∀ p, hdr.Loaded vm p → hdr.SeekOk p := by
  have hpage : hdr.pageSize ≠ 0 := by
    rw [readBootimageHeader] at h
    split at h
    · exact absurd h (by decide)
    split at h
    · exact absurd h (by decide)
    split at h
    · exact absurd h (by decide)
    split at h
    · exact absurd h (by decide)
    · assumption
  have hpart (p : BootPart) : (hdr.seek p).toNat = hdr.fileOffset p ↔ hdr.SeekOk p := by
    cases p with
    | kernel => exact iff_of_true (by rw [BootImgHdr.seek, one_mul]; rfl) trivial
    | ramdisk => exact seek_ramdisk_iff hpage
    | dtb => exact seek_dtb_iff hpage
  have hseek (io : ImageIo) (p : BootPart) : (loadImage vm hdr io p).2.part = p ∧
      (loadImage vm hdr io p).2.seek = (hdr.seek p).toNat := by
    rw [loadImage]
    dsimp only
    split <;> exact ⟨rfl, rfl⟩
  constructor
  · intro hall p hp
    have hmem := @mem_of_loaded vm hdr (.full hdr file.size) p (fun p => by rw [loadImage_full]) hp
    have heq := hall _ _ hmem
    rw [(hseek _ p).1, (hseek _ p).2] at heq
    exact (hpart p).1 heq
  · intro hall io l hl
    obtain ⟨p, hp, rfl⟩ := load_of_mem hl
    rw [(hseek io p).1, (hseek io p).2]
    exact (hpart p).2 (hall p hp)

/-- `imageHdr` has pages of a power of two. -/
theorem bootimage_seeks_agree_small :
    readBootimageHeader (imageFile 0x3000) (imageHdr 0x83000000) = 0 ∧
      ∀ io : ImageIo, ∀ l ∈ (linuxLoadBootimage smallVm (imageHdr 0x83000000) io).2,
        l.seek = (imageHdr 0x83000000).fileOffset l.part := by
  have hread : readBootimageHeader (imageFile 0x3000) (imageHdr 0x83000000) = 0 := by
    decide +kernel
  refine ⟨hread, (bootimage_seeks_agree_iff smallVm (imageHdr 0x83000000) (imageFile 0x3000)
    hread).2 fun p _ => ?_⟩
  cases p with
  | kernel => trivial
  | ramdisk => decide +kernel
  | dtb => exact @seekOk_of_two_pow _ 11 rfl (by decide +kernel)

/-- The pages are of 3 bytes. -/
def oddPages : BootImgHdr := ⟨BOOT_MAGIC, 1, 0x80080000, 0, 0, 1, 0x83e00000, 3⟩

/-- The kernel has almost 4GiB. -/
def hugeKernel : BootImgHdr := ⟨BOOT_MAGIC, 0xffffffff, 0x80080000, 1, 0, 1, 0x83e00000, 0x1000⟩

/-- The masks miss a page of 3 bytes, and the huge kernel makes the offset of the ramdisk wrap
around. -/
theorem bootimage_seeks_disagree :
    (readBootimageHeader (imageFile 9) oddPages = 0 ∧
      ∃ l ∈ (linuxLoadBootimage smallVm oddPages (.full oddPages 9)).2, l.part = .dtb ∧
        l.seek ≠ oddPages.fileOffset l.part) ∧
    readBootimageHeader (imageFile 0x100003000) hugeKernel = 0 ∧
      ∃ l ∈ (linuxLoadBootimage smallVm hugeKernel (.full hugeKernel 0x100003000)).2,
        l.part = .ramdisk ∧ l.seek ≠ hugeKernel.fileOffset l.part := by
  decide +kernel

end Minos.Mvm
