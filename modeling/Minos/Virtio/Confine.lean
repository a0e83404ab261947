import Mathlib
import Minos.Virtio.Backend

/-!
# Where the pointers of the backend point

The guest chooses the addresses of its rings, of its buffers and of its indirect tables, and the
backend translates them with `gpa_to_hvm_va`, which is an offset and nothing else. So what the
backend works on lies in the mapping of the guest's memory exactly when the guest chose a range of
its own memory.
-/

namespace Minos.Virtio

open ByteMem

namespace MvmVm

/-- `[base, base + len)` lies in the mapping of the guest's memory. -/
def InMapping (vm : MvmVm) (base len : ℕ) : Prop :=
  vm.mmap ≤ base ∧ base + len ≤ vm.mmap + vm.memSize

/-- `[gpa, gpa + len)` lies in the memory of the guest. -/
def InGuest (vm : MvmVm) (gpa len : ℕ) : Prop :=
  vm.memStart ≤ gpa ∧ gpa + len ≤ vm.memStart + vm.memSize

instance (vm : MvmVm) (base len : ℕ) : Decidable (vm.InMapping base len) :=
  inferInstanceAs (Decidable (_ ∧ _))

/-- The offset keeps ranges inside of the guest's memory inside, and those outside outside. -/
lemma inMapping_gpaToHvmVa (vm : MvmVm) {gpa : ℕ} (hgpa : gpa < 2 ^ 64) (len : ℕ) :
    vm.InMapping (vm.gpaToHvmVa gpa) len ↔ vm.InGuest gpa len := by
  have h₁ := vm.mmap_lt
  have h₂ := vm.memStart_lt
  rw [InMapping, InGuest, gpaToHvmVa, add64, sub64]
  omega

/-- The buffer or table of a descriptor, as the backend sees it. -/
def image (vm : MvmVm) (d : VringDesc) : Iovec := ⟨vm.gpaToHvmVa d.addr, d.len⟩

end MvmVm

/-! ### Descriptors of a queue -/

/-- `d` is in the descriptor table of the queue. -/
def InTable (m : Bytes) (vq : VirtQueue) (d : VringDesc) : Prop :=
  ∃ i < vq.num, d = tableDesc m vq.desc i

/-- `d` is in an indirect table that a descriptor of the queue refers to. -/
def InIndirect (vm : MvmVm) (m : Bytes) (vq : VirtQueue) (d : VringDesc) : Prop :=
  ∃ o, InTable m vq o ∧ o.flags &&& VRING_DESC_F_INDIRECT ≠ 0 ∧
    ∃ j < o.len / 16, d = tableDesc m (vm.gpaToHvmVa o.addr) j

lemma descAt_addr_lt (m : Bytes) (a : ℕ) : (descAt m a).addr < 2 ^ 64 := read_lt m 8 a

/-- The entries stored into the iov satisfy `P`, the tables opened satisfy `Q`, and the iov holds
what it held before or an entry that was stored. -/
structure Fetch.Sound (P Q : Iovec → Prop) (iov : ℕ → Iovec) (f : Fetch) : Prop where
  stored : ∀ e ∈ f.stored, P e
  tables : ∀ t ∈ f.tables, Q t
  iov : ∀ k, f.iov k = iov k ∨ f.iov k ∈ f.stored

namespace Fetch.Sound

variable {P Q : Iovec → Prop} {iov : ℕ → Iovec} {f : Fetch} {vm : MvmVm} {d : VringDesc}

lemma translate (h : f.Sound P Q iov) (hd : P (vm.image d)) (index iovSize : ℕ) :
    (translateDesc vm d index iovSize f).Sound P Q iov := by
  unfold translateDesc
  split_ifs
  · exact h
  · refine ⟨?_, h.tables, fun k => ?_⟩
    · simp only [List.forall_mem_cons]
      exact ⟨hd, h.stored⟩
    · rcases eq_or_ne k index with rfl | hk
      · simp
      · rcases h.iov k with hk' | hk'
        · simp [hk, hk']
        · simp [hk, hk']

lemma count (h : f.Sound P Q iov) (d : VringDesc) : (f.count d).Sound P Q iov := by
  unfold Fetch.count
  split_ifs
  · exact ⟨h.stored, h.tables, h.iov⟩
  · exact ⟨h.stored, h.tables, h.iov⟩

end Fetch.Sound

variable {P Q : Iovec → Prop} {iov : ℕ → Iovec} {vm : MvmVm} {m : Bytes}

/-- Every round of the loop stores the buffer of one entry of the indirect table. -/
lemma getIndirectLoop_sound {desc : VringDesc} {inDesc nrIn iovSize oldIndex index next : ℕ}
    {f : Fetch} (hP : ∀ j < nrIn, P (vm.image (tableDesc m inDesc j))) (hnext : next < nrIn)
    (h : f.Sound P Q iov) :
    (getIndirectLoop vm m desc inDesc nrIn iovSize oldIndex index next f).2.Sound P Q iov := by
  fun_induction getIndirectLoop vm m desc inDesc nrIn iovSize oldIndex index next f with
  | case1 => exact h
  | case2 => exact (h.translate (hP _ hnext) _ _).count _
  | case3 => exact (h.translate (hP _ hnext) _ _).count _
  | case4 => exact (h.translate (hP _ hnext) _ _).count _
  | case5 index next f vd _ f' _ next' _ hlt ih =>
    exact ih (by omega) ((h.translate (hP _ hnext) _ _).count _)

lemma getIndirectBuf_sound {desc : VringDesc} {index iovSize : ℕ} {f : Fetch}
    (hP : ∀ j < desc.len / 16, P (vm.image (tableDesc m (vm.gpaToHvmVa desc.addr) j)))
    (hQ : Q (vm.image desc)) (h : f.Sound P Q iov) :
    (getIndirectBuf vm m desc index iovSize f).2.Sound P Q iov := by
  simp only [getIndirectBuf]
  split_ifs with hlen
  · exact h
  · refine getIndirectLoop_sound hP (by omega) ⟨h.stored, ?_, h.iov⟩
    simp only [List.forall_mem_cons]
    exact ⟨hQ, h.tables⟩

/-- The table of an indirect descriptor, and the buffers in it. -/
lemma getIndirectBuf_inTable {vq : VirtQueue} {d : VringDesc} {index iovSize : ℕ} {f : Fetch}
    (hP : ∀ d, InTable m vq d ∨ InIndirect vm m vq d → P (vm.image d))
    (hQ : ∀ d, InTable m vq d → Q (vm.image d)) (hd : InTable m vq d)
    (hi : d.flags &&& VRING_DESC_F_INDIRECT ≠ 0) (h : f.Sound P Q iov) :
    (getIndirectBuf vm m d index iovSize f).2.Sound P Q iov :=
  getIndirectBuf_sound (fun j hj => hP _ (Or.inr ⟨d, hd, hi, j, hj, rfl⟩)) (hQ d hd) h

/-- Every round of the loop takes one descriptor of the table, and the table that it refers to. -/
lemma getDescsLoop_sound {vq : VirtQueue} {iovSize i iovIndex : ℕ} {f : Fetch}
    (hP : ∀ d, InTable m vq d ∨ InIndirect vm m vq d → P (vm.image d))
    (hQ : ∀ d, InTable m vq d → Q (vm.image d)) (h : f.Sound P Q iov) :
    (getDescsLoop vm m vq iovSize i iovIndex f).2.Sound P Q iov := by
  fun_induction getDescsLoop vm m vq iovSize i iovIndex f with
  | case1 => exact h
  | case2 => exact h
  | case3 i iovIndex f _ hi desc hind r _ =>
    exact getIndirectBuf_inTable hP hQ ⟨i, by omega, rfl⟩ hind h
  | case4 i iovIndex f _ hi desc hind r _ _ =>
    exact getIndirectBuf_inTable hP hQ ⟨i, by omega, rfl⟩ hind h
  | case5 i iovIndex f _ hi desc hind r _ next _ ih =>
    exact ih (getIndirectBuf_inTable hP hQ ⟨i, by omega, rfl⟩ hind h)
  | case6 i iovIndex f _ hi desc _ f' _ =>
    exact (h.translate (hP desc (Or.inl ⟨i, by omega, rfl⟩)) _ _).count _
  | case7 i iovIndex f _ hi desc _ f' next _ ih =>
    exact ih ((h.translate (hP desc (Or.inl ⟨i, by omega, rfl⟩)) _ _).count _)

lemma virtqGetDescs_sound {vq : VirtQueue} (iov : ℕ → Iovec) (iovSize inNum outNum : ℕ)
    (hP : ∀ d, InTable m vq d ∨ InIndirect vm m vq d → P (vm.image d))
    (hQ : ∀ d, InTable m vq d → Q (vm.image d)) :
    (virtqGetDescs vm m vq iov iovSize inNum outNum).2.2.Sound P Q iov := by
  have h : ∀ inNum outNum, (Fetch.mk iov inNum outNum [] []).Sound P Q iov := fun _ _ =>
    ⟨by simp, by simp, fun k => Or.inl rfl⟩
  simp only [virtqGetDescs]
  split_ifs
  · exact h _ _
  · exact h _ _
  · exact h _ _
  · exact getDescsLoop_sound hP hQ (h 0 0)
  · exact getDescsLoop_sound hP hQ (h 0 0)

/-! ### Everything that the backend takes from a guest -/

/-- `e` is where the backend sees the range of the descriptor `d`, and it lies in the mapping
exactly when the guest named a range of its memory. -/
def Translated (vm : MvmVm) (d : VringDesc) (e : Iovec) : Prop :=
  e = vm.image d ∧ (vm.InMapping e.iovBase e.iovLen ↔ vm.InGuest d.addr d.len)

lemma translated_image (vm : MvmVm) (m : Bytes) (a : ℕ) :
    Translated vm (descAt m a) (vm.image (descAt m a)) :=
  ⟨rfl, vm.inMapping_gpaToHvmVa (descAt_addr_lt m a) _⟩

/-- The pointer `p` of a queue is in the mapping exactly when the address in its two registers is
in the memory of the guest. -/
def RegTranslated (vm : MvmVm) (reg : ℕ → ℕ) (high low p : ℕ) : Prop :=
  vm.InMapping p 1 ↔ vm.InGuest (u32ToU64 (reg high) (reg low)) 1

lemma u32ToU64_lt {high low : ℕ} (hh : high < 2 ^ 32) (hl : low < 2 ^ 32) :
    u32ToU64 high low < 2 ^ 64 := by
  refine Nat.or_lt_two_pow ?_ (by omega)
  rw [Nat.shiftLeft_eq]
  omega

lemma MmioState.reg_lt (s : MmioState) (d : Vdev) (off : ℕ) : s.reg d off < 2 ^ 32 := read_lt _ 4 _

lemma regTranslated (vm : MvmVm) (s : MmioState) (d : Vdev) (high low : ℕ) :
    RegTranslated vm (s.reg d) high low
      (vm.gpaToHvmVa (u32ToU64 (s.reg d high) (s.reg d low))) :=
  vm.inMapping_gpaToHvmVa (u32ToU64_lt (s.reg_lt d _) (s.reg_lt d _)) 1

/-- A guest with 64MiB at `0x80000000`, mapped at `0x10000000`. -/
def mvmVm : MvmVm := ⟨0x10000000, 0x80000000, 0x4000000, by decide, by decide⟩

/-- A queue with its descriptors at the start of the guest's memory and its avail ring one page
further. -/
def ringQueue : VirtQueue :=
  { ready := true, num := 64, iovecSize := 64, desc := 0x10000000, avail := 0x10001000,
    used := 0x10002000, lastAvailIdx := 0, availIdx := 0, lastUsedIdx := 0, usedFlags := 0,
    signalledUsed := 0, signalledUsedValid := 0, vqIndex := 0, iovec := fun _ => ⟨0, 0⟩,
    callback := some .virtioBlkNotify }

/-- One descriptor is available, with the address 0, the length 16 and the given flags. -/
def ringAtZero (flags : UInt8) : Bytes := fun a =>
  if a = 0x10000008 then 16 else if a = 0x1000000c then flags else if a = 0x10001002 then 1 else 0

end Minos.Virtio
