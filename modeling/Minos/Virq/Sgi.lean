import Mathlib
import Minos.Lib.Bitmap
import Minos.Lib.PackedWord

/-!
# Software generated interrupts

A guest sends an SGI with a write to a register of its interrupt controller. The two versions of the
controller decode the register to a set of cpus, and the SGI goes to the vcpus with these numbers.
-/

namespace Minos.Virq

open Bitmap PackedWord

/-- `CONFIG_NR_CPUS` and `CONFIG_NR_CPUS_CLUSTER0`, for more than one cpu: with one cpu
`for_each_cpu` does not look at the mask. -/
structure CpuConfig where
  nrCpus : ℕ
  cluster0 : ℕ
  several : 1 < nrCpus

/-- The vcpu that writes the register, its VM, and the pcpu it runs on. A VM has at most
`VM_MAX_VCPU` vcpus, which is `CONFIG_NR_CPUS`. -/
structure Sender (C : CpuConfig) where
  vcpuNr : ℕ
  vcpuId : ℕ
  smpProcessorId : ℕ
  exists_id : vcpuId < vcpuNr
  vcpuNr_le : vcpuNr ≤ C.nrCpus
  smpProcessorId_lt : smpProcessorId < C.nrCpus

/-- `sgi_mode_t` -/
inductive SgiMode where
  | toList
  | toOthers
  | toSelf
deriving DecidableEq, Repr

section Model

variable (C : CpuConfig)

/-! ### Cpu masks -/

/-- `nr_cpumask_bits`: the bits that a mask has room for -/
def nrCpumaskBits : ℕ := (C.nrCpus + 63) / 64 * 64

/-- `cpumask_set_cpu`. A bit that the mask has no room for is written over other memory. -/
def cpumaskSetCpu (mask : Bitmap) (cpu : ℕ) : Option Bitmap :=
  if cpu < nrCpumaskBits C then some (setBit mask cpu) else none

/-- A mask of the cpus in the list. -/
def cpumaskOf (cpus : List ℕ) : Option Bitmap := cpus.foldlM (cpumaskSetCpu C) fun _ => false

/-- `for_each_cpu` -/
def forEachCpu (mask : Bitmap) : List ℕ := (List.range C.nrCpus).filter mask

/-- `for_each_set_bit` -/
def forEachSetBit {w : ℕ} (value : BitVec w) (size : ℕ) : List ℕ :=
  (List.range size).filter fun bit => value.getLsbD bit

/-! ### Sending -/

variable {C} (vcpu : Sender C)

/-- `get_vcpu_in_vm` -/
def getVcpuInVm (vcpuId : ℕ) : Option ℕ := if vcpu.vcpuNr ≤ vcpuId then none else some vcpuId

/-- `send_virq_to_vcpu`, with the virqs that were sent. It reads the VM from the vcpu, and nothing
is there for `NULL`. -/
def sendVirqToVcpu (target : Option ℕ) (virq : ℕ) (sent : List (ℕ × ℕ)) : Option (List (ℕ × ℕ)) :=
  target.map fun v => sent ++ [(v, virq)]

/-- The last loop of both functions. -/
def sendToMask (sgi : ℕ) (mask : Bitmap) : Option (List (ℕ × ℕ)) :=
  (forEachCpu C mask).foldlM (fun sent bit => sendVirqToVcpu (getVcpuInVm vcpu bit) sgi sent) []

/-- The vcpus other than the sender. -/
def otherVcpus : List ℕ := (List.range vcpu.vcpuNr).filter fun bit => bit ≠ vcpu.vcpuId

def vgicv2SgiMode (sgiValue : BitVec 32) : Option SgiMode :=
  match (sgiValue >>> 24 &&& 0x3#32).toNat with
  | 0 => some .toList
  | 1 => some .toOthers
  | 2 => some .toSelf
  | _ => none

/-- `vgicv2_send_sgi` -/
def vgicv2SendSgi (sgiValue : BitVec 32) : Option (List (ℕ × ℕ)) :=
  let list := sgiValue >>> 16 &&& 0xff#32
  let sgi := (sgiValue &&& 0xf#32).toNat
  match vgicv2SgiMode sgiValue with
  | none => some []
  | some .toList => (cpumaskOf C (forEachSetBit list 8)).bind (sendToMask vcpu sgi)
  | some .toOthers => (cpumaskOf C (otherVcpus vcpu)).bind (sendToMask vcpu sgi)
  | some .toSelf => (cpumaskOf C [vcpu.smpProcessorId]).bind (sendToMask vcpu sgi)

/-- `affinity_to_logic_cpu` -/
def affinityToLogicCpu (C : CpuConfig) (_aff3 _aff2 aff1 aff0 : ℕ) : ℕ := aff1 * C.cluster0 + aff0

def vgicv3SgiMode (sgiValue : BitVec 64) : SgiMode :=
  if sgiValue &&& 1#64 <<< 40 ≠ 0 then .toOthers else .toList

/-- The cpus that the target list names. -/
def vgicv3Named (C : CpuConfig) (sgiValue : BitVec 64) : List ℕ :=
  let tmp := sgiValue &&& 0xffff#64
  let aff3 := ((sgiValue &&& 0xff#64 <<< 48) >>> 48).toNat
  let aff2 := ((sgiValue &&& 0xff#64 <<< 32) >>> 32).toNat
  let aff1 := ((sgiValue &&& 0xff#64 <<< 16) >>> 16).toNat
  (forEachSetBit tmp 16).map fun bit => affinityToLogicCpu C aff3 aff2 aff1 bit

def vgicv3Sgi (sgiValue : BitVec 64) : ℕ := ((sgiValue &&& 0xf#64 <<< 24) >>> 24).toNat

/-- `vgicv3_send_sgi`. The mode is never `SGI_TO_SELF`, and no SGI number is out of range. -/
def vgicv3SendSgi (sgiValue : BitVec 64) : Option (List (ℕ × ℕ)) :=
  let sgi := vgicv3Sgi sgiValue
  if 16 ≤ sgi then some []
  else
    match vgicv3SgiMode sgiValue with
    | .toList => (cpumaskOf C (vgicv3Named C sgiValue)).bind (sendToMask vcpu sgi)
    | .toOthers => (cpumaskOf C (otherVcpus vcpu)).bind (sendToMask vcpu sgi)
    | .toSelf => (cpumaskOf C [vcpu.smpProcessorId]).bind (sendToMask vcpu sgi)

end Model

/-! ### Masks and loops -/

section Masks

variable {C : CpuConfig} {vcpu : Sender C}

lemma nrCpus_le_nrCpumaskBits (C : CpuConfig) :
    C.nrCpus ≤ nrCpumaskBits C ∧ 64 ≤ nrCpumaskBits C := by
  have := C.several
  rw [nrCpumaskBits]
  omega

lemma foldlM_cpumaskSetCpu (cpus : List ℕ) (mask : Bitmap) :
    cpus.foldlM (cpumaskSetCpu C) mask =
      if ∀ cpu ∈ cpus, cpu < nrCpumaskBits C then some fun i => decide (i ∈ cpus) || mask i
      else none := by
  induction cpus generalizing mask with
  | nil => simp
  | cons cpu cpus ih =>
    rw [List.foldlM_cons, cpumaskSetCpu]
    by_cases hcpu : cpu < nrCpumaskBits C
    · rw [if_pos hcpu, Option.bind_eq_bind, Option.bind_some, ih]
      simp only [List.mem_cons, forall_eq_or_imp, hcpu, true_and]
      congr 2
      funext i
      by_cases hi : i = cpu
      · simp [hi, setBit]
      · simp [hi, setBit]
    · rw [if_neg hcpu, if_neg (fun hall => hcpu (hall cpu (List.mem_cons_self ..)))]
      rfl

lemma cpumaskOf_eq (cpus : List ℕ) :
    cpumaskOf C cpus =
      if ∀ cpu ∈ cpus, cpu < nrCpumaskBits C then some fun i => decide (i ∈ cpus) else none := by
  rw [cpumaskOf, foldlM_cpumaskSetCpu]
  simp

lemma foldlM_sendVirqToVcpu (sgi : ℕ) (cpus : List ℕ) (sent : List (ℕ × ℕ)) :
    cpus.foldlM (fun sent bit => sendVirqToVcpu (getVcpuInVm vcpu bit) sgi sent) sent =
      if ∀ cpu ∈ cpus, cpu < vcpu.vcpuNr then some (sent ++ cpus.map fun cpu => (cpu, sgi))
      else none := by
  induction cpus generalizing sent with
  | nil => simp
  | cons cpu cpus ih =>
    rw [List.foldlM_cons, sendVirqToVcpu, getVcpuInVm]
    by_cases hcpu : cpu < vcpu.vcpuNr
    · rw [if_neg (not_le.2 hcpu), Option.map_some, Option.bind_eq_bind, Option.bind_some, ih]
      simp [hcpu]
    · rw [if_pos (not_lt.1 hcpu), if_neg (fun hall => hcpu (hall cpu (List.mem_cons_self ..)))]
      rfl

/-- The SGI goes to the vcpus in `A` and to no others, once to each. -/
def ReachesExactly (sent : Option (List (ℕ × ℕ))) (sgi : ℕ) (A : ℕ → Prop) : Prop :=
  ∃ l, sent = some l ∧ l.Nodup ∧ ∀ v virq, (v, virq) ∈ l ↔ A v ∧ virq = sgi

/-- A mask reaches the right vcpus if it has room for its cpus, names no cpu for which there is no
vcpu, and names the right ones. -/
lemma reachesExactly_iff {sgi : ℕ} {cpus : List ℕ} {A : ℕ → Prop}
    (hA : ∀ v, A v → v < vcpu.vcpuNr) :
    ReachesExactly ((cpumaskOf C cpus).bind (sendToMask vcpu sgi)) sgi A ↔
      (∀ cpu ∈ cpus, cpu < vcpu.vcpuNr ∨ C.nrCpus ≤ cpu ∧ cpu < nrCpumaskBits C) ∧
        ∀ v < vcpu.vcpuNr, v ∈ cpus ↔ A v := by
  have hroom := (nrCpus_le_nrCpumaskBits C).1
  have hle := vcpu.vcpuNr_le
  have hmem : ∀ cpu, cpu ∈ forEachCpu C (fun i => decide (i ∈ cpus)) ↔
      cpu < C.nrCpus ∧ cpu ∈ cpus := by simp [forEachCpu]
  rw [cpumaskOf_eq]
  constructor
  · rintro ⟨l, heq, -, hl⟩
    split_ifs at heq with hall
    · rw [Option.bind_some, sendToMask, foldlM_sendVirqToVcpu] at heq
      split_ifs at heq with hex
      cases heq
      refine ⟨fun cpu hcpu => ?_, fun v hv => ?_⟩
      · by_cases hnr : cpu < C.nrCpus
        · exact Or.inl (hex cpu ((hmem cpu).2 ⟨hnr, hcpu⟩))
        · exact Or.inr ⟨not_lt.1 hnr, hall cpu hcpu⟩
      · have := hl v sgi
        simp only [List.nil_append, List.mem_map, hmem, Prod.mk.injEq, and_true,
          exists_eq_right] at this
        rw [← this]
        exact ⟨fun h => ⟨by omega, h⟩, fun h => h.2⟩
    · cases heq
  · rintro ⟨hcpus, hiff⟩
    rw [if_pos, Option.bind_some, sendToMask, foldlM_sendVirqToVcpu, if_pos]
    · refine ⟨_, rfl, ?_, fun v virq => ?_⟩
      · rw [List.nil_append]
        exact (List.nodup_range.filter _).map fun a b hab => (Prod.mk.inj hab).1
      · simp only [List.nil_append, List.mem_map, hmem, Prod.mk.injEq]
        constructor
        · rintro ⟨cpu, ⟨hnr, hcpu⟩, rfl, rfl⟩
          have hlt := (hcpus cpu hcpu).resolve_right fun h => by omega
          exact ⟨(hiff cpu hlt).1 hcpu, rfl⟩
        · rintro ⟨hv, rfl⟩
          exact ⟨v, ⟨lt_of_lt_of_le (hA v hv) hle, (hiff v (hA v hv)).2 hv⟩, rfl, rfl⟩
    · intro cpu hcpu
      obtain ⟨hnr, hcpu⟩ := (hmem cpu).1 hcpu
      exact (hcpus cpu hcpu).resolve_right fun h => by omega
    · intro cpu hcpu
      rcases hcpus cpu hcpu with h | h <;> omega

end Masks

/-! ### Which vcpus a guest addresses -/

section Addressed

variable {C : CpuConfig} (vcpu : Sender C)

/-- The vcpus that a write to `GICD_SGIR` is meant for. -/
def Vgicv2Addressed (sgiValue : BitVec 32) (v : ℕ) : Prop :=
  v < vcpu.vcpuNr ∧
    match vgicv2SgiMode sgiValue with
    | none => False
    | some .toList => v < 8 ∧ sgiValue.getLsbD (16 + v) = true
    | some .toOthers => v ≠ vcpu.vcpuId
    | some .toSelf => v = vcpu.vcpuId

/-- The vcpus that a write to the SGI register of the newer version is meant for. -/
def Vgicv3Addressed (sgiValue : BitVec 64) (v : ℕ) : Prop :=
  v < vcpu.vcpuNr ∧
    if sgiValue.getLsbD 40 then v ≠ vcpu.vcpuId
    else ∃ bit < 16, sgiValue.getLsbD bit = true ∧
      affinityToLogicCpu C (sgiValue.extractLsb' 48 8).toNat (sgiValue.extractLsb' 32 8).toNat
        (sgiValue.extractLsb' 16 8).toNat bit = v

/-- The list names existing vcpus only, and a vcpu that addresses itself runs on the pcpu with its
own number. -/
def Vgicv2SgiNamesVcpus (sgiValue : BitVec 32) : Prop :=
  match vgicv2SgiMode sgiValue with
  | some .toList =>
    ∀ bit < 8, sgiValue.getLsbD (16 + bit) = true → bit < C.nrCpus → bit < vcpu.vcpuNr
  | some .toSelf => vcpu.smpProcessorId = vcpu.vcpuId
  | _ => True

/-- The list names existing vcpus, or numbers beyond the cpus for which the mask still has room. -/
def Vgicv3SgiNamesVcpus (sgiValue : BitVec 64) : Prop :=
  sgiValue.getLsbD 40 = false → ∀ bit < 16, sgiValue.getLsbD bit = true →
    let cpu := affinityToLogicCpu C (sgiValue.extractLsb' 48 8).toNat
      (sgiValue.extractLsb' 32 8).toNat (sgiValue.extractLsb' 16 8).toNat bit
    cpu < vcpu.vcpuNr ∨ C.nrCpus ≤ cpu ∧ cpu < nrCpumaskBits C

end Addressed

/-! ### The decoded fields -/

section Decode

variable {C : CpuConfig} {vcpu : Sender C}

lemma mem_forEachSetBit {w bit size : ℕ} {value : BitVec w} :
    bit ∈ forEachSetBit value size ↔ bit < size ∧ value.getLsbD bit = true := by
  simp [forEachSetBit]

lemma mem_vgicv2List {sgiValue : BitVec 32} {bit : ℕ} :
    bit ∈ forEachSetBit (sgiValue >>> 16 &&& 0xff#32) 8 ↔
      bit < 8 ∧ sgiValue.getLsbD (16 + bit) = true := by
  rw [mem_forEachSetBit]
  refine and_congr_right fun hbit => ?_
  have hmask : (0xff#32).getLsbD bit = true := by
    interval_cases bit <;> rfl
  rw [BitVec.getLsbD_and, hmask, Bool.and_true, BitVec.getLsbD_ushiftRight]

lemma mem_otherVcpus {v : ℕ} : v ∈ otherVcpus vcpu ↔ v < vcpu.vcpuNr ∧ v ≠ vcpu.vcpuId := by
  simp [otherVcpus]

lemma vgicv3SgiMode_eq (sgiValue : BitVec 64) :
    vgicv3SgiMode sgiValue = if sgiValue.getLsbD 40 then .toOthers else .toList := by
  rw [vgicv3SgiMode, ← BitVec.twoPow_eq, BitVec.and_twoPow]
  cases sgiValue.getLsbD 40
  · simp
  · simp only [if_true]
    exact if_pos (by decide)

/-- Masking and shifting take a field out of the value. -/
lemma field_eq_extractLsb' (value : BitVec 64) (start len : ℕ) (h : start + len ≤ 64) :
    ((value &&& (BitVec.allOnes len).setWidth 64 <<< start) >>> start).toNat =
      (value.extractLsb' start len).toNat := by
  rw [and_mask_shiftRight _ _ _ h, toNat_extractLsb'_setWidth _ _ _ (by omega)]

lemma mem_vgicv3Named {sgiValue : BitVec 64} {cpu : ℕ} :
    cpu ∈ vgicv3Named C sgiValue ↔ ∃ bit < 16, sgiValue.getLsbD bit = true ∧
      affinityToLogicCpu C (sgiValue.extractLsb' 48 8).toNat (sgiValue.extractLsb' 32 8).toNat
        (sgiValue.extractLsb' 16 8).toNat bit = cpu := by
  simp only [vgicv3Named, List.mem_map, mem_forEachSetBit]
  have hfield := fun start h => field_eq_extractLsb' sgiValue start 8 h
  rw [show (BitVec.allOnes 8).setWidth 64 = 0xff#64 from rfl] at hfield
  rw [hfield 48 (by norm_num), hfield 32 (by norm_num), hfield 16 (by norm_num)]
  refine exists_congr fun bit => ?_
  rw [and_assoc]
  refine and_congr_right fun hbit => and_congr_left' ?_
  have hmask : (0xffff#64).getLsbD bit = true := by
    interval_cases bit <;> rfl
  rw [BitVec.getLsbD_and, hmask, Bool.and_true]

lemma vgicv3Sgi_eq (sgiValue : BitVec 64) :
    vgicv3Sgi sgiValue = (sgiValue.extractLsb' 24 4).toNat := by
  rw [vgicv3Sgi, ← field_eq_extractLsb' sgiValue 24 4 (by norm_num)]
  rfl

lemma vgicv2Sgi_eq (sgiValue : BitVec 32) :
    (sgiValue &&& 0xf#32).toNat = (sgiValue.extractLsb' 0 4).toNat := by
  rw [BitVec.toNat_and, BitVec.extractLsb'_toNat, Nat.shiftRight_zero]
  exact Nat.and_two_pow_sub_one_eq_mod _ 4

end Decode

/-! ### Routing -/

section Routing

variable {C : CpuConfig} (vcpu : Sender C)

lemma vgicv2SendSgi_iff (sgiValue : BitVec 32) :
    ReachesExactly (vgicv2SendSgi vcpu sgiValue) (sgiValue.extractLsb' 0 4).toNat
        (Vgicv2Addressed vcpu sgiValue) ↔
      Vgicv2SgiNamesVcpus vcpu sgiValue := by
  have hle := vcpu.vcpuNr_le
  obtain ⟨hroom, h64⟩ := nrCpus_le_nrCpumaskBits C
  have hexists : ∀ v, Vgicv2Addressed vcpu sgiValue v → v < vcpu.vcpuNr := fun v h => h.1
  rw [vgicv2SendSgi, vgicv2Sgi_eq, Vgicv2SgiNamesVcpus]
  rcases hmode : vgicv2SgiMode sgiValue with _ | mode
  · have haddressed : ∀ v, ¬ Vgicv2Addressed vcpu sgiValue v := fun v => by
      simp [Vgicv2Addressed, hmode]
    exact iff_of_true ⟨[], rfl, List.nodup_nil, fun v virq => by simp [haddressed]⟩ trivial
  · cases mode with
    | toList =>
      have haddressed : ∀ v, Vgicv2Addressed vcpu sgiValue v ↔
          v < vcpu.vcpuNr ∧ v < 8 ∧ sgiValue.getLsbD (16 + v) = true := fun v => by
        rw [Vgicv2Addressed, hmode]
      refine (reachesExactly_iff hexists).trans ?_
      simp only [haddressed, mem_vgicv2List]
      constructor
      · rintro ⟨hcpus, -⟩ bit hbit hset hnr
        exact (hcpus bit ⟨hbit, hset⟩).resolve_right fun h => by omega
      · refine fun h => ⟨fun cpu hcpu => ?_, fun v hv => (and_iff_right hv).symm⟩
        have := h cpu hcpu.1 hcpu.2
        omega
    | toOthers =>
      have haddressed : ∀ v, Vgicv2Addressed vcpu sgiValue v ↔
          v < vcpu.vcpuNr ∧ v ≠ vcpu.vcpuId := fun v => by rw [Vgicv2Addressed, hmode]
      refine (reachesExactly_iff hexists).trans (iff_of_true ?_ trivial)
      simp only [haddressed, mem_otherVcpus]
      exact ⟨fun cpu hcpu => Or.inl hcpu.1, fun _ _ => trivial⟩
    | toSelf =>
      have haddressed : ∀ v, Vgicv2Addressed vcpu sgiValue v ↔
          v < vcpu.vcpuNr ∧ v = vcpu.vcpuId := fun v => by rw [Vgicv2Addressed, hmode]
      refine (reachesExactly_iff hexists).trans ?_
      have hid := vcpu.exists_id
      simp only [haddressed, List.mem_singleton, forall_eq]
      constructor
      · rintro ⟨-, hv⟩
        exact ((hv _ hid).2 ⟨hid, rfl⟩).symm
      · intro heq
        rw [heq]
        exact ⟨Or.inl hid, fun v hv => (and_iff_right hv).symm⟩

lemma vgicv3SendSgi_iff (sgiValue : BitVec 64) :
    ReachesExactly (vgicv3SendSgi vcpu sgiValue) (sgiValue.extractLsb' 24 4).toNat
        (Vgicv3Addressed vcpu sgiValue) ↔
      Vgicv3SgiNamesVcpus vcpu sgiValue := by
  have hsgi : ¬ 16 ≤ (sgiValue.extractLsb' 24 4).toNat := not_le.2 (BitVec.isLt _)
  have hexists : ∀ v, Vgicv3Addressed vcpu sgiValue v → v < vcpu.vcpuNr := fun v h => h.1
  simp only [vgicv3SendSgi, vgicv3Sgi_eq, if_neg hsgi, vgicv3SgiMode_eq, Vgicv3SgiNamesVcpus]
  cases hmode : sgiValue.getLsbD 40 with
  | true =>
    simp only [if_true, Bool.true_eq_false, false_imp_iff, iff_true]
    rw [reachesExactly_iff hexists]
    refine ⟨fun cpu hcpu => Or.inl (mem_otherVcpus.1 hcpu).1, fun v _ => ?_⟩
    simp only [mem_otherVcpus, Vgicv3Addressed, hmode, if_true]
  | false =>
    simp only [Bool.false_eq_true, if_false, true_imp_iff]
    rw [reachesExactly_iff hexists]
    simp only [mem_vgicv3Named]
    constructor
    · rintro ⟨hcpus, -⟩ bit hbit hset
      exact hcpus _ ⟨bit, hbit, hset, rfl⟩
    · refine fun h => ⟨?_, fun v hv => ?_⟩
      · rintro cpu ⟨bit, hbit, hset, rfl⟩
        exact h bit hbit hset
      · simp only [Vgicv3Addressed, hmode, Bool.false_eq_true, if_false]
        exact (and_iff_right hv).symm

/-- An SGI reaches the vcpus that the guest addressed, and no others, exactly if the target list
names existing vcpus and a vcpu that addresses itself runs on the pcpu with its own number. -/
theorem send_sgi_exact_iff :
    (∀ sgiValue : BitVec 32,
      ReachesExactly (vgicv2SendSgi vcpu sgiValue) (sgiValue.extractLsb' 0 4).toNat
          (Vgicv2Addressed vcpu sgiValue) ↔
        Vgicv2SgiNamesVcpus vcpu sgiValue) ∧
    ∀ sgiValue : BitVec 64,
      ReachesExactly (vgicv3SendSgi vcpu sgiValue) (sgiValue.extractLsb' 24 4).toNat
          (Vgicv3Addressed vcpu sgiValue) ↔
        Vgicv3SgiNamesVcpus vcpu sgiValue :=
  ⟨vgicv2SendSgi_iff vcpu, vgicv3SendSgi_iff vcpu⟩

/-- A VM with two vcpus on a machine with four cpus: the vcpu 0 names the vcpu 2, which is `NULL`,
and on the pcpu 1 it reaches the vcpu 1 in the place of itself. -/
theorem send_sgi_to_null :
    let C : CpuConfig := ⟨4, 4, by decide⟩
    let vcpu : Sender C := ⟨2, 0, 0, by decide, by decide, by decide⟩
    let moved : Sender C := ⟨2, 0, 1, by decide, by decide, by decide⟩
    vgicv2SendSgi vcpu 0x40003#32 = none ∧
    vgicv3SendSgi vcpu 0x3000004#64 = none ∧
    vgicv2SendSgi moved 0x2000003#32 = some [(1, 3)] ∧
    ¬ ReachesExactly (vgicv2SendSgi vcpu 0x40003#32) 3 (Vgicv2Addressed vcpu 0x40003#32) ∧
    ¬ ReachesExactly (vgicv3SendSgi vcpu 0x3000004#64) 3 (Vgicv3Addressed vcpu 0x3000004#64) := by
  intro C vcpu moved
  have hv2 : vgicv2SendSgi vcpu 0x40003#32 = none := by decide +kernel
  have hv3 : vgicv3SendSgi vcpu 0x3000004#64 = none := by decide +kernel
  refine ⟨hv2, hv3, by decide +kernel, ?_, ?_⟩
  · rintro ⟨l, hl, -⟩
    rw [hv2] at hl
    cases hl
  · rintro ⟨l, hl, -⟩
    rw [hv3] at hl
    cases hl

end Routing

end Minos.Virq
