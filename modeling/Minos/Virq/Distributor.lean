import Mathlib
import Minos.Lib.PackedWord
import Minos.Lib.Run
import Minos.Virq.Vgic
import Minos.Virq.Sgi

/-!
# The distributor of the vGICv2

A guest reads and writes the registers of its distributor, and each of them holds a field of several
virtual interrupts. What a field means is in the descriptors: those of the private interrupts belong
to the vcpu that makes the access, those of the SPIs to the VM.
-/

namespace Minos.Virq

open PackedWord Run

/-! ### Registers -/

def GICD_CTLR : ℕ := 0x000
def GICD_TYPER : ℕ := 0x004
def GICD_IGROUPR : ℕ := 0x080
def GICD_IGROUPRN : ℕ := 0x0FC
def GICD_ISENABLER : ℕ := 0x100
def GICD_ISENABLERN : ℕ := 0x17C
def GICD_ICENABLER : ℕ := 0x180
def GICD_ICENABLERN : ℕ := 0x1FC
def GICD_ISPENDR : ℕ := 0x200
def GICD_ICACTIVERN : ℕ := 0x3FC
def GICD_IPRIORITYR : ℕ := 0x400
def GICD_IPRIORITYRN : ℕ := 0x7F8
def GICD_ITARGETSR : ℕ := 0x800
def GICD_ITARGETSR7 : ℕ := 0x81C
def GICD_ITARGETSR8 : ℕ := 0x820
def GICD_ITARGETSRN : ℕ := 0xBF8
def GICD_ICFGR : ℕ := 0xC00
def GICD_ICFGRN : ℕ := 0xCFC
def GICD_SGIR : ℕ := 0xF00
def GICD_ICPIDR2 : ℕ := 0xFE8

/-- The fields of a `virq_desc` that the distributor shows. -/
structure GicdDesc where
  pr : BitVec 8
  type : BitVec 8
  vcpuId : BitVec 8
  hno : ℕ
  enabled : Bool
  hw : Bool
deriving DecidableEq

/-- The calls of the physical interrupt controller. -/
inductive IrqCall where
  | setType (hno : ℕ) (edgeRising : Bool)
  | mask (hno : ℕ)
  | unmask (hno : ℕ)
deriving DecidableEq

/-- `vgicv2_dev` and the descriptors of the VM, with what was asked of the physical controller and
the values written to `GICD_SGIR`. -/
structure Gicd where
  gicdCtlr : BitVec 32
  gicdTyper : BitVec 32
  descs : VirqRef ℕ → GicdDesc
  irqCalls : List IrqCall
  sgis : List (ℕ × BitVec 32)

def Gicd.setDesc (s : Gicd) (d : VirqRef ℕ) (f : GicdDesc → GicdDesc) : Gicd :=
  { s with descs := Function.update s.descs d (f (s.descs d)) }

def Gicd.callIrq (s : Gicd) (hw : Bool) (call : IrqCall) : Gicd :=
  if hw then { s with irqCalls := s.irqCalls ++ [call] } else s

section Model

variable (C : Chip)

/-! ### Fields of one virq -/

/-- `virq_get_type`, `virq_get_pr`, `virq_get_state` and `virq_get_affinity`: a field of the
descriptor, and zero for a virq that the VM does not have. -/
def virqGet (field : GicdDesc → BitVec 32) (s : Gicd) (vcpu virq : ℕ) : BitVec 32 :=
  match getVirqDesc C vcpu virq with
  | none => 0
  | some d => field (s.descs d)

def virqGetType : Gicd → ℕ → ℕ → BitVec 32 := virqGet C fun desc => desc.type.setWidth 32

def virqGetPr : Gicd → ℕ → ℕ → BitVec 32 := virqGet C fun desc => desc.pr.setWidth 32

def virqGetState : Gicd → ℕ → ℕ → BitVec 32 := virqGet C fun desc => if desc.enabled then 1 else 0

def virqGetAffinity : Gicd → ℕ → ℕ → BitVec 32 := virqGet C fun desc => desc.vcpuId.setWidth 32

/-- `virq_set_type` -/
def virqSetType (vcpu virq : ℕ) (value : BitVec 32) (s : Gicd) : Gicd :=
  match getVirqDesc C vcpu virq with
  | none => s
  | some d =>
    if (s.descs d).type.setWidth 32 = value then s
    else
      (s.setDesc d fun desc => { desc with type := value.setWidth 8 }).callIrq (s.descs d).hw
        (.setType (s.descs d).hno (value ≠ 0))

/-- `virq_set_priority` -/
def virqSetPriority (vcpu virq : ℕ) (pr : BitVec 32) (s : Gicd) : Gicd :=
  match getVirqDesc C vcpu virq with
  | none => s
  | some d => s.setDesc d fun desc => { desc with pr := pr.setWidth 8 }

/-- `virq_enable` -/
def virqEnable (vcpu virq : ℕ) (s : Gicd) : Gicd :=
  match getVirqDesc C vcpu virq with
  | none => s
  | some d =>
    let s := s.setDesc d fun desc => { desc with enabled := true }
    if VM_LOCAL_VIRQ_NR < virq then s.callIrq (s.descs d).hw (.unmask (s.descs d).hno) else s

/-- `virq_disable` -/
def virqDisable (vcpu virq : ℕ) (s : Gicd) : Gicd :=
  match getVirqDesc C vcpu virq with
  | none => s
  | some d =>
    let s := s.setDesc d fun desc => { desc with enabled := false }
    if VM_LOCAL_VIRQ_NR < virq then s.callIrq (s.descs d).hw (.mask (s.descs d).hno) else s

/-! ### Reading a register -/

/-- `vgicv2_get_virq_type` -/
def vgicv2GetVirqType (s : Gicd) (vcpu offset : ℕ) : BitVec 32 :=
  let irq := 16 * ((offset - GICD_ICFGR) / 4)
  gather 32 2 16 fun i => virqGetType C s vcpu (irq + i)

/-- `vgicv2_get_virq_affinity` -/
def vgicv2GetVirqAffinity (s : Gicd) (vcpu offset : ℕ) : BitVec 32 :=
  let irq := 4 * ((offset - GICD_ITARGETSR) / 4)
  gather 32 8 4 fun i => 1#32 <<< virqGetAffinity C s vcpu (irq + i)

/-- `vgicv2_get_virq_pr` -/
def vgicv2GetVirqPr (s : Gicd) (vcpu offset : ℕ) : BitVec 32 :=
  let irq := (offset - GICD_IPRIORITYR) / 4 * 4
  gather 32 8 4 fun i => virqGetPr C s vcpu (irq + i)

/-- `vgicv2_get_virq_state` -/
def vgicv2GetVirqState (s : Gicd) (vcpu offset reg : ℕ) : BitVec 32 :=
  let irq := (offset - reg) / 4 * 32
  gather 32 1 32 fun i => virqGetState C s vcpu (irq + i)

/-- `vgicv2_get_virq_mask` -/
def vgicv2GetVirqMask (s : Gicd) (vcpu offset : ℕ) : BitVec 32 :=
  vgicv2GetVirqState C s vcpu offset GICD_ICENABLER

/-- `vgicv2_get_virq_unmask` -/
def vgicv2GetVirqUnmask (s : Gicd) (vcpu offset : ℕ) : BitVec 32 :=
  vgicv2GetVirqState C s vcpu offset GICD_ISENABLER

/-- `vgicv2_read`. The value stays as it is for the other registers. -/
def vgicv2Read (s : Gicd) (vcpu offset : ℕ) (value : BitVec 32) : BitVec 32 :=
  if offset = GICD_CTLR then (if s.gicdCtlr = 0 then 0 else 1)
  else if offset = GICD_TYPER then s.gicdTyper
  else if GICD_IGROUPR ≤ offset ∧ offset ≤ GICD_IGROUPRN then 0xffffffff#32
  else if GICD_ISENABLER ≤ offset ∧ offset ≤ GICD_ISENABLERN then
    vgicv2GetVirqUnmask C s vcpu offset
  else if GICD_ICENABLER ≤ offset ∧ offset ≤ GICD_ICENABLERN then vgicv2GetVirqMask C s vcpu offset
  -- the pending and the active registers
  else if GICD_ISPENDR ≤ offset ∧ offset ≤ GICD_ICACTIVERN ∧ offset % 128 ≤ 0x7C then 0
  else if GICD_IPRIORITYR ≤ offset ∧ offset ≤ GICD_IPRIORITYRN then vgicv2GetVirqPr C s vcpu offset
  else if GICD_ITARGETSR ≤ offset ∧ offset ≤ GICD_ITARGETSR7 then
    gather 32 8 4 fun _ => 1#32 <<< vcpu
  else if GICD_ITARGETSR8 ≤ offset ∧ offset ≤ GICD_ITARGETSRN then
    vgicv2GetVirqAffinity C s vcpu offset
  else if GICD_ICFGR ≤ offset ∧ offset ≤ GICD_ICFGRN then vgicv2GetVirqType C s vcpu offset
  else if offset = GICD_ICPIDR2 then 0x2#32 <<< 4
  else value

/-! ### Writing a register -/

/-- `vgicv2_set_virq_type` -/
def vgicv2SetVirqType (vcpu offset : ℕ) (value : BitVec 32) (s : Gicd) : Gicd :=
  let irq := 16 * ((offset - GICD_ICFGR) / 4)
  (List.range 16).foldl (fun s i => virqSetType C vcpu (irq + i) (value >>> (2 * i) &&& 0x3#32) s)
    s

/-- The case of `GICD_IPRIORITYR` in `vgicv2_write`. The base is a `uint32_t` one below the first
virq, and wraps for the first register. -/
def vgicv2WritePriority (vcpu offset : ℕ) (t : BitVec 32) (s : Gicd) : Gicd :=
  let x := BitVec.ofNat 32 ((offset - GICD_IPRIORITYR) / 4)
  let y := x * 4#32 - 1#32
  let s := virqSetPriority C vcpu (y + 1#32).toNat (t &&& 0x000000ff#32) s
  let s := virqSetPriority C vcpu (y + 2#32).toNat ((t &&& 0x0000ff00#32) >>> 8) s
  let s := virqSetPriority C vcpu (y + 3#32).toNat ((t &&& 0x00ff0000#32) >>> 16) s
  virqSetPriority C vcpu (y + 4#32).toNat ((t &&& 0xff000000#32) >>> 24) s

/-- `vgicv2_write` -/
def vgicv2Write (vcpu offset : ℕ) (value : BitVec 32) (s : Gicd) : Gicd :=
  if offset = GICD_CTLR then { s with gicdCtlr := value }
  else if GICD_ISENABLER ≤ offset ∧ offset ≤ GICD_ISENABLERN then
    let y := (offset - GICD_ISENABLER) / 4 * 32
    (forEachSetBit value 32).foldl (fun s bit => virqEnable C vcpu (y + bit) s) s
  else if GICD_ICENABLER ≤ offset ∧ offset ≤ GICD_ICENABLERN then
    let y := (offset - GICD_ICENABLER) / 4 * 32
    (forEachSetBit value 32).foldl (fun s bit => virqDisable C vcpu (y + bit) s) s
  else if GICD_IPRIORITYR ≤ offset ∧ offset ≤ GICD_IPRIORITYRN then
    vgicv2WritePriority C vcpu offset value s
  else if GICD_ICFGR ≤ offset ∧ offset ≤ GICD_ICFGRN then vgicv2SetVirqType C vcpu offset value s
  else if offset = GICD_SGIR then { s with sgis := s.sgis ++ [(vcpu, value)] }
  else s

/-- The registers that hold a field of each virq. -/
inductive GicdReg where
  | isenabler
  | icenabler
  | ipriorityr
  | icfgr
deriving DecidableEq, Repr

def GicdReg.base : GicdReg → ℕ
  | .isenabler => GICD_ISENABLER
  | .icenabler => GICD_ICENABLER
  | .ipriorityr => GICD_IPRIORITYR
  | .icfgr => GICD_ICFGR

def GicdReg.last : GicdReg → ℕ
  | .isenabler => GICD_ISENABLERN
  | .icenabler => GICD_ICENABLERN
  | .ipriorityr => GICD_IPRIORITYRN
  | .icfgr => GICD_ICFGRN

/-- The virqs of one register. -/
def GicdReg.perWord : GicdReg → ℕ
  | .isenabler => 32
  | .icenabler => 32
  | .ipriorityr => 4
  | .icfgr => 16

/-- A write of a vcpu to the `n`th register of a kind. -/
structure GicdWrite where
  vcpu : ℕ
  reg : GicdReg
  n : ℕ
  value : BitVec 32
  exists_reg : reg.base + 4 * n ≤ reg.last

def gicdStep (s : Gicd) (e : GicdWrite) : Gicd :=
  vgicv2Write C e.vcpu (e.reg.base + 4 * e.n) e.value s

end Model

/-! ### What a write does to the descriptors -/

/-- What a write does to the descriptor of the `i`th virq of the register. -/
def GicdReg.update (reg : GicdReg) (value : BitVec 32) (i : ℕ) (desc : GicdDesc) : GicdDesc :=
  match reg with
  | .isenabler => if value.getLsbD i then { desc with enabled := true } else desc
  | .icenabler => if value.getLsbD i then { desc with enabled := false } else desc
  | .ipriorityr => { desc with pr := value.extractLsb' (8 * i) 8 }
  | .icfgr => { desc with type := (value.extractLsb' (2 * i) 2).setWidth 8 }

namespace GicdReg

variable {reg : GicdReg} {value : BitVec 32} {i : ℕ} {desc : GicdDesc}

lemma update_pr : (reg.update value i desc).pr =
    if reg = .ipriorityr then value.extractLsb' (8 * i) 8 else desc.pr := by
  cases reg with
  | isenabler | icenabler => cases h : value.getLsbD i <;> simp [update, h]
  | ipriorityr | icfgr => simp [update]

lemma update_type : (reg.update value i desc).type =
    if reg = .icfgr then (value.extractLsb' (2 * i) 2).setWidth 8 else desc.type := by
  cases reg with
  | isenabler | icenabler => cases h : value.getLsbD i <;> simp [update, h]
  | ipriorityr | icfgr => simp [update]

lemma update_enabled : (reg.update value i desc).enabled =
    match reg with
    | .isenabler => value.getLsbD i || desc.enabled
    | .icenabler => !value.getLsbD i && desc.enabled
    | _ => desc.enabled := by
  cases reg with
  | isenabler | icenabler => cases h : value.getLsbD i <;> simp [update, h]
  | ipriorityr | icfgr => rfl

end GicdReg

section Writes

variable {C : Chip} {s : Gicd} {vcpu virq : ℕ} {d : VirqRef ℕ}

lemma getVirqDesc_inj {vcpu' virq' : ℕ} (h : getVirqDesc C vcpu virq = some d)
    (h' : getVirqDesc C vcpu' virq' = some d) :
    virq = virq' ∧ (virq < VM_LOCAL_VIRQ_NR → vcpu = vcpu') := by
  simp only [getVirqDesc] at h h'
  split_ifs at h h' <;> grind

@[simp] lemma Gicd.callIrq_descs (hw : Bool) (call : IrqCall) :
    (s.callIrq hw call).descs = s.descs := by
  cases hw <;> rfl

lemma Gicd.setDesc_descs (d' : VirqRef ℕ) (f : GicdDesc → GicdDesc) :
    (s.setDesc d f).descs d' = if d = d' then f (s.descs d') else s.descs d' := by
  simp only [Gicd.setDesc]
  split_ifs with h
  · subst h
    exact Function.update_self ..
  · exact Function.update_of_ne (Ne.symm h) ..

/-- `op` changes the descriptor of the virq by `f`, and no other. -/
def Edits (C : Chip) (vcpu virq : ℕ) (op : Gicd → Gicd) (f : GicdDesc → GicdDesc) : Prop :=
  ∀ s d, (op s).descs d =
    if getVirqDesc C vcpu virq = some d then f (s.descs d) else s.descs d

lemma edits_virqSetType (value : BitVec 32) :
    Edits C vcpu virq (virqSetType C vcpu virq value)
      fun desc => { desc with type := value.setWidth 8 } := by
  intro s d
  rw [virqSetType]
  cases hd : getVirqDesc C vcpu virq with
  | none => simp
  | some d' =>
    simp only [Option.some.injEq]
    split_ifs with htype heq heq
    · subst heq
      rw [← htype, BitVec.setWidth_setWidth_of_le _ (by norm_num), BitVec.setWidth_eq]
    · rfl
    · rw [Gicd.callIrq_descs, Gicd.setDesc_descs, if_pos heq]
    · rw [Gicd.callIrq_descs, Gicd.setDesc_descs, if_neg heq]

lemma edits_virqSetPriority (pr : BitVec 32) :
    Edits C vcpu virq (virqSetPriority C vcpu virq pr)
      fun desc => { desc with pr := pr.setWidth 8 } := by
  intro s d
  rw [virqSetPriority]
  cases hd : getVirqDesc C vcpu virq with
  | none => simp
  | some d' => simp only [Gicd.setDesc_descs, Option.some.injEq]

lemma edits_virqEnable :
    Edits C vcpu virq (virqEnable C vcpu virq) fun desc => { desc with enabled := true } := by
  intro s d
  rw [virqEnable]
  cases hd : getVirqDesc C vcpu virq with
  | none => simp
  | some d' =>
    simp only [apply_ite Gicd.descs, Gicd.callIrq_descs, ite_self, Gicd.setDesc_descs,
      Option.some.injEq]

lemma edits_virqDisable :
    Edits C vcpu virq (virqDisable C vcpu virq) fun desc => { desc with enabled := false } := by
  intro s d
  rw [virqDisable]
  cases hd : getVirqDesc C vcpu virq with
  | none => simp
  | some d' =>
    simp only [apply_ite Gicd.descs, Gicd.callIrq_descs, ite_self, Gicd.setDesc_descs,
      Option.some.injEq]

/-- A loop over some virqs of a register edits the descriptors of these. -/
lemma foldl_edits {base : ℕ} (op : ℕ → Gicd → Gicd) (f : ℕ → GicdDesc → GicdDesc)
    (hop : ∀ i, Edits C vcpu (base + i) (op i) (f i)) {l : List ℕ} (hl : l.Nodup) (s : Gicd) :
    (∀ i ∈ l, getVirqDesc C vcpu (base + i) = some d →
      (l.foldl (fun s i => op i s) s).descs d = f i (s.descs d)) ∧
    ((∀ i ∈ l, getVirqDesc C vcpu (base + i) ≠ some d) →
      (l.foldl (fun s i => op i s) s).descs d = s.descs d) := by
  induction l generalizing s with
  | nil => simp
  | cons a l ih =>
    obtain ⟨ha, hl⟩ := List.nodup_cons.1 hl
    obtain ⟨ihin, ihout⟩ := ih hl (op a s)
    have hstep := hop a s d
    rw [List.foldl_cons]
    refine ⟨fun i hi hd => ?_, fun hall => ?_⟩
    · rcases List.mem_cons.1 hi with rfl | hi
      · rw [ihout, hstep, if_pos hd]
        intro j hj hjd
        have := (getVirqDesc_inj hd hjd).1
        exact ha (by rwa [show i = j by omega])
      · rw [ihin i hi hd, hstep, if_neg]
        intro had
        have := (getVirqDesc_inj had hd).1
        exact ha (by rwa [show a = i by omega])
    · rw [ihout fun i hi => hall i (List.mem_cons_of_mem _ hi), hstep,
        if_neg (hall a (List.mem_cons_self ..))]

/-- A loop over the set bits of a value. -/
lemma foldl_forEachSetBit {base : ℕ} {op : ℕ → Gicd → Gicd} {f : GicdDesc → GicdDesc}
    (hop : ∀ virq, Edits C vcpu virq (op virq) f) (value : BitVec 32) (s : Gicd) {i : ℕ}
    (hi : i < 32) (hd : getVirqDesc C vcpu (base + i) = some d) :
    ((forEachSetBit value 32).foldl (fun s bit => op (base + bit) s) s).descs d =
      if value.getLsbD i then f (s.descs d) else s.descs d := by
  obtain ⟨hin, hout⟩ := foldl_edits (d := d) (fun i => op (base + i)) (fun _ => f)
    (fun i => hop (base + i)) (List.nodup_range.filter fun bit => value.getLsbD bit) s
  split_ifs with hset
  · exact hin i (mem_forEachSetBit.2 ⟨hi, hset⟩) hd
  · refine hout fun j hj hjd => hset ?_
    have := (getVirqDesc_inj hd hjd).1
    rw [show i = j by omega]
    exact (mem_forEachSetBit.1 hj).2

/-! ### The writes to the four kinds of registers -/

lemma vgicv2Write_isenabler {n : ℕ} (hn : GICD_ISENABLER + 4 * n ≤ GICD_ISENABLERN)
    (value : BitVec 32) (s : Gicd) :
    vgicv2Write C vcpu (GICD_ISENABLER + 4 * n) value s =
      (forEachSetBit value 32).foldl (fun s bit => virqEnable C vcpu (32 * n + bit) s) s := by
  simp only [GICD_ISENABLER, GICD_ISENABLERN] at hn
  rw [vgicv2Write, if_neg, if_pos]
  · simp only [GICD_ISENABLER, Nat.add_sub_cancel_left, Nat.mul_div_cancel_left n four_pos,
      Nat.mul_comm n 32]
  · simp only [GICD_ISENABLER, GICD_ISENABLERN]
    omega
  · simp only [GICD_ISENABLER, GICD_CTLR]
    omega

lemma vgicv2Write_icenabler {n : ℕ} (hn : GICD_ICENABLER + 4 * n ≤ GICD_ICENABLERN)
    (value : BitVec 32) (s : Gicd) :
    vgicv2Write C vcpu (GICD_ICENABLER + 4 * n) value s =
      (forEachSetBit value 32).foldl (fun s bit => virqDisable C vcpu (32 * n + bit) s) s := by
  simp only [GICD_ICENABLER, GICD_ICENABLERN] at hn
  rw [vgicv2Write, if_neg, if_neg, if_pos]
  · simp only [GICD_ICENABLER, Nat.add_sub_cancel_left, Nat.mul_div_cancel_left n four_pos,
      Nat.mul_comm n 32]
  · simp only [GICD_ICENABLER, GICD_ICENABLERN]
    omega
  · simp only [GICD_ICENABLER, GICD_ISENABLER, GICD_ISENABLERN]
    omega
  · simp only [GICD_ICENABLER, GICD_CTLR]
    omega

/-- The four bytes of the value go to the priorities of four virqs. -/
lemma vgicv2Write_ipriorityr {n : ℕ} (hn : GICD_IPRIORITYR + 4 * n ≤ GICD_IPRIORITYRN)
    (value : BitVec 32) (s : Gicd) :
    vgicv2Write C vcpu (GICD_IPRIORITYR + 4 * n) value s =
      (List.range 4).foldl (fun s i => virqSetPriority C vcpu (4 * n + i)
        ((value.extractLsb' (8 * i) 8).setWidth 32) s) s := by
  simp only [GICD_IPRIORITYR, GICD_IPRIORITYRN] at hn
  have hvirq : ∀ k ≤ 4, 1 ≤ k →
      (BitVec.ofNat 32 n * 4#32 - 1#32 + BitVec.ofNat 32 k).toNat = 4 * n + (k - 1) := by
    intro k hk h1
    have : BitVec.ofNat 32 n * 4#32 - 1#32 + BitVec.ofNat 32 k =
        BitVec.ofNat 32 (4 * n + (k - 1)) := by
      bv_omega
    rw [this, BitVec.toNat_ofNat, Nat.mod_eq_of_lt (by omega)]
  have hbyte := fun start h => and_mask_shiftRight value start 8 h
  rw [vgicv2Write, if_neg, if_neg, if_neg, if_pos, vgicv2WritePriority]
  · simp only [GICD_IPRIORITYR, Nat.add_sub_cancel_left, Nat.mul_div_cancel_left n four_pos]
    rw [hvirq 1 (by norm_num) le_rfl, hvirq 2 (by norm_num) (by norm_num),
      hvirq 3 (by norm_num) (by norm_num), hvirq 4 le_rfl (by norm_num)]
    have h0 : value &&& 0x000000ff#32 = (value.extractLsb' (8 * 0) 8).setWidth 32 := by
      simpa using hbyte 0 (by norm_num)
    rw [h0, show ((value &&& 0x0000ff00#32) >>> 8) = _ from hbyte 8 (by norm_num),
      show ((value &&& 0x00ff0000#32) >>> 16) = _ from hbyte 16 (by norm_num),
      show ((value &&& 0xff000000#32) >>> 24) = _ from hbyte 24 (by norm_num)]
    rfl
  · simp only [GICD_IPRIORITYR, GICD_IPRIORITYRN]
    omega
  · simp only [GICD_IPRIORITYR, GICD_ICENABLER, GICD_ICENABLERN]
    omega
  · simp only [GICD_IPRIORITYR, GICD_ISENABLER, GICD_ISENABLERN]
    omega
  · simp only [GICD_IPRIORITYR, GICD_CTLR]
    omega

lemma vgicv2Write_icfgr {n : ℕ} (hn : GICD_ICFGR + 4 * n ≤ GICD_ICFGRN) (value : BitVec 32)
    (s : Gicd) :
    vgicv2Write C vcpu (GICD_ICFGR + 4 * n) value s =
      (List.range 16).foldl (fun s i => virqSetType C vcpu (16 * n + i)
        ((value.extractLsb' (2 * i) 2).setWidth 32) s) s := by
  simp only [GICD_ICFGR, GICD_ICFGRN] at hn
  rw [vgicv2Write, if_neg, if_neg, if_neg, if_neg, if_pos, vgicv2SetVirqType]
  · simp only [GICD_ICFGR, Nat.add_sub_cancel_left, Nat.mul_div_cancel_left n four_pos,
      ← shiftRight_and_mask]
    rfl
  · simp only [GICD_ICFGR, GICD_ICFGRN]
    omega
  · simp only [GICD_ICFGR, GICD_IPRIORITYR, GICD_IPRIORITYRN]
    omega
  · simp only [GICD_ICFGR, GICD_ICENABLER, GICD_ICENABLERN]
    omega
  · simp only [GICD_ICFGR, GICD_ISENABLER, GICD_ISENABLERN]
    omega
  · simp only [GICD_ICFGR, GICD_CTLR]
    omega

/-- The descriptors of the virqs of the register. -/
lemma gicdStep_descs_of_mem {e : GicdWrite} {i : ℕ} (hi : i < e.reg.perWord)
    (hd : getVirqDesc C e.vcpu (e.reg.perWord * e.n + i) = some d) :
    (gicdStep C s e).descs d = e.reg.update e.value i (s.descs d) := by
  obtain ⟨vcpu, reg, n, value, hn⟩ := e
  cases reg with
  | isenabler =>
    rw [gicdStep, GicdReg.base, vgicv2Write_isenabler hn]
    exact foldl_forEachSetBit (fun _ => edits_virqEnable) value s hi hd
  | icenabler =>
    rw [gicdStep, GicdReg.base, vgicv2Write_icenabler hn]
    exact foldl_forEachSetBit (fun _ => edits_virqDisable) value s hi hd
  | ipriorityr =>
    rw [gicdStep, GicdReg.base, vgicv2Write_ipriorityr hn]
    refine ((foldl_edits _ _ (fun i => edits_virqSetPriority _) List.nodup_range s).1 i
      (List.mem_range.2 hi) hd).trans ?_
    rw [BitVec.setWidth_setWidth_of_le _ (by norm_num), BitVec.setWidth_eq]
    rfl
  | icfgr =>
    rw [gicdStep, GicdReg.base, vgicv2Write_icfgr hn]
    refine ((foldl_edits _ _ (fun i => edits_virqSetType _) List.nodup_range s).1 i
      (List.mem_range.2 hi) hd).trans ?_
    rw [BitVec.setWidth_setWidth_of_le _ (by norm_num)]
    rfl

/-- All other descriptors stay as they are. -/
lemma gicdStep_descs_of_notMem {e : GicdWrite}
    (hd : ∀ i < e.reg.perWord, getVirqDesc C e.vcpu (e.reg.perWord * e.n + i) ≠ some d) :
    (gicdStep C s e).descs d = s.descs d := by
  obtain ⟨vcpu, reg, n, value, hn⟩ := e
  cases reg with
  | isenabler =>
    rw [gicdStep, GicdReg.base, vgicv2Write_isenabler hn]
    exact (foldl_edits _ _ (fun i => edits_virqEnable) (List.nodup_range.filter _) s).2 fun i hi =>
      hd i (mem_forEachSetBit.1 hi).1
  | icenabler =>
    rw [gicdStep, GicdReg.base, vgicv2Write_icenabler hn]
    exact (foldl_edits _ _ (fun i => edits_virqDisable) (List.nodup_range.filter _) s).2 fun i hi =>
      hd i (mem_forEachSetBit.1 hi).1
  | ipriorityr =>
    rw [gicdStep, GicdReg.base, vgicv2Write_ipriorityr hn]
    exact (foldl_edits _ _ (fun i => edits_virqSetPriority _) List.nodup_range s).2 fun i hi =>
      hd i (List.mem_range.1 hi)
  | icfgr =>
    rw [gicdStep, GicdReg.base, vgicv2Write_icfgr hn]
    exact (foldl_edits _ _ (fun i => edits_virqSetType _) List.nodup_range s).2 fun i hi =>
      hd i (List.mem_range.1 hi)

/-- The write goes to the register that holds the virq, as `v` sees it. -/
def GicdWrite.Hits (e : GicdWrite) (v virq : ℕ) : Prop :=
  virq / e.reg.perWord = e.n ∧ (virq < VM_LOCAL_VIRQ_NR → e.vcpu = v)

instance (e : GicdWrite) (v virq : ℕ) : Decidable (e.Hits v virq) :=
  inferInstanceAs (Decidable (_ ∧ _))

lemma getVirqDesc_of_spi {v : ℕ} (h : virq < VM_LOCAL_VIRQ_NR → vcpu = v) :
    getVirqDesc C vcpu virq = getVirqDesc C v virq := by
  by_cases hlocal : virq < VM_LOCAL_VIRQ_NR
  · rw [h hlocal]
  · simp only [getVirqDesc, if_neg hlocal]

lemma gicdStep_descs (e : GicdWrite) (hd : getVirqDesc C vcpu virq = some d) :
    (gicdStep C s e).descs d =
      if e.Hits vcpu virq then e.reg.update e.value (virq % e.reg.perWord) (s.descs d)
      else s.descs d := by
  have hpos : 0 < e.reg.perWord := by cases e.reg <;> decide
  have hdiv := Nat.div_add_mod virq e.reg.perWord
  split_ifs with hhit
  · rw [hhit.1] at hdiv
    refine gicdStep_descs_of_mem (Nat.mod_lt _ hpos) ?_
    rw [hdiv, getVirqDesc_of_spi hhit.2, hd]
  · refine gicdStep_descs_of_notMem fun i hi hid => hhit ?_
    obtain ⟨rfl, hvcpu⟩ := getVirqDesc_inj hid hd
    exact ⟨by rw [Nat.mul_add_div hpos, Nat.div_eq_of_lt hi, Nat.add_zero], hvcpu⟩

end Writes

/-! ### The last write of a field -/

/-- The priority of the virq that the write sets, as `v` sees it. -/
def GicdWrite.pr (v virq : ℕ) (e : GicdWrite) : Option (BitVec 8) :=
  if e.reg = .ipriorityr ∧ e.Hits v virq then some (e.value.extractLsb' (8 * (virq % 4)) 8)
  else none

def GicdWrite.type (v virq : ℕ) (e : GicdWrite) : Option (BitVec 2) :=
  if e.reg = .icfgr ∧ e.Hits v virq then some (e.value.extractLsb' (2 * (virq % 16)) 2)
  else none

def GicdWrite.enabled (v virq : ℕ) (e : GicdWrite) : Option Bool :=
  if e.Hits v virq ∧ e.value.getLsbD (virq % 32) = true then
    match e.reg with
    | .isenabler => some true
    | .icenabler => some false
    | _ => none
  else none

/-- What the last write of a field left there. -/
def lastWritten {α : Type} (field : GicdWrite → Option α) (init : α) (es : List GicdWrite) : α :=
  es.foldl (fun a e => (field e).getD a) init

section History

variable {C : Chip} {s : Gicd} {vcpu virq : ℕ} {d : VirqRef ℕ}

/-- A field that each write sets as `f` says holds what the last write left. -/
lemma exec_field {α : Type} (field : GicdDesc → α) {f : GicdWrite → Option α}
    (hstep : ∀ s e, field ((gicdStep C s e).descs d) = (f e).getD (field (s.descs d)))
    (s : Gicd) (es : List GicdWrite) :
    field ((exec (gicdStep C) s es).descs d) = lastWritten f (field (s.descs d)) es := by
  induction es generalizing s with
  | nil => rfl
  | cons e es ih => rw [exec_cons, ih, hstep, lastWritten, lastWritten, List.foldl_cons]

lemma gicdStep_pr (hd : getVirqDesc C vcpu virq = some d) (s : Gicd) (e : GicdWrite) :
    ((gicdStep C s e).descs d).pr = (e.pr vcpu virq).getD (s.descs d).pr := by
  rw [gicdStep_descs e hd, GicdWrite.pr]
  by_cases hhit : e.Hits vcpu virq
  · cases hreg : e.reg <;> simp [hhit, GicdReg.update_pr, GicdReg.perWord]
  · simp [hhit]

lemma gicdStep_type (hd : getVirqDesc C vcpu virq = some d) (s : Gicd) (e : GicdWrite) :
    ((gicdStep C s e).descs d).type.setWidth 2 =
      (e.type vcpu virq).getD ((s.descs d).type.setWidth 2) := by
  rw [gicdStep_descs e hd, GicdWrite.type]
  by_cases hhit : e.Hits vcpu virq
  · cases hreg : e.reg <;> simp [hhit, GicdReg.update_type, GicdReg.perWord]
  · simp [hhit]

lemma gicdStep_enabled (hd : getVirqDesc C vcpu virq = some d) (s : Gicd) (e : GicdWrite) :
    ((gicdStep C s e).descs d).enabled = (e.enabled vcpu virq).getD (s.descs d).enabled := by
  rw [gicdStep_descs e hd, GicdWrite.enabled]
  by_cases hhit : e.Hits vcpu virq
  · cases hreg : e.reg <;> cases hset : e.value.getLsbD (virq % 32) <;>
      simp [hhit, GicdReg.update_enabled, GicdReg.perWord, hset]
  · simp [hhit]

/-- The type of a virq always fits its field. -/
def TypesFit (s : Gicd) : Prop := ∀ d, (s.descs d).type.toNat < 2 ^ 2

lemma gicdStep_typesFit (e : GicdWrite) (h : TypesFit s) : TypesFit (gicdStep C s e) := by
  intro d
  by_cases hmem : ∃ i < e.reg.perWord, getVirqDesc C e.vcpu (e.reg.perWord * e.n + i) = some d
  · obtain ⟨i, hi, hd⟩ := hmem
    rw [gicdStep_descs_of_mem hi hd, GicdReg.update_type]
    split_ifs
    · rw [BitVec.toNat_setWidth]
      exact lt_of_le_of_lt (Nat.mod_le _ _) (BitVec.isLt _)
    · exact h d
  · push Not at hmem
    rw [gicdStep_descs_of_notMem hmem]
    exact h d

lemma exec_typesFit (h : TypesFit s) (es : List GicdWrite) : TypesFit (exec (gicdStep C) s es) := by
  induction es generalizing s with
  | nil => exact h
  | cons e es ih => exact ih (gicdStep_typesFit e h)

end History

/-! ### Reading what was written -/

/-- The field of the virq in the register of the kind that holds it, with `width` bits. -/
def readField (C : Chip) (s : Gicd) (vcpu : ℕ) (value : BitVec 32) (reg : GicdReg)
    (width virq : ℕ) : BitVec width :=
  (vgicv2Read C s vcpu (reg.base + 4 * (virq / reg.perWord)) value).extractLsb'
    (width * (virq % reg.perWord)) width

/-- There is a register of the kind that holds the virq. -/
def GicdReg.Has (reg : GicdReg) (virq : ℕ) : Prop := reg.base + 4 * (virq / reg.perWord) ≤ reg.last

section Reads

variable {C : Chip} {s : Gicd} {vcpu virq : ℕ} {value : BitVec 32}

lemma vgicv2Read_isenabler {n : ℕ} (hn : GICD_ISENABLER + 4 * n ≤ GICD_ISENABLERN) :
    vgicv2Read C s vcpu (GICD_ISENABLER + 4 * n) value =
      gather 32 1 32 fun i => virqGetState C s vcpu (32 * n + i) := by
  simp only [GICD_ISENABLER, GICD_ISENABLERN] at hn
  rw [vgicv2Read, if_neg, if_neg, if_neg, if_pos, vgicv2GetVirqUnmask, vgicv2GetVirqState]
  · simp only [Nat.add_sub_cancel_left, Nat.mul_div_cancel_left n four_pos, Nat.mul_comm n 32]
  all_goals
    simp only [GICD_ISENABLER, GICD_ISENABLERN, GICD_IGROUPR, GICD_IGROUPRN, GICD_TYPER, GICD_CTLR]
    omega

lemma vgicv2Read_icenabler {n : ℕ} (hn : GICD_ICENABLER + 4 * n ≤ GICD_ICENABLERN) :
    vgicv2Read C s vcpu (GICD_ICENABLER + 4 * n) value =
      gather 32 1 32 fun i => virqGetState C s vcpu (32 * n + i) := by
  simp only [GICD_ICENABLER, GICD_ICENABLERN] at hn
  rw [vgicv2Read, if_neg, if_neg, if_neg, if_neg, if_pos, vgicv2GetVirqMask, vgicv2GetVirqState]
  · simp only [Nat.add_sub_cancel_left, Nat.mul_div_cancel_left n four_pos, Nat.mul_comm n 32]
  all_goals
    simp only [GICD_ICENABLER, GICD_ICENABLERN, GICD_ISENABLER, GICD_ISENABLERN, GICD_IGROUPR,
      GICD_IGROUPRN, GICD_TYPER, GICD_CTLR]
    omega

lemma vgicv2Read_ipriorityr {n : ℕ} (hn : GICD_IPRIORITYR + 4 * n ≤ GICD_IPRIORITYRN) :
    vgicv2Read C s vcpu (GICD_IPRIORITYR + 4 * n) value =
      gather 32 8 4 fun i => virqGetPr C s vcpu (4 * n + i) := by
  simp only [GICD_IPRIORITYR, GICD_IPRIORITYRN] at hn
  rw [vgicv2Read, if_neg, if_neg, if_neg, if_neg, if_neg, if_neg, if_pos, vgicv2GetVirqPr]
  · simp only [Nat.add_sub_cancel_left, Nat.mul_div_cancel_left n four_pos, Nat.mul_comm n 4]
  all_goals
    simp only [GICD_IPRIORITYR, GICD_IPRIORITYRN, GICD_ICACTIVERN, GICD_ISPENDR, GICD_ICENABLER,
      GICD_ICENABLERN, GICD_ISENABLER, GICD_ISENABLERN, GICD_IGROUPR, GICD_IGROUPRN, GICD_TYPER,
      GICD_CTLR]
    omega

lemma vgicv2Read_icfgr {n : ℕ} (hn : GICD_ICFGR + 4 * n ≤ GICD_ICFGRN) :
    vgicv2Read C s vcpu (GICD_ICFGR + 4 * n) value =
      gather 32 2 16 fun i => virqGetType C s vcpu (16 * n + i) := by
  simp only [GICD_ICFGR, GICD_ICFGRN] at hn
  rw [vgicv2Read, if_neg, if_neg, if_neg, if_neg, if_neg, if_neg, if_neg, if_neg, if_neg, if_pos,
    vgicv2GetVirqType]
  · simp only [Nat.add_sub_cancel_left, Nat.mul_div_cancel_left n four_pos]
  all_goals
    simp only [GICD_ICFGR, GICD_ICFGRN, GICD_ITARGETSR, GICD_ITARGETSR7, GICD_ITARGETSR8,
      GICD_ITARGETSRN, GICD_IPRIORITYR, GICD_IPRIORITYRN, GICD_ICACTIVERN, GICD_ISPENDR,
      GICD_ICENABLER, GICD_ICENABLERN, GICD_ISENABLER, GICD_ISENABLERN, GICD_IGROUPR,
      GICD_IGROUPRN, GICD_TYPER, GICD_CTLR]
    omega

/-- A field of the descriptor is narrow if it is narrow for every descriptor. -/
lemma virqGet_lt {field : GicdDesc → BitVec 32} {width : ℕ}
    (h : ∀ d, (field (s.descs d)).toNat < 2 ^ width) (virq : ℕ) :
    (virqGet C field s vcpu virq).toNat < 2 ^ width := by
  rw [virqGet]
  split
  · exact Nat.two_pow_pos width
  · exact h _

/-- What a register shows of a virq is the field of its descriptor, and zero if it has none. -/
lemma readField_eq {reg : GicdReg} {width : ℕ} (field : GicdDesc → BitVec 32)
    (hread : reg.Has virq → vgicv2Read C s vcpu (reg.base + 4 * (virq / reg.perWord)) value =
      gather 32 width reg.perWord fun i =>
        virqGet C field s vcpu (reg.perWord * (virq / reg.perWord) + i))
    (hroom : width * reg.perWord ≤ 32) (hlt : ∀ d, (field (s.descs d)).toNat < 2 ^ width)
    (hhas : reg.Has virq) :
    readField C s vcpu value reg width virq = (virqGet C field s vcpu virq).setWidth width := by
  have hpos : 0 < reg.perWord := by cases reg <;> decide
  rw [readField, hread hhas, extractLsb'_gather hroom (fun i _ => virqGet_lt hlt _)
    (Nat.mod_lt _ hpos), Nat.div_add_mod]

lemma readField_ipriorityr (hhas : GicdReg.ipriorityr.Has virq) :
    readField C s vcpu value .ipriorityr 8 virq = (virqGetPr C s vcpu virq).setWidth 8 := by
  refine readField_eq (fun desc => desc.pr.setWidth 32) vgicv2Read_ipriorityr (by decide)
    (fun d => ?_) hhas
  rw [BitVec.toNat_setWidth]
  exact lt_of_le_of_lt (Nat.mod_le _ _) (BitVec.isLt _)

lemma readField_icfgr (h : TypesFit s) (hhas : GicdReg.icfgr.Has virq) :
    readField C s vcpu value .icfgr 2 virq = (virqGetType C s vcpu virq).setWidth 2 := by
  refine readField_eq (fun desc => desc.type.setWidth 32) vgicv2Read_icfgr (by decide)
    (fun d => ?_) hhas
  rw [BitVec.toNat_setWidth]
  exact lt_of_le_of_lt (Nat.mod_le _ _) (h d)

lemma state_lt (desc : GicdDesc) :
    (if desc.enabled then 1#32 else 0#32).toNat < 2 ^ 1 := by
  split_ifs <;> decide

lemma readField_isenabler (hhas : GicdReg.isenabler.Has virq) :
    readField C s vcpu value .isenabler 1 virq = (virqGetState C s vcpu virq).setWidth 1 :=
  readField_eq (fun desc => if desc.enabled then 1 else 0) vgicv2Read_isenabler (by decide)
    (fun _ => state_lt _) hhas

lemma readField_icenabler (hhas : GicdReg.icenabler.Has virq) :
    readField C s vcpu value .icenabler 1 virq = (virqGetState C s vcpu virq).setWidth 1 :=
  readField_eq (fun desc => if desc.enabled then 1 else 0) vgicv2Read_icenabler (by decide)
    (fun _ => state_lt _) hhas

end Reads

/-! ### Round trip -/

section RoundTrip

variable {C : Chip}

/-- The registers show of the virq, with the descriptor `d` at first, what was written last. -/
structure ShowsLastWrite (C : Chip) (s : Gicd) (es : List GicdWrite) (vcpu virq : ℕ)
    (value : BitVec 32) (desc : GicdDesc) : Prop where
  priority : GicdReg.ipriorityr.Has virq → readField C s vcpu value .ipriorityr 8 virq =
    lastWritten (GicdWrite.pr vcpu virq) desc.pr es
  type : GicdReg.icfgr.Has virq → readField C s vcpu value .icfgr 2 virq =
    lastWritten (GicdWrite.type vcpu virq) (desc.type.setWidth 2) es
  setEnable : GicdReg.isenabler.Has virq → readField C s vcpu value .isenabler 1 virq =
    BitVec.ofBool (lastWritten (GicdWrite.enabled vcpu virq) desc.enabled es)
  clearEnable : GicdReg.icenabler.Has virq → readField C s vcpu value .icenabler 1 virq =
    BitVec.ofBool (lastWritten (GicdWrite.enabled vcpu virq) desc.enabled es)

/-- The registers show zero for the virq. -/
structure ShowsNothing (C : Chip) (s : Gicd) (vcpu virq : ℕ) (value : BitVec 32) : Prop where
  priority : GicdReg.ipriorityr.Has virq → readField C s vcpu value .ipriorityr 8 virq = 0
  type : GicdReg.icfgr.Has virq → readField C s vcpu value .icfgr 2 virq = 0
  setEnable : GicdReg.isenabler.Has virq → readField C s vcpu value .isenabler 1 virq = 0
  clearEnable : GicdReg.icenabler.Has virq → readField C s vcpu value .icenabler 1 virq = 0

/-- The write sets its own field of the virqs in its register, and nothing else. -/
structure WritesOnly (C : Chip) (s : Gicd) (e : GicdWrite) : Prop where
  outside : ∀ d, (∀ virq, virq / e.reg.perWord = e.n → getVirqDesc C e.vcpu virq ≠ some d) →
    (gicdStep C s e).descs d = s.descs d
  others : ∀ v virq, v ≠ e.vcpu → (gicdStep C s e).descs (.priv v virq) = s.descs (.priv v virq)
  pr : e.reg ≠ .ipriorityr → ∀ d, ((gicdStep C s e).descs d).pr = (s.descs d).pr
  type : e.reg ≠ .icfgr → ∀ d, ((gicdStep C s e).descs d).type = (s.descs d).type
  enabled : e.reg ≠ .isenabler → e.reg ≠ .icenabler →
    ∀ d, ((gicdStep C s e).descs d).enabled = (s.descs d).enabled

lemma showsLastWrite {s₀ : Gicd} (h₀ : TypesFit s₀) (es : List GicdWrite) {vcpu virq : ℕ}
    (value : BitVec 32) {d : VirqRef ℕ} (hd : getVirqDesc C vcpu virq = some d) :
    ShowsLastWrite C (exec (gicdStep C) s₀ es) es vcpu virq value (s₀.descs d) := by
  have hstate : ∀ enabled : Bool,
      (if enabled = true then 1#32 else 0#32).setWidth 1 = BitVec.ofBool enabled := by decide
  constructor
  case priority =>
    intro hhas
    rw [readField_ipriorityr hhas, virqGetPr, virqGet, hd]
    simp only [BitVec.setWidth_setWidth_of_le _ (show 8 ≤ 32 by norm_num), BitVec.setWidth_eq]
    exact exec_field GicdDesc.pr (gicdStep_pr hd) s₀ es
  case type =>
    intro hhas
    rw [readField_icfgr (exec_typesFit h₀ es) hhas, virqGetType, virqGet, hd]
    simp only [BitVec.setWidth_setWidth_of_le _ (show 2 ≤ 32 by norm_num)]
    exact exec_field (fun desc => desc.type.setWidth 2) (gicdStep_type hd) s₀ es
  case setEnable =>
    intro hhas
    rw [readField_isenabler hhas, virqGetState, virqGet, hd,
      ← exec_field GicdDesc.enabled (gicdStep_enabled hd)]
    exact hstate _
  case clearEnable =>
    intro hhas
    rw [readField_icenabler hhas, virqGetState, virqGet, hd,
      ← exec_field GicdDesc.enabled (gicdStep_enabled hd)]
    exact hstate _

lemma showsNothing {s : Gicd} (h : TypesFit s) {vcpu virq : ℕ} (value : BitVec 32)
    (hvirq : C.vspiNr + VM_LOCAL_VIRQ_NR ≤ virq) : ShowsNothing C s vcpu virq value := by
  have hd : getVirqDesc C vcpu virq = none := by
    rw [getVirqDesc, if_neg (by omega), if_pos hvirq]
  constructor
  case priority =>
    intro hhas
    rw [readField_ipriorityr hhas, virqGetPr, virqGet, hd]
    rfl
  case type =>
    intro hhas
    rw [readField_icfgr h hhas, virqGetType, virqGet, hd]
    rfl
  case setEnable =>
    intro hhas
    rw [readField_isenabler hhas, virqGetState, virqGet, hd]
    rfl
  case clearEnable =>
    intro hhas
    rw [readField_icenabler hhas, virqGetState, virqGet, hd]
    rfl

lemma gicdStep_writesOnly (s : Gicd) (e : GicdWrite) : WritesOnly C s e := by
  have hpos : 0 < e.reg.perWord := by cases e.reg <;> decide
  have hfield : ∀ {α : Type} (field : GicdDesc → α),
      (∀ i desc, field (e.reg.update e.value i desc) = field desc) →
      ∀ d, field ((gicdStep C s e).descs d) = field (s.descs d) := by
    intro α field hsame d
    by_cases hmem : ∃ i < e.reg.perWord, getVirqDesc C e.vcpu (e.reg.perWord * e.n + i) = some d
    · obtain ⟨i, hi, hd⟩ := hmem
      rw [gicdStep_descs_of_mem hi hd, hsame]
    · push Not at hmem
      rw [gicdStep_descs_of_notMem hmem]
  constructor
  case outside =>
    refine fun d hd => gicdStep_descs_of_notMem fun i hi => hd _ ?_
    rw [Nat.mul_add_div hpos, Nat.div_eq_of_lt hi, Nat.add_zero]
  case others =>
    refine fun v virq hv => gicdStep_descs_of_notMem fun i _ hd => hv ?_
    rw [getVirqDesc] at hd
    split_ifs at hd
    · cases hd
      rfl
    · cases hd
  case pr =>
    exact fun hreg => hfield GicdDesc.pr fun i desc => by rw [GicdReg.update_pr, if_neg hreg]
  case type =>
    exact fun hreg => hfield GicdDesc.type fun i desc => by rw [GicdReg.update_type, if_neg hreg]
  case enabled =>
    refine fun hset hclear => hfield GicdDesc.enabled fun i desc => ?_
    rw [GicdReg.update_enabled]
    cases hreg : e.reg with
    | isenabler => exact absurd hreg hset
    | icenabler => exact absurd hreg hclear
    | ipriorityr | icfgr => rfl

/-- After any writes of the vcpus a register shows the fields that were last written, zero for the
virqs that the VM does not have, and no write changes what it is not meant for. -/
theorem gicd_registers_round_trip (s₀ : Gicd) (h₀ : TypesFit s₀) (es : List GicdWrite)
    (vcpu : ℕ) (value : BitVec 32) :
    (∀ virq < C.vspiNr + VM_LOCAL_VIRQ_NR, ∃ d, getVirqDesc C vcpu virq = some d ∧
      ShowsLastWrite C (exec (gicdStep C) s₀ es) es vcpu virq value (s₀.descs d)) ∧
    (∀ virq, C.vspiNr + VM_LOCAL_VIRQ_NR ≤ virq →
      ShowsNothing C (exec (gicdStep C) s₀ es) vcpu virq value) ∧
    ∀ s e, WritesOnly C s e := by
  refine ⟨fun virq hvirq => ?_, fun virq hvirq => showsNothing (exec_typesFit h₀ es) value hvirq,
    gicdStep_writesOnly⟩
  obtain ⟨d, hd⟩ : ∃ d, getVirqDesc C vcpu virq = some d := by
    rw [getVirqDesc]
    split_ifs
    · exact ⟨_, rfl⟩
    · omega
    · exact ⟨_, rfl⟩
  exact ⟨d, hd, showsLastWrite h₀ es value hd⟩

/-- One vcpu sets the priority of the SPI 33 and of its private virq 5, and the other sees the first
of the two. -/
theorem gicd_registers_round_trip_two_vcpus :
    let C : Chip := ⟨.v2, 4, 64, by decide, by decide⟩
    let s₀ : Gicd := ⟨0, 0, fun _ => ⟨0xa0, 0, 0, 0, false, false⟩, [], []⟩
    let es : List GicdWrite := [⟨0, .ipriorityr, 8, 0x40302010#32, by decide⟩,
      ⟨0, .ipriorityr, 1, 0x80808080#32, by decide⟩]
    let s := exec (gicdStep C) s₀ es
    readField C s 1 0 .ipriorityr 8 33 = 0x20#8 ∧ readField C s 1 0 .ipriorityr 8 5 = 0xa0#8 := by
  intro C s₀ es s
  have h₀ : TypesFit s₀ := fun _ => show (0#8).toNat < 2 ^ 2 by decide
  have hshows := (gicd_registers_round_trip (C := C) s₀ h₀ es 1 0).1
  obtain ⟨d, -, hd⟩ := hshows 33 (by decide)
  obtain ⟨d', -, hd'⟩ := hshows 5 (by decide)
  rw [hd.priority (by unfold GicdReg.Has; decide), hd'.priority (by unfold GicdReg.Has; decide)]
  exact ⟨rfl, rfl⟩

end RoundTrip

end Minos.Virq
