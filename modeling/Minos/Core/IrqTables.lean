import Minos.Core.Irq

/-!
# The tables of interrupts

What the lookups find, in the tables as the drivers of the chips make them, and which descriptors a
call of the interface changes.
-/

namespace Minos.Core

open Function Run

/-! ### Places -/

/-- The cpus that find the descriptor under its number -/
def IrqRef.OwnedBy : IrqRef → ℕ → Prop
  | .shared _ _, _ => True
  | .percpu _ cpu _, cpu' => cpu' = cpu

def IrqRef.Percpu : IrqRef → Prop
  | .shared _ _ => False
  | .percpu _ _ _ => True

def IrqRef.Within (nrCpus : ℕ) : IrqRef → Prop
  | .shared _ _ => True
  | .percpu _ cpu _ => cpu < nrCpus

/-- The cpu that an interrupt goes to at first -/
def IrqRef.home : IrqRef → ℕ
  | .shared _ _ => 0
  | .percpu _ cpu _ => cpu % 2 ^ 16

def IrqRef.domain : IrqRef → IrqDomainType
  | .shared d _ => d
  | .percpu d _ _ => d

def IrqRef.index : IrqRef → ℕ
  | .shared _ i => i
  | .percpu _ _ i => i

instance : (r : IrqRef) → (cpu : ℕ) → Decidable (r.OwnedBy cpu)
  | .shared _ _, _ => inferInstanceAs (Decidable True)
  | .percpu _ _ _, _ => inferInstanceAs (Decidable (_ = _))

instance : (r : IrqRef) → Decidable r.Percpu
  | .shared _ _ => inferInstanceAs (Decidable False)
  | .percpu _ _ _ => inferInstanceAs (Decidable True)

namespace IrqSys

/-- The tables as the drivers make them: the descriptors are in their domains under their numbers,
and the domains of the cpus are where `get_irq_desc_cpu` expects them. -/
structure Ready (nrCpus : ℕ) (s : IrqSys) : Prop where
  bound : ∀ d, ∀ dom ∈ s.domains d, dom.start + dom.count ≤ 2 ^ 16
  hno : ∀ r, ∀ desc ∈ s.descs r, desc.hno = (s.domains r.domain).elim 0 (·.start) + r.index
  cpu : ∀ r, (s.descs r).isSome → r.Within nrCpus
  sgi : ∀ dom ∈ s.domains .sgi, dom.count = 0 ∨ dom.start = 0 ∧ dom.count = 16
  ppi : ∀ dom ∈ s.domains .ppi, dom.count = 0 ∨ dom.start = 16 ∧ dom.count = 16

variable {s s' : IrqSys} {nrCpus cpu cpu' irq irq' : ℕ} {r : IrqRef} {d : IrqDomainType}
  {dom : IrqDomain}

/-- The domain that has an irq is the first one that has it. -/
lemma getIrqDomain_some (h : s.getIrqDomain irq = some (d, dom)) :
    s.domains d = some dom ∧ dom.Has irq := by
  obtain ⟨d', -, h⟩ := List.exists_of_findSome?_eq_some h
  split at h
  · cases h
  · next dom' hdom =>
    split_ifs at h with hhas
    obtain ⟨rfl, rfl⟩ := Prod.mk.inj (Option.some.inj h)
    exact ⟨hdom, hhas⟩

lemma slot_some {r' : IrqRef} (h : s.slot r = some r') : r' = r ∧ (s.descs r).isSome := by
  rw [slot] at h
  split_ifs at h with hsome
  exact ⟨(Option.some.inj h).symm, hsome⟩

/-- What a lookup finds -/
lemma getIrqDesc_some (h : s.getIrqDesc cpu irq = some r) :
    (s.descs r).isSome ∧ ∃ d dom, s.getIrqDomain irq = some (d, dom) ∧ s.domains d = some dom ∧
      dom.Has irq ∧ (if d = .sgi ∨ d = .ppi then r = .percpu d cpu (irq - dom.start)
        else r = .shared d (irq - dom.start)) := by
  rw [getIrqDesc] at h
  split at h
  · cases h
  · next d dom hdom =>
    obtain ⟨hd, hhas⟩ := getIrqDomain_some hdom
    rw [domainGetIrqDesc, if_neg (not_not.2 hhas)] at h
    split_ifs at h with hlocal
    · obtain ⟨rfl, hsome⟩ := slot_some h
      exact ⟨hsome, d, dom, hdom, hd, hhas, by rw [if_pos hlocal]⟩
    · obtain ⟨rfl, hsome⟩ := slot_some h
      exact ⟨hsome, d, dom, hdom, hd, hhas, by rw [if_neg hlocal]⟩

/-- A descriptor is found under one number only, and by the cpus that own it. -/
lemma getIrqDesc_eq_iff (h : s.getIrqDesc cpu irq = some r) :
    s.getIrqDesc cpu' irq' = some r ↔ irq' = irq ∧ r.OwnedBy cpu' := by
  obtain ⟨hsome, d, dom, hget, hd, hhas, hr⟩ := getIrqDesc_some h
  constructor
  · intro h'
    obtain ⟨-, d', dom', -, hd', hhas', hr'⟩ := getIrqDesc_some h'
    have hle := hhas.1
    have hle' := hhas'.1
    split_ifs at hr hr'
    · obtain ⟨rfl, rfl, hi⟩ := IrqRef.percpu.inj (hr.symm.trans hr')
      obtain rfl := Option.some.inj (hd.symm.trans hd')
      rw [hr]
      exact ⟨by omega, rfl⟩
    · rw [hr] at hr'
      cases hr'
    · rw [hr] at hr'
      cases hr'
    · obtain ⟨rfl, hi⟩ := IrqRef.shared.inj (hr.symm.trans hr')
      obtain rfl := Option.some.inj (hd.symm.trans hd')
      rw [hr]
      exact ⟨by omega, trivial⟩
  · rintro ⟨rfl, hown⟩
    rw [getIrqDesc, hget]
    dsimp only
    rw [domainGetIrqDesc, if_neg (not_not.2 hhas)]
    split_ifs at hr with hlocal
    · rw [hr] at hown
      rw [if_pos hlocal, show cpu' = cpu from hown, ← hr, slot, if_pos hsome]
    · rw [if_neg hlocal, ← hr, slot, if_pos hsome]

lemma Ready.has_iff (h : s.Ready nrCpus) (hd : s.domains d = some dom) :
    dom.Has irq ↔ dom.start ≤ irq ∧ irq < dom.start + dom.count := by
  have := h.bound d dom hd
  rw [IrqDomain.Has, Nat.mod_eq_of_lt (by omega)]

/-- `get_irq_desc_cpu` finds what the cpu finds with `get_irq_desc`, if that is one of its own. -/
lemma Ready.getIrqDescCpu_eq_iff (h : s.Ready nrCpus) (hr : s.getIrqDesc cpu irq = some r) :
    s.getIrqDescCpu irq' cpu' = some r ↔ irq' = irq ∧ r.Percpu ∧ r.OwnedBy cpu' := by
  obtain ⟨hsome, d, dom, -, hd, hhas, hplace⟩ := getIrqDesc_some hr
  rw [h.has_iff hd] at hhas
  have hsgi : d = .sgi → dom.start = 0 ∧ dom.count = 16 := by
    rintro rfl
    exact (h.sgi dom hd).resolve_left (by omega)
  have hppi : d = .ppi → dom.start = 16 ∧ dom.count = 16 := by
    rintro rfl
    exact (h.ppi dom hd).resolve_left (by omega)
  unfold getIrqDescCpu NR_LOCAL_IRQS PPI_IRQ_BASE SGI_IRQ_BASE
  constructor
  · intro hcpu
    split_ifs at hcpu with h32 h16
    · obtain ⟨rfl, -⟩ := slot_some hcpu
      split_ifs at hplace
      obtain ⟨rfl, rfl, hi⟩ := IrqRef.percpu.inj hplace
      obtain ⟨hstart, -⟩ := hppi rfl
      exact ⟨by omega, trivial, rfl⟩
    · obtain ⟨rfl, -⟩ := slot_some hcpu
      split_ifs at hplace
      obtain ⟨rfl, rfl, hi⟩ := IrqRef.percpu.inj hplace
      obtain ⟨hstart, -⟩ := hsgi rfl
      exact ⟨by omega, trivial, rfl⟩
  · rintro ⟨rfl, hlocal, hown⟩
    split_ifs at hplace with hdom
    · subst hplace
      obtain rfl : cpu' = cpu := hown
      rcases hdom with rfl | rfl
      · obtain ⟨hstart, hcount⟩ := hsgi rfl
        rw [if_neg (by omega), if_neg (by omega), ← hstart, slot, if_pos hsome]
      · obtain ⟨hstart, hcount⟩ := hppi rfl
        rw [if_neg (by omega), if_pos (by omega), ← hstart, slot, if_pos hsome]
    · subst hplace
      exact hlocal.elim

end IrqSys

/-! ### What a call changes -/

/-- The writes of `irq_set_type` -/
def IrqDesc.changeType (type : BitVec 64) (d : IrqDesc) : IrqDesc :=
  if type = d.flags &&& IRQ_FLAGS_TYPE_MASK then d else d.setType type

lemma IrqDesc.changeType_hno (type : BitVec 64) (d : IrqDesc) :
    (d.changeType type).hno = d.hno := by
  rw [IrqDesc.changeType]
  split_ifs
  · rfl
  · rfl

/-- The writes of `request_irq` -/
def IrqDesc.changeRequest (handler : ℕ) (flags : BitVec 64) (data : ℕ) (d : IrqDesc) : IrqDesc :=
  let d := d.request handler (flags &&& ~~~IRQ_FLAGS_TYPE_MASK) data
  if flags &&& IRQ_FLAGS_TYPE_MASK ≠ 0 then d.changeType (flags &&& IRQ_FLAGS_TYPE_MASK) else d

/-- The change of the descriptor in the place `r` with the number `irq` -/
def IrqCall.change (nrCpus : ℕ) (r : IrqRef) (irq : ℕ) (d : IrqDesc) : IrqCall → IrqDesc
  | .request cpu irq' handler flags data =>
    if (irq' = irq ∧ r.OwnedBy cpu) ∧ handler ≠ 0 then d.changeRequest handler flags data else d
  | .requestPercpu irq' handler flags data =>
    if irq' = irq ∧ r.Percpu then d.request handler flags data else d
  | .enable cpu irq' b =>
    if irq' = irq ∧ r.OwnedBy cpu then if b then d.unmask else d.mask else d
  | .setAffinity cpu irq' target =>
    if (irq' = irq ∧ r.OwnedBy cpu) ∧ target < nrCpus then
      { d with affinity := (target % 2 ^ 16).toNat }
    else d
  | .setType cpu irq' type => if irq' = irq ∧ r.OwnedBy cpu then d.changeType type else d

namespace IrqSys

variable {s s' : IrqSys} {nrCpus cpu irq : ℕ} {r : IrqRef} {ic : IrqChip}

/-- The tables are as before, except for what the interface writes. -/
structure SameTables (s s' : IrqSys) : Prop where
  domains : s'.domains = s.domains
  hno : ∀ r, (s'.descs r).map IrqDesc.hno = (s.descs r).map IrqDesc.hno

@[simp] lemma chip_descs (s : IrqSys) (op : ChipOp) : (s.chip op).descs = s.descs := rfl

lemma chip_if_descs (s : IrqSys) (op : ChipOp) (c : Prop) [Decidable c] :
    (if c then s.chip op else s).descs = s.descs := by
  split_ifs
  · rfl
  · rfl

lemma chip_if_domains (s : IrqSys) (op : ChipOp) (c : Prop) [Decidable c] :
    (if c then s.chip op else s).domains = s.domains := by
  split_ifs
  · rfl
  · rfl

lemma modify_descs (s : IrqSys) (r' : IrqRef) (f : IrqDesc → IrqDesc) (r : IrqRef) :
    (s.modify r' f).descs r = (s.descs r).map fun d => if r' = r then f d else d := by
  change update s.descs r' _ r = _
  by_cases heq : r' = r
  · subst heq
    simp
  · rw [update_of_ne (Ne.symm heq)]
    simp [heq]

namespace SameTables

lemma refl (s : IrqSys) : SameTables s s := ⟨rfl, fun _ => rfl⟩

lemma trans (h : SameTables s s') {s'' : IrqSys} (h' : SameTables s' s'') : SameTables s s'' :=
  ⟨h'.domains.trans h.domains, fun r => (h'.hno r).trans (h.hno r)⟩

lemma of_chip (s : IrqSys) (op : ChipOp) : SameTables s (s.chip op) := ⟨rfl, fun _ => rfl⟩

lemma of_modify (s : IrqSys) (r' : IrqRef) {f : IrqDesc → IrqDesc} (hf : ∀ d, (f d).hno = d.hno) :
    SameTables s (s.modify r' f) := by
  refine ⟨rfl, fun r => ?_⟩
  rw [modify_descs, Option.map_map]
  congr 1
  funext d
  simp only [comp_apply]
  split_ifs
  · exact hf d
  · rfl

lemma of_descs {f : IrqRef → IrqDesc → IrqDesc} (hdomains : s'.domains = s.domains)
    (hdescs : ∀ r, s'.descs r = (s.descs r).map (f r)) (hf : ∀ r d, (f r d).hno = d.hno) :
    SameTables s s' := by
  refine ⟨hdomains, fun r => ?_⟩
  rw [hdescs, Option.map_map]
  exact congrFun (congrArg Option.map (funext (hf r))) _

lemma isSome (h : SameTables s s') (r : IrqRef) : (s'.descs r).isSome = (s.descs r).isSome := by
  have := congrArg Option.isSome (h.hno r)
  rwa [Option.isSome_map, Option.isSome_map] at this

lemma slot (h : SameTables s s') (r : IrqRef) : s'.slot r = s.slot r := by
  rw [IrqSys.slot, IrqSys.slot, h.isSome r]

lemma getIrqDomain (h : SameTables s s') (irq : ℕ) : s'.getIrqDomain irq = s.getIrqDomain irq := by
  rw [IrqSys.getIrqDomain, IrqSys.getIrqDomain, h.domains]

lemma domainGetIrqDesc (h : SameTables s s') (cpu : ℕ) (d : IrqDomainType) (dom : IrqDomain)
    (irq : ℕ) : s'.domainGetIrqDesc cpu d dom irq = s.domainGetIrqDesc cpu d dom irq := by
  simp only [IrqSys.domainGetIrqDesc, h.slot]

lemma getIrqDesc (h : SameTables s s') (cpu irq : ℕ) :
    s'.getIrqDesc cpu irq = s.getIrqDesc cpu irq := by
  simp only [IrqSys.getIrqDesc, h.getIrqDomain, h.domainGetIrqDesc]

lemma getIrqDescCpu (h : SameTables s s') (irq cpu : ℕ) :
    s'.getIrqDescCpu irq cpu = s.getIrqDescCpu irq cpu := by
  simp only [IrqSys.getIrqDescCpu, h.slot]

lemma ready (h : SameTables s s') (hs : s.Ready nrCpus) : s'.Ready nrCpus := by
  refine ⟨?_, fun r desc hdesc => ?_, fun r hsome => hs.cpu r ?_, ?_, ?_⟩
  · rw [h.domains]
    exact hs.bound
  · have hno := h.hno r
    rw [show s'.descs r = some desc from hdesc, Option.map_some] at hno
    obtain ⟨desc', hdesc', heq⟩ := Option.map_eq_some_iff.1 hno.symm
    rw [h.domains, ← heq]
    exact hs.hno r desc' hdesc'
  · rwa [← h.isSome]
  · rw [h.domains]
    exact hs.sgi
  · rw [h.domains]
    exact hs.ppi

end SameTables

/-- A write to the descriptor that a lookup finds -/
lemma map_found {look : Option IrqRef} {f : IrqDesc → IrqDesc} {s' : IrqSys}
    (hnone : look = none → s' = s)
    (hsome : ∀ r', look = some r' → ∀ r, s'.descs r =
      (s.descs r).map fun d => if r' = r then f d else d) (r : IrqRef) :
    s'.descs r = (s.descs r).map fun d => if look = some r then f d else d := by
  cases hlook : look with
  | none => simp [hnone hlook]
  | some r' => simp [hsome r' hlook r]

lemma irqEnable_descs (b : Bool) (r : IrqRef) : (irqEnable cpu irq b s).descs r = (s.descs r).map
    fun d => if s.getIrqDesc cpu irq = some r then if b then d.unmask else d.mask else d := by
  refine map_found (fun h => ?_) (fun r' h r => ?_) r
  · rw [irqEnable, h]
  · rw [irqEnable, h]
    cases b with
    | true => exact modify_descs _ _ _ _
    | false => exact modify_descs _ _ _ _

lemma irqSetAffinity_descs (target : ℤ) (r : IrqRef) :
    (irqSetAffinity nrCpus ic cpu irq target s).descs r = (s.descs r).map fun d =>
      if s.getIrqDesc cpu irq = some r ∧ target < nrCpus then
        { d with affinity := (target % 2 ^ 16).toNat }
      else d := by
  by_cases htarget : target < nrCpus
  · simp only [htarget, and_true]
    refine map_found (fun h => ?_) (fun r' h r => ?_) r
    · rw [irqSetAffinity, if_neg (not_le.2 htarget), h]
    · rw [irqSetAffinity, if_neg (not_le.2 htarget), h]
      dsimp only
      rw [chip_if_descs, modify_descs]
  · rw [irqSetAffinity, if_pos (not_lt.1 htarget)]
    simp [htarget]

lemma irqSetType_descs (type : BitVec 64) (r : IrqRef) :
    (irqSetType ic cpu irq type s).descs r = (s.descs r).map fun d =>
      if s.getIrqDesc cpu irq = some r then d.changeType type else d := by
  refine map_found (fun h => ?_) (fun r' h r => ?_) r
  · rw [irqSetType, h]
  · obtain ⟨d, hd⟩ := Option.isSome_iff_exists.1 (getIrqDesc_some h).1
    rw [irqSetType, h]
    dsimp only
    rw [hd]
    dsimp only
    by_cases hr : r' = r
    · subst hr
      rw [hd, Option.map_some, if_pos rfl, IrqDesc.changeType]
      by_cases htype : type = d.flags &&& IRQ_FLAGS_TYPE_MASK
      · rw [if_pos htype, if_pos htype, hd]
      · rw [if_neg htype, if_neg htype, modify_descs, chip_if_descs, hd, Option.map_some,
          if_pos rfl]
    · simp only [if_neg hr, Option.map_id']
      by_cases htype : type = d.flags &&& IRQ_FLAGS_TYPE_MASK
      · rw [if_pos htype]
      · rw [if_neg htype, modify_descs, chip_if_descs]
        simp [hr]

lemma irqSetType_same (type : BitVec 64) : SameTables s (irqSetType ic cpu irq type s) := by
  refine .of_descs ?_ (irqSetType_descs type) fun r d => ?_
  · rw [irqSetType]
    split
    · rfl
    · split
      · rfl
      · split_ifs
        · rfl
        · rfl
        · rfl
  · split_ifs
    · exact d.changeType_hno type
    · rfl

lemma requestIrq_descs (handler : ℕ) (flags : BitVec 64) (data : ℕ) (r : IrqRef) :
    (requestIrq ic cpu irq handler flags data s).2.descs r = (s.descs r).map fun d =>
      if s.getIrqDesc cpu irq = some r ∧ handler ≠ 0 then d.changeRequest handler flags data
      else d := by
  by_cases hhandler : handler = 0
  · rw [requestIrq, if_pos hhandler]
    simp [hhandler]
  simp only [ne_eq, hhandler, not_false_eq_true, and_true]
  refine map_found (fun h => ?_) (fun r' h r => ?_) r
  · rw [requestIrq, if_neg hhandler, h]
  · rw [requestIrq, if_neg hhandler, h]
    dsimp only
    have hsame : SameTables s ((s.chip (.unmask irq)).modify r'
        (.request handler (flags &&& ~~~IRQ_FLAGS_TYPE_MASK) data)) :=
      (SameTables.of_chip s _).trans (.of_modify _ _ fun _ => rfl)
    by_cases htype : flags &&& IRQ_FLAGS_TYPE_MASK ≠ 0
    · rw [if_pos htype, irqSetType_descs, hsame.getIrqDesc, h, modify_descs, chip_descs,
        Option.map_map]
      congr 1
      funext d
      by_cases hr : r' = r
      · subst hr
        rw [comp_apply, if_pos rfl, if_pos rfl, if_pos rfl, IrqDesc.changeRequest, if_pos htype]
      · rw [comp_apply, if_neg (hr ∘ Option.some.inj), if_neg hr, if_neg hr]
    · rw [if_neg htype, modify_descs, chip_descs]
      congr 1
      funext d
      rw [IrqDesc.changeRequest, if_neg htype]

lemma requestIrqOn_descs (handler : ℕ) (flags : BitVec 64) (data i : ℕ) (r : IrqRef) :
    (requestIrqOn irq handler flags data s i).descs r = (s.descs r).map fun d =>
      if s.getIrqDescCpu irq i = some r then d.request handler flags data else d := by
  refine map_found (fun h => ?_) (fun r' h r => ?_) r
  · rw [requestIrqOn, h]
  · rw [requestIrqOn, h]
    exact modify_descs _ _ _ _

lemma requestIrqOn_same (handler : ℕ) (flags : BitVec 64) (data i : ℕ) :
    SameTables s (requestIrqOn irq handler flags data s i) := by
  refine .of_descs ?_ (requestIrqOn_descs handler flags data i) fun r d => ?_
  · rw [requestIrqOn]
    split
    · rfl
    · rfl
  · split_ifs
    · rfl
    · rfl

/-- A request that is made twice is one request. -/
lemma request_request (handler : ℕ) (flags : BitVec 64) (data : ℕ) (d : IrqDesc) :
    (d.request handler flags data).request handler flags data = d.request handler flags data := by
  rw [IrqDesc.request, IrqDesc.request]
  congr 1
  ext i
  grind

lemma requestIrqPercpu_loop (handler : ℕ) (flags : BitVec 64) (data : ℕ) (l : List ℕ) :
    SameTables s (l.foldl (requestIrqOn irq handler flags data) s) ∧
      ∀ r, (l.foldl (requestIrqOn irq handler flags data) s).descs r = (s.descs r).map fun d =>
        if ∃ i ∈ l, s.getIrqDescCpu irq i = some r then d.request handler flags data else d := by
  induction l generalizing s with
  | nil => exact ⟨.refl s, fun r => by simp⟩
  | cons i l ih =>
    have hsame : SameTables s (requestIrqOn irq handler flags data s i) :=
      requestIrqOn_same handler flags data i
    obtain ⟨ihsame, ihdescs⟩ := ih (s := requestIrqOn irq handler flags data s i)
    refine ⟨hsame.trans ihsame, fun r => ?_⟩
    rw [List.foldl_cons, ihdescs, requestIrqOn_descs, Option.map_map]
    congr 1
    funext d
    simp only [comp_apply, hsame.getIrqDescCpu, List.mem_cons, exists_eq_or_imp]
    by_cases hi : s.getIrqDescCpu irq i = some r
    · simp only [hi, if_true, true_or]
      split_ifs
      · exact request_request handler flags data d
      · rfl
    · simp only [hi, if_false, false_or]

variable (nrCpus ic) in
/-- Nothing but the descriptors is written, and no number of one. -/
lemma call_same (e : IrqCall) : SameTables s (call nrCpus ic s e) := by
  cases e with
  | request cpu irq handler flags data =>
    rw [call, requestIrq]
    split_ifs
    · exact .refl s
    · split
      · exact .refl s
      · next r _ =>
        dsimp only
        have hsame : SameTables s ((s.chip (.unmask irq)).modify r
            (.request handler (flags &&& ~~~IRQ_FLAGS_TYPE_MASK) data)) :=
          (SameTables.of_chip s _).trans (.of_modify _ _ fun _ => rfl)
        split_ifs
        · exact hsame.trans (irqSetType_same _)
        · exact hsame
  | requestPercpu irq handler flags data =>
    rw [call, requestIrqPercpu]
    split_ifs
    · exact .refl s
    · exact (requestIrqPercpu_loop handler flags data _).1
  | enable cpu irq b =>
    refine .of_descs ?_ (irqEnable_descs b) fun r d => ?_
    · rw [call, irqEnable]
      split
      · rfl
      · split_ifs
        · rfl
        · rfl
    · split_ifs
      · rfl
      · rfl
      · rfl
  | setAffinity cpu irq target =>
    refine .of_descs ?_ (irqSetAffinity_descs target) fun r d => ?_
    · by_cases htarget : nrCpus ≤ target
      · rw [call, irqSetAffinity, if_pos htarget]
      · rw [call, irqSetAffinity, if_neg htarget]
        split
        · rfl
        · exact chip_if_domains _ _ _
    · split_ifs
      · rfl
      · rfl
  | setType cpu irq type => exact irqSetType_same type

/-- A call changes a descriptor if the cpu that makes it finds the descriptor under the number that
it gives. -/
lemma call_descs (h : s.Ready nrCpus) (hr : s.getIrqDesc cpu irq = some r) (e : IrqCall) :
    (call nrCpus ic s e).descs r = (s.descs r).map (e.change nrCpus r irq) := by
  cases e with
  | request cpu' irq' handler flags data =>
    rw [call, requestIrq_descs]
    simp only [getIrqDesc_eq_iff hr]
    rfl
  | requestPercpu irq' handler flags data =>
    have hcpu : (∃ i ∈ List.range nrCpus, s.getIrqDescCpu irq' i = some r) ↔
        irq' = irq ∧ r.Percpu := by
      simp only [h.getIrqDescCpu_eq_iff hr, List.mem_range]
      constructor
      · rintro ⟨i, -, hirq, hlocal, -⟩
        exact ⟨hirq, hlocal⟩
      · rintro ⟨hirq, hlocal⟩
        cases r with
        | shared => exact hlocal.elim
        | percpu d' c i => exact ⟨c, h.cpu _ (getIrqDesc_some hr).1, hirq, trivial, rfl⟩
    rw [call, requestIrqPercpu]
    by_cases hirq : NR_LOCAL_IRQS ≤ irq'
    · -- the cpus have no descriptors of their own from this number on
      have hnone : ¬ (irq' = irq ∧ r.Percpu) := by
        rw [← hcpu]
        rintro ⟨i, -, hi⟩
        rw [getIrqDescCpu, if_pos hirq] at hi
        cases hi
      rw [if_pos hirq]
      simp [IrqCall.change, hnone]
    · rw [if_neg hirq, (requestIrqPercpu_loop handler flags data _).2]
      simp only [hcpu]
      rfl
  | enable cpu' irq' b =>
    rw [call, irqEnable_descs]
    simp only [getIrqDesc_eq_iff hr]
    rfl
  | setAffinity cpu' irq' target =>
    rw [call, irqSetAffinity_descs]
    simp only [getIrqDesc_eq_iff hr]
    rfl
  | setType cpu' irq' type =>
    rw [call, irqSetType_descs]
    simp only [getIrqDesc_eq_iff hr]
    rfl

end IrqSys

/-! ### The boot -/

namespace IrqSys

/-- The irqs as the drivers of the chips leave them -/
def boot (nrCpus nrLines : ℕ) (zalloc : IrqDomainType → Bool) (nr : IrqDomainType → ℕ) : IrqSys :=
  (irqInit zalloc).chipInit nrCpus nrLines nr

variable {s : IrqSys} {nrCpus start cnt nr : ℕ} {d d' : IrqDomainType} {table : Bool}

/-- A domain that has no descriptors so far -/
def Fresh (s : IrqSys) (d : IrqDomainType) : Prop := ∀ r, r.domain = d → s.descs r = none

/-- No descriptor has been written. -/
def Initial (s : IrqSys) : Prop := ∀ r, ∀ desc ∈ s.descs r,
  desc.affinity = r.home ∧ desc.flags = 0 ∧ desc.handler = 0 ∧ desc.pdata = 0

/-- What `alloc_irqs` does when it does something -/
lemma allocIrqs_cases (s : IrqSys) (nrCpus start cnt : ℕ) (d : IrqDomainType) (table : Bool)
    (nr : ℕ) : (s.allocIrqs nrCpus start cnt d table nr).2 = s ∨ cnt < 1024 ∧
      (s.allocIrqs nrCpus start cnt d table nr).2 =
        { s with
          domains := update s.domains d (some ⟨start, cnt, true⟩)
          descs := if d = .sgi ∨ d = .ppi then localAllocIrqs nrCpus d start cnt nr s.descs
            else spiAllocIrqs d start cnt nr s.descs } := by
  rw [allocIrqs]
  split
  · exact .inl rfl
  · next dom _ =>
    by_cases hcnt : cnt = 0 ∨ 1024 ≤ cnt
    · exact .inl (by rw [if_pos hcnt])
    by_cases hirqs : dom.irqs
    · exact .inl (by rw [if_neg hcnt, if_pos hirqs])
    by_cases htable : table
    · rw [if_neg hcnt, if_neg hirqs, if_neg (not_not.2 htable)]
      exact .inr ⟨by omega, rfl⟩
    · exact .inl (by rw [if_neg hcnt, if_neg hirqs, if_pos htable])

/-- The descriptors after an allocation -/
lemma allocated (hfresh : s.Fresh d) {r : IrqRef} {desc : IrqDesc}
    (h : desc ∈ (if d = .sgi ∨ d = .ppi then localAllocIrqs nrCpus d start cnt nr s.descs
      else spiAllocIrqs d start cnt nr s.descs) r) :
    r.domain ≠ d ∧ desc ∈ s.descs r ∨
      r.domain = d ∧ r.index < cnt ∧ r.Within nrCpus ∧
        desc = ⟨(start + r.index) % 2 ^ 16, r.home, 0, 0, 0⟩ := by
  have hold : desc ∈ s.descs r → r.domain ≠ d := by
    rintro hdesc hd
    rw [hfresh r hd] at hdesc
    cases hdesc
  split_ifs at h
  · cases r with
    | shared d' i => exact .inl ⟨hold h, h⟩
    | percpu d' cpu i =>
      rw [localAllocIrqs] at h
      split_ifs at h with hd hi
      · obtain rfl := Option.some.inj h
        exact .inr ⟨hd, hi.2.1, hi.1, rfl⟩
      · cases h
      · exact .inl ⟨hd, h⟩
  · cases r with
    | shared d' i =>
      rw [spiAllocIrqs] at h
      split_ifs at h with hd hi
      · obtain rfl := Option.some.inj h
        refine .inr ⟨hd, hi.1, trivial, ?_⟩
        rw [Nat.add_comm start]
        rfl
      · cases h
      · exact .inl ⟨hd, h⟩
    | percpu d' cpu i => exact .inl ⟨hold h, h⟩

lemma allocIrqs_fresh (h : s.Fresh d') (hne : d' ≠ d) (hfresh : s.Fresh d) :
    (s.allocIrqs nrCpus start cnt d table nr).2.Fresh d' := by
  rcases allocIrqs_cases s nrCpus start cnt d table nr with hs | ⟨-, hs⟩
  · rwa [hs]
  · rw [hs]
    rintro r rfl
    by_contra hr
    obtain ⟨desc, hdesc⟩ := Option.ne_none_iff_exists'.1 hr
    rcases allocated hfresh hdesc with ⟨-, hold⟩ | ⟨hd, -⟩
    · rw [h r rfl] at hold
      cases hold
    · exact hne hd

lemma allocIrqs_initial (h : s.Initial) (hfresh : s.Fresh d) :
    (s.allocIrqs nrCpus start cnt d table nr).2.Initial := by
  rcases allocIrqs_cases s nrCpus start cnt d table nr with hs | ⟨-, hs⟩
  · rwa [hs]
  · rw [hs]
    intro r desc hdesc
    rcases allocated hfresh hdesc with ⟨-, hold⟩ | ⟨-, -, -, rfl⟩
    · exact h r desc hold
    · exact ⟨rfl, rfl, rfl, rfl⟩

lemma mem_update {domains : IrqDomainType → Option IrqDomain} {dom dom' : IrqDomain}
    (h : dom ∈ update domains d (some dom') d') :
    d' = d ∧ dom = dom' ∨ d' ≠ d ∧ dom ∈ domains d' := by
  by_cases hd : d' = d
  · subst hd
    rw [update_self] at h
    exact .inl ⟨rfl, (Option.some.inj h).symm⟩
  · rw [update_of_ne hd] at h
    exact .inr ⟨hd, h⟩

/-- An allocation at the place where the drivers make it -/
lemma allocIrqs_ready (h : s.Ready nrCpus) (hfresh : s.Fresh d) (hstart : start ≤ 32)
    (hsgi : d = .sgi → start = 0 ∧ cnt = 16) (hppi : d = .ppi → start = 16 ∧ cnt = 16) :
    (s.allocIrqs nrCpus start cnt d table nr).2.Ready nrCpus := by
  rcases allocIrqs_cases s nrCpus start cnt d table nr with hs | ⟨hcnt, hs⟩
  · rwa [hs]
  rw [hs]
  constructor
  · intro d' dom hdom
    rcases mem_update hdom with ⟨-, rfl⟩ | ⟨-, hold⟩
    · dsimp only
      omega
    · exact h.bound d' dom hold
  · intro r desc hdesc
    rcases allocated hfresh hdesc with ⟨hd, hold⟩ | ⟨hd, hi, -, rfl⟩
    · dsimp only
      rw [update_of_ne hd]
      exact h.hno r desc hold
    · dsimp only
      rw [hd, update_self, Option.elim_some, Nat.mod_eq_of_lt (by omega)]
  · intro r hsome
    obtain ⟨desc, hdesc⟩ := Option.isSome_iff_exists.1 hsome
    rcases allocated hfresh hdesc with ⟨-, hold⟩ | ⟨-, -, hcpu, -⟩
    · exact h.cpu r (Option.isSome_iff_exists.2 ⟨desc, hold⟩)
    · exact hcpu
  · intro dom hdom
    rcases mem_update hdom with ⟨hd, rfl⟩ | ⟨-, hold⟩
    · exact .inr (hsgi hd.symm)
    · exact h.sgi dom hold
  · intro dom hdom
    rcases mem_update hdom with ⟨hd, rfl⟩ | ⟨-, hold⟩
    · exact .inr (hppi hd.symm)
    · exact h.ppi dom hold

/-- `irq_init` makes domains that are empty. -/
lemma irqInit_empty (zalloc : IrqDomainType → Bool) : (∀ r, (irqInit zalloc).descs r = none) ∧
    ∀ d, ∀ dom ∈ (irqInit zalloc).domains d, dom = ⟨0, 0, false⟩ := by
  have hstep : ∀ (d : IrqDomainType) (b : Bool) (s : IrqSys),
      ((∀ r, s.descs r = none) ∧ ∀ d, ∀ dom ∈ s.domains d, dom = ⟨0, 0, false⟩) →
      (∀ r, (s.registerIrqDomain d b).descs r = none) ∧
        ∀ d', ∀ dom ∈ (s.registerIrqDomain d b).domains d', dom = ⟨0, 0, false⟩ := by
    rintro d b s ⟨hdescs, hdomains⟩
    rw [registerIrqDomain]
    split_ifs
    · refine ⟨hdescs, fun d' dom hdom => ?_⟩
      rcases mem_update hdom with ⟨-, rfl⟩ | ⟨-, hold⟩
      · rfl
      · exact hdomains d' dom hold
    · exact ⟨hdescs, hdomains⟩
  exact hstep _ _ _ (hstep _ _ _ (hstep _ _ _ (hstep _ _ _
    ⟨fun _ => rfl, fun _ _ hdom => by cases hdom⟩)))

lemma irqInit_ready (zalloc : IrqDomainType → Bool) : (irqInit zalloc).Ready nrCpus := by
  obtain ⟨hdescs, hdomains⟩ := irqInit_empty zalloc
  constructor
  · intro d dom hdom
    rw [hdomains d dom hdom]
    decide
  · intro r desc hdesc
    rw [hdescs] at hdesc
    cases hdesc
  · intro r hsome
    rw [hdescs] at hsome
    cases hsome
  · intro dom hdom
    exact .inl (by rw [hdomains _ dom hdom])
  · intro dom hdom
    exact .inl (by rw [hdomains _ dom hdom])

/-- The drivers leave the tables as the interface expects them, whatever there was memory for. -/
lemma boot_ready (nrCpus nrLines : ℕ) (zalloc : IrqDomainType → Bool) (nr : IrqDomainType → ℕ) :
    (boot nrCpus nrLines zalloc nr).Ready nrCpus ∧ (boot nrCpus nrLines zalloc nr).Initial := by
  have hfresh : ∀ d, (irqInit zalloc).Fresh d := fun d r _ => (irqInit_empty zalloc).1 r
  have hinitial : (irqInit zalloc).Initial := by
    intro r desc hdesc
    rw [(irqInit_empty zalloc).1] at hdesc
    cases hdesc
  let s₁ := ((irqInit zalloc).allocIrqs nrCpus 0 16 .sgi true (nr .sgi)).2
  let s₂ := (s₁.allocIrqs nrCpus 16 16 .ppi true (nr .ppi)).2
  have h₁ : s₁.Ready nrCpus := allocIrqs_ready (irqInit_ready zalloc) (hfresh .sgi) (by decide)
    (fun _ => ⟨rfl, rfl⟩) (fun h => by cases h)
  have hf₁ : s₁.Fresh .ppi := allocIrqs_fresh (hfresh .ppi) (fun h => by cases h) (hfresh .sgi)
  have hspi : s₁.Fresh .spi := allocIrqs_fresh (hfresh .spi) (fun h => by cases h) (hfresh .sgi)
  have h₂ : s₂.Ready nrCpus := allocIrqs_ready h₁ hf₁ (by decide) (fun h => by cases h)
    (fun _ => ⟨rfl, rfl⟩)
  have hf₂ : s₂.Fresh .spi := allocIrqs_fresh hspi (fun h => by cases h) hf₁
  have hi₂ : s₂.Initial := allocIrqs_initial (allocIrqs_initial hinitial (hfresh .sgi)) hf₁
  exact ⟨allocIrqs_ready h₂ hf₂ le_rfl (fun h => by cases h) (fun h => by cases h),
    allocIrqs_initial hi₂ hf₂⟩

end IrqSys

end Minos.Core
