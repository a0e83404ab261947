import Minos.Lib.Run
import Minos.Types

/-!
# Interrupts

The descriptors of `core/irq.c` in their domains, the interface that writes them, and the loop of
`do_irq_handler`. A descriptor is named by its place: the number in its domain and, for the
interrupts that each cpu has for itself, the cpu. The pointer in that place is `NULL` when the
allocation of the descriptors stopped before it.
-/

namespace Minos.Core

open Function Run

def BAD_IRQ : ℕ := 1023
def NR_LOCAL_IRQS : ℕ := 32
def SGI_IRQ_BASE : ℕ := 0
def PPI_IRQ_BASE : ℕ := 16
def IRQ_FLAGS_TYPE_MASK : BitVec 64 := 0xff
def IRQ_FLAGS_MASKED_BIT : ℕ := 8
def IRQ_FLAGS_MASKED : BitVec 64 := 1 <<< IRQ_FLAGS_MASKED_BIT
def IRQ_FLAGS_VCPU_BIT : ℕ := 9
def IRQ_FLAGS_VCPU : BitVec 64 := 1 <<< IRQ_FLAGS_VCPU_BIT

/-- `enum irq_domain_type` -/
inductive IrqDomainType where
  | sgi | ppi | spi | lpi | special
deriving DecidableEq

/-- The order in which `get_irq_domain` looks at the domains -/
def IrqDomainType.all : List IrqDomainType := [.sgi, .ppi, .spi, .lpi, .special]

/-- `struct irq_desc`; a handler is an address, and 0 is `NULL`. -/
structure IrqDesc where
  hno : ℕ
  affinity : ℕ
  flags : BitVec 64
  handler : ℕ
  pdata : ℕ
deriving DecidableEq

/-- The place of a descriptor: a slot of `d->irqs`, or of the part of it that is the `sgi_irqs` or
`ppi_irqs` of a cpu -/
inductive IrqRef where
  | shared (d : IrqDomainType) (i : ℕ)
  | percpu (d : IrqDomainType) (cpu i : ℕ)
deriving DecidableEq

/-- `struct irq_domain`; `irqs` says whether the table is there. -/
structure IrqDomain where
  start : ℕ
  count : ℕ
  irqs : Bool
deriving DecidableEq

/-- `irq` is in the domain, whose end is computed in 32 bits. -/
def IrqDomain.Has (dom : IrqDomain) (irq : ℕ) : Prop :=
  dom.start ≤ irq ∧ irq < (dom.start + dom.count) % 2 ^ 32

instance (dom : IrqDomain) (irq : ℕ) : Decidable (dom.Has irq) :=
  inferInstanceAs (Decidable (_ ∧ _))

/-- What the functions of the irq chip and the handlers are called for -/
inductive ChipOp where
  | mask (irq : ℕ)
  | unmask (irq : ℕ)
  | unmaskCpu (irq cpu : ℕ)
  | setAffinity (irq : ℕ) (cpu : ℤ)
  | setType (irq : ℕ) (type : BitVec 64)
  | eoi (irq : ℕ)
  | dir (irq : ℕ)
  | handler (irq handler pdata : ℕ)
deriving DecidableEq

/-- The optional functions of `struct irq_chip` -/
structure IrqChip where
  setAffinity : Bool
  setType : Bool

/-- The domains, the descriptors, and the calls of the chip and the handlers so far -/
structure IrqSys where
  domains : IrqDomainType → Option IrqDomain
  descs : IrqRef → Option IrqDesc
  log : List ChipOp

namespace IrqSys

def chip (s : IrqSys) (op : ChipOp) : IrqSys := { s with log := s.log ++ [op] }

/-- A write to the descriptor that is in this place -/
def modify (s : IrqSys) (r : IrqRef) (f : IrqDesc → IrqDesc) : IrqSys :=
  { s with descs := update s.descs r ((s.descs r).map f) }

/-! ### Allocation -/

/-- `register_irq_domain`, with the reply of `zalloc` -/
def registerIrqDomain (d : IrqDomainType) (zalloc : Bool) (s : IrqSys) : IrqSys :=
  if zalloc then { s with domains := update s.domains d (some ⟨0, 0, false⟩) } else s

/-- `spi_alloc_irqs`, which stops when the descriptor number `nr` cannot be allocated -/
def spiAllocIrqs (d : IrqDomainType) (start count nr : ℕ) (descs : IrqRef → Option IrqDesc) :
    IrqRef → Option IrqDesc
  | .shared d' i =>
    if d' = d then if i < count ∧ i < nr then some ⟨(i + start) % 2 ^ 16, 0, 0, 0, 0⟩ else none
    else descs (.shared d' i)
  | r => descs r

/-- `local_alloc_irqs`, where the descriptors of one cpu come after those of another -/
def localAllocIrqs (nrCpus : ℕ) (d : IrqDomainType) (start count nr : ℕ)
    (descs : IrqRef → Option IrqDesc) : IrqRef → Option IrqDesc
  | .percpu d' cpu j =>
    if d' = d then
      if cpu < nrCpus ∧ j < count ∧ cpu * count + j < nr then
        some ⟨(start + j) % 2 ^ 16, cpu % 2 ^ 16, 0, 0, 0⟩
      else none
    else descs (.percpu d' cpu j)
  | r => descs r

/-- `alloc_irqs`, where `table` says whether there is memory for the table -/
def allocIrqs (nrCpus start cnt : ℕ) (d : IrqDomainType) (table : Bool) (nr : ℕ) (s : IrqSys) :
    ℤ × IrqSys :=
  match s.domains d with
  | none => (-ENOENT, s)
  | some dom =>
    if cnt = 0 ∨ 1024 ≤ cnt then (-EINVAL, s)
    else if dom.irqs then (-EINVAL, s)
    else if ¬ table then (-ENOMEM, s)
    else
      let descs :=
        if d = .sgi ∨ d = .ppi then localAllocIrqs nrCpus d start cnt nr s.descs
        else spiAllocIrqs d start cnt nr s.descs
      (0, { s with domains := update s.domains d (some ⟨start, cnt, true⟩), descs := descs })

/-- `irq_init`, up to the initialization of the chip -/
def irqInit (zalloc : IrqDomainType → Bool) : IrqSys :=
  let s : IrqSys := ⟨fun _ => none, fun _ => none, []⟩
  let s := s.registerIrqDomain .spi (zalloc .spi)
  let s := s.registerIrqDomain .sgi (zalloc .sgi)
  let s := s.registerIrqDomain .ppi (zalloc .ppi)
  s.registerIrqDomain .special (zalloc .special)

/-- The allocations of the chip drivers, where there is memory for the tables and for `nr` of their
descriptors -/
def chipInit (nrCpus nrLines : ℕ) (nr : IrqDomainType → ℕ) (s : IrqSys) : IrqSys :=
  let s := (s.allocIrqs nrCpus 0 16 .sgi true (nr .sgi)).2
  let s := (s.allocIrqs nrCpus 16 16 .ppi true (nr .ppi)).2
  (s.allocIrqs nrCpus 32 nrLines .spi true (nr .spi)).2

/-! ### Descriptors -/

/-- `get_irq_domain` -/
def getIrqDomain (s : IrqSys) (irq : ℕ) : Option (IrqDomainType × IrqDomain) :=
  IrqDomainType.all.findSome? fun d =>
    match s.domains d with
    | none => none
    | some dom => if dom.Has irq then some (d, dom) else none

/-- The descriptor in a place, or `NULL` -/
def slot (s : IrqSys) (r : IrqRef) : Option IrqRef := if (s.descs r).isSome then some r else none

/-- `spi_get_irq_desc` and `local_get_irq_desc`, on the cpu `cpu` -/
def domainGetIrqDesc (s : IrqSys) (cpu : ℕ) (d : IrqDomainType) (dom : IrqDomain) (irq : ℕ) :
    Option IrqRef :=
  if ¬ dom.Has irq then none
  else if d = .sgi ∨ d = .ppi then s.slot (.percpu d cpu (irq - dom.start))
  else s.slot (.shared d (irq - dom.start))

/-- `get_irq_desc` -/
def getIrqDesc (s : IrqSys) (cpu irq : ℕ) : Option IrqRef :=
  match s.getIrqDomain irq with
  | none => none
  | some (d, dom) => s.domainGetIrqDesc cpu d dom irq

/-- `get_irq_desc_cpu` -/
def getIrqDescCpu (s : IrqSys) (irq cpu : ℕ) : Option IrqRef :=
  if NR_LOCAL_IRQS ≤ irq then none
  else if PPI_IRQ_BASE ≤ irq then s.slot (.percpu .ppi cpu (irq - PPI_IRQ_BASE))
  else s.slot (.percpu .sgi cpu (irq - SGI_IRQ_BASE))

end IrqSys

/-! ### The interface -/

namespace IrqDesc

/-- The writes of `request_irq` and `request_irq_percpu` under the lock -/
def request (handler : ℕ) (flags : BitVec 64) (data : ℕ) (d : IrqDesc) : IrqDesc :=
  { d with
    handler := handler
    pdata := data
    flags := (d.flags ||| flags) &&& ~~~IRQ_FLAGS_MASKED }

def mask (d : IrqDesc) : IrqDesc := { d with flags := d.flags ||| IRQ_FLAGS_MASKED }

def unmask (d : IrqDesc) : IrqDesc := { d with flags := d.flags &&& ~~~IRQ_FLAGS_MASKED }

def setType (type : BitVec 64) (d : IrqDesc) : IrqDesc :=
  { d with flags := d.flags &&& ~~~IRQ_FLAGS_TYPE_MASK ||| type }

/-- `test_bit(IRQ_FLAGS_VCPU_BIT, &irq_desc->flags)` -/
def Vcpu (d : IrqDesc) : Prop := d.flags.getLsbD IRQ_FLAGS_VCPU_BIT = true

instance (d : IrqDesc) : Decidable d.Vcpu := inferInstanceAs (Decidable (_ = _))

end IrqDesc

namespace IrqSys

variable (nrCpus : ℕ) (chip : IrqChip)

/-- `__irq_enable` -/
def irqEnable (cpu irq : ℕ) (enable : Bool) (s : IrqSys) : IrqSys :=
  match s.getIrqDesc cpu irq with
  | none => s
  | some r =>
    if enable then (s.chip (.unmask irq)).modify r .unmask
    else (s.chip (.mask irq)).modify r .mask

/-- `irq_set_affinity`; only the upper bound of the cpu is checked. -/
def irqSetAffinity (cpu irq : ℕ) (target : ℤ) (s : IrqSys) : IrqSys :=
  if nrCpus ≤ target then s
  else
    match s.getIrqDesc cpu irq with
    | none => s
    | some r =>
      let s := s.modify r fun d => { d with affinity := (target % 2 ^ 16).toNat }
      if chip.setAffinity then s.chip (.setAffinity irq target) else s

/-- `irq_set_type`, where `type` is the `int` as an `unsigned long` -/
def irqSetType (cpu irq : ℕ) (type : BitVec 64) (s : IrqSys) : IrqSys :=
  match s.getIrqDesc cpu irq with
  | none => s
  | some r =>
    match s.descs r with
    | none => s
    | some d =>
      if type = d.flags &&& IRQ_FLAGS_TYPE_MASK then s
      else
        let s := if chip.setType then s.chip (.setType irq type) else s
        s.modify r (.setType type)

/-- `request_irq` -/
def requestIrq (cpu irq handler : ℕ) (flags : BitVec 64) (data : ℕ) (s : IrqSys) : ℤ × IrqSys :=
  if handler = 0 then (-EINVAL, s)
  else
    match s.getIrqDesc cpu irq with
    | none => (-ENOENT, s)
    | some r =>
      let type := flags &&& IRQ_FLAGS_TYPE_MASK
      let flags := flags &&& ~~~IRQ_FLAGS_TYPE_MASK
      let s := (s.chip (.unmask irq)).modify r (.request handler flags data)
      (0, if type ≠ 0 then irqSetType chip cpu irq type s else s)

/-- A round of the loop of `request_irq_percpu` -/
def requestIrqOn (irq handler : ℕ) (flags : BitVec 64) (data : ℕ) (s : IrqSys) (i : ℕ) : IrqSys :=
  match s.getIrqDescCpu irq i with
  | none => s
  | some r => (s.chip (.unmaskCpu irq i)).modify r (.request handler flags data)

/-- `request_irq_percpu` -/
def requestIrqPercpu (irq handler : ℕ) (flags : BitVec 64) (data : ℕ) (s : IrqSys) : ℤ × IrqSys :=
  if NR_LOCAL_IRQS ≤ irq then (-EINVAL, s)
  else (0, (List.range nrCpus).foldl (requestIrqOn irq handler flags data) s)

end IrqSys

/-- The calls of the interface, with the cpu that makes them -/
inductive IrqCall where
  | request (cpu irq handler : ℕ) (flags : BitVec 64) (data : ℕ)
  | requestPercpu (irq handler : ℕ) (flags : BitVec 64) (data : ℕ)
  | enable (cpu irq : ℕ) (enable : Bool)
  | setAffinity (cpu irq : ℕ) (target : ℤ)
  | setType (cpu irq : ℕ) (type : BitVec 64)
deriving DecidableEq

/-- What `get_pending_irq` returns, and what the handler does if it is called: the calls of the
interface until it returns, its own and those of other cpus, and what it returns -/
structure PendingIrq where
  irq : ℕ
  calls : List IrqCall
  ret : ℤ

namespace IrqSys

variable (nrCpus : ℕ) (chip : IrqChip)

def call (s : IrqSys) : IrqCall → IrqSys
  | .request cpu irq handler flags data => (requestIrq chip cpu irq handler flags data s).2
  | .requestPercpu irq handler flags data => (requestIrqPercpu nrCpus irq handler flags data s).2
  | .enable cpu irq enable => irqEnable cpu irq enable s
  | .setAffinity cpu irq target => irqSetAffinity nrCpus chip cpu irq target s
  | .setType cpu irq type => irqSetType chip cpu irq type s

/-- `do_handle_host_irq` -/
def doHandleHostIrq (cpu : ℕ) (r : IrqRef) (p : PendingIrq) (s : IrqSys) : ℤ × IrqSys :=
  match s.descs r with
  | none => (0, s)
  | some desc =>
    let result :=
      if cpu ≠ desc.affinity then (-EINVAL, s)
      else if desc.handler = 0 then (-EINVAL, s)
      else
        let s := s.chip (.handler desc.hno desc.handler desc.pdata)
        (p.ret, exec (call nrCpus chip) s p.calls)
    match result.2.descs r with
    | none => result
    | some desc =>
      (result.1, if result.1 ≠ 0 ∨ ¬ desc.Vcpu then result.2.chip (.dir desc.hno) else result.2)

/-- A round of the loop of `do_irq_handler` for an irq that is not `BAD_IRQ`, and whether the loop
goes on, or what it returns -/
def handleIrq (cpu : ℕ) (p : PendingIrq) (s : IrqSys) : Option ℤ × IrqSys :=
  match s.getIrqDomain p.irq with
  | none => (some (-ENOENT), s.chip (.dir p.irq))
  | some (d, dom) =>
    let s := s.chip (.eoi p.irq)
    match s.domainGetIrqDesc cpu d dom p.irq with
    | none => (some (-EINVAL), s.chip (.dir p.irq))
    | some r => (none, (doHandleHostIrq nrCpus chip cpu r p s).2)

/-- `do_irq_handler`, with the irqs that are pending one after the other -/
def doIrqHandler (cpu : ℕ) : List PendingIrq → IrqSys → ℤ × IrqSys
  | [], s => (0, s)
  | p :: ps, s =>
    if p.irq = BAD_IRQ then (0, s)
    else
      match handleIrq nrCpus chip cpu p s with
      | (some ret, s) => (ret, s)
      | (none, s) => doIrqHandler cpu ps s

end IrqSys

end Minos.Core
