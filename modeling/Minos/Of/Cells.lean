import Mathlib
import Minos.Types

/-!
# Cells of device tree properties

The properties of a device node are arrays of cells, and how many cells make an interrupt or an
address is said by other nodes of the same tree. The functions here return what they read of the
properties and what they write to their arrays of four cells beside their results, so that it can
be said which trees keep them inside.
-/

namespace Minos.Of

/-! ### Trees -/

inductive PropName where
  | interrupts
  | virqAffinity
  | reg
  | interruptParent
  | interruptCells
  | addressCells
  | sizeCells
  | ranges
deriving DecidableEq, Repr

/-- A property: its length in bytes, and the cells from where its data starts, inside or not. -/
structure FdtProp where
  len : ℕ
  cell : ℤ → BitVec 32

/-- A device tree blob as `fdt_getprop` and `fdt_node_offset_by_phandle` show it. -/
structure Fdt where
  prop : ℤ → PropName → Option FdtProp
  nodeOffsetByPhandle : BitVec 32 → ℤ

/-- A device node: its offset and those of its ancestors, the parent first. -/
abbrev NodePath := List ℤ

def OF_MAX_ADDR_CELLS : ℕ := 4
def OF_BAD_ADDR : BitVec 64 := BitVec.allOnes 64

/-- An `int` with the value `x`, as it wraps. -/
def int32 (x : ℤ) : ℤ := x.bmod (2 ^ 32)

namespace Fdt

variable (fdt : Fdt)

/-- `of_getprop` -/
def getprop (offset : ℤ) (name : PropName) : Option FdtProp :=
  if offset ≤ 0 then none
  else (fdt.prop offset name).filter fun p => 0 < p.len

/-- `__of_get_u32_array` with room for one cell: the cell, if there is one. -/
def getU32 (offset : ℤ) (name : PropName) : Option (BitVec 32) :=
  match fdt.getprop offset name with
  | none => none
  | some p => if p.len % 4 ≠ 0 then none else some (p.cell 0)

/-- `of_n_interrupt_cells` -/
def nInterruptCells : NodePath → ℤ
  | [] => 0
  | offset :: parents =>
    match fdt.prop offset .interruptParent with
    | none => nInterruptCells parents
    | some p =>
      let intc := fdt.nodeOffsetByPhandle (p.cell 0)
      if intc ≤ 0 then 0
      else
        match fdt.getU32 intc .interruptCells with
        | some ni => ni.toInt
        | none => nInterruptCells parents

/-- `of_n_addr_cells` and `of_n_size_cells`: the first of the ancestors that has the property, or
the root itself. -/
def nCells (name : PropName) (default : ℤ) : NodePath → ℤ
  | [] => default
  | [offset] => ((fdt.prop offset name).map fun p => (p.cell 0).toInt).getD default
  | _ :: parent :: parents =>
    match fdt.prop parent name with
    | some p => (p.cell 0).toInt
    | none => if parents = [] then default else nCells name default (parent :: parents)

/-- `of_n_addr_cells` -/
def nAddrCells (path : NodePath) : ℤ := fdt.nCells .addressCells 2 path

/-- `of_n_size_cells` -/
def nSizeCells (path : NodePath) : ℤ := fdt.nCells .sizeCells 1 path

/-- `of_bus_default_count_cells` -/
def countCells (offset : ℤ) : ℤ × ℤ :=
  (((fdt.prop offset .addressCells).map fun p => (p.cell 0).toInt).getD 2,
    ((fdt.prop offset .sizeCells).map fun p => (p.cell 0).toInt).getD 1)

end Fdt

/-- `of_check_counts` -/
def checkCounts (na ns : ℤ) : Bool := 0 < na ∧ na ≤ OF_MAX_ADDR_CELLS ∧ 0 < ns

/-! ### Accesses -/

/-- An access to a property of the device node, to the array of interrupt cells, or to the array of
address cells. -/
inductive Access where
  | read (name : PropName) (i : ℤ)
  | irq (i : ℤ)
  | addr (i : ℤ)
deriving DecidableEq, Repr

/-- The access is to a cell of the property, or of the array. -/
def Fdt.InBounds (fdt : Fdt) (offset : ℤ) : Access → Prop
  | .read name i => ∃ p, fdt.prop offset name = some p ∧ 0 ≤ i ∧ 4 * (i + 1) ≤ p.len
  | .irq i => 0 ≤ i ∧ i < 4
  | .addr i => 0 ≤ i ∧ i < OF_MAX_ADDR_CELLS

/-- What a function has done: its accesses, and its result. -/
structure Traced (α : Type) where
  accesses : List Access
  result : α

def Traced.Safe {α : Type} (t : Traced α) (fdt : Fdt) (offset : ℤ) : Prop :=
  ∀ a ∈ t.accesses, fdt.InBounds offset a

/-- The first `n` cells of an array of addresses. -/
def addrCells (n : ℤ) : List Access := (List.range n.toNat).map fun i : ℕ => .addr i

/-! ### Interrupts -/

/-- The loop that copies the cells of an interrupt to `irqv`. -/
def copyIrqCells (start n : ℤ) : List Access :=
  (List.range n.toNat).flatMap fun i : ℕ => [.read .interrupts (start + i), .irq i]

/-- The cells that the loop copies. -/
def irqCells (p : FdtProp) (start n : ℤ) : List (BitVec 32) :=
  (List.range n.toNat).map fun i : ℕ => p.cell (start + i)

/-- What a function that translates the cells of an interrupt returns: an error, or the irq. -/
abbrev Xlate := List (BitVec 32) → ℤ → ℤ ⊕ BitVec 32

/-- The body of `vm_get_device_irq_index` and `get_device_irq_index` -/
def Fdt.deviceIrqIndex (fdt : Fdt) (xlate : Xlate) (path : NodePath) (index : ℤ) :
    Traced (ℤ ⊕ BitVec 32) :=
  match path with
  | [] => ⟨[], .inl (- EINVAL)⟩
  | offset :: _ =>
    match fdt.getprop offset .interrupts with
    | none => ⟨[], .inl (- ENOENT)⟩
    | some value =>
      if value.len < 4 then ⟨[], .inl (- ENOENT)⟩
      else
        let cells := fdt.nInterruptCells path
        if cells = 0 then ⟨[], .inl (- ENOENT)⟩
        else if ((value.len / 4 : ℕ) : ℤ) ≤ index then ⟨[], .inl (- ENOENT)⟩
        else
          let start := int32 (index * cells)
          ⟨copyIrqCells start cells, xlate (irqCells value start cells) cells⟩

/-- `get_device_irq_index` -/
def getDeviceIrqIndex (fdt : Fdt) (irqXlate : Xlate) (path : NodePath) (index : ℤ) :
    Traced (ℤ ⊕ BitVec 32) :=
  fdt.deviceIrqIndex irqXlate path index

/-- `vm_get_device_irq_index`; `virqChip` is the `xlate` of the virq chip of the VM, if it has one.
-/
def vmGetDeviceIrqIndex (fdt : Fdt) (irqXlate : Xlate) (virqChip : Option Xlate) (path : NodePath)
    (index : ℤ) : Traced (ℤ ⊕ BitVec 32) :=
  fdt.deviceIrqIndex (virqChip.getD irqXlate) path index

/-- What `create_pdev_virq_of` knows before its loop. -/
structure PdevIrqs where
  val : FdtProp
  /-- the number of cells of the property -/
  len : ℤ
  cells : ℤ
  native : Bool
  /-- `virq_affinity`, when it is used for the hardware irqs -/
  affinity : Option FdtProp

/-- The loop of `create_pdev_virq_of` from cell `i` on: the virqs that are requested, with their
hardware irqs. With one to four cells for an interrupt `i` is far from the bounds of an `int`. -/
def PdevIrqs.loop (d : PdevIrqs) (xlate : Xlate) :
    ℕ → ℤ → Traced (List (BitVec 32 × BitVec 32))
  | 0, _ => ⟨[], []⟩
  | fuel + 1, i =>
    if i < d.len then
      let next := loop d xlate fuel (i + d.cells)
      match xlate (irqCells d.val i d.cells) d.cells with
      | .inl _ => ⟨copyIrqCells i d.cells ++ next.accesses, next.result⟩
      | .inr irq =>
        match d.native, d.affinity with
        | true, _ => ⟨copyIrqCells i d.cells ++ next.accesses, (irq, irq) :: next.result⟩
        | false, none => ⟨copyIrqCells i d.cells ++ next.accesses, (irq, 0) :: next.result⟩
        | false, some affinity =>
          ⟨copyIrqCells i d.cells ++ .read .virqAffinity (i.tdiv d.cells) :: next.accesses,
            (irq, affinity.cell (i.tdiv d.cells)) :: next.result⟩
    else ⟨[], []⟩

/-- The start of `create_pdev_virq_of`: its result, or what the loop works on. -/
def Fdt.pdevIrqs (fdt : Fdt) (native : Bool) (path : NodePath) : ℤ ⊕ PdevIrqs :=
  match path with
  | [] => .inl (- EINVAL)
  | offset :: _ =>
    match fdt.getprop offset .interrupts with
    | none => .inl (- EINVAL)
    | some val =>
      if val.len < 4 then .inl (- EINVAL)
      else
        let cells := fdt.nInterruptCells path
        if cells = 0 then .inl 0
        else .inr
          { val, cells, native
            len := ((val.len / 4 : ℕ) : ℤ)
            affinity := if native then none
              else (fdt.getprop offset .virqAffinity).filter fun p => p.len = val.len / 4 }

/-- `create_pdev_virq_of` with at most `fuel` rounds of its loop. -/
def createPdevVirqOf (fdt : Fdt) (xlate : Xlate) (native : Bool) (path : NodePath) (fuel : ℕ) :
    Traced (List (BitVec 32 × BitVec 32)) :=
  match fdt.pdevIrqs native path with
  | .inl _ => ⟨[], []⟩
  | .inr d => d.loop xlate fuel 0

/-! ### Addresses -/

/-- An array of addresses, or the cells of a property from one on. -/
abbrev CellArray := ℤ → BitVec 32

/-- `of_read_number` -/
def ofReadNumber (cell : CellArray) (size : ℤ) : BitVec 64 :=
  (List.range size.toNat).foldl (fun (r : BitVec 64) (i : ℕ) => r <<< 32 ||| (cell i).setWidth 64) 0

/-- `of_bus_default_map` -/
def busDefaultMap (addr range : CellArray) (na ns pna : ℤ) : BitVec 64 :=
  let cp := ofReadNumber range na
  let s := ofReadNumber (fun i => range (na + pna + i)) ns
  let da := ofReadNumber addr na
  if da < cp ∨ cp + s ≤ da then OF_BAD_ADDR else da - cp

/-- `memset(addr, 0, n * 4)` -/
def clearCells (addr : CellArray) (n : ℤ) : CellArray := fun i => if i < n then 0 else addr i

/-- `memcpy(addr, src, n * 4)` -/
def copyCells (addr src : CellArray) (n : ℤ) : CellArray :=
  fun i => if i < n then src i else addr i

/-- `of_bus_default_translate` -/
def busDefaultTranslate (addr : CellArray) (offset : BitVec 64) (na : ℤ) : Traced CellArray :=
  let a := ofReadNumber addr na + offset
  let cleared := clearCells addr na
  let high := if 1 < na then Function.update cleared (na - 2) ((a >>> 32).setWidth 32) else cleared
  ⟨addrCells na ++ (if 1 < na then [.addr (na - 2)] else []) ++ [.addr (na - 1)],
    Function.update high (na - 1) (a.setWidth 32)⟩

/-- The loop over the entries of `ranges`, from cell `pos` on: the offset in the entry that has the
address, and its place. -/
def rangesLoop (ranges : FdtProp) (addr : CellArray) (na ns pna : ℤ) :
    ℕ → ℤ → ℤ → Option (BitVec 64 × ℤ)
  | 0, _, _ => none
  | fuel + 1, rlen, pos =>
    let rone := na + pna + ns
    if rone ≤ rlen then
      let offset := busDefaultMap addr (fun i => ranges.cell (pos + i)) na ns pna
      if offset ≠ OF_BAD_ADDR then some (offset, pos)
      else rangesLoop ranges addr na ns pna fuel (rlen - rone) (pos + rone)
    else none

/-- `of_translate_one`: the address on the parent bus, or none if it is not found. -/
def ofTranslateOne (fdt : Fdt) (parent : ℤ) (addr : CellArray) (na ns pna : ℤ) :
    Traced (Option CellArray) :=
  match (fdt.prop parent .ranges).filter fun p => p.len ≠ 0 with
  | none =>
    let t := busDefaultTranslate (clearCells addr pna) (ofReadNumber addr na) pna
    ⟨addrCells na ++ addrCells pna ++ t.accesses, some t.result⟩
  | some ranges =>
    match rangesLoop ranges addr na ns pna (ranges.len / 4 + 1) ((ranges.len / 4 : ℕ) : ℤ) 0 with
    | none => ⟨addrCells na, none⟩
    | some (offset, pos) =>
      let t := busDefaultTranslate
        (copyCells addr (fun i => ranges.cell (pos + na + i)) pna) offset pna
      ⟨addrCells na ++ addrCells pna ++ t.accesses, some t.result⟩

/-- The loop of `__of_translate_address` from the node at `offset` up, which has the counts `na` and
`ns`. -/
def translateLoop (fdt : Fdt) : NodePath → CellArray → ℤ → ℤ → Traced (BitVec 64)
  | [], addr, na, _ => ⟨addrCells na, ofReadNumber addr na⟩
  | [_], addr, na, _ => ⟨addrCells na, ofReadNumber addr na⟩
  | offset :: parent :: parents, addr, na, ns =>
    if parent < 0 then ⟨addrCells na, ofReadNumber addr na⟩
    else
      let (pna, pns) := fdt.countCells parent
      if checkCounts pna pns = false then ⟨[], OF_BAD_ADDR⟩
      else
        let one := ofTranslateOne fdt offset addr na ns pna
        match one.result with
        | none => ⟨one.accesses, OF_BAD_ADDR⟩
        | some addr =>
          let rest := translateLoop fdt (parent :: parents) addr pna pns
          ⟨one.accesses ++ rest.accesses, rest.result⟩

/-- `__of_translate_address` for the cells of `reg` from `start` on -/
def ofTranslateAddress (fdt : Fdt) (path : NodePath) (reg : FdtProp) (start : ℤ) :
    Traced (BitVec 64) :=
  match path with
  | [] | [_] => ⟨[], OF_BAD_ADDR⟩
  | _ :: parent :: parents =>
    let (na, ns) := fdt.countCells parent
    if checkCounts na ns = false then ⟨[], OF_BAD_ADDR⟩
    else
      let t := translateLoop fdt (parent :: parents)
        (copyCells (fun _ => 0) (fun i => reg.cell (start + i)) na) na ns
      ⟨(List.range na.toNat).flatMap (fun i : ℕ => [.read .reg (start + i), .addr i]) ++ t.accesses,
        t.result⟩

/-- The cells `start` to `start + n - 1` of `reg` -/
def readReg (start n : ℤ) : List Access :=
  (List.range n.toNat).map fun i : ℕ => .read .reg (start + i)

/-- `of_translate_address_index`: an error, or the address and the size. -/
def ofTranslateAddressIndex (fdt : Fdt) (path : NodePath) (index : ℤ) :
    Traced (ℤ ⊕ BitVec 64 × BitVec 64) :=
  match path with
  | [] => ⟨[], .inl (- EINVAL)⟩
  | offset :: _ =>
    let na := fdt.nAddrCells path
    let ns := fdt.nSizeCells path
    if offset ≤ 0 ∨ na < 1 ∨ ns < 0 then ⟨[], .inl (- EINVAL)⟩
    else
      match fdt.prop offset .reg with
      | none => ⟨[], .inl (- ENOENT)⟩
      | some reg =>
        if (reg.len : ℤ) ≤ int32 (int32 (index * 4) * int32 (na + ns)) then ⟨[], .inl (- ENOENT)⟩
        else
          let start := int32 (index * int32 (na + ns))
          if ns = 0 then
            ⟨readReg start na, .inr (ofReadNumber (fun i => reg.cell (start + i)) na, 0)⟩
          else
            let t := ofTranslateAddress fdt path reg start
            if t.result = OF_BAD_ADDR then ⟨t.accesses, .inl (- EINVAL)⟩
            else
              let n := if ns = 2 then 2 else 1
              ⟨t.accesses ++ readReg (start + na) n,
                .inr (t.result, ofReadNumber (fun i => reg.cell (start + na + i)) n)⟩

/-! ### What stays inside -/

/-- The interrupt that is asked for is one of the property, and has at most four cells. -/
def IrqIndexFits (fdt : Fdt) (offset : ℤ) (parents : NodePath) (index : ℤ) : Prop :=
  ∀ value, fdt.getprop offset .interrupts = some value → 4 ≤ value.len →
    index < ((value.len / 4 : ℕ) : ℤ) → 0 < fdt.nInterruptCells (offset :: parents) →
      fdt.nInterruptCells (offset :: parents) ≤ 4 ∧
        0 ≤ int32 (index * fdt.nInterruptCells (offset :: parents)) ∧
        4 * (int32 (index * fdt.nInterruptCells (offset :: parents)) +
          fdt.nInterruptCells (offset :: parents)) ≤ value.len

/-- The property has a whole number of interrupts of at most four cells, and each one that is
translated has a cell of its own in `virq_affinity` when that is used. -/
def PdevFits (fdt : Fdt) (xlate : Xlate) (native : Bool) (path : NodePath) : Prop :=
  ∀ d, fdt.pdevIrqs native path = .inr d →
    (0 < d.cells → d.cells ≤ 4 ∧ d.cells ∣ d.len) ∧
      ∀ affinity, d.affinity = some affinity → ∀ k : ℕ, k * d.cells < d.len →
        (xlate (irqCells d.val (k * d.cells) d.cells) d.cells).isRight →
          4 * (k + 1) ≤ affinity.len

/-- The address and the size that are asked for are in `reg`, with the number of cells that
`of_n_addr_cells` and the parent say. -/
def RegFits (fdt : Fdt) (offset : ℤ) (parents : NodePath) (index : ℤ) : Prop :=
  let path := offset :: parents
  let na := fdt.nAddrCells path
  let ns := fdt.nSizeCells path
  let start := int32 (index * int32 (na + ns))
  ∀ reg, 0 < offset → 1 ≤ na → 0 ≤ ns → fdt.prop offset .reg = some reg →
    int32 (int32 (index * 4) * int32 (na + ns)) < reg.len →
      if ns = 0 then 0 ≤ start ∧ 4 * (start + na) ≤ reg.len
      else
        (∀ parent ∈ parents.head?,
          checkCounts (fdt.countCells parent).1 (fdt.countCells parent).2 = true →
            0 ≤ start ∧ 4 * (start + (fdt.countCells parent).1) ≤ reg.len) ∧
        ((ofTranslateAddress fdt path reg start).result ≠ OF_BAD_ADDR →
          0 ≤ start + na ∧ 4 * (start + na + if ns = 2 then 2 else 1) ≤ reg.len)

variable {fdt : Fdt} {offset : ℤ} {p : FdtProp}

lemma inBounds_read_iff {name : PropName} (h : fdt.prop offset name = some p) (i : ℤ) :
    fdt.InBounds offset (.read name i) ↔ 0 ≤ i ∧ 4 * (i + 1) ≤ p.len := by
  simp [Fdt.InBounds, h]

lemma prop_of_getprop {name : PropName} (h : fdt.getprop offset name = some p) :
    fdt.prop offset name = some p := by
  unfold Fdt.getprop at h
  split_ifs at h
  exact (Option.filter_eq_some_iff.1 h).1

/-- A block of cells is inside when its first and its last cell are. -/
lemma forall_read_iff {name : PropName} (h : fdt.prop offset name = some p) (start n : ℤ) :
    (∀ i : ℕ, (i : ℤ) < n → fdt.InBounds offset (.read name (start + i))) ↔
      (0 < n → 0 ≤ start ∧ 4 * (start + n) ≤ p.len) := by
  constructor
  · intro hall hn
    have hfirst := (inBounds_read_iff h _).1 (hall 0 (by simpa using hn))
    have hlast := (inBounds_read_iff h _).1 (hall (n - 1).toNat (by omega))
    omega
  · intro hfits i hi
    obtain ⟨hlo, hhi⟩ := hfits (by omega)
    exact (inBounds_read_iff h _).2 ⟨by omega, by omega⟩

lemma copyIrqCells_inBounds_iff (h : fdt.prop offset .interrupts = some p) (start n : ℤ) :
    (∀ a ∈ copyIrqCells start n, fdt.InBounds offset a) ↔
      (0 < n → n ≤ 4 ∧ 0 ≤ start ∧ 4 * (start + n) ≤ p.len) := by
  have hsplit : (∀ a ∈ copyIrqCells start n, fdt.InBounds offset a) ↔
      (∀ i : ℕ, (i : ℤ) < n → fdt.InBounds offset (.read .interrupts (start + i))) ∧
        ∀ i : ℕ, (i : ℤ) < n → i < 4 := by
    simp only [copyIrqCells, List.mem_flatMap, List.mem_range, Int.lt_toNat]
    constructor
    · intro hall
      refine ⟨fun i hi => hall _ ⟨i, hi, by simp⟩, fun i hi => ?_⟩
      have := (hall (.irq i) ⟨i, hi, by simp⟩).2
      omega
    · rintro ⟨hread, hirq⟩ a ⟨i, hi, ha⟩
      simp only [List.mem_cons, List.not_mem_nil, or_false] at ha
      rcases ha with rfl | rfl
      · exact hread i hi
      · have := hirq i hi
        exact ⟨by omega, by omega⟩
  have hirq : (∀ i : ℕ, (i : ℤ) < n → i < 4) ↔ n ≤ 4 := by
    constructor
    · intro hall
      by_contra hn
      have := hall 4 (by omega)
      omega
    · intro hn i hi
      omega
  rw [hsplit, forall_read_iff h, hirq]
  constructor
  · rintro ⟨hfits, hn⟩ hpos
    exact ⟨hn, hfits hpos⟩
  · intro hfits
    refine ⟨fun hpos => (hfits hpos).2, ?_⟩
    by_contra hn
    exact hn (hfits (by omega)).1

/-! ### Interrupts -/

lemma deviceIrqIndex_safe_iff (xlate : Xlate) (parents : NodePath) (index : ℤ) :
    (fdt.deviceIrqIndex xlate (offset :: parents) index).Safe fdt offset ↔
      IrqIndexFits fdt offset parents index := by
  have hsafe : ∀ r : ℤ ⊕ BitVec 32, (⟨[], r⟩ : Traced _).Safe fdt offset := fun r a ha => by
    simp at ha
  unfold Fdt.deviceIrqIndex IrqIndexFits
  dsimp only
  rcases hval : fdt.getprop offset .interrupts with _ | value
  · exact iff_of_true (hsafe _) fun value h => by simp at h
  · dsimp only
    have hprop := prop_of_getprop hval
    split_ifs with h4 h0 hlen
    · refine iff_of_true (hsafe _) fun value' h hlen => ?_
      obtain rfl : value = value' := by simpa using h
      omega
    · refine iff_of_true (hsafe _) fun value' _ _ _ hpos => ?_
      omega
    · refine iff_of_true (hsafe _) fun value' h _ hindex => ?_
      obtain rfl : value = value' := by simpa using h
      omega
    · refine (copyIrqCells_inBounds_iff hprop _ _).trans ⟨fun hfits value' h _ _ hpos => ?_,
        fun hfits hpos => hfits value rfl (by omega) (by omega) hpos⟩
      obtain rfl : value = value' := by simpa using h
      exact hfits hpos

namespace PdevIrqs

variable {d : PdevIrqs} {xlate : Xlate}

/-- Round `k` of the loop stays inside. -/
def RoundFits (d : PdevIrqs) (fdt : Fdt) (offset : ℤ) (xlate : Xlate) (k : ℕ) : Prop :=
  (∀ a ∈ copyIrqCells (k * d.cells) d.cells, fdt.InBounds offset a) ∧
    (d.native = false → d.affinity.isSome →
      (xlate (irqCells d.val (k * d.cells) d.cells) d.cells).isRight →
        fdt.InBounds offset (.read .virqAffinity k))

/-- The accesses of one round, and of the rest of the loop. -/
lemma loop_safe_succ (hcells : d.cells ≠ 0) {fuel k : ℕ} (hlt : k * d.cells < d.len) :
    (d.loop xlate (fuel + 1) (k * d.cells)).Safe fdt offset ↔
      d.RoundFits fdt offset xlate k ∧
        (d.loop xlate fuel ((k + 1 : ℕ) * d.cells)).Safe fdt offset := by
  have hnext : (k : ℤ) * d.cells + d.cells = ((k + 1 : ℕ) : ℤ) * d.cells := by
    push_cast
    ring
  have hdiv : ((k : ℤ) * d.cells).tdiv d.cells = k := Int.mul_tdiv_cancel _ hcells
  unfold RoundFits Traced.Safe
  rw [loop, if_pos hlt, hnext, hdiv]
  dsimp only
  rcases xlate (irqCells d.val (k * d.cells) d.cells) d.cells with e | irq
  · simp [or_imp, forall_and]
  · rcases hnative : d.native with _ | _ <;> rcases haff : d.affinity with _ | affinity <;>
      simp [or_imp, forall_and, and_assoc]

/-- The loop stays inside when each of its rounds does. -/
lemma loop_safe_iff (hcells : d.cells ≠ 0) (hlen : 0 < d.len) (fuel k : ℕ) :
    (d.loop xlate fuel (k * d.cells)).Safe fdt offset ↔
      ∀ m, k ≤ m → m < k + fuel → m * d.cells < d.len → d.RoundFits fdt offset xlate m := by
  induction fuel generalizing k with
  | zero =>
    refine iff_of_true (fun a ha => by simp [loop] at ha) fun m h₁ h₂ => by omega
  | succ fuel ih =>
    by_cases hlt : k * d.cells < d.len
    · rw [loop_safe_succ hcells hlt, ih]
      constructor
      · rintro ⟨hround, hrest⟩ m hlo hhi hm
        rcases eq_or_lt_of_le hlo with rfl | hgt
        · exact hround
        · exact hrest m hgt (by omega) hm
      · exact fun hall => ⟨hall k le_rfl (by omega) hlt,
          fun m hlo hhi hm => hall m (by omega) (by omega) hm⟩
    · refine iff_of_true (fun a ha => by simp [loop, hlt] at ha) fun m hlo _ hm => ?_
      -- a step forwards does not come back below the length
      have hpos : 0 < d.cells := by
        by_contra hneg
        have : (k : ℤ) * d.cells ≤ 0 := mul_nonpos_of_nonneg_of_nonpos (by omega) (by omega)
        omega
      have : (k : ℤ) * d.cells ≤ m * d.cells :=
        mul_le_mul_of_nonneg_right (by exact_mod_cast hlo) hpos.le
      omega

end PdevIrqs

/-- The rounds of a loop with step `c` up to `len` are all whole when `c` divides `len`. -/
lemma forall_round_iff {c len : ℤ} (hc : 0 < c) (hlen : 0 < len) :
    (∀ m : ℕ, m * c < len → m * c + c ≤ len) ↔ c ∣ len := by
  constructor
  · intro hall
    have hdiv := Int.emod_add_mul_ediv (len - 1) c
    have hmod := Int.emod_nonneg (len - 1) hc.ne'
    have hmod' := Int.emod_lt_of_pos (len - 1) hc
    have hnonneg : 0 ≤ (len - 1) / c := Int.ediv_nonneg (by omega) hc.le
    have hround := hall ((len - 1) / c).toNat
    rw [Int.toNat_of_nonneg hnonneg, mul_comm] at hround
    exact ⟨(len - 1) / c + 1, by rw [mul_add]; omega⟩
  · rintro ⟨q, rfl⟩ m hm
    have hlt : (m : ℤ) < q := by
      rw [mul_comm] at hm
      exact lt_of_mul_lt_mul_left hm hc.le
    calc (m : ℤ) * c + c = c * (m + 1) := by ring
      _ ≤ c * q := mul_le_mul_of_nonneg_left hlt hc.le

/-- What the loop of `create_pdev_virq_of` works on. -/
lemma pdevIrqs_spec {native : Bool} {parents : NodePath} {d : PdevIrqs}
    (h : fdt.pdevIrqs native (offset :: parents) = .inr d) :
    fdt.prop offset .interrupts = some d.val ∧ 0 < d.len ∧ d.len = ((d.val.len / 4 : ℕ) : ℤ) ∧
      d.cells ≠ 0 ∧ ∀ affinity, d.affinity = some affinity →
        d.native = false ∧ fdt.prop offset .virqAffinity = some affinity := by
  unfold Fdt.pdevIrqs at h
  dsimp only at h
  rcases hval : fdt.getprop offset .interrupts with _ | val
  · simp [hval] at h
  · rw [hval] at h
    dsimp only at h
    split_ifs at h with h4 h0
    all_goals obtain rfl := Sum.inr.inj h
    · exact ⟨prop_of_getprop hval, by dsimp only; omega, rfl, h0, fun affinity haff => nomatch haff⟩
    · rename_i hnative
      refine ⟨prop_of_getprop hval, by dsimp only; omega, rfl, h0, fun affinity haff => ?_⟩
      exact ⟨by simpa using hnative, prop_of_getprop (Option.filter_eq_some_iff.1 haff).1⟩

/-- The loop of `create_pdev_virq_of` stays inside its properties and its array, however long it
runs, just when the interrupts fit. -/
lemma createPdevVirqOf_safe_iff (xlate : Xlate) (native : Bool) (parents : NodePath) :
    (∀ fuel, (createPdevVirqOf fdt xlate native (offset :: parents) fuel).Safe fdt offset) ↔
      PdevFits fdt xlate native (offset :: parents) := by
  unfold createPdevVirqOf PdevFits
  rcases hd : fdt.pdevIrqs native (offset :: parents) with e | d
  · exact iff_of_true (fun _ a ha => by simp at ha) fun d h => by simp at h
  · obtain ⟨hprop, hpos, hlen, hcells, haff⟩ := pdevIrqs_spec hd
    have hrounds : (∀ fuel, (d.loop xlate fuel 0).Safe fdt offset) ↔
        ∀ m : ℕ, m * d.cells < d.len → d.RoundFits fdt offset xlate m := by
      have hloop : ∀ fuel k : ℕ, (d.loop xlate fuel (k * d.cells)).Safe fdt offset ↔ _ :=
        d.loop_safe_iff hcells hpos
      constructor
      · intro hall m hm
        refine (hloop (m + 1) 0).1 ?_ m (Nat.zero_le _) (by omega) hm
        simpa using hall (m + 1)
      · intro hall fuel
        have := (hloop fuel 0).2 fun m _ _ hm => hall m hm
        simpa using this
    have hcopy : (∀ m : ℕ, m * d.cells < d.len →
        ∀ a ∈ copyIrqCells (m * d.cells) d.cells, fdt.InBounds offset a) ↔
          (0 < d.cells → d.cells ≤ 4 ∧ d.cells ∣ d.len) := by
      simp only [copyIrqCells_inBounds_iff hprop]
      constructor
      · intro hall hc
        refine ⟨(hall 0 (by simpa using hpos) hc).1, (forall_round_iff hc hpos).1 fun m hm => ?_⟩
        have := (hall m hm hc).2.2
        omega
      · intro hfits m hm hc
        have := (forall_round_iff hc hpos).2 (hfits hc).2 m hm
        exact ⟨(hfits hc).1, mul_nonneg (by omega) hc.le, by omega⟩
    have hread : (∀ m : ℕ, m * d.cells < d.len → d.native = false → d.affinity.isSome →
        (xlate (irqCells d.val (m * d.cells) d.cells) d.cells).isRight →
          fdt.InBounds offset (.read .virqAffinity m)) ↔
        ∀ affinity, d.affinity = some affinity → ∀ k : ℕ, k * d.cells < d.len →
          (xlate (irqCells d.val (k * d.cells) d.cells) d.cells).isRight →
            4 * (k + 1) ≤ affinity.len := by
      constructor
      · intro hall affinity ha k hk hright
        obtain ⟨hnative, hprop'⟩ := haff affinity ha
        have := (inBounds_read_iff hprop' k).1 (hall k hk hnative (by rw [ha]; rfl) hright)
        omega
      · intro hall m hm _ hsome hright
        obtain ⟨affinity, ha⟩ := Option.isSome_iff_exists.1 hsome
        have := hall affinity ha m hm hright
        exact (inBounds_read_iff (haff affinity ha).2 m).2 ⟨by omega, by omega⟩
    calc (∀ fuel, (d.loop xlate fuel 0).Safe fdt offset)
        ↔ ∀ m : ℕ, m * d.cells < d.len → d.RoundFits fdt offset xlate m := hrounds
      _ ↔ (∀ m : ℕ, m * d.cells < d.len →
            ∀ a ∈ copyIrqCells (m * d.cells) d.cells, fdt.InBounds offset a) ∧
          ∀ m : ℕ, m * d.cells < d.len → d.native = false → d.affinity.isSome →
            (xlate (irqCells d.val (m * d.cells) d.cells) d.cells).isRight →
              fdt.InBounds offset (.read .virqAffinity m) := by
        simp only [PdevIrqs.RoundFits, ← forall_and]
      _ ↔ _ := by
        rw [hcopy, hread]
        exact ⟨fun h d' hd' => Sum.inr.inj hd' ▸ h, fun h => h d rfl⟩

/-! ### Addresses -/

lemma addrCells_inBounds {n : ℤ} (hn : n ≤ 4) : ∀ a ∈ addrCells n, fdt.InBounds offset a := by
  intro a ha
  obtain ⟨i, hi, rfl⟩ := List.mem_map.1 ha
  rw [List.mem_range, Int.lt_toNat] at hi
  exact ⟨by omega, by unfold OF_MAX_ADDR_CELLS; omega⟩

lemma checkCounts_iff {na ns : ℤ} : checkCounts na ns = true ↔ 0 < na ∧ na ≤ 4 ∧ 0 < ns := by
  unfold checkCounts
  rw [decide_eq_true_iff]
  rfl

lemma busDefaultTranslate_safe (addr : CellArray) (off : BitVec 64) {na : ℤ} (hpos : 0 < na)
    (hna : na ≤ 4) : (busDefaultTranslate addr off na).Safe fdt offset := by
  intro a ha
  simp only [busDefaultTranslate, List.mem_append, List.mem_singleton] at ha
  rcases ha with (ha | ha) | rfl
  · exact addrCells_inBounds hna a ha
  · split_ifs at ha with h1
    · obtain rfl := List.mem_singleton.1 ha
      exact ⟨by omega, by unfold OF_MAX_ADDR_CELLS; omega⟩
    · simp at ha
  · exact ⟨by omega, by unfold OF_MAX_ADDR_CELLS; omega⟩

lemma ofTranslateOne_safe (parent : ℤ) (addr : CellArray) (ns : ℤ) {na pna : ℤ} (hna : na ≤ 4)
    (hpos : 0 < pna) (hpna : pna ≤ 4) :
    (ofTranslateOne fdt parent addr na ns pna).Safe fdt offset := by
  have hcells : ∀ a ∈ addrCells na ++ addrCells pna, fdt.InBounds offset a := by
    intro a ha
    rcases List.mem_append.1 ha with ha | ha
    · exact addrCells_inBounds hna a ha
    · exact addrCells_inBounds hpna a ha
  unfold ofTranslateOne
  split
  · intro a ha
    rcases List.mem_append.1 ha with ha | ha
    · exact hcells a ha
    · exact busDefaultTranslate_safe _ _ hpos hpna a ha
  · split
    · exact addrCells_inBounds hna
    · intro a ha
      rcases List.mem_append.1 ha with ha | ha
      · exact hcells a ha
      · exact busDefaultTranslate_safe _ _ hpos hpna a ha

/-- The address array is never left, whatever the counts of the ancestors are. -/
lemma translateLoop_safe (path : NodePath) (addr : CellArray) {na : ℤ} (ns : ℤ) (hna : na ≤ 4) :
    (translateLoop fdt path addr na ns).Safe fdt offset := by
  induction path generalizing addr na ns with
  | nil => exact addrCells_inBounds hna
  | cons node parents ih =>
    cases parents with
    | nil => exact addrCells_inBounds hna
    | cons parent parents =>
      rw [translateLoop]
      split_ifs with hroot
      · exact addrCells_inBounds hna
      · dsimp only
        split_ifs with hcheck
        · exact fun a ha => by simp at ha
        · rw [Bool.not_eq_false, checkCounts_iff] at hcheck
          have hone : (ofTranslateOne fdt node addr na ns (fdt.countCells parent).1).Safe fdt
              offset := ofTranslateOne_safe node addr ns hna hcheck.1 hcheck.2.1
          split
          · exact hone
          · intro a ha
            rcases List.mem_append.1 ha with ha | ha
            · exact hone a ha
            · exact ih _ _ hcheck.2.1 a ha

lemma readReg_inBounds_iff (h : fdt.prop offset .reg = some p) (start n : ℤ) :
    (∀ a ∈ readReg start n, fdt.InBounds offset a) ↔
      (0 < n → 0 ≤ start ∧ 4 * (start + n) ≤ p.len) := by
  rw [← forall_read_iff h]
  simp [readReg, Int.lt_toNat]

/-- `__of_translate_address` stays inside when the cells that the parent says are there. -/
lemma ofTranslateAddress_safe_iff (h : fdt.prop offset .reg = some p) (parents : NodePath)
    (start : ℤ) : (ofTranslateAddress fdt (offset :: parents) p start).Safe fdt offset ↔
      ∀ parent ∈ parents.head?,
        checkCounts (fdt.countCells parent).1 (fdt.countCells parent).2 = true →
          0 ≤ start ∧ 4 * (start + (fdt.countCells parent).1) ≤ p.len := by
  unfold ofTranslateAddress
  cases parents with
  | nil => exact iff_of_true (fun a ha => by simp at ha) fun parent hp => by simp at hp
  | cons parent parents =>
    dsimp only
    simp only [List.head?_cons, Option.mem_def, Option.some.injEq, forall_eq']
    split_ifs with hcheck
    · exact iff_of_true (fun a ha => by simp at ha) fun hc => by simp [hcheck] at hc
    · rw [Bool.not_eq_false] at hcheck
      obtain ⟨hpos, hna, -⟩ := checkCounts_iff.1 hcheck
      have hcopy := forall_read_iff h start (fdt.countCells parent).1
      constructor
      · intro hsafe _
        refine hcopy.1 (fun i hi => hsafe _ (List.mem_append_left _ ?_)) hpos
        exact List.mem_flatMap.2 ⟨i, by simpa [Int.lt_toNat] using hi, by simp⟩
      · intro hfits a ha
        rcases List.mem_append.1 ha with ha | ha
        · obtain ⟨i, hi, ha⟩ := List.mem_flatMap.1 ha
          rw [List.mem_range, Int.lt_toNat] at hi
          simp only [List.mem_cons, List.not_mem_nil, or_false] at ha
          rcases ha with rfl | rfl
          · exact hcopy.2 (fun _ => hfits hcheck) i hi
          · exact ⟨by omega, by unfold OF_MAX_ADDR_CELLS; omega⟩
        · exact translateLoop_safe _ _ _ hna a ha

lemma ofTranslateAddressIndex_safe_iff (parents : NodePath) (index : ℤ) :
    (ofTranslateAddressIndex fdt (offset :: parents) index).Safe fdt offset ↔
      RegFits fdt offset parents index := by
  have hsafe : ∀ r : ℤ ⊕ BitVec 64 × BitVec 64, (⟨[], r⟩ : Traced _).Safe fdt offset :=
    fun r a ha => by simp at ha
  unfold ofTranslateAddressIndex RegFits
  dsimp only
  generalize fdt.nAddrCells (offset :: parents) = na
  generalize fdt.nSizeCells (offset :: parents) = ns
  by_cases hrefused : offset ≤ 0 ∨ na < 1 ∨ ns < 0
  · rw [if_pos hrefused]
    refine iff_of_true (hsafe _) fun reg h₁ h₂ h₃ => ?_
    omega
  · rw [if_neg hrefused]
    push Not at hrefused
    obtain ⟨hoffset, hna, hns⟩ := hrefused
    rcases hreg : fdt.prop offset .reg with _ | reg
    · exact iff_of_true (hsafe _) fun reg _ _ _ h => by simp at h
    · dsimp only
      by_cases hlen : (reg.len : ℤ) ≤ int32 (int32 (index * 4) * int32 (na + ns))
      · rw [if_pos hlen]
        refine iff_of_true (hsafe _) fun reg' _ _ _ h hlt => ?_
        obtain rfl : reg = reg' := by simpa using h
        omega
      · rw [if_neg hlen]
        generalize int32 (index * int32 (na + ns)) = start
        have hone : ∀ P : FdtProp → Prop, (∀ reg', 0 < offset → 1 ≤ na → 0 ≤ ns →
            some reg = some reg' → int32 (int32 (index * 4) * int32 (na + ns)) < reg'.len →
              P reg') ↔ P reg := by
          intro P
          constructor
          · exact fun hall => hall reg hoffset hna hns rfl (by omega)
          · rintro hP reg' - - - heq -
            exact Option.some.inj heq ▸ hP
        rw [hone]
        by_cases h0 : ns = 0
        · rw [if_pos h0, if_pos h0]
          exact (readReg_inBounds_iff hreg start na).trans ⟨fun h => h (by omega), fun h _ => h⟩
        · rw [if_neg h0, if_neg h0]
          have htrans := ofTranslateAddress_safe_iff hreg parents start
          by_cases hbad :
              (ofTranslateAddress fdt (offset :: parents) reg start).result = OF_BAD_ADDR
          · rw [if_pos hbad, ← htrans]
            exact ⟨fun h => ⟨h, fun hne => absurd hbad hne⟩, fun h => h.1⟩
          · rw [if_neg hbad, ← htrans]
            have hsize : 0 < (if ns = 2 then (2 : ℤ) else 1) := by split_ifs <;> norm_num
            have hread := readReg_inBounds_iff hreg (start + na) (if ns = 2 then 2 else 1)
            constructor
            · intro hall
              exact ⟨fun a ha => hall a (List.mem_append_left _ ha), fun _ =>
                hread.1 (fun a ha => hall a (List.mem_append_right _ ha)) hsize⟩
            · rintro ⟨htr, hfits⟩ a ha
              rcases List.mem_append.1 ha with ha | ha
              · exact htr a ha
              · exact hread.2 (fun _ => hfits hbad) a ha

/-- **Cells of device tree properties.** Which trees and indexes keep the four functions inside the
properties of the node at `offset` and inside their arrays. -/
theorem cells_safe_iff (fdt : Fdt) (offset : ℤ) (parents : NodePath) :
    (∀ irqXlate virqChip index,
      (vmGetDeviceIrqIndex fdt irqXlate virqChip (offset :: parents) index).Safe fdt offset ↔
        IrqIndexFits fdt offset parents index) ∧
    (∀ irqXlate index,
      (getDeviceIrqIndex fdt irqXlate (offset :: parents) index).Safe fdt offset ↔
        IrqIndexFits fdt offset parents index) ∧
    (∀ xlate native,
      (∀ fuel, (createPdevVirqOf fdt xlate native (offset :: parents) fuel).Safe fdt offset) ↔
        PdevFits fdt xlate native (offset :: parents)) ∧
    ∀ index, (ofTranslateAddressIndex fdt (offset :: parents) index).Safe fdt offset ↔
      RegFits fdt offset parents index :=
  ⟨fun _ _ => deviceIrqIndex_safe_iff _ parents, fun _ => deviceIrqIndex_safe_iff _ parents,
    fun xlate native => createPdevVirqOf_safe_iff xlate native parents,
    ofTranslateAddressIndex_safe_iff parents⟩

/-- A device at offset 8 under the root with four cells of interrupts, of which three are an
interrupt, and one cell in `reg`. -/
def shortTree : Fdt where
  prop offset name :=
    match name with
    | .interrupts => if offset = 8 then some ⟨16, fun _ => 1⟩ else none
    | .interruptParent => if offset = 8 then some ⟨4, fun _ => 1⟩ else none
    | .interruptCells => if offset = 4 then some ⟨4, fun _ => 3⟩ else none
    | .reg => if offset = 8 then some ⟨4, fun _ => 0x1000⟩ else none
    | _ => none
  nodeOffsetByPhandle _ := 4

/-- The second interrupt and the rest of the first address are read behind the properties. -/
theorem cells_overrun :
    ¬(vmGetDeviceIrqIndex shortTree (fun _ _ => .inr 0) none [8, 0] 1).Safe shortTree 8 ∧
      ¬(getDeviceIrqIndex shortTree (fun _ _ => .inr 0) [8, 0] 1).Safe shortTree 8 ∧
      ¬(createPdevVirqOf shortTree (fun _ _ => .inr 0) true [8, 0] 2).Safe shortTree 8 ∧
      ¬(ofTranslateAddressIndex shortTree [8, 0] 0).Safe shortTree 8 := by
  have hirq : ¬shortTree.InBounds 8 (.read .interrupts 5) := fun h =>
    absurd ((inBounds_read_iff rfl 5).1 h).2 (by decide)
  have hreg : ¬shortTree.InBounds 8 (.read .reg 1) := fun h =>
    absurd ((inBounds_read_iff rfl 1).1 h).2 (by decide)
  refine ⟨fun h => hirq (h _ ?_), fun h => hirq (h _ ?_), fun h => hirq (h _ ?_),
    fun h => hreg (h _ ?_)⟩
  all_goals decide +kernel

end Minos.Of
