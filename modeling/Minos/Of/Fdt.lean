import Minos.Lib.ByteMem
import Minos.Of.Cells
import Minos.Of.NodeTree

/-!
# Flattened device trees

The functions of `external/libfdt` that `of_parse_device_tree` reads a blob with, down to its bytes,
and the parser on top of them. A pointer into the blob is an offset from its start, and an offset of
libfdt is one from the start of the structure block.

What a loop of libfdt returns depends on the blob alone, and some blobs keep it going for ever, so
the loops have fuel.
-/

namespace Minos.Of

open ByteMem

def FDT_MAGIC : ℕ := 0xd00dfeed
def FDT_SW_MAGIC : ℕ := 2 ^ 32 - 1 - FDT_MAGIC
def FDT_TAGSIZE : ℕ := 4
def FDT_BEGIN_NODE : ℕ := 1
def FDT_END_NODE : ℕ := 2
def FDT_PROP : ℕ := 3
def FDT_NOP : ℕ := 4
def FDT_END : ℕ := 9
def FDT_V1_SIZE : ℕ := 28
def FDT_V2_SIZE : ℕ := FDT_V1_SIZE + 4
def FDT_V3_SIZE : ℕ := FDT_V2_SIZE + 4
def FDT_V16_SIZE : ℕ := FDT_V3_SIZE
def FDT_V17_SIZE : ℕ := FDT_V16_SIZE + 4
def FDT_FIRST_SUPPORTED_VERSION : ℕ := 0x10
def FDT_LAST_SUPPORTED_VERSION : ℕ := 0x11
def FDT_ERR_NOTFOUND : ℤ := 1
def FDT_ERR_BADOFFSET : ℤ := 4
def FDT_ERR_BADSTATE : ℤ := 7
def FDT_ERR_TRUNCATED : ℤ := 8
def FDT_ERR_BADMAGIC : ℤ := 9
def FDT_ERR_BADVERSION : ℤ := 10
def FDT_ERR_BADSTRUCTURE : ℤ := 11
def FDT_ERR_INTERNAL : ℤ := 13
def INT_MAX : ℕ := 2 ^ 31 - 1

/-! ### The header -/

variable (b : Bytes)

/-- `fdt32_ld` -/
def fdt32 (p : ℕ) : ℕ :=
  (b p).toNat * 2 ^ 24 + (b (p + 1)).toNat * 2 ^ 16 + (b (p + 2)).toNat * 2 ^ 8 + (b (p + 3)).toNat

def fdtMagic : ℕ := fdt32 b 0
def fdtTotalsize : ℕ := fdt32 b 4
def fdtOffDtStruct : ℕ := fdt32 b 8
def fdtOffDtStrings : ℕ := fdt32 b 12
def fdtOffMemRsvmap : ℕ := fdt32 b 16
def fdtVersion : ℕ := fdt32 b 20
def fdtLastCompVersion : ℕ := fdt32 b 24
def fdtSizeDtStrings : ℕ := fdt32 b 32
def fdtSizeDtStruct : ℕ := fdt32 b 36

/-- `fdt_ro_probe_` -/
def fdtRoProbe : ℤ :=
  if fdtMagic b = FDT_MAGIC then
    if fdtVersion b < FDT_FIRST_SUPPORTED_VERSION then -FDT_ERR_BADVERSION
    else if FDT_LAST_SUPPORTED_VERSION < fdtLastCompVersion b then -FDT_ERR_BADVERSION
    else 0
  else if fdtMagic b = FDT_SW_MAGIC then
    if fdtSizeDtStruct b = 0 then -FDT_ERR_BADSTATE else 0
  else -FDT_ERR_BADMAGIC

/-- `check_off_` -/
def CheckOff (hdrsize totalsize off : ℕ) : Prop := hdrsize ≤ off ∧ off ≤ totalsize

/-- `check_block_` -/
def CheckBlock (hdrsize totalsize base size : ℕ) : Prop :=
  CheckOff hdrsize totalsize base ∧ ¬ (base + size) % 2 ^ 32 < base ∧
    CheckOff hdrsize totalsize ((base + size) % 2 ^ 32)

instance (hdrsize totalsize off : ℕ) : Decidable (CheckOff hdrsize totalsize off) :=
  inferInstanceAs (Decidable (_ ∧ _))

instance (hdrsize totalsize base size : ℕ) : Decidable (CheckBlock hdrsize totalsize base size) :=
  inferInstanceAs (Decidable (_ ∧ _ ∧ _))

/-- `fdt_header_size_` -/
def fdtHeaderSize (version : ℕ) : ℕ :=
  if version ≤ 1 then FDT_V1_SIZE
  else if version ≤ 2 then FDT_V2_SIZE
  else if version ≤ 3 then FDT_V3_SIZE
  else if version ≤ 16 then FDT_V16_SIZE
  else FDT_V17_SIZE

/-- `fdt_check_header` -/
def fdtCheckHeader : ℤ :=
  let hdrsize := fdtHeaderSize (fdtVersion b)
  if fdtMagic b ≠ FDT_MAGIC then -FDT_ERR_BADMAGIC
  else if fdtVersion b < FDT_FIRST_SUPPORTED_VERSION ∨
      FDT_LAST_SUPPORTED_VERSION < fdtLastCompVersion b then -FDT_ERR_BADVERSION
  else if fdtVersion b < fdtLastCompVersion b then -FDT_ERR_BADVERSION
  else if fdtTotalsize b < hdrsize ∨ INT_MAX < fdtTotalsize b then -FDT_ERR_TRUNCATED
  else if ¬ CheckOff hdrsize (fdtTotalsize b) (fdtOffMemRsvmap b) then -FDT_ERR_TRUNCATED
  else if fdtVersion b < 17 ∧ ¬ CheckOff hdrsize (fdtTotalsize b) (fdtOffDtStruct b) then
    -FDT_ERR_TRUNCATED
  else if 17 ≤ fdtVersion b ∧
      ¬ CheckBlock hdrsize (fdtTotalsize b) (fdtOffDtStruct b) (fdtSizeDtStruct b) then
    -FDT_ERR_TRUNCATED
  else if ¬ CheckBlock hdrsize (fdtTotalsize b) (fdtOffDtStrings b) (fdtSizeDtStrings b) then
    -FDT_ERR_TRUNCATED
  else 0

/-! ### Tags -/

/-- An `int` as an `unsigned int` -/
def uint32 (x : ℤ) : ℕ := (x % 2 ^ 32).toNat

/-- `fdt_offset_ptr` -/
def fdtOffsetPtr (offset : ℤ) (len : ℕ) : Option ℕ :=
  let off := uint32 offset
  let absoffset := (off + fdtOffDtStruct b) % 2 ^ 32
  if absoffset < off ∨ (absoffset + len) % 2 ^ 32 < absoffset ∨
      fdtTotalsize b < (absoffset + len) % 2 ^ 32 then none
  else if 0x11 ≤ fdtVersion b ∧
      ((off + len) % 2 ^ 32 < off ∨ fdtSizeDtStruct b < (off + len) % 2 ^ 32) then none
  else some (fdtOffDtStruct b + offset).toNat

/-- `FDT_TAGALIGN` -/
def fdtTagalign (x : ℤ) : ℤ := int32 ((x + 3) / 4 * 4)

/-- The loop of `fdt_next_tag` over a name: the offset after it -/
def fdtSkipName : ℕ → ℤ → Option ℤ
  | 0, _ => none
  | fuel + 1, offset =>
    match fdtOffsetPtr b offset 1 with
    | none => none
    | some p => if b p = 0 then some (offset + 1) else fdtSkipName fuel (offset + 1)

/-- The part of `fdt_next_tag` that skips what comes after a tag -/
def fdtSkipTag (tag : ℕ) (offset : ℤ) : Option ℤ :=
  if tag = FDT_BEGIN_NODE then fdtSkipName b (fdtTotalsize b + 1) offset
  else if tag = FDT_PROP then
    match fdtOffsetPtr b offset 4 with
    | none => none
    | some lenp =>
      let len := fdt32 b lenp
      let offset := int32 (offset + 8 + len)
      some (if fdtVersion b < 0x10 ∧ 8 ≤ len ∧ uint32 (offset - len) % 8 ≠ 0 then offset + 4
        else offset)
  else if tag = FDT_END ∨ tag = FDT_END_NODE ∨ tag = FDT_NOP then some offset
  else none

/-- `fdt_next_tag`: the tag and `*nextoffset` -/
def fdtNextTag (startoffset : ℤ) : ℕ × ℤ :=
  match fdtOffsetPtr b startoffset FDT_TAGSIZE with
  | none => (FDT_END, -FDT_ERR_TRUNCATED)
  | some tagp =>
    let tag := fdt32 b tagp
    match fdtSkipTag b tag (startoffset + FDT_TAGSIZE) with
    | none => (FDT_END, -FDT_ERR_BADSTRUCTURE)
    | some offset =>
      match fdtOffsetPtr b startoffset (uint32 (offset - startoffset)) with
      | none => (FDT_END, -FDT_ERR_BADSTRUCTURE)
      | some _ => (tag, fdtTagalign offset)

/-- `fdt_check_node_offset_` and `fdt_check_prop_offset_` -/
def fdtCheckOffset (tag : ℕ) (offset : ℤ) : ℤ :=
  if offset < 0 ∨ offset % FDT_TAGSIZE ≠ 0 ∨ (fdtNextTag b offset).1 ≠ tag then -FDT_ERR_BADOFFSET
  else (fdtNextTag b offset).2

def fdtCheckNodeOffset (offset : ℤ) : ℤ := fdtCheckOffset b FDT_BEGIN_NODE offset

def fdtCheckPropOffset (offset : ℤ) : ℤ := fdtCheckOffset b FDT_PROP offset

/-! ### Nodes -/

/-- The loop of `fdt_next_node`: what it returns, and `*depth` -/
def fdtNextNodeLoop : ℕ → ℤ → ℤ → Option (ℤ × ℤ)
  | 0, _, _ => none
  | fuel + 1, offset, depth =>
    let (tag, nextoffset) := fdtNextTag b offset
    if tag = FDT_BEGIN_NODE then some (offset, depth + 1)
    else if tag = FDT_END_NODE then
      if depth - 1 < 0 then some (nextoffset, depth - 1)
      else fdtNextNodeLoop fuel nextoffset (depth - 1)
    else if tag = FDT_END then some (if 0 ≤ nextoffset then -FDT_ERR_NOTFOUND else nextoffset, depth)
    else fdtNextNodeLoop fuel nextoffset depth

/-- `fdt_next_node`, with a depth -/
def fdtNextNode (fuel : ℕ) (offset depth : ℤ) : Option (ℤ × ℤ) :=
  if 0 ≤ offset then
    let nextoffset := fdtCheckNodeOffset b offset
    if nextoffset < 0 then some (nextoffset, depth) else fdtNextNodeLoop b fuel nextoffset depth
  else fdtNextNodeLoop b fuel 0 depth

/-- `fdt_first_subnode` -/
def fdtFirstSubnode (fuel : ℕ) (offset : ℤ) : Option ℤ :=
  (fdtNextNode b fuel offset 0).map fun r =>
    if r.1 < 0 ∨ r.2 ≠ 1 then -FDT_ERR_NOTFOUND else r.1

/-- The loop of `fdt_next_subnode` -/
def fdtNextSubnodeLoop : ℕ → ℤ → ℤ → Option ℤ
  | 0, _, _ => none
  | fuel + 1, offset, depth =>
    match fdtNextNode b fuel offset depth with
    | none => none
    | some (offset, depth) =>
      if offset < 0 ∨ depth < 1 then some (-FDT_ERR_NOTFOUND)
      else if 1 < depth then fdtNextSubnodeLoop fuel offset depth
      else some offset

/-- `fdt_next_subnode` -/
def fdtNextSubnode (fuel : ℕ) (offset : ℤ) : Option ℤ := fdtNextSubnodeLoop b fuel offset 1

/-- The bytes of a string, at most `n` of them -/
def cString : ℕ → ℕ → List UInt8
  | 0, _ => []
  | n + 1, p => if b p = 0 then [] else b p :: cString n (p + 1)

/-- `fdt_get_name` -/
def fdtGetName (nodeoffset : ℤ) : Option (List UInt8) :=
  if fdtRoProbe b ≠ 0 ∨ fdtCheckNodeOffset b nodeoffset < 0 then none
  else some (cString b (fdtTotalsize b) (fdtOffDtStruct b + nodeoffset + FDT_TAGSIZE).toNat)

/-! ### Properties -/

/-- `fdt_get_string`: the bytes of the string -/
def fdtGetString (stroffset : ℤ) : Option (List UInt8) :=
  let absoffset := uint32 (stroffset + fdtOffDtStrings b)
  if fdtRoProbe b ≠ 0 ∨ fdtTotalsize b ≤ absoffset ∨ fdtMagic b ≠ FDT_MAGIC ∨ stroffset < 0 then none
  else if 17 ≤ fdtVersion b ∧ fdtSizeDtStrings b ≤ uint32 stroffset then none
  else
    let len := fdtTotalsize b - absoffset
    let len := if 17 ≤ fdtVersion b then min len (fdtSizeDtStrings b - uint32 stroffset) else len
    let s := cString b len absoffset
    if s.length = len then none else some s

/-- `nextprop_` -/
def fdtNextprop : ℕ → ℤ → Option ℤ
  | 0, _ => none
  | fuel + 1, offset =>
    let (tag, nextoffset) := fdtNextTag b offset
    if tag = FDT_END then some (if 0 ≤ nextoffset then -FDT_ERR_BADSTRUCTURE else nextoffset)
    else if tag = FDT_PROP then some offset
    else if tag = FDT_NOP then fdtNextprop fuel nextoffset
    else some (-FDT_ERR_NOTFOUND)

/-- `fdt_first_property_offset` -/
def fdtFirstPropertyOffset (fuel : ℕ) (nodeoffset : ℤ) : Option ℤ :=
  let offset := fdtCheckNodeOffset b nodeoffset
  if offset < 0 then some offset else fdtNextprop b fuel offset

/-- `fdt_next_property_offset` -/
def fdtNextPropertyOffset (fuel : ℕ) (offset : ℤ) : Option ℤ :=
  let offset := fdtCheckPropOffset b offset
  if offset < 0 then some offset else fdtNextprop b fuel offset

/-- The loop of `fdt_get_property_namelen_`: the property with the name, if there is one -/
def fdtGetPropertyLoop (name : List UInt8) : ℕ → ℤ → Option (Option ℕ)
  | 0, _ => none
  | fuel + 1, offset =>
    if offset < 0 then some none
    else if fdtCheckPropOffset b offset < 0 then some none
    else
      let prop := (fdtOffDtStruct b + offset).toNat
      if fdtGetString b (int32 (fdt32 b (prop + 8))) = some name then some (some prop)
      else
        match fdtNextPropertyOffset b fuel offset with
        | none => none
        | some offset => fdtGetPropertyLoop name fuel offset

/-- `fdt_getprop`: the value and its length -/
def fdtGetprop (fuel : ℕ) (nodeoffset : ℤ) (name : List UInt8) : Option (Option (ℕ × ℤ)) :=
  match fdtFirstPropertyOffset b fuel nodeoffset with
  | none => none
  | some offset =>
    (fdtGetPropertyLoop b name fuel offset).map fun prop => prop.map fun prop =>
      let len := fdt32 b (prop + 4)
      let poffset := prop - fdtOffDtStruct b
      (if fdtVersion b < 0x10 ∧ (poffset + 12) % 8 ≠ 0 ∧ 8 ≤ len then prop + 16 else prop + 12,
        int32 len)

/-! ### The parser -/

/-- The characters of a string -/
def text (s : List UInt8) : String := String.ofList (s.map fun c => Char.ofNat c.toNat)

/-- The bytes of `"compatible"` -/
def compatibleName : List UInt8 := [99, 111, 109, 112, 97, 116, 105, 98, 108, 101]

/-- The property `compatible` of a node: its length, and its value up to a zero byte -/
def compatibleProp (fuel : ℕ) (node : ℤ) : Option (Option (ℤ × String)) :=
  (fdtGetprop b fuel node compatibleName).map fun data => data.map fun (p, len) =>
    (len, text (cString b len.toNat p))

/-- `__of_get_compatible` -/
def ofGetCompatible (fuel : ℕ) (node : ℤ) : Option (Option String) :=
  (compatibleProp b fuel node).map fun data => data.bind fun (len, s) =>
    if len = 0 then none else some s

/-- The loop of `__of_parse_device_node` from `child` on; `prev` is the node before, if there was
one. The name is not `NULL` for a subnode. -/
def NodeHeap.parseBlob (root : ℕ) : ℕ → ℤ → ℕ → Option ℕ → NodeHeap → Option NodeHeap
  | 0, _, _, _, _ => none
  | fuel + 1, child, pnode, prev, h =>
    if child < 0 then some h
    else do
      let name := text ((fdtGetName b child).getD [])
      let compatible ← ofGetCompatible b fuel child
      let node := h.count
      let h := h.addNode root pnode prev ⟨child, name, compatible⟩
      let first ← fdtFirstSubnode b fuel child
      let h ← parseBlob root fuel first node none h
      let next ← fdtNextSubnode b fuel child
      parseBlob root fuel next pnode (some node) h

/-- `of_parse_device_tree`: `NULL` if the header is invalid, and the nodes otherwise -/
def ofParseBlob (fuel : ℕ) : Option (Option NodeHeap) :=
  if fdtCheckHeader b ≠ 0 then some none
  else do
    let compatible ← compatibleProp b fuel 0
    let first ← fdtFirstSubnode b fuel 0
    let h ← (rootHeap (compatible.map Prod.snd)).parseBlob b 0 fuel first 0 none
    some (some h)

end Minos.Of
