import Mathlib

/-!
# Device nodes

`of_parse_device_tree` makes a `struct device_node` for each node of the blob. The nodes are linked
as a tree by their parents, first children and siblings, and all together in a list that starts at
the root. The tree is for `of_iterate_all_node`, the list for `of_release_all_node`.
-/

namespace Minos.Of

/-! ### The blob and the nodes -/

/-- What is copied from the blob to a device node. -/
structure FdtInfo where
  offset : ℤ
  name : String
  compatible : Option String
deriving DecidableEq, Repr

/-- The subnodes of a node of the blob, in the order of `fdt_for_each_subnode`, each with its own
subnodes. -/
inductive Subnodes where
  | nil
  | cons (info : FdtInfo) (children rest : Subnodes)
deriving DecidableEq, Repr

namespace Subnodes

def size : Subnodes → ℕ
  | nil => 0
  | cons _ children rest => 1 + children.size + rest.size

/-- The first of the subnodes, if the nodes from number `b` on are theirs. -/
def first (b : ℕ) : Subnodes → Option ℕ
  | nil => none
  | cons _ _ _ => some b

end Subnodes

/-- `struct device_node`. A pointer is the number of the allocation, or `none`. -/
structure DeviceNode extends FdtInfo where
  parent : Option ℕ
  child : Option ℕ
  sibling : Option ℕ
  next : Option ℕ
deriving DecidableEq, Repr

/-- A node as `zalloc` returns it -/
def DeviceNode.zero : DeviceNode := ⟨⟨0, "", none⟩, none, none, none, none⟩

/-- The nodes that were allocated. -/
structure NodeHeap where
  nodes : ℕ → DeviceNode
  count : ℕ

namespace NodeHeap

/-- `alloc_device_node`, when there is memory: the new node has the number `count`. -/
def allocDeviceNode (h : NodeHeap) : NodeHeap :=
  ⟨Function.update h.nodes h.count .zero, h.count + 1⟩

def modify (h : NodeHeap) (x : ℕ) (f : DeviceNode → DeviceNode) : NodeHeap :=
  { h with nodes := Function.update h.nodes x (f (h.nodes x)) }

/-- What the loop of `__of_parse_device_node` does for one subnode, up to its own subnodes. -/
def addNode (h : NodeHeap) (root pnode : ℕ) (prev : Option ℕ) (info : FdtInfo) : NodeHeap :=
  let node := h.count
  let h := h.allocDeviceNode
  let h := h.modify node fun n => { n with toFdtInfo := info, parent := some pnode }
  let h :=
    match prev with
    | none => h.modify pnode fun n => { n with child := some node }
    | some prev => h.modify prev fun n => { n with sibling := some node }
  let h := h.modify node fun n => { n with next := (h.nodes root).next }
  h.modify root fun n => { n with next := some node }

/-- `__of_parse_device_node` for the subnodes after `prev`, which is set when there was one. -/
def parseDeviceNode (root : ℕ) : Subnodes → ℕ → Option ℕ → NodeHeap → NodeHeap
  | .nil, _, _, h => h
  | .cons info children rest, pnode, prev, h =>
    let node := h.count
    let h := h.addNode root pnode prev info
    let h := parseDeviceNode root children node none h
    parseDeviceNode root rest pnode (some node) h

end NodeHeap

/-- The root of `of_parse_device_tree`, before the other nodes are parsed -/
def rootHeap (compatible : Option String) : NodeHeap :=
  let h := NodeHeap.allocDeviceNode ⟨fun _ => .zero, 0⟩
  h.modify 0 fun n => { n with
    toFdtInfo := ⟨0, "root node", compatible⟩
    parent := none
    sibling := none
    next := none }

/-- `of_parse_device_tree` for a blob whose root has these subnodes: the root is node 0. -/
def ofParseDeviceTree (compatible : Option String) (subnodes : Subnodes) : NodeHeap :=
  (rootHeap compatible).parseDeviceNode 0 subnodes 0 none

/-! ### Walking over the nodes -/

namespace NodeHeap

variable (h : NodeHeap)

/-- `device_node_is_root` -/
def isRoot (node : ℕ) : Bool := (h.nodes node).parent.isNone

section Iterate

variable (func : List ℕ → ℕ → ℕ) (loop : Bool)

mutual

/-- `__iterate_device_node`. The result of `func` depends on the calls before, and is 0 for `NULL`;
the walk returns its own result and the calls. -/
def iterateDeviceNode : ℕ → Option ℕ → List ℕ → Option (ℕ × List ℕ)
  | 0, _, _ => none
  | _ + 1, none, calls => some (0, calls)
  | fuel + 1, some node, calls =>
    let child := (h.nodes node).child
    let n := func calls node
    if n ≠ 0 ∧ loop = false then some (n, calls ++ [node])
    else iterateChildren fuel child (calls ++ [node])

/-- The loop of `__iterate_device_node` over the children -/
def iterateChildren : ℕ → Option ℕ → List ℕ → Option (ℕ × List ℕ)
  | 0, _, _ => none
  | _ + 1, none, calls => some (0, calls)
  | fuel + 1, some child, calls =>
    let sibling := (h.nodes child).sibling
    match iterateDeviceNode fuel (some child) calls with
    | none => none
    | some (n, calls) =>
      if n ≠ 0 ∧ loop = false then some (n, calls) else iterateChildren fuel sibling calls

end

end Iterate

/-- `of_iterate_all_node_loop` -/
def ofIterateAllNodeLoop (func : List ℕ → ℕ → ℕ) (fuel node : ℕ) : Option (ℕ × List ℕ) :=
  if h.isRoot node = false then some (0, [])
  else h.iterateDeviceNode func true fuel (some node) []

/-- `of_iterate_all_node` -/
def ofIterateAllNode (func : List ℕ → ℕ → ℕ) (fuel node : ℕ) : Option (ℕ × List ℕ) :=
  if h.isRoot node = false then some (0, [])
  else h.iterateDeviceNode func false fuel (some node) []

/-- The loop of `of_release_all_node`: the nodes that are freed. -/
def releaseLoop : ℕ → ℕ → Option (List ℕ)
  | 0, _ => none
  | fuel + 1, tmp =>
    match (h.nodes tmp).next with
    | none => some [tmp]
    | some tmp2 => (releaseLoop fuel tmp2).map (tmp :: ·)

/-- `of_release_all_node` -/
def ofReleaseAllNode (fuel node : ℕ) : Option (List ℕ) :=
  if h.isRoot node = false then some [] else h.releaseLoop fuel node

end NodeHeap

/-! ### Trees of nodes -/

/-- The nodes from `first` on, by their siblings and children, are those of the subnodes, and have
`parent` for their parent; the list has them in preorder. -/
inductive Linked (h : NodeHeap) : ℕ → Option ℕ → Subnodes → List ℕ → Prop
  | nil (parent : ℕ) : Linked h parent none .nil []
  | cons {parent node : ℕ} {children rest : Subnodes} {below after : List ℕ}
      (hparent : (h.nodes node).parent = some parent)
      (hchildren : Linked h node (h.nodes node).child children below)
      (hrest : Linked h parent (h.nodes node).sibling rest after) :
      Linked h parent (some node) (.cons (h.nodes node).toFdtInfo children rest)
        (node :: below ++ after)

lemma Linked.frame {h h' : NodeHeap} {parent : ℕ} {first : Option ℕ} {f : Subnodes} {l : List ℕ}
    (hl : Linked h parent first f l)
    (hsame : ∀ x ∈ l, (h'.nodes x).toFdtInfo = (h.nodes x).toFdtInfo ∧
      (h'.nodes x).parent = (h.nodes x).parent ∧ (h'.nodes x).child = (h.nodes x).child ∧
      (h'.nodes x).sibling = (h.nodes x).sibling) :
    Linked h' parent first f l := by
  induction hl with
  | nil parent => exact .nil parent
  | @cons parent node children rest below after hparent _ _ ihc ihr =>
    obtain ⟨hinfo, hp, hc, hs⟩ := hsame node (by simp)
    have hbelow : Linked h' node (h'.nodes node).child children below :=
      hc ▸ ihc fun x hx => hsame x (by simp [hx])
    have hafter : Linked h' parent (h'.nodes node).sibling rest after :=
      hs ▸ ihr fun x hx => hsame x (by simp [hx])
    exact hinfo ▸ Linked.cons (hp.trans hparent) hbelow hafter

/-! ### What the parser builds -/

namespace NodeHeap

variable {h : NodeHeap} {root pnode : ℕ} {prev : Option ℕ}

@[simp]
lemma addNode_count (info : FdtInfo) : (h.addNode root pnode prev info).count = h.count + 1 := by
  cases prev <;> rfl

lemma addNode_new (info : FdtInfo) (hroot : root < h.count) (hpnode : pnode < h.count)
    (hprev : ∀ x, prev = some x → x < h.count) :
    (h.addNode root pnode prev info).nodes h.count =
      ⟨info, some pnode, none, none, (h.nodes root).next⟩ := by
  cases prev with
  | none =>
    simp [addNode, modify, allocDeviceNode, DeviceNode.zero, Function.update_apply, hroot.ne,
      hroot.ne', hpnode.ne, hpnode.ne']
    split <;> simp_all
  | some prev =>
    have := hprev prev rfl
    simp [addNode, modify, allocDeviceNode, DeviceNode.zero, Function.update_apply, hroot.ne,
      hroot.ne', this.ne, this.ne']
    split <;> simp_all

lemma addNode_old (info : FdtInfo) {x : ℕ} (hx : x < h.count) :
    (h.addNode root pnode prev info).nodes x =
      { h.nodes x with
        child := if prev = none ∧ x = pnode then some h.count else (h.nodes x).child
        sibling := if prev = some x then some h.count else (h.nodes x).sibling
        next := if x = root then some h.count else (h.nodes x).next } := by
  have hne : x ≠ h.count := hx.ne
  cases prev with
  | none =>
    rcases eq_or_ne x root with rfl | hr <;> rcases eq_or_ne x pnode with rfl | hp <;>
      simp [addNode, modify, allocDeviceNode, Function.update_apply, *]
  | some prev =>
    rcases eq_or_ne x root with rfl | hr <;> rcases eq_or_ne x prev with rfl | hp <;>
      simp [addNode, modify, allocDeviceNode, Function.update_apply, *, Ne.symm]

/-- What `__of_parse_device_node` leaves: the new nodes are numbered in preorder, and they stand
in the list from the last to the first, between the root and what followed it. -/
structure Parsed (root pnode : ℕ) (prev : Option ℕ) (f : Subnodes) (h h' : NodeHeap) : Prop where
  count : h'.count = h.count + f.size
  info : ∀ x < h.count, (h'.nodes x).toFdtInfo = (h.nodes x).toFdtInfo
  parent : ∀ x < h.count, (h'.nodes x).parent = (h.nodes x).parent
  child : ∀ x < h.count, (h'.nodes x).child =
    if prev = none ∧ x = pnode then (f.first h.count).or (h.nodes x).child else (h.nodes x).child
  sibling : ∀ x < h.count, (h'.nodes x).sibling =
    if prev = some x then (f.first h.count).or (h.nodes x).sibling else (h.nodes x).sibling
  linked : Linked h' pnode (f.first h.count) f (List.range' h.count f.size)
  rootNext : (h'.nodes root).next =
    if f.size = 0 then (h.nodes root).next else some (h.count + f.size - 1)
  oldNext : ∀ x < h.count, x ≠ root → (h'.nodes x).next = (h.nodes x).next
  newNext : ∀ x, h.count ≤ x → x < h.count + f.size →
    (h'.nodes x).next = if x = h.count then (h.nodes root).next else some (x - 1)

lemma Subnodes.first_eq_none {f : Subnodes} {b : ℕ} : f.first b = none ↔ f.size = 0 := by
  cases f <;> simp [Subnodes.first, Subnodes.size]

lemma Parsed.nil (root pnode : ℕ) (prev : Option ℕ) (h : NodeHeap) :
    Parsed root pnode prev .nil h h where
  count := rfl
  info _ _ := rfl
  parent _ _ := rfl
  child x _ := by simp [Subnodes.first]
  sibling x _ := by simp [Subnodes.first]
  linked := .nil pnode
  rootNext := by simp [Subnodes.size]
  oldNext _ _ _ := rfl
  newNext x hx hx' := absurd hx' (by simp [Subnodes.size]; omega)

/-- One round of the loop. -/
lemma Parsed.round {info : FdtInfo} {children rest : Subnodes} {h₂ h₃ : NodeHeap}
    (hroot : root < h.count) (hpnode : pnode < h.count) (hprev : ∀ x, prev = some x → x < h.count)
    (hc : Parsed root h.count none children (h.addNode root pnode prev info) h₂)
    (hr : Parsed root pnode (some h.count) rest h₂ h₃) :
    Parsed root pnode prev (.cons info children rest) h h₃ := by
  have hnew := addNode_new info hroot hpnode hprev
  have hold (x) (hx : x < h.count) : (h.addNode root pnode prev info).nodes x = _ :=
    addNode_old info hx
  have hcount₂ : h₂.count = h.count + 1 + children.size := by simpa using hc.count
  have hlt₁ : ∀ x < h.count, x < (h.addNode root pnode prev info).count := by
    simp only [addNode_count]
    omega
  have hlt₂ : ∀ x < h.count + 1 + children.size, x < h₂.count := by omega
  constructor
  case count =>
    rw [hr.count, hcount₂, Subnodes.size]
    omega
  case info =>
    intro x hx
    rw [hr.info x (hlt₂ x (by omega)), hc.info x (hlt₁ x hx), hold x hx]
  case parent =>
    intro x hx
    rw [hr.parent x (hlt₂ x (by omega)), hc.parent x (hlt₁ x hx), hold x hx]
  case child =>
    intro x hx
    rw [hr.child x (hlt₂ x (by omega)), hc.child x (hlt₁ x hx), hold x hx]
    simp [hx.ne, Subnodes.first]
  case sibling =>
    intro x hx
    rw [hr.sibling x (hlt₂ x (by omega)), hc.sibling x (hlt₁ x hx), hold x hx]
    simp [hx.ne', Subnodes.first]
  case linked =>
    have hlinked : Linked h₃ h.count (children.first (h.count + 1)) children
        (List.range' (h.count + 1) children.size) := by
      refine Linked.frame (by simpa using hc.linked) fun x hx => ?_
      have hx := List.mem_range'_1.mp hx
      have hx₂ := hlt₂ x (by omega)
      have hne : x ≠ h.count := by omega
      rw [hr.info x hx₂, hr.parent x hx₂, hr.child x hx₂, hr.sibling x hx₂]
      simp [hne.symm]
    -- the node itself is older than both its subnodes and the nodes after it
    have hlt : h.count < (h.addNode root pnode prev info).count := by simp
    have hlt' := hlt₂ h.count (by omega)
    have hinfo : (h₃.nodes h.count).toFdtInfo = info := by
      rw [hr.info _ hlt', hc.info _ hlt, hnew]
    have hparent : (h₃.nodes h.count).parent = some pnode := by
      rw [hr.parent _ hlt', hc.parent _ hlt, hnew]
    have hchild : (h₃.nodes h.count).child = children.first (h.count + 1) := by
      rw [hr.child _ hlt', hc.child _ hlt, hnew]
      simp
    have hsibling : (h₃.nodes h.count).sibling = rest.first h₂.count := by
      rw [hr.sibling _ hlt', hc.sibling _ hlt, hnew]
      simp
    have hrest := hr.linked
    rw [← hchild] at hlinked
    rw [← hsibling] at hrest
    have hnode := Linked.cons hparent hlinked hrest
    rw [hinfo] at hnode
    have hsize : (Subnodes.cons info children rest).size = children.size + rest.size + 1 := by
      simp only [Subnodes.size]
      omega
    rwa [hsize, List.range'_succ, ← List.range'_append_1, ← hcount₂]
  case rootNext =>
    rw [hr.rootNext, hc.rootNext, hold root hroot, hcount₂]
    simp [Subnodes.size]
    split_ifs <;> simp_all <;> omega
  case oldNext =>
    intro x hx hne
    rw [hr.oldNext x (hlt₂ x (by omega)) hne, hc.oldNext x (hlt₁ x hx) hne, hold x hx]
    simp [hne]
  case newNext =>
    intro x hx hx'
    have hroot₁ : ((h.addNode root pnode prev info).nodes root).next = some h.count := by
      rw [hold root hroot]
      simp
    simp only [Subnodes.size] at hx'
    rcases lt_or_ge x (h.count + 1 + children.size) with hlt | hge
    · rw [hr.oldNext x (hlt₂ x hlt) (by omega)]
      rcases hx.eq_or_lt with rfl | hx
      · rw [hc.oldNext _ (by simp) hroot.ne', hnew, if_pos rfl]
      · rw [hc.newNext x (by simpa using hx) (by simpa using hlt), hroot₁]
        grind [addNode_count]
    · rw [hr.newNext x (by omega) (by omega), hc.rootNext, hroot₁]
      grind [addNode_count]

lemma parseDeviceNode_parsed (root : ℕ) (f : Subnodes) (pnode : ℕ) (prev : Option ℕ) (h : NodeHeap)
    (hroot : root < h.count) (hpnode : pnode < h.count)
    (hprev : ∀ x, prev = some x → x < h.count) :
    Parsed root pnode prev f h (h.parseDeviceNode root f pnode prev) := by
  induction f generalizing pnode prev h with
  | nil => exact .nil root pnode prev h
  | cons info children rest ihc ihr =>
    have hc := ihc h.count none (h.addNode root pnode prev info) (by simp; omega) (by simp)
      (by simp)
    have hcount := hc.count
    rw [addNode_count] at hcount
    refine Parsed.round hroot hpnode hprev hc (ihr pnode (some h.count) _ ?_ ?_ ?_)
    · omega
    · omega
    · rintro x ⟨⟩
      omega

end NodeHeap

/-- The nodes of a parsed tree: the root is node 0, the others follow in preorder. -/
structure TreeBuilt (compatible : Option String) (f : Subnodes) (h : NodeHeap) : Prop where
  count : h.count = f.size + 1
  root : (h.nodes 0).toFdtInfo = ⟨0, "root node", compatible⟩
  rootParent : (h.nodes 0).parent = none
  rootSibling : (h.nodes 0).sibling = none
  linked : Linked h 0 (h.nodes 0).child f (List.range' 1 f.size)
  rootNext : (h.nodes 0).next = if f.size = 0 then none else some f.size
  next : ∀ x, 1 ≤ x → x < f.size + 1 → (h.nodes x).next = if x = 1 then none else some (x - 1)

lemma ofParseDeviceTree_built (compatible : Option String) (f : Subnodes) :
    TreeBuilt compatible f (ofParseDeviceTree compatible f) := by
  have hcount : (rootHeap compatible).count = 1 := rfl
  have hroot : (rootHeap compatible).nodes 0 =
    ⟨⟨0, "root node", compatible⟩, none, none, none, none⟩ := rfl
  have hp := NodeHeap.parseDeviceNode_parsed 0 f 0 none (rootHeap compatible) Nat.one_pos
    Nat.one_pos (by simp)
  have hchild : ((ofParseDeviceTree compatible f).nodes 0).child = f.first 1 := by
    have := hp.child 0 Nat.one_pos
    simpa [hroot, hcount, ofParseDeviceTree] using this
  constructor
  case count => exact hp.count.trans (Nat.add_comm _ _)
  case root => exact hp.info 0 Nat.one_pos
  case rootParent => exact hp.parent 0 Nat.one_pos
  case rootSibling => exact hp.sibling 0 Nat.one_pos
  case linked =>
    rw [hchild]
    exact hp.linked
  case rootNext =>
    have := hp.rootNext
    simpa [hroot, hcount, ofParseDeviceTree] using this
  case next =>
    intro x hx hx'
    have := hp.newNext x hx (by rw [hcount]; omega)
    simpa [hroot, hcount, ofParseDeviceTree] using this

/-! ### What the walks visit -/

/-- Calling `func` for these nodes in turn, up to the first result that is not `NULL` unless `loop`
is set: the result, and the calls. -/
def visit (func : List ℕ → ℕ → ℕ) (loop : Bool) : List ℕ → List ℕ → ℕ × List ℕ
  | [], calls => (0, calls)
  | x :: l, calls =>
    let n := func calls x
    if n ≠ 0 ∧ loop = false then (n, calls ++ [x]) else visit func loop l (calls ++ [x])

section Visit

variable (func : List ℕ → ℕ → ℕ) (loop : Bool)

lemma visit_append (l₁ l₂ calls : List ℕ) :
    visit func loop (l₁ ++ l₂) calls =
      if (visit func loop l₁ calls).1 ≠ 0 ∧ loop = false then visit func loop l₁ calls
      else visit func loop l₂ (visit func loop l₁ calls).2 := by
  induction l₁ generalizing calls with
  | nil => simp [visit]
  | cons x l₁ ih =>
    simp only [List.cons_append, visit]
    by_cases hx : func calls x ≠ 0 ∧ loop = false
    · simp [hx]
    · simp only [if_neg hx]
      exact ih _

/-- With `loop`, every node is called once. -/
lemma visit_loop (l calls : List ℕ) : visit func true l calls = (0, calls ++ l) := by
  induction l generalizing calls with
  | nil => simp [visit]
  | cons x l ih => simp [visit, ih]

/-- None of the calls for these nodes, in turn, has a result. -/
def NoResult (l : List ℕ) : Prop :=
  ∀ calls x, calls ++ [x] <+: l → func calls x = 0

/-- What a walk over the nodes returns that stops at the first result: `NULL` if there is none. -/
def FirstResult (l : List ℕ) (r : ℕ × List ℕ) : Prop :=
  (NoResult func l ∧ r = (0, l)) ∨
    ∃ calls x after, l = calls ++ x :: after ∧ NoResult func calls ∧ func calls x ≠ 0 ∧
      r = (func calls x, calls ++ [x])

variable {func} in
lemma NoResult.concat {l : List ℕ} {x : ℕ} (h : NoResult func l) (hx : func l x = 0) :
    NoResult func (l ++ [x]) := by
  intro calls y hy
  rcases List.prefix_concat_iff.mp hy with heq | hpre
  · obtain ⟨rfl, hyx⟩ := List.append_inj' heq rfl
    obtain rfl := List.singleton_inj.mp hyx
    exact hx
  · exact h calls y hpre

/-- Without `loop`, the calls end at the first result. -/
lemma visit_first {calls : List ℕ} (hcalls : NoResult func calls) (l : List ℕ) :
    FirstResult func (calls ++ l) (visit func false l calls) := by
  induction l generalizing calls with
  | nil => exact .inl ⟨by simpa using hcalls, by simp [visit]⟩
  | cons x l ih =>
    rw [visit]
    by_cases hx : func calls x = 0
    · simpa [hx] using ih (hcalls.concat hx)
    · exact .inr ⟨calls, x, l, rfl, hcalls, hx, by simp [hx]⟩

end Visit

namespace NodeHeap

variable (func : List ℕ → ℕ → ℕ) (loop : Bool)

/-- Fuel for twice the nodes is enough, as each node is an argument of both loops. -/
lemma iterateChildren_eq {h : NodeHeap} {parent : ℕ} {first : Option ℕ} {f : Subnodes} {l : List ℕ}
    (hl : Linked h parent first f l) (fuel : ℕ) (hfuel : 2 * f.size < fuel) (calls : List ℕ) :
    h.iterateChildren func loop fuel first calls = some (visit func loop l calls) := by
  induction hl generalizing fuel calls with
  | nil parent =>
    obtain ⟨fuel, rfl⟩ : ∃ n, fuel = n + 1 := ⟨fuel - 1, by omega⟩
    rw [iterateChildren, visit]
  | @cons parent node children rest below after hparent _ _ ihc ihr =>
    simp only [Subnodes.size] at hfuel
    obtain ⟨fuel, rfl⟩ : ∃ n, fuel = n + 2 := ⟨fuel - 2, by omega⟩
    rw [iterateChildren, iterateDeviceNode, List.cons_append, visit]
    by_cases hx : func calls node ≠ 0 ∧ loop = false
    · simp only [if_pos hx]
    · simp only [if_neg hx, ihc fuel (by omega), visit_append]
      split_ifs
      · rfl
      · exact ihr (fuel + 1) (by omega) _

/-- From the last node, the list goes down to the first. -/
lemma releaseLoop_eq {h : NodeHeap} {size : ℕ}
    (hnext : ∀ x, 1 ≤ x → x < size + 1 → (h.nodes x).next = if x = 1 then none else some (x - 1))
    (n fuel : ℕ) (hn : n < size) (hfuel : n < fuel) :
    h.releaseLoop fuel (n + 1) = some (List.range' 1 (n + 1)).reverse := by
  induction n generalizing fuel with
  | zero =>
    obtain ⟨fuel, rfl⟩ : ∃ m, fuel = m + 1 := ⟨fuel - 1, by omega⟩
    rw [releaseLoop, hnext 1 le_rfl (by omega)]
    simp
  | succ n ih =>
    obtain ⟨fuel, rfl⟩ : ∃ m, fuel = m + 1 := ⟨fuel - 1, by omega⟩
    rw [releaseLoop, hnext (n + 1 + 1) (by omega) (by omega), if_neg (by omega)]
    simp only [Nat.add_sub_cancel, ih fuel (by omega) (by omega), Option.map_some]
    rw [List.range'_concat (s := 1) (n := n + 1)]
    simp [Nat.add_comm]

end NodeHeap

/-- The nodes built are those of the blob, in preorder. One walk calls its function for all of
them, the other up to the first result, and the list from the root has each of them once. -/
theorem ofParseDeviceTree_walks (compatible : Option String) (f : Subnodes) :
    let h := ofParseDeviceTree compatible f
    TreeBuilt compatible f h ∧
    (∀ func fuel, 2 * h.count ≤ fuel →
      h.ofIterateAllNodeLoop func fuel 0 = some (0, List.range h.count)) ∧
    (∀ func fuel, 2 * h.count ≤ fuel →
      ∃ r, h.ofIterateAllNode func fuel 0 = some r ∧ FirstResult func (List.range h.count) r) ∧
    ∀ fuel, h.count ≤ fuel →
      ∃ l, h.ofReleaseAllNode fuel 0 = some l ∧ l.Perm (List.range h.count) := by
  intro h
  have hb : TreeBuilt compatible f h := ofParseDeviceTree_built compatible f
  have hroot : h.isRoot 0 = true := by simp [NodeHeap.isRoot, hb.rootParent]
  have hrange : List.range h.count = 0 :: List.range' 1 f.size := by
    rw [hb.count, List.range_eq_range', List.range'_succ]
  have hwalk (func loop fuel) (hfuel : 2 * h.count ≤ fuel) :
      h.iterateDeviceNode func loop fuel (some 0) [] =
        some (visit func loop (List.range h.count) []) := by
    rw [hb.count] at hfuel
    obtain ⟨fuel, rfl⟩ : ∃ n, fuel = n + 1 := ⟨fuel - 1, by omega⟩
    rw [NodeHeap.iterateDeviceNode, hrange, visit]
    split_ifs with hx
    · rfl
    · exact NodeHeap.iterateChildren_eq func loop hb.linked fuel (by omega) _
  refine ⟨hb, fun func fuel hfuel => ?_, fun func fuel hfuel => ?_, fun fuel hfuel => ?_⟩
  · rw [NodeHeap.ofIterateAllNodeLoop, if_neg (by simp [hroot]), hwalk func true fuel hfuel,
      visit_loop, List.nil_append]
  · refine ⟨visit func false (List.range h.count) [], ?_, ?_⟩
    · rw [NodeHeap.ofIterateAllNode, if_neg (by simp [hroot]), hwalk func false fuel hfuel]
    · have hnone : NoResult func [] := by simp [NoResult]
      exact visit_first func hnone (List.range h.count)
  · rw [hb.count] at hfuel
    obtain ⟨fuel, rfl⟩ : ∃ n, fuel = n + 1 := ⟨fuel - 1, by omega⟩
    rw [NodeHeap.ofReleaseAllNode, if_neg (by simp [hroot]), NodeHeap.releaseLoop, hb.rootNext,
      hrange]
    obtain hzero | ⟨n, hn⟩ : f.size = 0 ∨ ∃ n, f.size = n + 1 := by
      cases f.size <;> simp
    · exact ⟨[0], by simp [hzero], by simp [hzero]⟩
    · refine ⟨0 :: (List.range' 1 f.size).reverse, ?_, (List.reverse_perm _).cons 0⟩
      rw [hn, if_neg (by omega)]
      simp only
      rw [NodeHeap.releaseLoop_eq hb.next n fuel (by omega) (by omega)]
      rfl

end Minos.Of
