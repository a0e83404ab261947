import Mathlib
import Minos.Types

/-!
# The simple allocator

The allocator for systems without an MMU has a header before each region. It cuts new regions from
the zones of memory, and keeps the regions that were freed in a list that `malloc` searches first.
-/

namespace Minos.Mm

/-- `sizeof(struct page)` -/
def PAGE_HEADER_SIZE : ℕ := 16

def MEM_TYPE_SLAB : ℕ := 0xabcdef01

/-- `struct mem_zone` -/
structure MemZone where
  memBase : ℕ
  freeBase : ℕ
  freeSize : ℕ
  size : ℕ
deriving DecidableEq, Repr

/-- The variables of the allocator, and the headers of the regions by their addresses: `link` is the
union of `next` and `magic`. -/
structure SimpleMm where
  zones : List MemZone
  rootPage : ℕ
  size : ℕ → ℕ
  link : ℕ → ℕ

/-- What the configuration and the boot memory give to the first zone. -/
structure SimpleConfig where
  startAddress : ℕ
  ramSize : ℕ
  bootmemStart : ℕ
  bootmemSize : ℕ

/-- `init_mem_zone` -/
def initMemZone (c : SimpleConfig) (zones : List MemZone) (region : ℕ × ℕ) : List MemZone :=
  if region.1 = c.startAddress then
    zones.set 0 ⟨region.1, c.bootmemStart, c.bootmemSize, c.ramSize⟩
  else zones ++ [⟨region.1, region.1, region.2, 0⟩]

/-- `mm_do_init` for the regions of `mem_list`; the memory holds anything. -/
def simpleMmDoInit (c : SimpleConfig) (regions : List (ℕ × ℕ)) (size link : ℕ → ℕ) : SimpleMm where
  zones := regions.foldl (initMemZone c) [⟨0, 0, 0, 0⟩]
  rootPage := 0
  size := size
  link := link

/-- A load from `NULL`, or `panic` -/
inductive MmStop where
  | fault | panic
deriving DecidableEq, Repr

/-- `__malloc_from_zone`, for the bits of an `int`; 0 for `NULL`. -/
def mallocFromZone (zone : MemZone) (size : ℕ) : ℕ × MemZone :=
  if zone.freeSize < intBits size then (0, zone)
  else
    (zone.freeBase, { zone with
      freeSize := sub64 zone.freeSize (intBits size)
      freeBase := add64 zone.freeBase (intBits size) })

/-- `__malloc` -/
def mallocFromZones (size : ℕ) : List MemZone → ℕ × List MemZone
  | [] => (0, [])
  | zone :: zones =>
    let (addr, zone) := mallocFromZone zone size
    if addr ≠ 0 then (addr, zone :: zones)
    else
      let (addr, zones) := mallocFromZones size zones
      (addr, zone :: zones)

namespace SimpleMm

variable (m : SimpleMm)

/-- `detach_page` -/
def detachPage (prev page : ℕ) : Except MmStop SimpleMm :=
  if page = m.rootPage then .ok { m with rootPage := m.link page }
  else if prev = 0 then .error .panic
  else .ok { m with link := Function.update m.link prev (m.link page) }

/-- The loop of `malloc_from_free_list`, with fuel: it ends with a page, or with a load from
`NULL`. -/
def searchLoop (size : ℕ) : ℕ → ℕ → ℕ → ℕ → Option (Except MmStop (ℕ × SimpleMm))
  | 0, _, _, _ => none
  | fuel + 1, minPage, tmp, prev =>
    if tmp = 0 then some (.error .fault)
    else if m.size tmp = size then some ((m.detachPage prev tmp).map fun m => (tmp, m))
    else
      let minPage := if m.size minPage < m.size tmp then tmp else minPage
      let tmp := m.link tmp
      searchLoop size fuel minPage tmp tmp

/-- `malloc_from_free_list` -/
def mallocFromFreeList (fuel size : ℕ) : Option (Except MmStop (ℕ × SimpleMm)) :=
  m.searchLoop (intBits size) fuel m.rootPage m.rootPage 0

/-- The size that `_malloc` rounds to, as the bits of an `int` -/
def roundInt (size : ℕ) : ℕ := balign (intBits size) 8 % 2 ^ 32

/-- `_malloc` -/
def mallocPage (fuel size : ℕ) : Option (Except MmStop (ℕ × SimpleMm)) :=
  let size := roundInt size
  match m.mallocFromFreeList fuel size with
  | none => none
  | some (.error stop) => some (.error stop)
  | some (.ok (page, m)) =>
    if page ≠ 0 then some (.ok (page + PAGE_HEADER_SIZE, m))
    else
      let (page, zones) :=
        mallocFromZones (add64 PAGE_HEADER_SIZE (intBits size) % 2 ^ 32) m.zones
      let m := { m with zones := zones }
      if page = 0 then some (.ok (0, m))
      else
        some (.ok (page + PAGE_HEADER_SIZE, { m with
          size := Function.update m.size page (intBits size)
          link := Function.update m.link page MEM_TYPE_SLAB }))

/-- `malloc` -/
def malloc (fuel size : ℕ) : Option (Except MmStop (ℕ × SimpleMm)) :=
  match m.mallocPage fuel (size % 2 ^ 32) with
  | none => none
  | some (.error stop) => some (.error stop)
  | some (.ok (page, m)) =>
    if page ≠ 0 then some (.ok (0, m)) else some (.ok (page + PAGE_HEADER_SIZE, m))

/-- `free`, with `__free` -/
def free (addr : ℕ) : SimpleMm :=
  if addr = 0 then m
  else
    let page := addr - PAGE_HEADER_SIZE
    if m.link page ≠ MEM_TYPE_SLAB then m
    else { m with link := Function.update m.link page m.rootPage, rootPage := page }

end SimpleMm

/-! ### Regions in use and free regions -/

/-- A call of the allocator; a region is freed by the address that `malloc` returned. -/
inductive SimpleOp where
  | malloc (size : ℕ)
  | free (addr : ℕ)
deriving DecidableEq

/-- The list that starts at a page and ends with `NULL` -/
inductive Chain (link : ℕ → ℕ) : ℕ → List ℕ → Prop
  | nil : Chain link 0 []
  | cons {page : ℕ} {l : List ℕ} (hpage : page ≠ 0) (hnext : Chain link (link page) l) :
      Chain link page (page :: l)

/-- The allocator, with the headers of the regions that are in use, and of those that were freed and
not used again. -/
structure SimpleHeap where
  mm : SimpleMm
  live : List ℕ
  freed : List ℕ

namespace SimpleHeap

variable (s : SimpleHeap)

/-- Two regions, with their headers, do not overlap. -/
def Apart (p q : ℕ) : Prop :=
  p + PAGE_HEADER_SIZE + s.mm.size p ≤ q ∨ q + PAGE_HEADER_SIZE + s.mm.size q ≤ p

/-- What is promised of the regions. -/
structure Good : Prop where
  inside : ∀ p ∈ s.live, ∃ zone ∈ s.mm.zones,
    zone.memBase ≤ p ∧ p + PAGE_HEADER_SIZE + s.mm.size p ≤ zone.freeBase
  apart : s.live.Pairwise s.Apart
  freeList : ∃ l, Chain s.mm.link s.mm.rootPage l ∧ l.Perm s.freed

/-- The size of a request, rounded up -/
def roundSize (size : ℕ) : ℕ := (size + 7) / 8 * 8

/-- There is a free region of the size, or space in a zone. -/
def Available (size : ℕ) : Prop :=
  (∃ q ∈ s.freed, s.mm.size q = roundSize size) ∨
    ∃ zone ∈ s.mm.zones, PAGE_HEADER_SIZE + roundSize size ≤ zone.freeSize

/-- `malloc` returned `p`. -/
def allocated (p : ℕ) (m : SimpleMm) : SimpleHeap :=
  if p = 0 then { s with mm := m }
  else
    let page := p - PAGE_HEADER_SIZE
    ⟨m, page :: s.live, s.freed.erase page⟩

/-- `addr` was freed. -/
def released (addr : ℕ) : SimpleHeap :=
  if addr = 0 then s
  else
    let page := addr - PAGE_HEADER_SIZE
    ⟨s.mm.free addr, s.live.erase page, page :: s.freed⟩

/-- Only regions in use are freed, or `NULL`. -/
def FreesLive : SimpleHeap → List SimpleOp → Prop
  | _, [] => True
  | s, .malloc size :: ops => ∀ fuel p m, s.mm.malloc fuel size = some (.ok (p, m)) →
      FreesLive (s.allocated p m) ops
  | s, .free addr :: ops => (addr = 0 ∨ ∃ page ∈ s.live, addr = page + PAGE_HEADER_SIZE) ∧
      FreesLive (s.released addr) ops

/-- What is promised of a sequence of calls: each `malloc` returns, with a region if there is one
and not with less than was asked for, and the regions are good at all times. -/
def Right : SimpleHeap → List SimpleOp → Prop
  | s, [] => s.Good
  | s, .malloc size :: ops => s.Good ∧ ∃ fuel p m, s.mm.malloc fuel size = some (.ok (p, m)) ∧
      (s.Available size → p ≠ 0) ∧ (p ≠ 0 → size ≤ m.size (p - PAGE_HEADER_SIZE)) ∧
      Right (s.allocated p m) ops
  | s, .free addr :: ops => s.Good ∧ Right (s.released addr) ops

/-- The size that the free list is searched for -/
def searchSize (size : ℕ) : ℕ := intBits (SimpleMm.roundInt (size % 2 ^ 32))

/-- There is nothing for a request, but its size is cut to that of a free region that is not the
first one. -/
def Harmless (size : ℕ) : Prop :=
  s.mm.size s.mm.rootPage ≠ searchSize size ∧ (∃ q ∈ s.freed, s.mm.size q = searchSize size) ∧
    ¬ s.Available size

/-- All requests of a sequence are like that. -/
def Fit : SimpleHeap → List SimpleOp → Prop
  | _, [] => True
  | s, .malloc size :: ops => s.Harmless size ∧ Fit s ops
  | s, .free addr :: ops => Fit (s.released addr) ops

/-- What holds of a heap besides: the regions in use can be freed, and no region is in two lists. -/
structure Wf : Prop extends s.Good where
  magic : ∀ p ∈ s.live, s.mm.link p = MEM_TYPE_SLAB
  nonzero : ∀ p ∈ s.live, p ≠ 0
  allApart : (s.live ++ s.freed).Pairwise s.Apart

end SimpleHeap

/-! ### The free list -/

lemma Chain.unique {link : ℕ → ℕ} {page : ℕ} {l l' : List ℕ} (h : Chain link page l)
    (h' : Chain link page l') : l = l' := by
  induction h generalizing l' with
  | nil =>
    cases h' with
    | nil => rfl
    | cons hpage _ => exact absurd rfl hpage
  | cons hpage _ ih =>
    cases h' with
    | nil => exact absurd rfl hpage
    | cons _ hnext => rw [ih hnext]

lemma Chain.of_cons {link : ℕ → ℕ} {page q : ℕ} {l : List ℕ} (h : Chain link page (q :: l)) :
    page = q ∧ q ≠ 0 ∧ Chain link (link q) l := by
  cases h with
  | cons hpage hnext => exact ⟨rfl, hpage, hnext⟩

lemma Chain.ne_zero {link : ℕ → ℕ} {page : ℕ} {l : List ℕ} (h : Chain link page l) :
    ∀ q ∈ l, q ≠ 0 := by
  induction h with
  | nil => simp
  | cons hpage _ ih => exact List.forall_mem_cons.2 ⟨hpage, ih⟩

lemma Chain.update {link : ℕ → ℕ} {page x : ℕ} {l : List ℕ} (h : Chain link page l) (hx : x ∉ l)
    (v : ℕ) : Chain (Function.update link x v) page l := by
  induction h with
  | nil => exact .nil
  | @cons page l hpage _ ih =>
    obtain ⟨hne, hnotin⟩ := not_or.1 (mt List.mem_cons.2 hx)
    refine .cons hpage ?_
    rw [Function.update_of_ne (Ne.symm hne)]
    exact ih hnotin

namespace SimpleMm

variable {m : SimpleMm} {size : ℕ}

/-- After the first round `prev` is `tmp`, and `detach_page` takes nothing out of the list. -/
lemma detachPage_self {page : ℕ} (hpage : page ≠ 0) (hroot : page ≠ m.rootPage) :
    m.detachPage page page = .ok m := by
  rw [detachPage, if_neg hroot, if_neg hpage, Function.update_eq_self]

/-- The later rounds find the first page of the size, or run off the end of the list. -/
lemma searchLoop_chain {tmp : ℕ} {l : List ℕ} (h : Chain m.link tmp l) (hroot : m.rootPage ∉ l)
    (fuel minPage : ℕ) (r : Except MmStop (ℕ × SimpleMm))
    (hr : m.searchLoop size fuel minPage tmp tmp = some r) :
    r = match l.find? (fun q => m.size q = size) with
      | some q => .ok (q, m)
      | none => .error .fault := by
  induction h generalizing fuel minPage with
  | nil =>
    cases fuel with
    | zero => cases hr
    | succ fuel => simpa [searchLoop] using hr.symm
  | @cons page l hpage _ ih =>
    obtain ⟨hne, hnotin⟩ := not_or.1 (mt List.mem_cons.2 hroot)
    cases fuel with
    | zero => cases hr
    | succ fuel =>
      rw [searchLoop, if_neg hpage] at hr
      by_cases hsize : m.size page = size
      · rw [if_pos hsize, detachPage_self hpage (Ne.symm hne)] at hr
        simpa [hsize, Except.map] using hr.symm
      · rw [if_neg hsize] at hr
        simpa [hsize] using ih hnotin fuel _ hr

/-- With fuel for the list, the search ends. -/
lemma searchLoop_ends {tmp : ℕ} {l : List ℕ} (h : Chain m.link tmp l) (minPage prev : ℕ) :
    ∃ r, m.searchLoop size (l.length + 1) minPage tmp prev = some r := by
  induction h generalizing minPage prev with
  | nil => exact ⟨.error .fault, by simp [searchLoop]⟩
  | @cons page l hpage _ ih =>
    rw [List.length_cons, searchLoop, if_neg hpage]
    by_cases hsize : m.size page = size
    · rw [if_pos hsize]
      exact ⟨_, rfl⟩
    · rw [if_neg hsize]
      exact ih _ _

variable {l : List ℕ}

/-- The first round takes the first page out, if that has the size; else there are more rounds. -/
lemma mallocFromFreeList_succ {page : ℕ} (h : Chain m.link m.rootPage (page :: l)) (fuel : ℕ) :
    m.mallocFromFreeList (fuel + 1) size =
      if m.size page = intBits size then
        some (.ok (page, { m with rootPage := m.link page }))
      else m.searchLoop (intBits size) fuel page (m.link page) (m.link page) := by
  obtain ⟨hroot, hpage, -⟩ := h.of_cons
  rw [mallocFromFreeList, searchLoop, hroot, if_neg hpage]
  by_cases hsize : m.size page = intBits size
  · rw [if_pos hsize, if_pos hsize, detachPage, if_pos hroot.symm]
    rfl
  · rw [if_neg hsize, if_neg hsize, if_neg (lt_irrefl _)]

/-- A page that is found is in the list; only the first one is taken out of it. -/
lemma mallocFromFreeList_ok (h : Chain m.link m.rootPage l) (hnodup : l.Nodup) {fuel page : ℕ}
    {m' : SimpleMm} (hr : m.mallocFromFreeList fuel size = some (.ok (page, m'))) :
    page ∈ l ∧ m.size page = intBits size ∧
      (m.size m.rootPage = intBits size ∧ m' = { m with rootPage := m.link m.rootPage } ∨
        m.size m.rootPage ≠ intBits size ∧ m' = m) := by
  cases fuel with
  | zero => cases hr
  | succ fuel =>
    cases l with
    | nil =>
      have hroot : m.rootPage = 0 := by
        generalize m.rootPage = root at h
        cases h
        rfl
      simp [mallocFromFreeList, searchLoop, hroot] at hr
    | cons root l =>
      obtain ⟨hroot, hpage, hnext⟩ := h.of_cons
      rw [mallocFromFreeList_succ h] at hr
      rw [hroot]
      by_cases hsize : m.size root = intBits size
      · rw [if_pos hsize] at hr
        cases hr
        exact ⟨List.mem_cons_self, hsize, .inl ⟨hsize, rfl⟩⟩
      · rw [if_neg hsize] at hr
        have hnotin : m.rootPage ∉ l := hroot ▸ (List.nodup_cons.1 hnodup).1
        have hfound := searchLoop_chain hnext hnotin fuel _ _ hr
        split at hfound
        next q hq =>
          cases hfound
          have hmem := List.mem_of_find?_eq_some hq
          have hqsize := List.find?_some hq
          exact ⟨List.mem_cons_of_mem _ hmem, by simpa using hqsize, .inr ⟨hsize, rfl⟩⟩
        next => cases hfound

/-- With another page first, one of the size is found. -/
lemma mallocFromFreeList_later (h : Chain m.link m.rootPage l) (hnodup : l.Nodup)
    (hroot : m.size m.rootPage ≠ intBits size) (hex : ∃ q ∈ l, m.size q = intBits size) :
    ∃ fuel page, page ≠ 0 ∧ m.mallocFromFreeList fuel size = some (.ok (page, m)) := by
  obtain ⟨q, hq, hqsize⟩ := hex
  cases l with
  | nil => cases hq
  | cons root l =>
    obtain ⟨heq, hpage, hnext⟩ := h.of_cons
    rw [heq] at hroot
    have hnotin : m.rootPage ∉ l := heq ▸ (List.nodup_cons.1 hnodup).1
    obtain ⟨r, hr⟩ : ∃ r, m.searchLoop (intBits size) (l.length + 1) root (m.link root)
        (m.link root) = some r := searchLoop_ends hnext root (m.link root)
    have hql : q ∈ l := (List.mem_cons.1 hq).resolve_left fun h => hroot (h ▸ hqsize)
    obtain ⟨page, hfind⟩ : ∃ page, l.find? (fun q => m.size q = intBits size) = some page := by
      rw [← Option.isSome_iff_exists, List.find?_isSome]
      exact ⟨q, hql, by simpa using hqsize⟩
    have hfound := searchLoop_chain hnext hnotin _ _ _ hr
    rw [hfind] at hfound
    refine ⟨l.length + 1 + 1, page, ?_, ?_⟩
    · exact hnext.ne_zero page (List.mem_of_find?_eq_some hfind)
    · rw [mallocFromFreeList_succ h, if_neg hroot, hr, hfound]

/-- `malloc` returns `NULL` when a page was found, and nothing else ever. -/
lemma malloc_ok_iff (h : Chain m.link m.rootPage l) (hnodup : l.Nodup) {fuel p : ℕ}
    {m' : SimpleMm} : m.malloc fuel size = some (.ok (p, m')) ↔
      ∃ page, m.mallocFromFreeList fuel (roundInt (size % 2 ^ 32)) = some (.ok (page, m')) ∧
        p = 0 := by
  rw [malloc, mallocPage]
  have hne : ∀ page m'', m.mallocFromFreeList fuel (roundInt (size % 2 ^ 32)) =
      some (.ok (page, m'')) → page ≠ 0 :=
    fun page m'' hr => h.ne_zero page (mallocFromFreeList_ok h hnodup hr).1
  cases hr : m.mallocFromFreeList fuel (roundInt (size % 2 ^ 32)) with
  | none => simp
  | some r =>
    cases r with
    | error stop => simp
    | ok found =>
      obtain ⟨page, m''⟩ := found
      have hpage := hne page m'' hr
      simp [hpage, PAGE_HEADER_SIZE, and_comm, @eq_comm ℕ 0 p]

end SimpleMm

namespace SimpleHeap

variable {s : SimpleHeap}

/-! ### Frees keep the regions good -/

lemma Apart.symm {p q : ℕ} (h : s.Apart p q) : s.Apart q p := Or.symm h

lemma not_apart_self (p : ℕ) : ¬ s.Apart p p := by
  simp only [Apart, PAGE_HEADER_SIZE]
  omega

lemma Wf.nodup (h : s.Wf) : (s.live ++ s.freed).Nodup :=
  h.allApart.imp fun {p q} (hapart : s.Apart p q) (heq : p = q) =>
    not_apart_self (s := s) p (heq ▸ hapart)

/-- What `free` does with a region in use. -/
lemma free_live {m : SimpleMm} {page : ℕ} (hmagic : m.link page = MEM_TYPE_SLAB) :
    m.free (page + PAGE_HEADER_SIZE) =
      { m with link := Function.update m.link page m.rootPage, rootPage := page } := by
  have hne : page + PAGE_HEADER_SIZE ≠ 0 := by simp [PAGE_HEADER_SIZE]
  rw [SimpleMm.free, if_neg hne, Nat.add_sub_cancel, if_neg (not_not.2 hmagic)]

/-- A region in use can be freed, and is the first one in the free list then. -/
lemma Wf.released (h : s.Wf) {page : ℕ} (hpage : page ∈ s.live) :
    (s.released (page + PAGE_HEADER_SIZE)).Wf := by
  have hne : page + PAGE_HEADER_SIZE ≠ 0 := by simp [PAGE_HEADER_SIZE]
  have hrel : s.released (page + PAGE_HEADER_SIZE) =
      ⟨{ s.mm with
          link := Function.update s.mm.link page s.mm.rootPage
          rootPage := page }, s.live.erase page, page :: s.freed⟩ := by
    rw [SimpleHeap.released, if_neg hne, Nat.add_sub_cancel, free_live (h.magic page hpage)]
  have hnodup := h.nodup
  have hsub : ∀ p ∈ s.live.erase page, p ∈ s.live ∧ p ≠ page := fun p hp =>
    ⟨List.mem_of_mem_erase hp, fun heq =>
      (List.Nodup.not_mem_erase (List.nodup_append.1 hnodup).1) (heq ▸ hp)⟩
  rw [hrel]
  refine ⟨⟨?inside, ?apart, ?freeList⟩, ?magic, ?nonzero, ?allApart⟩
  case inside => exact fun p hp => h.inside p (hsub p hp).1
  case apart => exact h.apart.sublist List.erase_sublist
  case freeList =>
    obtain ⟨l, hchain, hperm⟩ := h.freeList
    have hnotin : page ∉ l := fun hmem =>
      List.disjoint_of_nodup_append hnodup hpage (hperm.mem_iff.1 hmem)
    refine ⟨page :: l, .cons (h.nonzero page hpage) ?_, hperm.cons page⟩
    simpa using hchain.update hnotin s.mm.rootPage
  case magic =>
    intro p hp
    obtain ⟨hlive, hother⟩ := hsub p hp
    simpa [hother] using h.magic p hlive
  case nonzero => exact fun p hp => h.nonzero p (hsub p hp).1
  case allApart =>
    have hperm : (s.live.erase page ++ page :: s.freed).Perm (s.live ++ s.freed) :=
      List.perm_middle.trans ((List.perm_cons_erase hpage).symm.append_right s.freed)
    exact (hperm.pairwise_iff fun hapart => Apart.symm hapart).2 h.allApart

/-! ### Sequences of calls -/

lemma Right.good {ops : List SimpleOp} (h : s.Right ops) : s.Good := by
  cases ops with
  | nil => exact h
  | cons op ops =>
    cases op with
    | malloc size => exact h.1
    | free addr => exact h.1

lemma allocated_null : s.allocated 0 s.mm = s := by
  rw [allocated, if_pos rfl]

lemma Wf.chain (h : s.Wf) :
    ∃ l, Chain s.mm.link s.mm.rootPage l ∧ l.Perm s.freed ∧ l.Nodup := by
  obtain ⟨l, hchain, hperm⟩ := h.freeList
  exact ⟨l, hchain, hperm, hperm.nodup_iff.2 (List.nodup_append.1 h.nodup).2.1⟩

/-- A request that is cut to the size of a later region returns `NULL` and changes nothing. -/
lemma Harmless.returns (h : s.Wf) {size : ℕ} (hsize : s.Harmless size) :
    ∃ fuel, s.mm.malloc fuel size = some (.ok (0, s.mm)) := by
  obtain ⟨l, hchain, hperm, hnodup⟩ := h.chain
  obtain ⟨hfirst, ⟨q, hq, hqsize⟩, -⟩ := hsize
  obtain ⟨fuel, page, -, hfound⟩ := SimpleMm.mallocFromFreeList_later hchain hnodup hfirst
    ⟨q, hperm.mem_iff.2 hq, hqsize⟩
  exact ⟨fuel, (SimpleMm.malloc_ok_iff hchain hnodup).2 ⟨page, hfound, rfl⟩⟩

/-- A request that is right got nothing, for nothing was there, and changed nothing. -/
lemma right_malloc_iff (h : s.Wf) (size : ℕ) (ops : List SimpleOp) :
    s.Right (.malloc size :: ops) ↔ s.Harmless size ∧ s.Right ops := by
  constructor
  · obtain ⟨l, hchain, hperm, hnodup⟩ := h.chain
    rintro ⟨-, fuel, p, m, hr, havail, -, hrest⟩
    obtain ⟨page, hfound, rfl⟩ := (SimpleMm.malloc_ok_iff hchain hnodup).1 hr
    obtain ⟨hmem, hsize, ⟨hfirst, rfl⟩ | ⟨hfirst, rfl⟩⟩ :=
      SimpleMm.mallocFromFreeList_ok hchain hnodup hfound
    · -- the first page left the list, but was not handed out
      obtain ⟨l', hchain', hperm'⟩ := hrest.good.freeList
      rw [allocated, if_pos rfl] at hchain' hperm'
      cases l with
      | nil => cases hmem
      | cons root l =>
        obtain ⟨heq, -, hnext⟩ := hchain.of_cons
        rw [← heq] at hnext
        have hlen := hperm'.length_eq.trans hperm.length_eq.symm
        rw [hchain'.unique hnext, List.length_cons] at hlen
        omega
    · rw [allocated_null] at hrest
      exact ⟨⟨hfirst, ⟨page, hperm.mem_iff.1 hmem, hsize⟩, fun ha => havail ha rfl⟩, hrest⟩
  · rintro ⟨hsize, hrest⟩
    obtain ⟨fuel, hr⟩ := Harmless.returns h hsize
    refine ⟨h.toGood, fuel, 0, s.mm, hr, fun ha => absurd ha hsize.2.2, fun h => absurd rfl h, ?_⟩
    rwa [allocated_null]

/-- The calls are right exactly if each request is one that has to fail, and does so only because
its size is cut to 32 bits. -/
theorem right_iff_fit (h : s.Wf) (ops : List SimpleOp) (hops : s.FreesLive ops) :
    s.Right ops ↔ s.Fit ops := by
  induction ops generalizing s with
  | nil => exact iff_of_true h.toGood trivial
  | cons op ops ih =>
    cases op with
    | malloc size =>
      rw [right_malloc_iff h, Fit]
      refine and_congr_right fun hsize => ih h ?_
      obtain ⟨fuel, hr⟩ := Harmless.returns h hsize
      have hlive := hops fuel 0 s.mm hr
      rwa [allocated_null] at hlive
    | free addr =>
      have hwf : (s.released addr).Wf := by
        rcases hops.1 with rfl | ⟨page, hpage, rfl⟩
        · rwa [SimpleHeap.released, if_pos rfl]
        · exact h.released hpage
      rw [Fit, ← ih hwf hops.2]
      exact and_iff_right h.toGood

/-- The allocator after `mm_do_init` -/
def boot (c : SimpleConfig) (regions : List (ℕ × ℕ)) (size link : ℕ → ℕ) : SimpleHeap :=
  ⟨simpleMmDoInit c regions size link, [], []⟩

lemma boot_wf (c : SimpleConfig) (regions : List (ℕ × ℕ)) (size link : ℕ → ℕ) :
    (boot c regions size link).Wf where
  inside := by simp [boot]
  apart := by simp [boot]
  freeList := ⟨[], .nil, .refl []⟩
  magic := by simp [boot]
  nonzero := by simp [boot]
  allApart := by simp [boot]

/-- From the start, the allocator is right as long as nothing is allocated: the first `malloc`
already loads from the empty free list. -/
theorem simple_right_iff (c : SimpleConfig) (regions : List (ℕ × ℕ)) (size link : ℕ → ℕ)
    (ops : List SimpleOp) (hops : (boot c regions size link).FreesLive ops) :
    (boot c regions size link).Right ops ↔ ∀ n, SimpleOp.malloc n ∉ ops := by
  rw [right_iff_fit (boot_wf c regions size link) ops hops]
  induction ops with
  | nil => simp [Fit]
  | cons op ops ih =>
    cases op with
    | malloc n =>
      refine iff_of_false ?_ fun h => h n List.mem_cons_self
      rintro ⟨⟨-, ⟨q, hq, -⟩, -⟩, -⟩
      cases hq
    | free addr =>
      rcases hops.1 with rfl | ⟨page, hpage, -⟩
      · have hnull : (boot c regions size link).released 0 = boot c regions size link := if_pos rfl
        rw [Fit, hnull, ih (hnull ▸ hops.2)]
        simp
      · cases hpage

/-- To free `NULL` is all that can be done without a region. -/
theorem simple_right_free : (boot ⟨0x40000000, 0x100000, 0x40010000, 0xf0000⟩
    [(0x40000000, 0x100000)] (fun _ => 0) (fun _ => 0)).Right [.free 0] := by
  refine (simple_right_iff _ _ _ _ _ ?_).2 (by simp)
  exact ⟨.inl rfl, trivial⟩

/-- The first `malloc` loads from `NULL`, with nearly a megabyte in its zone. -/
theorem simple_right_diverges :
    let s := boot ⟨0x40000000, 0x100000, 0x40010000, 0xf0000⟩ [(0x40000000, 0x100000)]
      (fun _ => 0) (fun _ => 0)
    s.FreesLive [.malloc 8] ∧ s.Available 8 ∧ s.mm.malloc 1 8 = some (.error .fault) ∧
      ¬ s.Right [.malloc 8] := by
  intro s
  refine ⟨fun _ _ _ _ => trivial, ?_, rfl, ?_⟩
  · exact .inr ⟨⟨0x40000000, 0x40010000, 0xf0000, 0x100000⟩, by decide, by decide⟩
  · intro h
    obtain ⟨⟨-, ⟨q, hq, -⟩, -⟩, -⟩ := (right_malloc_iff (boot_wf _ _ _ _) 8 []).1 h
    cases hq

end SimpleHeap

end Minos.Mm
