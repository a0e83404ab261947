import Mathlib
import Minos.Lib.Intervals
import Minos.Lib.Run
import Minos.Types

/-!
# The physical memory map

`mem_list` is built at boot: regions of memory are added, and parts of them are split off for the
guests and for what must stay reserved. As a list of tagged intervals it is a map from addresses to
flags.
-/

namespace Minos.Mm

open Run TaggedInterval

/-- A `struct memory_region` while the map is built. -/
structure Region where
  flags : BitVec 32
  phyBase : ℕ
  virBase : ℕ
  size : ℕ
deriving DecidableEq, Repr

/-- `mem_list`, and what is left of the boot memory -/
structure MemMap where
  memList : List Region
  bootmemSize : ℕ
deriving DecidableEq, Repr

/-- `sizeof(struct memory_region)` -/
def REGION_SIZE : ℕ := 56

/-- The rest of the boot memory after `alloc_boot_mem`. It panics, and has no result, if there is
too little. -/
def allocBootMem (bootmemSize size : ℕ) : Option ℕ :=
  if bootmemSize < balign size 8 then none else some (bootmemSize - balign size 8)

/-- `r_base + r_size - 1` -/
def Region.rEnd (r : Region) : ℕ := sub64 (add64 r.phyBase r.size) 1

/-- The check of `add_memory_region` against one region. -/
def Region.conflicts (r : Region) (base size : ℕ) : Bool :=
  ¬ (r.rEnd < base ∨ add64 base size < r.phyBase)

namespace MemMap

/-- `add_memory_region` -/
def addMemoryRegion (s : MemMap) (base size : ℕ) (flags : BitVec 32) : Option (ℤ × MemMap) :=
  if size = 0 then some (-EINVAL, s)
  else if s.memList.any fun r => r.conflicts base size then some (-EINVAL, s)
  else do
    let bootmemSize ← allocBootMem s.bootmemSize REGION_SIZE
    some (0, ⟨s.memList ++ [⟨flags, base, base, size⟩], bootmemSize⟩)

/-- The body of `split_memory_region` for a region that is not skipped: the result, what the region
becomes, the regions that are added at the end of the list, and the boot memory. -/
def splitRegion (bootmemSize base size : ℕ) (flags : BitVec 32) (region : Region) :
    Option (ℤ × Region × List Region × ℕ) :=
  let newEnd := add64 base size
  let rEnd := add64 region.virBase region.size
  let tmp : Region := ⟨flags, base, base, size⟩
  if base = region.virBase ∧ newEnd = rEnd then
    some (0, { region with flags := flags }, [], bootmemSize)
  else if base = region.virBase ∧ newEnd < rEnd then do
    let bootmemSize ← allocBootMem bootmemSize REGION_SIZE
    let region := { region with
      virBase := newEnd, phyBase := newEnd, size := sub64 region.size size }
    some (0, region, [tmp], bootmemSize)
  else if region.virBase < base ∧ newEnd < rEnd then do
    let bootmemSize ← allocBootMem bootmemSize REGION_SIZE
    let n : Region := ⟨region.flags, newEnd, newEnd, sub64 rEnd newEnd⟩
    let bootmemSize ← allocBootMem bootmemSize REGION_SIZE
    some (0, { region with size := sub64 base region.virBase }, [n, tmp], bootmemSize)
  else if region.virBase < base ∧ rEnd = newEnd then do
    let bootmemSize ← allocBootMem bootmemSize REGION_SIZE
    some (0, { region with size := sub64 region.size size }, [tmp], bootmemSize)
  else some (-EINVAL, region, [], bootmemSize)

/-- The loop of `split_memory_region`. It panics, and has no result, at the end of the list. -/
def splitLoop (bootmemSize base size : ℕ) (flags : BitVec 32) (done : List Region) :
    List Region → Option (ℤ × MemMap)
  | [] => none
  | region :: rest =>
    let rEnd := add64 region.virBase region.size
    if rEnd < base ∨ base < region.virBase ∨ rEnd < add64 base size then
      splitLoop bootmemSize base size flags (done ++ [region]) rest
    else do
      let (ret, region, added, bootmemSize) ← splitRegion bootmemSize base size flags region
      some (ret, ⟨done ++ region :: rest ++ added, bootmemSize⟩)

/-- `split_memory_region` -/
def splitMemoryRegion (s : MemMap) (base size : ℕ) (flags : BitVec 32) : Option (ℤ × MemMap) :=
  if size = 0 then some (-EINVAL, s)
  else splitLoop s.bootmemSize base size flags [] s.memList

end MemMap

inductive MemOp where
  | add (base size : ℕ) (flags : BitVec 32)
  | split (base size : ℕ) (flags : BitVec 32)
  /-- `alloc_boot_mem` for something else -/
  | bootMem (size : ℕ)
deriving DecidableEq, Repr

/-- The end of the range is an address. -/
def MemOp.NoWrap : MemOp → Prop
  | .add base size _ => base + size < 2 ^ 64
  | .split base size _ => base + size < 2 ^ 64
  | .bootMem _ => True

instance : (op : MemOp) → Decidable op.NoWrap
  | .add _ _ _ => inferInstanceAs (Decidable (_ < _))
  | .split _ _ _ => inferInstanceAs (Decidable (_ < _))
  | .bootMem _ => inferInstanceAs (Decidable True)

namespace MemMap

/-- A call, with its result. A panic has none. -/
def call (s : MemMap) : MemOp → Option (ℤ × MemMap)
  | .add base size flags => s.addMemoryRegion base size flags
  | .split base size flags => s.splitMemoryRegion base size flags
  | .bootMem size => (allocBootMem s.bootmemSize size).map fun n => (0, { s with bootmemSize := n })

def step (s : MemMap) (op : MemOp) : MemMap := ((s.call op).map Prod.snd).getD s

/-- No memory yet. -/
def init (bootmemSize : ℕ) : MemMap := ⟨[], bootmemSize⟩

/-- The call does not panic, and its range does not wrap. -/
def Proper (s : MemMap) (op : MemOp) : Prop := (s.call op).isSome = true ∧ op.NoWrap

instance (s : MemMap) (op : MemOp) : Decidable (s.Proper op) := inferInstanceAs (Decidable (_ ∧ _))

end MemMap

/-! ### The map as intervals -/

def Region.interval (r : Region) : TaggedInterval ℕ (BitVec 32) :=
  ⟨r.phyBase, r.phyBase + r.size, r.flags⟩

/-- A region has one address, and ends at an address. -/
structure Region.Ok (r : Region) : Prop where
  vir : r.virBase = r.phyBase
  lt : r.phyBase + r.size < 2 ^ 64
  pos : 0 < r.size

namespace MemMap

def intervals (s : MemMap) : List (TaggedInterval ℕ (BitVec 32)) := s.memList.map Region.interval

/-- The regions are not empty and pairwise disjoint. -/
structure Sound (s : MemMap) : Prop where
  ok : ∀ r ∈ s.memList, r.Ok
  valid : Valid s.intervals

/-- A region came to the map. -/
structure Added (s s' : MemMap) (base size : ℕ) (flags : BitVec 32) : Prop where
  disjoint : Disjoint (Set.Ico base (base + size)) (cover s.intervals)
  cover : cover s'.intervals = cover s.intervals ∪ Set.Ico base (base + size)
  tagged : ∀ a f, Tagged s'.intervals a f ↔
    Tagged s.intervals a f ∨ a ∈ Set.Ico base (base + size) ∧ flags = f

/-- A region was split off, with other flags. -/
structure SplitOff (s s' : MemMap) (base size : ℕ) (flags : BitVec 32) : Prop where
  cover : cover s'.intervals = cover s.intervals
  region : ∃ r ∈ s'.memList, r.interval = ⟨base, base + size, flags⟩
  inside : ∀ a ∈ Set.Ico base (base + size), ∀ f, Tagged s'.intervals a f ↔ f = flags
  tagged : ∀ a ∉ Set.Ico base (base + size), ∀ f,
    Tagged s'.intervals a f ↔ Tagged s.intervals a f

/-- What is asked of a call. -/
structure Mapped (s : MemMap) (op : MemOp) : Prop where
  sound : (s.step op).Sound
  add : ∀ base size flags s', op = .add base size flags → s.call op = some (0, s') →
    s.Added s' base size flags
  split : ∀ base size flags s', op = .split base size flags → s.call op = some (0, s') →
    s.SplitOff s' base size flags
  failed : ∀ ret s', s.call op = some (ret, s') → ret ≠ 0 → s' = s

variable {s s' : MemMap} {base size bootmemSize bootmemSize' : ℕ} {flags f : BitVec 32} {ret : ℤ}
  {r r' : Region} {added done rest : List Region} {op : MemOp} {ops : List MemOp}

lemma conflicts_eq_false :
    r.conflicts base size = false ↔ r.rEnd < base ∨ add64 base size < r.phyBase := by
  rw [Region.conflicts, decide_eq_false_iff_not, not_not]

/-- A range without a conflict has no address in common with the region. -/
lemma disjoint_of_not_conflicts (hr : r.Ok) (hsize : base + size < 2 ^ 64)
    (h : r.conflicts base size = false) : Disjoint (Set.Ico base (base + size)) r.interval.set := by
  have hlt := hr.lt
  have hpos := hr.pos
  rw [conflicts_eq_false, Region.rEnd, add64_of_lt hlt, add64_of_lt hsize,
    sub64_of_le (by omega) hlt] at h
  rcases h with h | h
  · exact (disjoint_Ico (show r.phyBase + r.size ≤ base by omega)).symm
  · exact disjoint_Ico (show base + size ≤ r.phyBase by omega)

/-- A successful `add_memory_region` appends one interval that has no address in common with the
others. -/
lemma addMemoryRegion_spec (hs : s.Sound) (hsize : base + size < 2 ^ 64)
    (h : s.addMemoryRegion base size flags = some (ret, s')) :
    (ret = 0 ∧ 0 < size ∧ s'.memList = s.memList ++ [⟨flags, base, base, size⟩] ∧
        Disjoint (Set.Ico base (base + size)) (cover s.intervals)) ∨
      (ret = -EINVAL ∧ s' = s) := by
  rw [addMemoryRegion] at h
  split_ifs at h with hzero hany
  · cases h
    exact .inr ⟨rfl, rfl⟩
  · cases h
    exact .inr ⟨rfl, rfl⟩
  · cases hboot : allocBootMem s.bootmemSize REGION_SIZE with
    | none => simp [hboot] at h
    | some n =>
      simp only [hboot, Option.bind_eq_bind, Option.bind_some, Option.some.injEq,
        Prod.mk.injEq] at h
      obtain ⟨rfl, rfl⟩ := h
      refine .inl ⟨rfl, Nat.pos_of_ne_zero hzero, rfl, ?_⟩
      refine (disjoint_cover (i := ⟨base, base + size, flags⟩)).2 ?_
      intro j hj
      obtain ⟨r, hr, rfl⟩ := List.mem_map.1 hj
      refine disjoint_of_not_conflicts (hs.ok r hr) hsize ?_
      simp only [List.any_eq_true, not_exists, not_and, Bool.not_eq_true] at hany
      exact hany r hr

lemma cut_interval (hpos : 0 < size) :
    r.interval.cut base (base + size) flags =
      piece r.phyBase base r.flags ++ (piece (base + size) (r.phyBase + r.size) r.flags ++
        [⟨base, base + size, flags⟩]) := by
  rw [cut, piece_of_lt (show base < base + size by omega)]
  rfl

/-- What `split_memory_region` leaves of a region is the region cut at the ends of the range. -/
lemma splitRegion_spec (hr : r.Ok) (hsize : base + size < 2 ^ 64) (hpos : 0 < size)
    (hlo : r.phyBase ≤ base) (hhi : base + size ≤ r.phyBase + r.size)
    (h : splitRegion bootmemSize base size flags r = some (ret, r', added, bootmemSize')) :
    ret = 0 ∧ (r' :: added).map Region.interval = r.interval.cut base (base + size) flags ∧
      (∀ q ∈ r' :: added, q.Ok) ∧ ⟨flags, base, base, size⟩ ∈ r' :: added := by
  obtain ⟨rflags, phyBase, virBase, rsize⟩ := r
  obtain ⟨hvir, hlt, -⟩ := hr
  dsimp only at hvir hlt hlo hhi
  subst hvir
  have htmp : (⟨flags, base, base, size⟩ : Region).Ok := ⟨rfl, hsize, hpos⟩
  rw [cut_interval hpos]
  simp only [splitRegion, add64_of_lt hsize, add64_of_lt hlt] at h
  split_ifs at h with h₁ h₂ h₃ h₄
  · -- the region is the range
    obtain ⟨rfl, hend⟩ := h₁
    obtain rfl : size = rsize := by omega
    cases h
    refine ⟨rfl, ?_, by simpa using htmp, List.mem_cons_self⟩
    rw [piece_of_le le_rfl, piece_of_le le_rfl]
    rfl
  · -- the range is its head
    obtain ⟨rfl, hend⟩ := h₂
    cases hboot : allocBootMem bootmemSize REGION_SIZE with
    | none => simp [hboot] at h
    | some n =>
      rw [sub64_of_le (by omega) (by omega)] at h
      simp only [hboot, Option.bind_eq_bind, Option.bind_some, Option.some.injEq,
        Prod.mk.injEq] at h
      obtain ⟨rfl, rfl, rfl, rfl⟩ := h
      refine ⟨rfl, ?_, ?_, by simp⟩
      · rw [piece_of_le le_rfl, piece_of_lt hend]
        simp only [List.map_cons, List.map_nil, Region.interval, List.nil_append, List.cons_append]
        rw [show base + size + (rsize - size) = base + rsize by omega]
      · exact List.forall_mem_cons.2 ⟨⟨rfl, by dsimp only; omega, by dsimp only; omega⟩,
          by simpa using htmp⟩
  · -- the range is in the middle
    obtain ⟨hlo, hend⟩ := h₃
    cases hboot : allocBootMem bootmemSize REGION_SIZE with
    | none => simp [hboot] at h
    | some n =>
      cases hboot' : allocBootMem n REGION_SIZE with
      | none => simp [hboot, hboot'] at h
      | some k =>
        rw [sub64_of_le (by omega) (by omega), sub64_of_le (by omega) (by omega)] at h
        simp only [hboot, hboot', Option.bind_eq_bind, Option.bind_some, Option.some.injEq,
          Prod.mk.injEq] at h
        obtain ⟨rfl, rfl, rfl, rfl⟩ := h
        refine ⟨rfl, ?_, ?_, by simp⟩
        · rw [piece_of_lt hlo, piece_of_lt hend]
          simp only [List.map_cons, List.map_nil, Region.interval, List.nil_append,
            List.cons_append]
          rw [show virBase + (base - virBase) = base by omega,
            show base + size + (virBase + rsize - (base + size)) = virBase + rsize by omega]
        · refine List.forall_mem_cons.2 ⟨⟨rfl, by dsimp only; omega, by dsimp only; omega⟩, ?_⟩
          exact List.forall_mem_cons.2 ⟨⟨rfl, by dsimp only; omega, by dsimp only; omega⟩,
            by simpa using htmp⟩
  · -- the range is its tail
    obtain ⟨hlo, hend⟩ := h₄
    cases hboot : allocBootMem bootmemSize REGION_SIZE with
    | none => simp [hboot] at h
    | some n =>
      rw [sub64_of_le (by omega) (by omega)] at h
      simp only [hboot, Option.bind_eq_bind, Option.bind_some, Option.some.injEq,
        Prod.mk.injEq] at h
      obtain ⟨rfl, rfl, rfl, rfl⟩ := h
      refine ⟨rfl, ?_, ?_, by simp⟩
      · rw [piece_of_lt hlo, piece_of_le hend.le]
        simp only [List.map_cons, List.map_nil, Region.interval, List.nil_append, List.cons_append]
        rw [show virBase + (rsize - size) = base by omega]
      · exact List.forall_mem_cons.2 ⟨⟨rfl, by dsimp only; omega, by dsimp only; omega⟩,
          by simpa using htmp⟩
  · omega

/-- The loop finds the region that has the range, and leaves the others alone. -/
lemma splitLoop_spec (hok : ∀ r ∈ rest, r.Ok) (hsize : base + size < 2 ^ 64) (hpos : 0 < size)
    (h : splitLoop bootmemSize base size flags done rest = some (ret, s')) :
    ∃ pre r post r' added, rest = pre ++ r :: post ∧
      s'.memList = done ++ pre ++ r' :: post ++ added ∧ ret = 0 ∧ r.phyBase ≤ base ∧
      base + size ≤ r.phyBase + r.size ∧
      (r' :: added).map Region.interval = r.interval.cut base (base + size) flags ∧
      (∀ q ∈ r' :: added, q.Ok) ∧ ⟨flags, base, base, size⟩ ∈ r' :: added := by
  induction rest generalizing done with
  | nil => exact absurd h (by simp [splitLoop])
  | cons r rest ih =>
    obtain ⟨hr, hok⟩ := List.forall_mem_cons.1 hok
    rw [splitLoop] at h
    dsimp only at h
    rw [hr.vir, add64_of_lt hr.lt, add64_of_lt hsize] at h
    split_ifs at h with hskip
    · obtain ⟨pre, q, post, q', added, rfl, hlist, hrest⟩ := ih hok h
      exact ⟨r :: pre, q, post, q', added, rfl, by simpa using hlist, hrest⟩
    · cases hsplit : splitRegion bootmemSize base size flags r with
      | none => simp [hsplit] at h
      | some x =>
        obtain ⟨ret', r', added, n⟩ := x
        simp only [hsplit, Option.bind_eq_bind, Option.bind_some, Option.some.injEq,
          Prod.mk.injEq] at h
        obtain ⟨rfl, rfl⟩ := h
        obtain ⟨hret, hcut, hok', hmem⟩ :=
          splitRegion_spec hr hsize hpos (by omega) (by omega) hsplit
        exact ⟨[], r, rest, r', added, rfl, by simp, hret, by omega, by omega, hcut, hok', hmem⟩

lemma Sound.append (hs : s.Sound) (hr : r.Ok) (hd : Disjoint r.interval.set (cover s.intervals))
    (h : s'.memList = s.memList ++ [r]) : s'.Sound := by
  refine ⟨?_, ?_⟩
  · rw [h]
    exact List.forall_mem_append.2 ⟨hs.ok, by simpa using hr⟩
  · rw [intervals, h, List.map_append]
    have hvalid : Valid [r.interval] := by
      refine valid_cons.2 ⟨?_, by simp, valid_nil⟩
      exact Nat.lt_add_of_pos_right hr.pos
    refine hs.valid.append hvalid ?_
    simpa using hd.symm

/-- A successful `add_memory_region` -/
lemma added_of_append (hd : Disjoint (Set.Ico base (base + size)) (cover s.intervals))
    (h : s'.memList = s.memList ++ [⟨flags, base, base, size⟩]) : s.Added s' base size flags := by
  have hint : s'.intervals = s.intervals ++ [⟨base, base + size, flags⟩] := by
    rw [intervals, h, List.map_append]
    rfl
  refine ⟨hd, ?_, fun a f => ?_⟩
  · rw [hint, cover_append, cover_cons, cover_nil, Set.union_empty]
    rfl
  · rw [hint, tagged_append, tagged_cons, or_iff_left tagged_nil]
    rfl

/-- A successful `split_memory_region`: the intervals are the old ones with one of them cut. -/
lemma splitMemoryRegion_spec (hs : s.Sound) (hsize : base + size < 2 ^ 64)
    (h : s.splitMemoryRegion base size flags = some (ret, s')) :
    (ret = 0 ∧ s'.Sound ∧ s.SplitOff s' base size flags) ∨ (ret = -EINVAL ∧ s' = s) := by
  rw [splitMemoryRegion] at h
  split_ifs at h with hzero
  · cases h
    exact .inr ⟨rfl, rfl⟩
  · obtain ⟨pre, r, post, r', added, hlist, hlist', rfl, hlo, hhi, hcut, hok, hmem⟩ :=
      splitLoop_spec hs.ok hsize (Nat.pos_of_ne_zero hzero) h
    have hperm : s.intervals.Perm (r.interval :: (pre ++ post).map Region.interval) := by
      rw [intervals, hlist]
      exact List.perm_middle.map Region.interval
    have hperm' : s'.intervals.Perm
        (r.interval.cut base (base + size) flags ++ (pre ++ post).map Region.interval) := by
      rw [intervals, hlist', ← hcut, ← List.map_append]
      refine List.Perm.map _ ?_
      rw [List.nil_append, List.append_assoc, List.cons_append, List.cons_append]
      refine List.perm_middle.trans (List.Perm.cons _ ?_)
      rw [← List.append_assoc]
      exact List.perm_append_comm
    have hcover : cover (r.interval.cut base (base + size) flags) = r.interval.set :=
      cover_cut hlo (Nat.le_add_right _ _) hhi
    have hvalid := (hs.valid.perm hperm).replace (valid_cut (Nat.le_add_right base size)) hcover
    have hregion : (⟨flags, base, base, size⟩ : Region) ∈ s'.memList := by
      rw [hlist']
      rcases List.mem_cons.1 hmem with hmem | hmem
      · simp [hmem]
      · exact List.mem_append_right _ hmem
    refine .inl ⟨rfl, ⟨?_, hvalid.perm hperm'.symm⟩, ?_, ⟨_, hregion, rfl⟩, ?_, ?_⟩
    · intro q hq
      have hold : ∀ q ∈ pre ++ r :: post, q.Ok := hlist ▸ hs.ok
      rw [hlist'] at hq
      simp only [List.nil_append, List.mem_append, List.mem_cons] at hq hold
      rcases hq with (hq | rfl | hq) | hq
      · exact hold q (.inl hq)
      · exact hok q List.mem_cons_self
      · exact hold q (.inr (.inr hq))
      · exact hok q (List.mem_cons_of_mem _ hq)
    · rw [cover_perm hperm', cover_perm hperm, cover_replace hcover]
    · intro a ha f
      have htag : Tagged s'.intervals a flags := ⟨_, List.mem_map_of_mem hregion, ha, rfl⟩
      exact ⟨fun hf => (hvalid.perm hperm'.symm).tag_unique hf htag, fun hf => hf ▸ htag⟩
    · intro a ha f
      rw [tagged_perm hperm', tagged_perm hperm]
      refine tagged_replace (fun a ha t => ?_) ha
      rw [tagged_cut hlo (Nat.le_add_right _ _) hhi]
      simp [ha]

/-- One call. -/
lemma Sound.mapped (hs : s.Sound) (hop : s.Proper op) : s.Mapped op := by
  obtain ⟨hsome, hwrap⟩ := hop
  obtain ⟨⟨ret, s'⟩, hcall⟩ := Option.isSome_iff_exists.1 hsome
  have hstep : s.step op = s' := by rw [step, hcall]; rfl
  have heq : ∀ ret' s'', s.call op = some (ret', s'') → ret' = ret ∧ s'' = s' := by
    intro ret' s'' h
    rw [hcall] at h
    simpa [eq_comm] using h
  cases op with
  | add base size flags =>
    rcases addMemoryRegion_spec hs hwrap hcall with ⟨rfl, hpos, hlist, hd⟩ | ⟨rfl, rfl⟩
    · refine ⟨?_, ?_, nofun, ?_⟩
      · rw [hstep]
        have hr : (⟨flags, base, base, size⟩ : Region).Ok := ⟨rfl, hwrap, hpos⟩
        exact hs.append hr hd hlist
      · rintro _ _ _ s'' ⟨⟩ h
        obtain ⟨-, rfl⟩ := heq _ _ h
        exact added_of_append hd hlist
      · intro ret' s'' h hne
        exact absurd (heq _ _ h).1 hne
    · refine ⟨?_, ?_, nofun, fun ret' s'' h _ => (heq _ _ h).2⟩
      · rw [hstep]
        exact hs
      · intro _ _ _ s'' _ h
        exact absurd (heq _ _ h).1 (by decide)
  | split base size flags =>
    rcases splitMemoryRegion_spec hs hwrap hcall with ⟨rfl, hs', hsplit⟩ | ⟨rfl, rfl⟩
    · refine ⟨?_, nofun, ?_, ?_⟩
      · rw [hstep]
        exact hs'
      · rintro _ _ _ s'' ⟨⟩ h
        obtain ⟨-, rfl⟩ := heq _ _ h
        exact hsplit
      · intro ret' s'' h hne
        exact absurd (heq _ _ h).1 hne
    · refine ⟨?_, nofun, ?_, fun ret' s'' h _ => (heq _ _ h).2⟩
      · rw [hstep]
        exact hs
      · intro _ _ _ s'' _ h
        exact absurd (heq _ _ h).1 (by decide)
  | bootMem size =>
    simp only [call, Option.map_eq_some_iff, Prod.mk.injEq] at hcall
    obtain ⟨n, -, rfl, rfl⟩ := hcall
    refine ⟨?_, nofun, nofun, ?_⟩
    · rw [hstep]
      exact ⟨hs.ok, hs.valid⟩
    · intro ret' s'' h hne
      exact absurd (heq _ _ h).1 hne

/-- **The memory map.** In every run without a panic the regions stay pairwise disjoint and not
empty, an added region is new and comes to the others, and a region that is split off has its flags
while all other addresses keep theirs. -/
theorem memory_map_sound {bootmemSize : ℕ} {ops : List MemOp}
    (h : Along step Proper (init bootmemSize) ops) : Along step Mapped (init bootmemSize) ops :=
  along_induction (I := Sound) (fun _ _ hs hop => (hs.mapped hop).sound)
    (fun _ _ hs hop => hs.mapped hop) ⟨nofun, valid_nil⟩ h

/-- Memory of 1 GiB, with the image of the hypervisor and the memory of a guest split off. -/
theorem memory_map_sound_boot :
    let ops : List MemOp := [.add 0x40000000 0x40000000 0x01, .bootMem 0x100,
      .split 0x40080000 0x200000 0x20, .split 0x60000000 0x20000000 0x08,
      .add 0x50000000 0x1000 0x01]
    Along step Mapped (init 0x1000) ops ∧
      ((exec step (init 0x1000) ops).memList.map fun r => (r.phyBase, r.size, r.flags)) =
        [(0x40000000, 0x80000, 0x01), (0x40280000, 0x1fd80000, 0x01), (0x40080000, 0x200000, 0x20),
          (0x60000000, 0x20000000, 0x08)] :=
  ⟨memory_map_sound (by decide +kernel), by decide +kernel⟩

/-! ### Which ranges are rejected -/

/-- The regions are not empty and end inside the address space. -/
def Registered (s : MemMap) : Prop := ∀ r ∈ s.memList, 0 < r.size ∧ r.phyBase + r.size ≤ 2 ^ 64

/-- The range has an address in common with a region. -/
def Intersects (s : MemMap) (base size : ℕ) : Prop :=
  ∃ r ∈ s.memList, (Set.Ico base (base + size) ∩ r.interval.set).Nonempty

/-- A region starts where the range ends. -/
def EndsAtRegion (s : MemMap) (base size : ℕ) : Prop := ∃ r ∈ s.memList, r.phyBase = base + size

/-- An error for the ranges that meet a region and for no others, and nothing is added then. -/
structure RejectsOverlaps (s : MemMap) (base size : ℕ) (flags : BitVec 32) : Prop where
  error : (∃ ret s', s.addMemoryRegion base size flags = some (ret, s') ∧ ret < 0) ↔
    s.Intersects base size
  kept : ∀ ret s', s.addMemoryRegion base size flags = some (ret, s') → ret < 0 →
    s'.memList = s.memList

lemma interval_inter_nonempty (hpos : 0 < r.size) (hsize : 0 < size) :
    (Set.Ico base (base + size) ∩ r.interval.set).Nonempty ↔
      r.phyBase < base + size ∧ base < r.phyBase + r.size := by
  constructor
  · rintro ⟨a, ha, hr⟩
    have hr : r.phyBase ≤ a ∧ a < r.phyBase + r.size := hr
    have ha := Set.mem_Ico.1 ha
    omega
  · intro h
    have hr : max base r.phyBase ∈ r.interval.set :=
      show r.phyBase ≤ max base r.phyBase ∧ max base r.phyBase < r.phyBase + r.size by omega
    exact ⟨max base r.phyBase, Set.mem_Ico.2 (by omega), hr⟩

/-- The end of the range is compared as if it belonged to the range. -/
lemma conflicts_iff (hpos : 0 < r.size) (hend : r.phyBase + r.size ≤ 2 ^ 64) (hsize : 0 < size)
    (hwrap : base + size < 2 ^ 64) :
    r.conflicts base size = true ↔
      (Set.Ico base (base + size) ∩ r.interval.set).Nonempty ∨ r.phyBase = base + size := by
  have hrEnd : r.rEnd = r.phyBase + r.size - 1 := by
    rw [Region.rEnd]
    rcases hend.lt_or_eq with hlt | heq
    · rw [add64_of_lt hlt, sub64_of_le (by omega) hlt]
    · rw [add64, heq, sub64]
      norm_num
  rw [interval_inter_nonempty hpos hsize, Region.conflicts, hrEnd, add64_of_lt hwrap,
    decide_eq_true_iff]
  omega

lemma addMemoryRegion_error (hs : s.Registered) (hsize : 0 < size) (hwrap : base + size < 2 ^ 64)
    (flags : BitVec 32) :
    (∃ ret s', s.addMemoryRegion base size flags = some (ret, s') ∧ ret < 0) ↔
      s.Intersects base size ∨ s.EndsAtRegion base size := by
  have hany : (s.memList.any fun r => r.conflicts base size) = true ↔
      s.Intersects base size ∨ s.EndsAtRegion base size := by
    rw [List.any_eq_true, Intersects, EndsAtRegion, ← exists_or]
    refine exists_congr fun r => ?_
    rw [← and_or_left]
    exact and_congr_right fun hr => conflicts_iff (hs r hr).1 (hs r hr).2 hsize hwrap
  rw [← hany, addMemoryRegion, if_neg hsize.ne']
  constructor
  · rintro ⟨ret, s', h, hret⟩
    by_contra hno
    rw [if_neg hno] at h
    cases hboot : allocBootMem s.bootmemSize REGION_SIZE with
    | none => simp [hboot] at h
    | some n =>
      simp only [hboot, Option.bind_eq_bind, Option.bind_some, Option.some.injEq,
        Prod.mk.injEq] at h
      exact absurd h.1 hret.ne'
  · intro h
    exact ⟨-EINVAL, s, by rw [if_pos h], by decide⟩

lemma addMemoryRegion_kept (h : s.addMemoryRegion base size flags = some (ret, s'))
    (hret : ret < 0) : s' = s := by
  rw [addMemoryRegion] at h
  split_ifs at h
  · cases h
    rfl
  · cases h
    rfl
  · cases hboot : allocBootMem s.bootmemSize REGION_SIZE with
    | none => simp [hboot] at h
    | some n =>
      simp only [hboot, Option.bind_eq_bind, Option.bind_some, Option.some.injEq,
        Prod.mk.injEq] at h
      exact absurd h.1 hret.ne'

/-- **Registration.** A range is rejected exactly when it has an address in common with a region, if
and only if it has one or no region starts where the range ends. -/
theorem add_memory_region_rejects_iff {s : MemMap} {base size : ℕ} {flags : BitVec 32}
    (hs : s.Registered) (hsize : 0 < size) (hwrap : base + size < 2 ^ 64) :
    s.RejectsOverlaps base size flags ↔ (s.EndsAtRegion base size → s.Intersects base size) := by
  have herror := addMemoryRegion_error hs hsize hwrap flags
  constructor
  · intro h hend
    exact h.error.1 (herror.2 (.inr hend))
  · intro h
    refine ⟨herror.trans ⟨fun h' => h'.elim id h, .inl⟩, fun ret s' hcall hret => ?_⟩
    rw [addMemoryRegion_kept hcall hret]

/-- A range above the only region, which touches it, and one below it with a gap. -/
theorem add_memory_region_rejects_above :
    let s : MemMap := ⟨[⟨0x01, 0x40000000, 0x40000000, 0x10000000⟩], 0x1000⟩
    s.RejectsOverlaps 0x50000000 0x1000 0x01 ∧ s.RejectsOverlaps 0x3fff0000 0x1000 0x01 := by
  refine ⟨(add_memory_region_rejects_iff ?_ (by decide) (by decide)).2 ?_,
    (add_memory_region_rejects_iff ?_ (by decide) (by decide)).2 ?_⟩
  · simp [Registered]
  · simp [EndsAtRegion]
  · simp [Registered]
  · simp [EndsAtRegion]

/-- A range that touches the region from below is rejected. -/
theorem add_memory_region_rejects_below :
    let s : MemMap := ⟨[⟨0x01, 0x40000000, 0x40000000, 0x10000000⟩], 0x1000⟩
    s.addMemoryRegion 0x3ffff000 0x1000 0x01 = some (-EINVAL, s) ∧
      ¬ s.Intersects 0x3ffff000 0x1000 ∧ ¬ s.RejectsOverlaps 0x3ffff000 0x1000 0x01 := by
  intro s
  have hcall : s.addMemoryRegion 0x3ffff000 0x1000 0x01 = some (-EINVAL, s) := by
    decide +kernel
  have hno : ¬ s.Intersects 0x3ffff000 0x1000 := by
    rintro ⟨r, hr, h⟩
    obtain rfl := List.mem_singleton.1 hr
    exact absurd ((interval_inter_nonempty (by decide) (by decide)).1 h).1 (by decide)
  exact ⟨hcall, hno, fun h => hno (h.error.1 ⟨_, _, hcall, by decide⟩)⟩

end MemMap

end Minos.Mm
