import Mathlib
import Minos.Mmu.Supply

/-!
# What the mapping functions do to a table

One lemma for the leaf loop (`pageEntryLoop_remap`), one for a round of the table loop
(`createTableEntry_success`), and the loop rule `createTableEntry_maps`, which turns what the
call for one piece does into what the whole call does. The levels are then instances of the rule.
-/

namespace Minos.Mmu

open Radix WordMem

variable {σ : Type} {A : PageOps σ} {F : Format} {n t W : ℕ} {m : Mem}

/-- The output of `va` in a leaf with `n` levels below, when the entry of `vir` was made for `phy`
and the entries after it for what follows. -/
def leafOut (n vir phy va : ℕ) : ℕ :=
  outField n (phy + (va / 2 ^ (12 + 9 * n) * 2 ^ (12 + 9 * n) - vir)) + va % 2 ^ (12 + 9 * n)

lemma outField_congr {n x y : ℕ} (h : x % 2 ^ 48 = y % 2 ^ 48) : outField n x = outField n y := by
  rw [outField, outField, h]

/-- The leaf word of the page entry loop, at the levels it is used at. -/
structure LeafAttr (n attr : ℕ) : Prop where
  type : n = 0 ∧ attr % 4 = 3 ∨ n = 1 ∧ attr % 4 = 1
  attrOnly : AttrOnly attr

lemma LeafAttr.decode {attr phy : ℕ} (h : LeafAttr n attr) (hp : phy < 2 ^ 64) :
    desDecode n (desWord attr phy) = .leaf (outField n phy) := by
  have hmod := desWord_mod_four attr hp
  have hout := fun k => desWord_outField k h.attrOnly hp
  rcases h.type with ⟨rfl, ha⟩ | ⟨rfl, ha⟩
  · simp [desDecode, hmod, ha, hout]
  · simp [desDecode, hmod, ha, hout]

lemma LeafAttr.legal {attr phy : ℕ} (hF : IsDes F) (h : LeafAttr n attr) (hp : phy < 2 ^ 64) :
    F.Legal n (desWord attr phy) := by
  have hmod := desWord_mod_four attr hp
  rcases h.type with ⟨rfl, ha⟩ | ⟨rfl, ha⟩
  · exact hF.legal_page _ (hmod.trans ha)
  · exact hF.legal_block _ (hmod.trans ha)

/-- The loop of `create_page_entry`, from entry `i` of the table on. -/
lemma pageEntryLoop_remap (hF : IsDes F) {attr : ℕ} (ha : LeafAttr n attr) (k i phy : ℕ)
    (hik : i + k ≤ 512) (hp : phy < 2 ^ 64) (hwf : WF F m n t) :
    Remap F n t W {va | 512 * W + i ≤ slot n va ∧ slot n va < 512 * W + i + k}
      (fun va => some ⟨n, leafOut n ((512 * W + i) * 2 ^ (12 + 9 * n)) phy va⟩) ∅ m
      (pageEntryLoop t attr (2 ^ (12 + 9 * n)) k i phy m) := by
  induction k generalizing i phy m with
  | zero =>
    refine (Remap.refl _ hwf).congr (fun va _ => ?_) (fun va _ _ => rfl)
    simp
  | succ k ih =>
    have hi : i < 512 := by omega
    set e := 512 * W + i with he
    have hstore : entryAddr t e = t + 8 * i := by
      rw [entryAddr, he]
      omega
    have hdec := ha.decode hp
    have h₁ := Remap.setEntry (W := W) (e := e) (d := desWord attr phy) hwf (ha.legal hF hp)
      (by simp [hF.decode, hdec]) (by omega)
    rw [hstore, hF.decode, hdec] at h₁
    have hmod : (i + 1) % 2 ^ 32 = i + 1 := Nat.mod_eq_of_lt (by omega)
    have h₂ := ih (i + 1) (add64 phy (2 ^ (12 + 9 * n))) (by omega) (add64_lt _ _) h₁.wf
    rw [pageEntryLoop, hmod]
    have hpos : 0 < 2 ^ (12 + 9 * n) := by positivity
    -- both parts give the translation of the whole
    have h₁' := h₁.congr (S := {va | slot n va = e})
      (f := fun va => some ⟨n, leafOut n (e * 2 ^ (12 + 9 * n)) phy va⟩) (fun _ _ => Iff.rfl) (by
        intro va (hva : slot n va = e) _
        have hbase : va / 2 ^ (12 + 9 * n) = e := hva
        simp [Entry.out, leafOut, hbase])
    have h₂' := h₂.congr (S := {va | e + 1 ≤ slot n va ∧ slot n va < e + 1 + k})
      (f := fun va => some ⟨n, leafOut n (e * 2 ^ (12 + 9 * n)) phy va⟩)
      (fun va _ => by simp only [Set.mem_ofPred_eq, he, add_assoc]) (by
        rintro va ⟨hlo, -⟩ -
        have hle : (e + 1) * 2 ^ (12 + 9 * n) ≤ va / 2 ^ (12 + 9 * n) * 2 ^ (12 + 9 * n) :=
          Nat.mul_le_mul_right _ hlo
        have hsum : 512 * W + (i + 1) = e + 1 := by omega
        simp only [leafOut, hsum]
        congr 3
        apply outField_congr
        rw [add_mul, one_mul] at hle ⊢
        rw [add64]
        omega)
    refine (h₁'.trans h₂').congr (fun va _ => ?_) (fun va _ _ => rfl) |>.mono (by simp)
    simp only [Set.mem_union, Set.mem_ofPred_eq]
    omega

/-! ### One round of the table loop -/

/-- The call for one piece of the range. -/
def createEntry (A : PageOps σ) (info : MappingStruct) (s : MmState σ) : ℤ × MmState σ :=
  if getMapType info = VM_DES_TABLE then createTableEntry A info s else createPageEntry info s

/-- How a round gets at the table below its entry: a new page, or the address in the entry. -/
inductive EnterTable (A : PageOps σ) (info : MappingStruct) (s : MmState σ) :
    ℕ → MmState σ → Prop
  | new {page : ℕ} {a : σ} (hval : s.mem.word info.entry = 0)
      (halloc : A.allocPage s.alloc = some (page, a)) (hpage : page ≠ 0) :
      EnterTable A info s page
        ⟨((s.mem.zeroPage page).zeroPage page).store info.entry
          (desWord (pageTableDescription (info.flags ||| VM_DES_TABLE)) page), a, page :: s.head⟩
  | old (hval : s.mem.word info.entry ≠ 0) :
      EnterTable A info s (entryBase (s.mem.word info.entry)) s

lemma enterTable_spec {info : MappingStruct} {s : MmState σ}
    (h : ¬ (s.mem.word info.entry = 0 ∧ (enterTable A info s).1 = 0)) :
    EnterTable A info s (enterTable A info s).1 (enterTable A info s).2 := by
  by_cases hval : s.mem.word info.entry = 0
  · cases halloc : A.allocPage s.alloc with
    | none => simp [enterTable, allocMappingPage, hval, halloc] at h
    | some r =>
      obtain ⟨page, a⟩ := r
      by_cases hpage : page = 0
      · simp [enterTable, allocMappingPage, hval, halloc, hpage] at h
      · simp only [enterTable, allocMappingPage, hval, halloc, hpage, if_true, if_false]
        exact EnterTable.new hval halloc hpage
  · simp only [enterTable, hval, if_false]
    exact EnterTable.old hval

lemma createTableEntry_done {info : MappingStruct} {s : MmState σ} (h : info.size = 0) :
    createTableEntry A info s = (0, s) := by
  rw [createTableEntry, dif_pos h]

/-- A successful call is a round that succeeds, and a successful call for the rest. -/
lemma createTableEntry_success {info : MappingStruct} {s s' : MmState σ} {next : Level}
    (hsize : info.size ≠ 0) (hnext : info.lvl.next = some next)
    (h : createTableEntry A info s = (0, s')) :
    ∃ value s₁ s₂, EnterTable A info s value s₁ ∧
      createEntry A ⟨value, info.virBase, info.phyBase, roundSize info, next, info.flags⟩ s₁ =
        (0, s₂) ∧
      createTableEntry A info.advance s₂ = (0, s') := by
  rw [createTableEntry, dif_neg hsize] at h
  split at h
  · rename_i hn
    simp [hn] at hnext
  rename_i next' hn
  obtain rfl : next' = next := by simpa [hn] using hnext
  dsimp only at h
  rw [← createEntry] at h
  by_cases hnone : s.mem.word info.entry = 0 ∧ (enterTable A info s).1 = 0
  · rw [if_pos hnone] at h
    simp [ENOMEM] at h
  rw [if_neg hnone] at h
  rcases hchild : createEntry A ⟨(enterTable A info s).1, info.virBase, info.phyBase,
    roundSize info, next', info.flags⟩ (enterTable A info s).2 with ⟨ret, s₂⟩
  rw [hchild] at h
  dsimp only at h
  by_cases hret : ret = 0
  · rw [if_neg (not_not.mpr hret)] at h
    exact ⟨_, _, s₂, enterTable_spec hnone, by rw [hchild, hret], h⟩
  · rw [if_pos hret] at h
    exact absurd (congrArg Prod.fst h) hret

/-- What every page allocation keeps, a successful mapping keeps. -/
lemma createTableEntry_alloc {P : σ → Prop}
    (hP : ∀ a p a', P a → A.allocPage a = some (p, a') → P a') (n : ℕ) {info : MappingStruct}
    {s s' : MmState σ} (hn : 4 * info.size + info.lvl.below < n)
    (h : createTableEntry A info s = (0, s')) (hs : P s.alloc) : P s'.alloc := by
  induction n generalizing info s s' with
  | zero => omega
  | succ n ih =>
    by_cases hsize : info.size = 0
    · rw [createTableEntry_done hsize] at h
      obtain rfl := (Prod.mk.inj h).2
      exact hs
    · cases hnext : info.lvl.next with
      | none =>
        rw [createTableEntry, dif_neg hsize] at h
        split at h
        · simp [EINVAL] at h
        · rename_i hn'
          simp [hnext] at hn'
      | some next =>
        obtain ⟨value, s₁, s₂, henter, hchild, hrest⟩ := createTableEntry_success hsize hnext h
        have hs₁ : P s₁.alloc := by
          cases henter with
          | new hval halloc hpage => exact hP _ _ _ hs halloc
          | old hval => exact hs
        have hs₂ : P s₂.alloc := by
          rw [createEntry] at hchild
          split_ifs at hchild with htype
          · refine ih ?_ hchild hs₁
            have := Level.below_of_next hnext
            have := roundSize_le info
            dsimp only
            omega
          · rw [createPageEntry] at hchild
            obtain rfl := (Prod.mk.inj hchild).2
            exact hs₁
        refine ih ?_ hrest hs₂
        have := roundSize_pos hsize
        have := roundSize_le info
        rw [MappingStruct.advance_size, MappingStruct.advance_lvl]
        omega

lemma createPageEntry_alloc (info : MappingStruct) (s : MmState σ) :
    (createPageEntry info s).2.alloc = s.alloc := by
  unfold createPageEntry
  dsimp only

/-- What taking a page and freeing one keep, every mapping keeps, also one that fails. -/
lemma createTableEntry_keeps {P : σ → Prop}
    (halloc : ∀ a p a', P a → A.allocPage a = some (p, a') → P a')
    (hfree : ∀ a p, P a → P (A.free a p)) (n : ℕ) {info : MappingStruct} {s : MmState σ}
    (hn : 4 * info.size + info.lvl.below < n) (hs : P s.alloc) :
    P (createTableEntry A info s).2.alloc := by
  induction n generalizing info s with
  | zero => omega
  | succ n ih =>
    rw [createTableEntry]
    by_cases hsize : info.size = 0
    · rw [dif_pos hsize]
      exact hs
    rw [dif_neg hsize]
    have hround := roundSize_le info
    have hpos := roundSize_pos hsize
    split
    · exact hs
    rename_i next hnext
    have hlvl := Level.below_of_next hnext
    have henter : P (enterTable A info s).2.alloc := by
      rw [enterTable]
      by_cases hval : s.mem.word info.entry = 0
      · rw [if_pos hval, allocMappingPage]
        cases hpage : A.allocPage s.alloc with
        | none => exact hs
        | some r =>
          have hnew := halloc _ _ _ hs hpage
          dsimp only
          split_ifs
          · exact hnew
          · exact hnew
      · rw [if_neg hval]
        exact hs
    dsimp only
    rw [← createEntry]
    by_cases hnone : s.mem.word info.entry = 0 ∧ (enterTable A info s).1 = 0
    · rw [if_pos hnone]
      exact henter
    rw [if_neg hnone]
    have hchild : P (createEntry A ⟨(enterTable A info s).1, info.virBase, info.phyBase,
        roundSize info, next, info.flags⟩ (enterTable A info s).2).2.alloc := by
      rw [createEntry]
      split_ifs
      · exact ih (by dsimp only; omega) henter
      · rw [createPageEntry_alloc]
        exact henter
    rcases hr : createEntry A ⟨(enterTable A info s).1, info.virBase, info.phyBase,
      roundSize info, next, info.flags⟩ (enterTable A info s).2 with ⟨ret, s₂⟩
    rw [hr] at hchild
    dsimp only at hchild ⊢
    by_cases hret : ret = 0
    · rw [if_neg (not_not.mpr hret)]
      refine ih ?_ hchild
      rw [MappingStruct.advance_size, MappingStruct.advance_lvl]
      omega
    · rw [if_pos hret]
      split_ifs
      · exact hfree _ _ hchild
      · exact hchild

lemma MappingStruct.entry_eq (info : MappingStruct) :
    info.entry = entryAddr info.tableBase (slot info.lvl.below info.virBase) := by
  rw [entry, entryAddr, Level.index_eq]

/-- Getting at the table below an entry changes no translation. -/
lemma EnterTable.maps {info : MappingStruct} {s s₁ : MmState σ} {value : ℕ} {next : Level}
    (hF : IsDes F) (hnext : info.lvl.next = some next) (hflags : info.flags &&& VM_DES_MASK = 0)
    (g : ℕ → Option Leaf) (W : ℕ) (h : EnterTable A info s value s₁)
    (hwf : WF F s.mem (next.below + 1) info.tableBase) (hs : Supply A s.alloc)
    (hd : Disjoint (avail A s.alloc) (pages F s.mem (next.below + 1) info.tableBase))
    (hleaf : ∀ x, walk F s.mem (next.below + 1) info.tableBase info.virBase = some x →
      x.lvl ≠ next.below + 1) :
    Maps A F (next.below + 1) info.tableBase W ∅ g s s₁ ∧
      F.decode (next.below + 1) (s₁.mem.word info.entry) = .table value := by
  have hentry := info.entry_eq
  rw [Level.below_of_next hnext] at hentry
  cases h with
  | new hval halloc hpage =>
    have hmem := mem_avail_of_alloc halloc
    have hlt := hs.lt value hmem
    have hal := hs.aligned value hmem
    have hdes := pageTableDescription_table hflags
    have hmod : desWord 3 value % 4 = 3 := desWord_mod_four 3 (by omega)
    have hout : outField 0 (desWord 3 value) = value := by
      rw [desWord_outField 0 (show 3 % 2 ^ 48 / 2 ^ 12 = 0 by norm_num) (by omega), outField]
      omega
    have hword : desWord 3 value < 2 ^ 48 := by
      refine Nat.or_lt_two_pow (by norm_num) (lt_of_le_of_lt Nat.and_le_left hlt)
    have hdec : F.decode (next.below + 1) (desWord 3 value) = .table value := by
      simp [hF.decode, desDecode, hmod, hout]
    have hc : Confined {value} s.mem ((s.mem.zeroPage value).zeroPage value) :=
      (Confined.zeroPage _ (Set.mem_singleton _)).trans (Confined.zeroPage _ (Set.mem_singleton _))
    have hgrow := Remap.grow (W := W) g hwf (e := slot (next.below + 1) info.virBase) hc
      (fun b h₁ h₂ => Mem.zeroPage_word_in _ h₁ h₂) hal
      (fun hp => Set.disjoint_left.mp hd hmem hp) (hF.legal_table _ _ hmod hword) hdec
      (by rw [← hentry, hval, F.decode_zero])
    rw [← hentry] at hgrow
    simp only [hdes]
    refine ⟨⟨{value}, by simpa using hmem, hgrow, hs.of_alloc halloc, avail_subset_of_alloc halloc,
      by simpa using hs.notMem_of_alloc halloc⟩, ?_⟩
    rw [Mem.store_word_self, hdec]
  | old hval =>
    refine ⟨Maps.of_remap (Remap.refl g hwf) hs rfl, ?_⟩
    have hlt : slot (next.below + 1) info.virBase % 512 < 512 := Nat.mod_lt _ (by norm_num)
    have hleg := hwf.legal _ hlt
    rw [← entryAddr, ← hentry] at hleg
    rcases hF.legal_cases _ _ hleg with h0 | h3 | ⟨hn, h1⟩
    · exact absurd h0 hval
    · rw [hF.decode, entryBase_eq]
      simp [desDecode, h3]
    · -- a block here is a leaf at this level
      have hdec : F.decode (next.below + 1) (s.mem.word info.entry) =
          .leaf (outField (next.below + 1) (s.mem.word info.entry)) := by
        rw [hF.decode, desDecode, if_neg (by omega), if_pos h1, if_pos hn]
      rw [hentry] at hdec
      exact absurd rfl (hleaf _ (by rw [walk_eq_out (by simp [hdec]), hdec]; rfl))

/-! ### The loop rule -/

/-- One piece of the range from `lo` to `hi`, cut at the multiples of `ms`. -/
structure Piece (lo hi ms v sz : ℕ) : Prop where
  lo_le : lo ≤ v
  pos : 0 < sz
  le_hi : v + sz ≤ hi
  same : ∀ va ∈ Set.Ico v (v + sz), va / ms = v / ms
  start : v = lo ∨ ms ∣ v
  stop : v + sz = hi ∨ ms ∣ v + sz

/-- The physical address that goes with `v` when `lo` goes with `phy`. -/
def phyAt (lo phy v : ℕ) : ℕ := (phy + (v - lo)) % 2 ^ 64

lemma phyAt_lt (lo phy v : ℕ) : phyAt lo phy v < 2 ^ 64 := Nat.mod_lt _ (by norm_num)

lemma add64_phyAt {lo phy v sz : ℕ} (h : lo ≤ v) :
    add64 (phyAt lo phy v) sz = phyAt lo phy (v + sz) := by
  rw [add64, phyAt, phyAt, Nat.mod_add_mod, show v + sz - lo = v - lo + sz by omega, add_assoc]

lemma roundSize_eq {info : MappingStruct} (h : info.virBase + info.lvl.mapSize ≤ 2 ^ 64) :
    roundSize info =
      min (info.lvl.mapSize - info.virBase % info.lvl.mapSize) info.size := by
  rw [Level.mapSize_eq] at h
  have hk : 12 + 9 * info.lvl.below ≤ 64 := by
    cases info.lvl <;> decide
  rw [roundSize, Level.mapSize_eq, balign_sub h hk]

/-- A round takes the piece that starts at `v`. -/
lemma piece_of_round {lo hi ms v : ℕ} (hms : 0 < ms) (hlo : lo ≤ v) (hhi : v < hi)
    (hstart : v = lo ∨ ms ∣ v) : Piece lo hi ms v (min (ms - v % ms) (hi - v)) := by
  have hmod := Nat.mod_lt v hms
  have hdiv := Nat.div_add_mod v ms
  refine ⟨hlo, by omega, by omega, fun va hva => ?_, hstart, ?_⟩
  · obtain ⟨h₁, h₂⟩ := Set.mem_Ico.mp hva
    rw [Nat.div_eq_iff hms, mul_comm]
    omega
  · by_cases h : ms - v % ms ≤ hi - v
    · right
      rw [min_eq_left h]
      exact ⟨v / ms + 1, by rw [mul_add, mul_one]; omega⟩
    · left
      omega

/-- What the call for a piece has to do: map the piece in the table it is given. `Q` is what it
needs of the translations that are there. -/
def ChildMaps (A : PageOps σ) (F : Format) (next : Level) (flags lo hi phy : ℕ)
    (Q : ℕ → Option Leaf → Prop) (g : ℕ → Option Leaf) : Prop :=
  ∀ v sz t s₁ s₂, Piece lo hi (2 ^ (12 + 9 * (next.below + 1))) v sz →
    WF F s₁.mem next.below t → Supply A s₁.alloc →
    Disjoint (avail A s₁.alloc) (pages F s₁.mem next.below t) →
    (∀ va ∈ Set.Ico v (v + sz), Q va (walk F s₁.mem next.below t va)) →
    createEntry A ⟨t, v, phyAt lo phy v, sz, next, flags⟩ s₁ = (0, s₂) →
    Maps A F next.below t (slot (next.below + 1) v) (Set.Ico v (v + sz)) g s₁ s₂

/-- The request for what is left of the range from `lo` to `hi` at `v`. -/
def restInfo (t lo hi phy : ℕ) (l : Level) (flags v : ℕ) : MappingStruct :=
  ⟨t, v, phyAt lo phy v, hi - v, l, flags⟩

/-- A successful call for a range that is not empty: a piece, and a call for the rest. -/
lemma createTableEntry_step {l next : Level} (hnext : l.next = some next) {flags lo hi phy : ℕ}
    (hhi : hi + l.mapSize ≤ 2 ^ 64) {v : ℕ} {s s' : MmState σ} (hlo : lo ≤ v) (hlt : v < hi)
    (hstart : v = lo ∨ l.mapSize ∣ v)
    (h : createTableEntry A (restInfo t lo hi phy l flags v) s = (0, s')) :
    ∃ sz value s₁ s₂, Piece lo hi l.mapSize v sz ∧
      EnterTable A (restInfo t lo hi phy l flags v) s value s₁ ∧
      createEntry A ⟨value, v, phyAt lo phy v, sz, next, flags⟩ s₁ = (0, s₂) ∧
      createTableEntry A (restInfo t lo hi phy l flags (v + sz)) s₂ = (0, s') := by
  have hsize : (restInfo t lo hi phy l flags v).size ≠ 0 := Nat.sub_ne_zero_of_lt hlt
  obtain ⟨value, s₁, s₂, hent, hcall, hrest⟩ := createTableEntry_success hsize hnext h
  have hround : roundSize (restInfo t lo hi phy l flags v) =
      min (l.mapSize - v % l.mapSize) (hi - v) :=
    roundSize_eq (show v + l.mapSize ≤ 2 ^ 64 by omega)
  have hpiece := piece_of_round l.mapSize_pos hlo hlt hstart
  have hadv : (restInfo t lo hi phy l flags v).advance = restInfo t lo hi phy l flags
      (v + min (l.mapSize - v % l.mapSize) (hi - v)) := by
    have hle := hpiece.le_hi
    rw [MappingStruct.advance, hround, restInfo, restInfo]
    simp only
    rw [add64_of_lt (by have := l.mapSize_pos; omega), add64_phyAt hlo, Nat.sub_sub]
  rw [hround] at hcall
  rw [hadv] at hrest
  exact ⟨_, value, s₁, s₂, hpiece, hent, hcall, hrest⟩

/-- A round maps its piece when the call for the piece does. -/
lemma round_maps (hF : IsDes F) {l next : Level} (hnext : l.next = some next)
    {flags lo hi phy v sz value : ℕ} (hflags : flags &&& VM_DES_MASK = 0)
    {Q : ℕ → Option Leaf → Prop} {g : ℕ → Option Leaf}
    (hchild : ChildMaps A F next flags lo hi phy Q g) {s s₁ s₂ : MmState σ}
    (hpiece : Piece lo hi l.mapSize v sz)
    (hW : ∀ va ∈ Set.Ico v (v + sz), slot (next.below + 2) va = W)
    (hwf : WF F s.mem (next.below + 1) t) (hs : Supply A s.alloc)
    (hd : Disjoint (avail A s.alloc) (pages F s.mem (next.below + 1) t))
    (hQ : ∀ va ∈ Set.Ico v (v + sz), Q va (walk F s.mem (next.below + 1) t va) ∧
      ∀ x, walk F s.mem (next.below + 1) t va = some x → x.lvl ≠ next.below + 1)
    (hent : EnterTable A (restInfo t lo hi phy l flags v) s value s₁)
    (hcall : createEntry A ⟨value, v, phyAt lo phy v, sz, next, flags⟩ s₁ = (0, s₂)) :
    Maps A F (next.below + 1) t W (Set.Ico v (v + sz)) g s s₂ := by
  have hms := l.mapSize_eq
  rw [Level.below_of_next hnext] at hms
  have hv : v ∈ Set.Ico v (v + sz) := by
    have := hpiece.pos
    exact Set.mem_Ico.mpr ⟨le_rfl, by omega⟩
  obtain ⟨hm₁, hdec⟩ := hent.maps hF hnext hflags g W hwf hs hd (hQ v hv).2
  -- the piece lies below one entry, which now holds a table
  have hentry := MappingStruct.entry_eq (restInfo t lo hi phy l flags v)
  simp only [restInfo, Level.below_of_next hnext] at hentry
  rw [restInfo, hentry] at hdec
  have hsame : ∀ va ∈ Set.Ico v (v + sz),
      slot (next.below + 1) va = slot (next.below + 1) v := by
    intro va hva
    rw [slot, slot, ← hms]
    exact hpiece.same va hva
  have hQ₁ : ∀ va ∈ Set.Ico v (v + sz), Q va (walk F s₁.mem next.below value va) := by
    intro va hva
    have hwalk : walk F s₁.mem (next.below + 1) t va = walk F s.mem (next.below + 1) t va :=
      hm₁.walk_out va (hW va hva) (Set.notMem_empty va)
    rw [← walk_table (t := t) (by rw [hsame va hva]; exact hdec), hwalk]
    exact (hQ va hva).1
  have hlt512 : slot (next.below + 1) v % 512 < 512 := Nat.mod_lt _ (by norm_num)
  have hm₂ := hchild v sz value s₁ s₂ (hms ▸ hpiece) (hm₁.wf.child hlt512 hdec) hm₁.supply
    ((hm₁.fresh hd).mono_right (pages_child_subset hlt512 hdec)) hQ₁ hcall
  have hm₂' := hm₂.lift hm₁.wf hm₁.supply (hm₁.fresh hd) hdec hsame
  rw [← slot_succ, hW v hv] at hm₂'
  exact (hm₁.trans hm₂').congr (fun va _ => by simp) (fun _ _ _ => rfl)

/-- The loop rule: when the call for a piece maps the piece, the loop maps the range. -/
lemma createTableEntry_maps (hF : IsDes F) {l next : Level} (hnext : l.next = some next)
    {flags lo hi phy : ℕ} (hflags : flags &&& VM_DES_MASK = 0) {Q : ℕ → Option Leaf → Prop}
    {g : ℕ → Option Leaf} (hchild : ChildMaps A F next flags lo hi phy Q g)
    (hhi : hi + l.mapSize ≤ 2 ^ 64) (k v : ℕ) (s s' : MmState σ) (hk : hi - v = k)
    (hlo : lo ≤ v) (hle : v ≤ hi) (hstart : v < hi → v = lo ∨ l.mapSize ∣ v)
    (hW : ∀ va ∈ Set.Ico v hi, slot (next.below + 2) va = W)
    (hwf : WF F s.mem (next.below + 1) t) (hs : Supply A s.alloc)
    (hd : Disjoint (avail A s.alloc) (pages F s.mem (next.below + 1) t))
    (hQ : ∀ va ∈ Set.Ico v hi, Q va (walk F s.mem (next.below + 1) t va) ∧
      ∀ x, walk F s.mem (next.below + 1) t va = some x → x.lvl ≠ next.below + 1)
    (h : createTableEntry A (restInfo t lo hi phy l flags v) s = (0, s')) :
    Maps A F (next.below + 1) t W (Set.Ico v hi) g s s' := by
  induction k using Nat.strong_induction_on generalizing v s with
  | _ k ih =>
    rcases Nat.eq_or_lt_of_le hle with rfl | hlt
    · rw [createTableEntry_done (Nat.sub_self v)] at h
      obtain rfl : s = s' := congrArg Prod.snd h
      exact (Maps.of_remap (Remap.refl g hwf) hs rfl).congr (fun va _ => by simp)
        (fun va hva _ => absurd hva (by simp))
    obtain ⟨sz, value, s₁, s₂, hpiece, hent, hcall, hrest⟩ :=
      createTableEntry_step hnext hhi hlo hlt (hstart hlt) h
    have hpos := hpiece.pos
    have hend := hpiece.le_hi
    have hsub : ∀ va ∈ Set.Ico v (v + sz), va ∈ Set.Ico v hi := fun va hva =>
      Set.mem_Ico.mpr ⟨(Set.mem_Ico.mp hva).1, lt_of_lt_of_le (Set.mem_Ico.mp hva).2 hend⟩
    have hm := round_maps hF hnext hflags hchild hpiece (fun va hva => hW va (hsub va hva)) hwf hs
      hd (fun va hva => hQ va (hsub va hva)) hent hcall
    have hout : ∀ va ∈ Set.Ico (v + sz) hi, va ∈ Set.Ico v hi ∧ va ∉ Set.Ico v (v + sz) := by
      intro va hva
      simp only [Set.mem_Ico] at hva ⊢
      omega
    have hm' := ih (hi - (v + sz)) (by omega) (v + sz) s₂ rfl (by omega) hend
      (fun hlt' => Or.inr (hpiece.stop.resolve_left hlt'.ne))
      (fun va hva => hW va (hout va hva).1) hm.wf hm.supply (hm.fresh hd)
      (fun va hva => by
        rw [hm.walk_out va (hW va (hout va hva).1) (hout va hva).2]
        exact hQ va (hout va hva).1) hrest
    refine (hm.trans hm').congr (fun va _ => ?_) (fun _ _ _ => rfl)
    simp only [Set.mem_union, Set.mem_Ico]
    omega

/-! ### Leaves -/

lemma leafAttr_of_flags {flags : ℕ} (hflags : flags &&& VM_DES_MASK = 0) {l : Level}
    (hl : l = .pte ∨ l = .pmd) :
    LeafAttr l.below (pageTableDescription
      (flags ||| if l.lvl ≠ 3 then VM_DES_BLOCK else VM_DES_PAGE)) := by
  rcases hl with rfl | rfl
  · obtain ⟨ht, ha⟩ := pageTableDescription_leaf hflags (Or.inr ⟨rfl, rfl⟩)
    exact ⟨Or.inl ⟨rfl, ht⟩, ha⟩
  · obtain ⟨ht, ha⟩ := pageTableDescription_leaf hflags (Or.inl ⟨rfl, rfl⟩)
    exact ⟨Or.inr ⟨rfl, ht⟩, ha⟩

/-- `create_page_entry` maps a range of whole entries of one table. -/
lemma createPageEntry_remap (hF : IsDes F) {l : Level} (hl : l = .pte ∨ l = .pmd) {flags : ℕ}
    (hflags : flags &&& VM_DES_MASK = 0) {v phy sz : ℕ} {s s' : MmState σ} (hphy : phy < 2 ^ 64)
    (hv : l.mapSize ∣ v) (hsz : l.mapSize ∣ sz) (hpos : 0 < sz)
    (hW : ∀ va ∈ Set.Ico v (v + sz), slot (l.below + 1) va = W)
    (hwf : WF F s.mem l.below t)
    (h : createPageEntry ⟨t, v, phy, sz, l, flags⟩ s = (0, s')) :
    Remap F l.below t W (Set.Ico v (v + sz))
      (fun va => some ⟨l.below, leafOut l.below v phy va⟩) ∅ s.mem s'.mem ∧
      s'.alloc = s.alloc ∧ s'.head = s.head := by
  have hms := l.mapSize_eq
  have hmspos := l.mapSize_pos
  rw [hms] at hmspos hv hsz
  obtain ⟨e, rfl⟩ := hv
  obtain ⟨k, rfl⟩ := hsz
  have hk : 0 < k := Nat.pos_of_mul_pos_left hpos
  -- the last entry lies in the same table as the first
  have hfirst := hW _ (Set.mem_Ico.mpr ⟨le_rfl, by omega⟩)
  have hlast := hW (2 ^ (12 + 9 * l.below) * e + (2 ^ (12 + 9 * l.below) * k - 1))
    (Set.mem_Ico.mpr ⟨by omega, by omega⟩)
  rw [slot_succ, slot, Nat.mul_div_cancel_left _ hmspos] at hfirst
  have hdiv : (2 ^ (12 + 9 * l.below) * e + (2 ^ (12 + 9 * l.below) * k - 1)) /
      2 ^ (12 + 9 * l.below) = e + (k - 1) := by
    rw [Nat.mul_add_div hmspos]
    congr 1
    obtain ⟨j, rfl⟩ := Nat.exists_eq_succ_of_ne_zero hk.ne'
    rw [Nat.div_eq_iff hmspos, Nat.mul_succ, Nat.succ_sub_one, mul_comm]
    omega
  rw [slot_succ, slot, hdiv] at hlast
  have he : e = 512 * W + e % 512 := by omega
  have hloop := pageEntryLoop_remap (F := F) (n := l.below) (t := t) (W := W) (m := s.mem) hF
    (leafAttr_of_flags hflags hl) k (e % 512) phy (by omega) hphy hwf
  rw [← he] at hloop
  have hcount : (2 ^ (12 + 9 * l.below) * k) >>> l.rangeOffset = k := by
    rw [Nat.shiftRight_eq_div_pow, l.rangeOffset_eq, Nat.mul_div_cancel_left _ hmspos]
  have hindex : l.index (2 ^ (12 + 9 * l.below) * e) = e % 512 := by
    rw [l.index_eq, slot, Nat.mul_div_cancel_left _ hmspos]
  simp only [createPageEntry, hcount, hindex, hms, Prod.mk.injEq, true_and] at h
  subst h
  refine ⟨hloop.congr (fun va _ => ?_) (fun va _ _ => by rw [mul_comm]), rfl, rfl⟩
  simp only [Set.mem_ofPred_eq, Set.mem_Ico, slot]
  rw [Nat.le_div_iff_mul_le hmspos, Nat.div_lt_iff_lt_mul hmspos, ← mul_add,
    mul_comm e, mul_comm (e + k)]

lemma createPageEntry_maps (hF : IsDes F) {l : Level} (hl : l = .pte ∨ l = .pmd) {flags : ℕ}
    (hflags : flags &&& VM_DES_MASK = 0) {v phy sz : ℕ} {s s' : MmState σ} (hphy : phy < 2 ^ 64)
    (hv : l.mapSize ∣ v) (hsz : l.mapSize ∣ sz) (hpos : 0 < sz)
    (hW : ∀ va ∈ Set.Ico v (v + sz), slot (l.below + 1) va = W)
    (hwf : WF F s.mem l.below t) (hs : Supply A s.alloc)
    (h : createPageEntry ⟨t, v, phy, sz, l, flags⟩ s = (0, s')) :
    Maps A F l.below t W (Set.Ico v (v + sz))
      (fun va => some ⟨l.below, leafOut l.below v phy va⟩) s s' := by
  obtain ⟨hremap, halloc, -⟩ := createPageEntry_remap hF hl hflags hphy hv hsz hpos hW hwf h
  exact Maps.of_remap hremap hs halloc

/-- A page aligned mapping by pages is exact, up to the 48 bits of an output address. -/
lemma leafOut_page {lo phy v va : ℕ} (hlo : 4096 ∣ lo) (hphy : 4096 ∣ phy) (hle : lo ≤ v)
    (hv : 4096 ∣ v) (hva : v ≤ va) :
    leafOut 0 v (phyAt lo phy v) va = (phy + (va - lo)) % 2 ^ 48 := by
  unfold leafOut outField phyAt
  omega

end Minos.Mmu
