import Mathlib
import Minos.Types
import Minos.Virt.Mailbox

/-!
# Enumerating the mailboxes

A native VM learns its mailboxes from `mailbox_query_instance`, which looks for the next mailbox of
the VM from an index on. It returns the index it was called with plus one, and not the place of
the mailbox that it found, and reads the owners of slots that are empty.
-/

namespace Minos.Virt

/-- What `mailbox_query_instance` writes to the `struct mailbox_instance` of the caller. The name of
a mailbox is never set, so that it is left out; the place of the mailbox is what the guest cannot
see. -/
structure MailboxInstance where
  place : ℕ
  cookie : ℕ
  ownerId : ℕ
deriving DecidableEq, Repr

inductive QueryResult where
  | found (is : MailboxInstance) (ret : ℕ)
  | error (ret : ℤ)
  /-- an owner is read through `NULL` -/
  | fault
deriving DecidableEq, Repr

namespace MailboxSystem

variable (s : MailboxSystem) (vm : VmRef)

/-- The loop of `mailbox_query_instance` from slot `i` on, with `n` slots to go. -/
def queryLoop (index : ℕ) : ℕ → ℕ → QueryResult
  | 0, _ => .error (- ENOENT)
  | n + 1, i =>
    match s.mailboxs i with
    | none => .fault
    | some mailbox =>
      if vm = mailbox.owner false ∨ vm = mailbox.owner true then
        .found ⟨i, mailbox.cookie, if vm = mailbox.owner false then 0 else 1⟩ (index + 1)
      else queryLoop index n (i + 1)

/-- `mailbox_query_instance` for an instance in the memory of the VM -/
def mailboxQueryInstance (index : ℕ) : QueryResult :=
  if MAX_MAILBOX_NR ≤ index then .error (- EINVAL)
  else s.queryLoop vm index (MAX_MAILBOX_NR - index) index

/-- A VM that asks for mailboxes, first with `index` and then with each value that is returned: the
instances, and what ends it. -/
def enumerate : ℕ → ℕ → Option (List MailboxInstance × QueryResult)
  | 0, _ => none
  | fuel + 1, index =>
    match s.mailboxQueryInstance vm index with
    | .found is ret => (enumerate fuel ret).map fun r => (is :: r.1, r.2)
    | .error ret => some ([], .error ret)
    | .fault => some ([], .fault)

/-- The instance of slot `i`, if its mailbox is one of the VM. -/
def instanceAt (i : ℕ) : Option MailboxInstance :=
  match s.mailboxs i with
  | none => none
  | some mailbox =>
    if mailbox.Owns vm then
      some ⟨i, mailbox.cookie, if vm = mailbox.owner false then 0 else 1⟩
    else none

/-- The mailboxes of the VM from slot `index` on, in the order of their slots. -/
def ownedFrom (index : ℕ) : List MailboxInstance :=
  (List.range' index (MAX_MAILBOX_NR - index)).filterMap (s.instanceAt vm)

/-- The VM sees each of its mailboxes once, in their order, and then `-ENOENT`. -/
def Enumerates (index : ℕ) : Prop :=
  ∃ fuel, s.enumerate vm fuel index = some (s.ownedFrom vm index, .error (- ENOENT))

/-- Every slot from `index` on is used, and the mailboxes of the VM come first. -/
def FrontOwned (index : ℕ) : Prop :=
  ∃ m < MAX_MAILBOX_NR, index ≤ m ∧ ∀ i < MAX_MAILBOX_NR, index ≤ i →
    ∃ mb, s.mailboxs i = some mb ∧ (mb.Owns vm ↔ i < m)

variable {s vm}

/-! ### One query -/

lemma instanceAt_place {i : ℕ} {is : MailboxInstance} (h : s.instanceAt vm i = some is) :
    is.place = i := by
  unfold instanceAt at h
  split at h
  · cases h
  · split_ifs at h
    all_goals exact (Option.some.inj h) ▸ rfl

lemma owns_of_instanceAt {i : ℕ} {is : MailboxInstance} (h : s.instanceAt vm i = some is) :
    ∃ mb, s.mailboxs i = some mb ∧ mb.Owns vm := by
  unfold instanceAt at h
  split at h
  · cases h
  · next mb hmb =>
    by_contra hnone
    rw [if_neg fun hown => hnone ⟨mb, hmb, hown⟩] at h
    cases h

lemma not_owns_of_instanceAt {i : ℕ} (h : (s.mailboxs i).isSome ∧ s.instanceAt vm i = none) :
    ∃ mb, s.mailboxs i = some mb ∧ ¬mb.Owns vm := by
  obtain ⟨mb, hmb⟩ := Option.isSome_iff_exists.1 h.1
  refine ⟨mb, hmb, fun hown => ?_⟩
  have hnone := h.2
  rw [instanceAt, hmb] at hnone
  dsimp only at hnone
  rw [if_pos hown] at hnone
  cases hnone

variable (s vm) in
/-- What the loop finds: the first mailbox of the VM, an empty slot before it, or neither. -/
lemma queryLoop_cases (index n i : ℕ) :
    (∃ j is, i ≤ j ∧ j < i + n ∧ s.queryLoop vm index n i = .found is (index + 1) ∧
      s.instanceAt vm j = some is ∧
      ∀ t, i ≤ t → t < j → (s.mailboxs t).isSome ∧ s.instanceAt vm t = none) ∨
    (∃ j, i ≤ j ∧ j < i + n ∧ s.queryLoop vm index n i = .fault ∧ s.mailboxs j = none) ∨
    s.queryLoop vm index n i = .error (- ENOENT) ∧
      ∀ t, i ≤ t → t < i + n → (s.mailboxs t).isSome ∧ s.instanceAt vm t = none := by
  induction n generalizing i with
  | zero => exact .inr (.inr ⟨rfl, fun t h₁ h₂ => by omega⟩)
  | succ n ih =>
    rcases hmb : s.mailboxs i with _ | mb
    · exact .inr (.inl ⟨i, le_rfl, by omega, by rw [queryLoop, hmb], hmb⟩)
    · by_cases hown : mb.Owns vm
      · refine .inl ⟨i, ⟨i, mb.cookie, if vm = mb.owner false then 0 else 1⟩, le_rfl, by omega,
          ?_, ?_, fun t h₁ h₂ => by omega⟩
        · rw [queryLoop, hmb]
          exact if_pos hown
        · rw [instanceAt, hmb]
          exact if_pos hown
      · have hi : (s.mailboxs i).isSome ∧ s.instanceAt vm i = none := by
          refine ⟨by rw [hmb]; rfl, ?_⟩
          rw [instanceAt, hmb]
          exact if_neg hown
        have hskip : s.queryLoop vm index (n + 1) i = s.queryLoop vm index n (i + 1) := by
          rw [queryLoop, hmb]
          exact if_neg hown
        rw [hskip]
        have hmore : ∀ {j}, (∀ t, i + 1 ≤ t → t < j → (s.mailboxs t).isSome ∧
            s.instanceAt vm t = none) → ∀ t, i ≤ t → t < j → (s.mailboxs t).isSome ∧
              s.instanceAt vm t = none := by
          intro j h t hlo hhi
          rcases eq_or_lt_of_le hlo with rfl | hlt
          · exact hi
          · exact h t hlt hhi
        obtain ⟨j, is, hlo, hhi, hq, his, hbefore⟩ | ⟨j, hlo, hhi, hq, hnone⟩ | ⟨hq, hall⟩ :=
          ih (i + 1)
        · exact .inl ⟨j, is, by omega, by omega, hq, his, hmore hbefore⟩
        · exact .inr (.inl ⟨j, by omega, by omega, hq, hnone⟩)
        · exact .inr (.inr ⟨hq, hmore fun t h₁ h₂ => hall t h₁ (by omega)⟩)

/-! ### The enumeration -/

lemma ownedFrom_of_none {index j : ℕ} (hj : index ≤ j) (hmax : j ≤ MAX_MAILBOX_NR)
    (hnone : ∀ t, index ≤ t → t < j → s.instanceAt vm t = none) :
    s.ownedFrom vm index = s.ownedFrom vm j := by
  obtain ⟨n, rfl⟩ := Nat.exists_eq_add_of_le hj
  have hsplit : MAX_MAILBOX_NR - index = n + (MAX_MAILBOX_NR - (index + n)) := by omega
  have hhead : (List.range' index n).filterMap (s.instanceAt vm) = [] := by
    rw [List.filterMap_eq_nil_iff]
    intro t ht
    rw [List.mem_range'_1] at ht
    exact hnone t ht.1 ht.2
  rw [ownedFrom, hsplit, ← List.range'_append_1, List.filterMap_append, hhead, List.nil_append]
  rfl

lemma ownedFrom_cons {j : ℕ} {is : MailboxInstance} (hj : j < MAX_MAILBOX_NR)
    (his : s.instanceAt vm j = some is) : s.ownedFrom vm j = is :: s.ownedFrom vm (j + 1) := by
  have hsplit : MAX_MAILBOX_NR - j = MAX_MAILBOX_NR - (j + 1) + 1 := by omega
  rw [ownedFrom, hsplit, List.range'_succ, List.filterMap_cons_some his]
  rfl

lemma place_of_mem_ownedFrom {index : ℕ} {is : MailboxInstance} (h : is ∈ s.ownedFrom vm index) :
    index ≤ is.place := by
  obtain ⟨t, ht, his⟩ := List.mem_filterMap.1 h
  rw [instanceAt_place his]
  exact (List.mem_range'_1.1 ht).1

lemma enumerates_succ {index : ℕ} {is : MailboxInstance}
    (hq : s.mailboxQueryInstance vm index = .found is (index + 1)) {l : List MailboxInstance}
    {r : QueryResult} {fuel : ℕ} : s.enumerate vm (fuel + 1) index = some (is :: l, r) ↔
      s.enumerate vm fuel (index + 1) = some (l, r) := by
  rw [enumerate, hq]
  constructor
  · intro h
    obtain ⟨⟨l', r'⟩, h', heq⟩ := Option.map_eq_some_iff.1 h
    rw [h']
    simpa using heq
  · intro h
    simp [h]

/-- An enumeration does not come to the end when a slot is empty or the index too large. -/
lemma not_enumerate_of_ne {index fuel : ℕ} {l : List MailboxInstance}
    (hq : s.mailboxQueryInstance vm index = .fault ∨
      s.mailboxQueryInstance vm index = .error (- EINVAL)) :
    s.enumerate vm fuel index ≠ some (l, .error (- ENOENT)) := by
  cases fuel with
  | zero => simp [enumerate]
  | succ fuel =>
    rw [enumerate]
    obtain hq | hq := hq
    · simp [hq]
    · simp [hq, EINVAL, ENOENT]

/-- The mailbox after a gap is found again by the next query. -/
lemma not_enumerate_of_gap {index j fuel : ℕ} {is : MailboxInstance} (hlt : index < j)
    (hj : j < MAX_MAILBOX_NR) (his : s.instanceAt vm j = some is) :
    s.enumerate vm fuel (index + 1) ≠ some (s.ownedFrom vm (j + 1), .error (- ENOENT)) := by
  intro h
  have hq : s.mailboxQueryInstance vm (index + 1) =
      s.queryLoop vm (index + 1) (MAX_MAILBOX_NR - (index + 1)) (index + 1) :=
    if_neg (by omega)
  obtain ⟨j', is', hlo, hhi, hq', his', hbefore⟩ | ⟨j', hlo, hhi, hq', -⟩ | ⟨hq', hall⟩ :=
    queryLoop_cases s vm (index + 1) (MAX_MAILBOX_NR - (index + 1)) (index + 1)
  · cases fuel with
    | zero => simp [enumerate] at h
    | succ fuel =>
      have hle : j' ≤ j := by
        by_contra hgt
        rw [(hbefore j (by omega) (by omega)).2] at his
        cases his
      rcases htail : s.ownedFrom vm (j + 1) with _ | ⟨first, l⟩
      · rw [htail, enumerate, hq, hq'] at h
        obtain ⟨r, -, heq⟩ := Option.map_eq_some_iff.1 h
        simp at heq
      · have hfirst : first = is' := by
          rw [htail, enumerate, hq, hq'] at h
          obtain ⟨r, -, heq⟩ := Option.map_eq_some_iff.1 h
          simp only [Prod.mk.injEq, List.cons.injEq] at heq
          exact heq.1.1.symm
        have hplace : j + 1 ≤ first.place := place_of_mem_ownedFrom (htail ▸ List.mem_cons_self)
        rw [hfirst, instanceAt_place his'] at hplace
        omega
  · exact not_enumerate_of_ne (.inl (hq.trans hq')) h
  · rw [(hall j (by omega) (by omega)).2] at his
    cases his

/-- An enumeration from `index` sees the mailboxes of the VM from there on just when they are the
first slots from there on, and no slot is empty. -/
lemma enumerates_iff {n index : ℕ} (hn : n = MAX_MAILBOX_NR - index) :
    s.Enumerates vm index ↔ s.FrontOwned vm index := by
  induction n generalizing index with
  | zero =>
    have hq : s.mailboxQueryInstance vm index = .error (- EINVAL) := if_pos (by omega)
    refine iff_of_false ?_ ?_
    · rintro ⟨fuel, h⟩
      exact not_enumerate_of_ne (.inr hq) h
    · rintro ⟨m, hm, hle, -⟩
      omega
  | succ n ih =>
    have hq : s.mailboxQueryInstance vm index =
        s.queryLoop vm index (MAX_MAILBOX_NR - index) index := if_neg (by omega)
    obtain ⟨j, is, hlo, hhi, hq', his, hbefore⟩ | ⟨j, hlo, hhi, hq', hnone⟩ | ⟨hq', hall⟩ :=
      queryLoop_cases s vm index (MAX_MAILBOX_NR - index) index
    · obtain ⟨mb, hmb, hown⟩ := owns_of_instanceAt his
      have howned : s.ownedFrom vm index = is :: s.ownedFrom vm (j + 1) := by
        rw [ownedFrom_of_none hlo (by omega) fun t h₁ h₂ => (hbefore t h₁ h₂).2,
          ownedFrom_cons (by omega) his]
      have hnext : s.Enumerates vm index ↔ ∃ fuel, s.enumerate vm fuel (index + 1) =
          some (s.ownedFrom vm (j + 1), .error (- ENOENT)) := by
        unfold Enumerates
        rw [howned]
        constructor
        · rintro ⟨fuel, h⟩
          cases fuel with
          | zero => simp [enumerate] at h
          | succ fuel => exact ⟨fuel, (enumerates_succ (hq.trans hq')).1 h⟩
        · rintro ⟨fuel, h⟩
          exact ⟨fuel + 1, (enumerates_succ (hq.trans hq')).2 h⟩
      rw [hnext]
      rcases eq_or_lt_of_le hlo with rfl | hlt
      · refine (ih (by omega)).trans ⟨?_, ?_⟩
        · rintro ⟨m, hm, hle, hfront⟩
          refine ⟨m, hm, by omega, fun i hi hge => ?_⟩
          rcases eq_or_lt_of_le hge with rfl | hgt
          · exact ⟨mb, hmb, iff_of_true hown (by omega)⟩
          · exact hfront i hi hgt
        · rintro ⟨m, hm, hle, hfront⟩
          obtain ⟨mb', hmb', hiff⟩ := hfront index (by omega) le_rfl
          obtain rfl : mb = mb' := Option.some.inj (hmb.symm.trans hmb')
          exact ⟨m, hm, hiff.1 hown, fun i hi hge => hfront i hi (by omega)⟩
      · refine iff_of_false ?_ ?_
        · rintro ⟨fuel, h⟩
          exact not_enumerate_of_gap hlt (by omega) his h
        · rintro ⟨m, hm, hle, hfront⟩
          obtain ⟨mb', hmb', hiff⟩ := hfront j (by omega) hlo
          obtain rfl : mb = mb' := Option.some.inj (hmb.symm.trans hmb')
          obtain ⟨mb₀, hmb₀, hnot⟩ := not_owns_of_instanceAt (hbefore index le_rfl hlt)
          obtain ⟨mb₁, hmb₁, hiff₁⟩ := hfront index (by omega) le_rfl
          obtain rfl : mb₀ = mb₁ := Option.some.inj (hmb₀.symm.trans hmb₁)
          have := hiff.1 hown
          exact hnot (hiff₁.2 (by omega))
    · refine iff_of_false ?_ ?_
      · rintro ⟨fuel, h⟩
        exact not_enumerate_of_ne (.inl (hq.trans hq')) h
      · rintro ⟨m, hm, hle, hfront⟩
        obtain ⟨mb, hmb, -⟩ := hfront j (by omega) hlo
        rw [hnone] at hmb
        cases hmb
    · refine iff_of_true ⟨1, ?_⟩ ⟨index, by omega, le_rfl, fun i hi hge => ?_⟩
      · rw [enumerate, hq, hq', ownedFrom_of_none (j := MAX_MAILBOX_NR) (by omega) le_rfl
          fun t h₁ h₂ => (hall t h₁ (by omega)).2]
        rfl
      · obtain ⟨mb, hmb, hnot⟩ := not_owns_of_instanceAt (hall i hge (by omega))
        exact ⟨mb, hmb, iff_of_false hnot (by omega)⟩

/-- **Enumeration of mailboxes.** A VM that asks from index 0 on sees each of its mailboxes once and
in order, and then `-ENOENT`, just when every slot is used and its mailboxes are the first ones,
with another one behind them. -/
theorem mailboxQuery_enumerates_iff (s : MailboxSystem) (vm : VmRef) :
    (∃ fuel, s.enumerate vm fuel 0 =
      some ((List.range MAX_MAILBOX_NR).filterMap (s.instanceAt vm), .error (- ENOENT))) ↔
    ∃ m < MAX_MAILBOX_NR, ∀ i < MAX_MAILBOX_NR,
      ∃ mb, s.mailboxs i = some mb ∧ (mb.Owns vm ↔ i < m) := by
  have h : s.Enumerates vm 0 ↔ s.FrontOwned vm 0 := enumerates_iff rfl
  unfold Enumerates FrontOwned ownedFrom at h
  simpa only [Nat.sub_zero, ← List.range_eq_range', Nat.zero_le, true_and, forall_const] using h

/-- Two mailboxes, of which VM 1 has the second. -/
def secondOwned : MailboxSystem :=
  Run.exec (step exampleVms) init [.create 2 3 0 0 exampleEnv, .create 1 2 0 0 exampleEnv]

/-- VM 1 is told about its mailbox twice, and then slot 2 is read. -/
theorem mailboxQuery_repeats :
    secondOwned.enumerate ⟨0x1000, 1⟩ 11 0 =
        some ([⟨1, generateMailboxCookie 1 2 1, 0⟩, ⟨1, generateMailboxCookie 1 2 1, 0⟩], .fault) ∧
      ¬∃ fuel, secondOwned.enumerate ⟨0x1000, 1⟩ fuel 0 =
        some ((List.range MAX_MAILBOX_NR).filterMap (secondOwned.instanceAt ⟨0x1000, 1⟩),
          .error (- ENOENT)) := by
  refine ⟨by decide +kernel, ?_⟩
  rintro ⟨fuel, h⟩
  have henum : secondOwned.Enumerates ⟨0x1000, 1⟩ 0 := by
    refine ⟨fuel, ?_⟩
    rw [ownedFrom, Nat.sub_zero, ← List.range_eq_range']
    exact h
  obtain ⟨m, -, -, hfront⟩ := (enumerates_iff rfl).1 henum
  obtain ⟨mb, hmb, -⟩ := hfront 2 (by decide) (by decide)
  have hempty : (secondOwned.mailboxs 2).isSome = false := by decide +kernel
  simp [hmb] at hempty

end MailboxSystem

end Minos.Virt
