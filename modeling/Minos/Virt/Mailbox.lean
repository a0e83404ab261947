import Mathlib
import Minos.Lib.BitField
import Minos.Lib.Run
import Minos.Types
import Minos.Virt.VmTable

/-!
# Mailboxes between two VMs

A mailbox has a cookie, which its owners pass to the hypercalls. `generate_mailbox_cookie` returns
32 bits, so that the magic number is lost, and `exract_mailbox_cookie` writes the second owner in
the place of the first: `cookie_to_mailbox` panics for the cookie of every mailbox. A guest that
makes up a cookie with the magic number and its own id gets any mailbox.

The handlers check the status of the caller before they take the lock of the mailbox, so that the
check and the section under the lock are steps of their own.
-/

namespace Minos.Virt

open Run

def MAX_MAILBOX_NR : ℕ := 10
def MAILBOX_MAGIC : ℕ := 0xabcdefee
def MAILBOX_MAX_EVENT : ℕ := 4

/-! ### Cookies -/

/-- `generate_mailbox_cookie`, which returns a `uint32_t` -/
def generateMailboxCookie (o1 o2 index : ℕ) : ℕ :=
  (MAILBOX_MAGIC <<< 32 ||| o1 <<< 16 ||| o2 <<< 8 ||| index) % 2 ^ 32

/-- The variables that `exract_mailbox_cookie` writes to. -/
structure CookieFields where
  o1 : ℤ
  o2 : ℤ
  index : ℕ
  magic : ℕ
deriving DecidableEq, Repr

/-- `exract_mailbox_cookie`. Its second line writes to `o1` again. -/
def exractMailboxCookie (cookie : ℕ) (e : CookieFields) : CookieFields :=
  let e := { e with o1 := ((cookie &&& 0x0000000000ff0000) >>> 16 : ℕ) }
  let e := { e with o1 := ((cookie &&& 0x000000000000ff00) >>> 8 : ℕ) }
  { e with index := cookie &&& 0xff, magic := cookie >>> 32 % 2 ^ 32 }

/-- The variables of `cookie_to_mailbox` before the call. -/
def CookieFields.invalid : CookieFields := ⟨-1, -1, 0, 0⟩

/-- The cookie gives back what it was made of. -/
def RoundTrip (o1 o2 index : ℕ) : Prop :=
  exractMailboxCookie (generateMailboxCookie o1 o2 index) .invalid = ⟨o1, o2, index, MAILBOX_MAGIC⟩

instance (o1 o2 index : ℕ) : Decidable (RoundTrip o1 o2 index) :=
  inferInstanceAs (Decidable (_ = _))

/-! ### Mailboxes -/

/-- `struct mailbox_vm_info` -/
structure MailboxVmInfo where
  connectVirq : ℕ
  disconnectVirq : ℕ
  event : ℕ → ℕ

/-- `struct mailbox`. The owners are number `false` and number `true`. -/
structure Mailbox where
  cookie : ℕ
  /-- `MAILBOX_STATUS_CONNECTED` -/
  connected : Bool → Bool
  owner : Bool → VmRef
  mbInfo : Bool → MailboxVmInfo

/-- What the rest of the system does in a call of `create_mailbox`: whether `zalloc`, `get_io_pages`
and `vm_map_shmem` succeed, and the results of `alloc_vm_virq`. -/
structure MailboxEnv where
  zalloc : Bool
  ioPages : Bool
  iomem : Bool → Bool
  virq : Bool → ℕ → ℤ

/-- A vcpu: its VM and its number. -/
structure Caller where
  vm : VmRef
  vcpu : ℕ
deriving DecidableEq, Repr

/-- Where a vcpu is. -/
inductive MailboxPc where
  | idle
  /-- in `mailbox_connect`, before the lock -/
  | connecting (index : ℕ)
  /-- in `mailbox_disconnect`, before the lock -/
  | disconnecting (index : ℕ)
deriving DecidableEq, Repr

structure MailboxSystem where
  mailboxIndex : ℕ
  mailboxs : ℕ → Option Mailbox
  pc : Caller → MailboxPc
  /-- a panic has ended the run -/
  dead : Bool

/-- The result of `cookie_to_mailbox`. -/
inductive Lookup where
  | panic
  | null
  | mailbox (index : ℕ)
deriving DecidableEq, Repr

/-- What a step does: the virqs that are sent, and the result of the call if it returns. -/
structure MailboxAct where
  next : MailboxSystem
  sent : List (VmRef × ℕ)
  ret : Option ℤ

inductive MailboxEvent where
  | create (o1 o2 size : ℕ) (event : ℤ) (env : MailboxEnv)
  | connect (c : Caller) (cookie : ℕ)
  | connectLocked (c : Caller)
  | disconnect (c : Caller) (cookie : ℕ)
  | disconnectLocked (c : Caller)
  | postEvent (c : Caller) (cookie eventId : ℕ)

/-- `mailbox_owner_id` -/
def Mailbox.ownerId (mb : Mailbox) (vm : VmRef) : Bool :=
  if vm = mb.owner false then false else true

/-- An `alloc_vm_virq` result in a `uint32_t` -/
def toVirq (v : ℤ) : ℕ := (v % 2 ^ 32).toNat

/-- The entry that `mailbox_vm_init` makes for one owner. -/
def mailboxVmInfo (virq : ℕ → ℤ) (event : ℤ) : MailboxVmInfo where
  connectVirq := toVirq (virq 0)
  disconnectVirq := toVirq (virq 1)
  event j := if (j : ℤ) < event then toVirq (virq (j + 2)) else 0

/-- `mailbox_vm_init` for one owner does not panic, and stays in the array of the events. -/
def vmInitOk (iomem : Bool) (virq : ℕ → ℤ) (event : ℤ) : Bool :=
  iomem ∧ toVirq (virq 0) ≠ 0 ∧ toVirq (virq 1) ≠ 0 ∧ event ≤ MAILBOX_MAX_EVENT ∧
    ∀ j < event.toNat, toVirq (virq (j + 2)) ≠ 0

/-- `get_vm_by_id` -/
def getVmById (vms : ℕ → Option VmRef) (vmid : ℕ) : Option VmRef :=
  if CONFIG_MAX_VM ≤ vmid then none else vms vmid

namespace MailboxSystem

def init : MailboxSystem := ⟨0, fun _ => none, fun _ => .idle, false⟩

def setPc (s : MailboxSystem) (c : Caller) (pc : MailboxPc) : MailboxSystem :=
  { s with pc := Function.update s.pc c pc }

def setMailbox (s : MailboxSystem) (i : ℕ) (mb : Mailbox) : MailboxSystem :=
  { s with mailboxs := Function.update s.mailboxs i (some mb) }

/-- The call returns. -/
def returns (s : MailboxSystem) (ret : ℤ) : MailboxAct := ⟨s, [], some ret⟩

/-- The call goes on. -/
def goOn (s : MailboxSystem) : MailboxAct := ⟨s, [], none⟩

def panic (s : MailboxSystem) : MailboxAct := ⟨{ s with dead := true }, [], none⟩

/-- `create_mailbox`. It returns a pointer, which is the index here and -1 for `NULL`. -/
def createMailbox (vms : ℕ → Option VmRef) (s : MailboxSystem) (o1 o2 size : ℕ) (event : ℤ)
    (env : MailboxEnv) : MailboxAct :=
  if MAX_MAILBOX_NR ≤ s.mailboxIndex then s.returns (-1)
  else
    match getVmById vms o1, getVmById vms o2 with
    | some vm1, some vm2 =>
      if env.zalloc then
        let mb : Mailbox :=
          { cookie := generateMailboxCookie o1 o2 s.mailboxIndex
            connected := fun _ => false
            owner := fun id => if id then vm2 else vm1
            mbInfo := fun _ => ⟨0, 0, fun _ => 0⟩ }
        let s' := { s.setMailbox s.mailboxIndex mb with mailboxIndex := s.mailboxIndex + 1 }
        if size = 0 then s'.returns s.mailboxIndex
        else if env.ioPages ∧ ∀ id, vmInitOk (env.iomem id) (env.virq id) event then
          let mb := { mb with mbInfo := fun id => mailboxVmInfo (env.virq id) event }
          (s'.setMailbox s.mailboxIndex mb).returns s.mailboxIndex
        else s'.panic
      else s.returns (-1)
    | _, _ => s.returns (-1)

/-- `cookie_to_mailbox` -/
def cookieToMailbox (s : MailboxSystem) (vm : VmRef) (cookie : ℕ) : Lookup :=
  let e := exractMailboxCookie cookie .invalid
  if (vm.vmid : ℤ) ≠ e.o1 ∧ (vm.vmid : ℤ) ≠ e.o2 then .panic
  else if e.magic ≠ MAILBOX_MAGIC then .panic
  else if MAX_MAILBOX_NR ≤ e.index then .panic
  else
    match s.mailboxs e.index with
    | none => .null
    | some _ => .mailbox e.index

/-- A handler that needs the mailbox of the cookie. -/
def withMailbox (s : MailboxSystem) (vm : VmRef) (cookie : ℕ) (f : ℕ → Mailbox → MailboxAct) :
    MailboxAct :=
  match s.cookieToMailbox vm cookie with
  | .panic => s.panic
  | .null => s.returns (-EINVAL)
  | .mailbox i =>
    match s.mailboxs i with
    | none => s.returns (-EINVAL)
    | some mb => f i mb

/-- `mailbox_connect` up to the lock -/
def mailboxConnect (s : MailboxSystem) (c : Caller) (cookie : ℕ) : MailboxAct :=
  s.withMailbox c.vm cookie fun i mb =>
    if mb.connected (mb.ownerId c.vm) then s.returns (-EINVAL)
    else (s.setPc c (.connecting i)).goOn

/-- `mailbox_disconnect` up to the lock -/
def mailboxDisconnect (s : MailboxSystem) (c : Caller) (cookie : ℕ) : MailboxAct :=
  s.withMailbox c.vm cookie fun i mb =>
    if mb.connected (mb.ownerId c.vm) then (s.setPc c (.disconnecting i)).goOn
    else s.returns (-EINVAL)

/-- The section under the lock of `mailbox_connect` and `mailbox_disconnect`: the new status of the
caller, and a virq to the other side if that is connected. -/
def mailboxLocked (s : MailboxSystem) (c : Caller) (i : ℕ) (mb : Mailbox) (status : Bool)
    (virq : MailboxVmInfo → ℕ) : MailboxAct :=
  let id := mb.ownerId c.vm
  let s' := (s.setPc c .idle).setMailbox i
    { mb with connected := Function.update mb.connected id status }
  ⟨s', if mb.connected (!id) then [(mb.owner (!id), virq (mb.mbInfo (!id)))] else [], some 0⟩

/-- `mailbox_connect` under the lock -/
def connectLocked (s : MailboxSystem) (c : Caller) : MailboxAct :=
  match s.pc c with
  | .connecting i =>
    match s.mailboxs i with
    | some mb => s.mailboxLocked c i mb true MailboxVmInfo.connectVirq
    | none => s.goOn
  | _ => s.goOn

/-- `mailbox_disconnect` under the lock -/
def disconnectLocked (s : MailboxSystem) (c : Caller) : MailboxAct :=
  match s.pc c with
  | .disconnecting i =>
    match s.mailboxs i with
    | some mb => s.mailboxLocked c i mb false MailboxVmInfo.disconnectVirq
    | none => s.goOn
  | _ => s.goOn

/-- `mailbox_post_event` -/
def mailboxPostEvent (s : MailboxSystem) (c : Caller) (cookie eventId : ℕ) : MailboxAct :=
  s.withMailbox c.vm cookie fun _ mb =>
    let info := mb.mbInfo (mb.ownerId c.vm)
    if MAILBOX_MAX_EVENT ≤ eventId ∨ info.event eventId = 0 then s.returns (-EINVAL)
    else ⟨s, [(c.vm, info.event eventId)], some 0⟩

variable (vms : ℕ → Option VmRef)

/-- What a step does. A call begins when its vcpu is in none of the functions. -/
def act (s : MailboxSystem) (e : MailboxEvent) : MailboxAct :=
  if s.dead then s.goOn
  else
    match e with
    | .create o1 o2 size event env => s.createMailbox vms o1 o2 size event env
    | .connect c cookie => if s.pc c = .idle then s.mailboxConnect c cookie else s.goOn
    | .connectLocked c => s.connectLocked c
    | .disconnect c cookie => if s.pc c = .idle then s.mailboxDisconnect c cookie else s.goOn
    | .disconnectLocked c => s.disconnectLocked c
    | .postEvent c cookie eventId =>
      if s.pc c = .idle then s.mailboxPostEvent c cookie eventId else s.goOn

def step (s : MailboxSystem) (e : MailboxEvent) : MailboxSystem := (s.act vms e).next

end MailboxSystem

/-! ### What the cookies are worth -/

/-- The variables of `cookie_to_mailbox` for the cookie of a mailbox. -/
lemma exractMailboxCookie_generate {o1 o2 index : ℕ} (h1 : o1 ≤ 255) (h2 : o2 ≤ 255)
    (hindex : index ≤ 255) (e : CookieFields) :
    exractMailboxCookie (generateMailboxCookie o1 o2 index) e = ⟨o2, e.o2, index, 0⟩ := by
  have hcookie : generateMailboxCookie o1 o2 index = o1 * 65536 + o2 * 256 + index := by
    have h : MAILBOX_MAGIC <<< 32 ||| o1 <<< 16 ||| o2 <<< 8 ||| index =
        MAILBOX_MAGIC * 2 ^ 32 + (o1 * 65536 + o2 * 256 + index) := by
      rw [← Nat.shiftLeft_add_eq_or_of_lt (show o1 <<< 16 < 2 ^ 32 by
        rw [Nat.shiftLeft_eq]
        omega)]
      rw [show MAILBOX_MAGIC <<< 32 + o1 <<< 16 = (MAILBOX_MAGIC * 65536 + o1) <<< 16 by
        simp only [Nat.shiftLeft_eq]
        omega]
      rw [← Nat.shiftLeft_add_eq_or_of_lt (show o2 <<< 8 < 2 ^ 16 by
        rw [Nat.shiftLeft_eq]
        omega)]
      rw [show (MAILBOX_MAGIC * 65536 + o1) <<< 16 + o2 <<< 8 =
          (MAILBOX_MAGIC * 16777216 + o1 * 256 + o2) <<< 8 by
        simp only [Nat.shiftLeft_eq]
        omega]
      rw [← Nat.shiftLeft_add_eq_or_of_lt (show index < 2 ^ 8 by omega), Nat.shiftLeft_eq]
      omega
    rw [generateMailboxCookie, h]
    omega
  have h8 : ((generateMailboxCookie o1 o2 index &&& 0xff00) >>> 8) = o2 := by
    rw [show 0xff00 = (2 ^ 8 - 1) <<< 8 by decide, BitField.and_mask_shiftRight, hcookie]
    omega
  have h0 : generateMailboxCookie o1 o2 index &&& 0xff = index := by
    rw [show 0xff = 2 ^ 8 - 1 by decide, Nat.and_two_pow_sub_one_eq_mod, hcookie]
    omega
  have h32 : generateMailboxCookie o1 o2 index >>> 32 % 2 ^ 32 = 0 := by
    rw [Nat.shiftRight_eq_div_pow, hcookie]
    omega
  simp only [exractMailboxCookie, h8, h0, h32]

/-- A cookie that a guest makes up: the magic number, its own id and any index. -/
def forgedCookie (vmid index : ℕ) : ℕ := MAILBOX_MAGIC * 2 ^ 32 + vmid * 256 + index

lemma exractMailboxCookie_forged {vmid index : ℕ} (hvmid : vmid ≤ 255) (hindex : index ≤ 255)
    (e : CookieFields) :
    exractMailboxCookie (forgedCookie vmid index) e = ⟨vmid, e.o2, index, MAILBOX_MAGIC⟩ := by
  have h8 : ((forgedCookie vmid index &&& 0xff00) >>> 8) = vmid := by
    rw [show 0xff00 = (2 ^ 8 - 1) <<< 8 by decide, BitField.and_mask_shiftRight, forgedCookie,
      MAILBOX_MAGIC]
    omega
  have h0 : forgedCookie vmid index &&& 0xff = index := by
    rw [show 0xff = 2 ^ 8 - 1 by decide, Nat.and_two_pow_sub_one_eq_mod, forgedCookie,
      MAILBOX_MAGIC]
    omega
  have h32 : forgedCookie vmid index >>> 32 % 2 ^ 32 = MAILBOX_MAGIC := by
    rw [Nat.shiftRight_eq_div_pow, forgedCookie, MAILBOX_MAGIC]
    omega
  simp only [exractMailboxCookie, h8, h0, h32]

/-- The VM is one of the owners. -/
def Mailbox.Owns (mb : Mailbox) (vm : VmRef) : Prop := vm = mb.owner false ∨ vm = mb.owner true

instance (mb : Mailbox) (vm : VmRef) : Decidable (mb.Owns vm) :=
  inferInstanceAs (Decidable (_ ∨ _))

namespace MailboxSystem

variable {vms : ℕ → Option VmRef} {s : MailboxSystem} {e : MailboxEvent} {es : List MailboxEvent}
  {i : ℕ} {mb : Mailbox} {vm : VmRef}

/-- A mailbox that `create_mailbox` made has the cookie of its owners and its place. -/
def Made (vms : ℕ → Option VmRef) (i : ℕ) (mb : Mailbox) : Prop :=
  i < MAX_MAILBOX_NR ∧ ∃ o1 o2, mb.cookie = generateMailboxCookie o1 o2 i ∧
    getVmById vms o1 = some (mb.owner false) ∧ getVmById vms o2 = some (mb.owner true)

/-- All mailboxes were made by `create_mailbox`. -/
def AllMade (vms : ℕ → Option VmRef) (s : MailboxSystem) : Prop :=
  ∀ i mb, s.mailboxs i = some mb → Made vms i mb

lemma allMade_of_eq {s' : MailboxSystem} (h : s.AllMade vms) (heq : s'.mailboxs = s.mailboxs) :
    s'.AllMade vms := by
  intro i mb hmb
  rw [heq] at hmb
  exact h i mb hmb

lemma AllMade.setMailbox (h : s.AllMade vms) (hmb : Made vms i mb) :
    (s.setMailbox i mb).AllMade vms := by
  intro j mb' hj
  by_cases hji : j = i
  · subst hji
    obtain rfl : mb = mb' := by simpa [MailboxSystem.setMailbox] using hj
    exact hmb
  · exact h j mb' (by simpa [MailboxSystem.setMailbox, hji] using hj)

lemma AllMade.createMailbox {o1 o2 size : ℕ} {event : ℤ} {env : MailboxEnv} (h : s.AllMade vms) :
    (s.createMailbox vms o1 o2 size event env).next.AllMade vms := by
  rw [MailboxSystem.createMailbox]
  by_cases hfull : MAX_MAILBOX_NR ≤ s.mailboxIndex
  · rw [if_pos hfull]
    exact h
  · rw [if_neg hfull]
    split
    · next vm1 vm2 h1 h2 =>
      have hnew : ∀ mbInfo, Made vms s.mailboxIndex
          { cookie := generateMailboxCookie o1 o2 s.mailboxIndex
            connected := fun _ => false
            owner := fun id => if id then vm2 else vm1
            mbInfo := mbInfo } := fun _ => ⟨by omega, o1, o2, rfl, h1, h2⟩
      dsimp only
      split_ifs
      · exact h.setMailbox (hnew _)
      · exact (allMade_of_eq (h.setMailbox (hnew _)) rfl).setMailbox (hnew _)
      · exact h.setMailbox (hnew _)
      · exact h
    · exact h

/-- A handler changes the mailboxes only as its body does. -/
lemma AllMade.withMailbox {cookie : ℕ} {f : ℕ → Mailbox → MailboxAct} (h : s.AllMade vms)
    (hf : ∀ i mb, s.mailboxs i = some mb → (f i mb).next.AllMade vms) :
    (s.withMailbox vm cookie f).next.AllMade vms := by
  rw [MailboxSystem.withMailbox]
  split
  · exact h
  · exact h
  · next i _ =>
    cases hmb : s.mailboxs i with
    | none => exact h
    | some mb => exact hf i mb hmb

lemma AllMade.mailboxLocked {c : Caller} {status : Bool} {virq : MailboxVmInfo → ℕ}
    (h : s.AllMade vms) (hmb : s.mailboxs i = some mb) :
    (s.mailboxLocked c i mb status virq).next.AllMade vms :=
  (allMade_of_eq h rfl).setMailbox (h i mb hmb)

lemma AllMade.step (h : s.AllMade vms) : (s.step vms e).AllMade vms := by
  unfold MailboxSystem.step act
  split_ifs
  · exact h
  · cases e with
    | create o1 o2 size event env => exact h.createMailbox
    | connect c cookie =>
      dsimp only
      split_ifs
      · refine h.withMailbox fun i mb _ => ?_
        split_ifs
        · exact h
        · exact h
      · exact h
    | connectLocked c =>
      dsimp only
      rw [connectLocked]
      split
      · next i _ =>
        cases hmb : s.mailboxs i with
        | none => exact h
        | some mb => exact h.mailboxLocked hmb
      · exact h
    | disconnect c cookie =>
      dsimp only
      split_ifs
      · refine h.withMailbox fun i mb _ => ?_
        split_ifs
        · exact h
        · exact h
      · exact h
    | disconnectLocked c =>
      dsimp only
      rw [disconnectLocked]
      split
      · next i _ =>
        cases hmb : s.mailboxs i with
        | none => exact h
        | some mb => exact h.mailboxLocked hmb
      · exact h
    | postEvent c cookie eventId =>
      dsimp only
      split_ifs
      · refine h.withMailbox fun i mb _ => ?_
        dsimp only
        split_ifs
        · exact h
        · exact h
      · exact h

lemma exec_allMade : (exec (step vms) init es).AllMade vms :=
  exec_induction (I := AllMade vms) (Q := fun _ _ => True) (fun _ _ h _ => h.step) nofun
    (along_const.2 fun _ _ => trivial)

lemma Made.lt_of_getVmById {vmid : ℕ} {vm : VmRef} (h : getVmById vms vmid = some vm) :
    vmid < CONFIG_MAX_VM := by
  rw [getVmById] at h
  split_ifs at h with hlt
  exact not_le.1 hlt

/-- The cookie of a mailbox has lost the magic number. -/
lemma Made.cookieToMailbox (h : Made vms i mb) : s.cookieToMailbox vm mb.cookie = .panic := by
  obtain ⟨hi, o1, o2, hcookie, h1, h2⟩ := h
  have h1 := Made.lt_of_getVmById h1
  have h2 := Made.lt_of_getVmById h2
  simp only [CONFIG_MAX_VM] at h1 h2
  simp only [MAX_MAILBOX_NR] at hi
  simp only [MailboxSystem.cookieToMailbox, hcookie,
    exractMailboxCookie_generate (show o1 ≤ 255 by omega) (show o2 ≤ 255 by omega)
      (show i ≤ 255 by omega)]
  rw [if_pos (show 0 ≠ MAILBOX_MAGIC by decide), ite_self]

/-- A forged cookie finds any mailbox. -/
lemma cookieToMailbox_forged (hvm : vm.vmid ≤ 255) (hi : i < MAX_MAILBOX_NR)
    (hmb : s.mailboxs i = some mb) :
    s.cookieToMailbox vm (forgedCookie vm.vmid i) = .mailbox i := by
  have hi' := hi
  simp only [MAX_MAILBOX_NR] at hi'
  simp only [cookieToMailbox, exractMailboxCookie_forged hvm (show i ≤ 255 by omega)]
  rw [if_neg (by simp), if_neg (by simp), if_neg (not_le.2 hi), hmb]

/-- **The cookies of mailboxes.** No cookie gives back what it was made of, no owner gets its
mailbox with the cookie of it, and the check keeps a VM from other mailboxes only if there are
none. -/
theorem mailbox_cookies_never (vms : ℕ → Option VmRef) (es : List MailboxEvent) :
    let s := exec (step vms) init es
    (∀ o1 o2 index, o1 ≤ 255 → o2 ≤ 255 → index ≤ 255 → ¬ RoundTrip o1 o2 index) ∧
      (∀ i mb id, s.mailboxs i = some mb →
        s.cookieToMailbox (mb.owner id) mb.cookie ≠ .mailbox i) ∧
      ∀ vm : VmRef, vm.vmid ≤ 255 →
        ((∀ cookie < 2 ^ 64, ∀ i mb, s.cookieToMailbox vm cookie = .mailbox i →
          s.mailboxs i = some mb → mb.Owns vm) ↔ ∀ i mb, s.mailboxs i = some mb → mb.Owns vm) := by
  intro s
  have hmade : s.AllMade vms := exec_allMade
  refine ⟨?_, ?_, ?_⟩
  · intro o1 o2 index h1 h2 hindex h
    rw [RoundTrip, exractMailboxCookie_generate h1 h2 hindex] at h
    have hmagic : 0 = MAILBOX_MAGIC := congrArg CookieFields.magic h
    exact absurd hmagic (by decide)
  · intro i mb id hmb h
    rw [(hmade i mb hmb).cookieToMailbox] at h
    cases h
  · intro vm hvm
    constructor
    · intro h i mb hmb
      have hi := (hmade i mb hmb).1
      refine h (forgedCookie vm.vmid i) ?_ i mb (cookieToMailbox_forged hvm hi hmb) hmb
      simp only [MAX_MAILBOX_NR] at hi
      rw [forgedCookie, MAILBOX_MAGIC]
      omega
    · exact fun h cookie _ i mb _ hmb => h i mb hmb

/-! ### An example -/

/-- Four VMs. -/
def exampleVms (vmid : ℕ) : Option VmRef := if vmid < 4 then some ⟨0x1000 * vmid, vmid⟩ else none

/-- Everything succeeds, and the two VMs give virqs from 40 and from 60 on. -/
def exampleEnv : MailboxEnv where
  zalloc := true
  ioPages := true
  iomem _ := true
  virq id k := (if id then 60 else 40) + k

/-- A mailbox between VM 1 and VM 2, with two events. -/
def exampleRun : List MailboxEvent := [.create 1 2 0x1000 2 exampleEnv]

def exampleSystem : MailboxSystem := exec (step exampleVms) init exampleRun

/-- VM 1 with the cookie of its mailbox, and VM 3 with a cookie that it made up. -/
theorem mailbox_cookies_fail :
    ¬ RoundTrip 1 2 0 ∧
      exampleSystem.cookieToMailbox ⟨0x1000, 1⟩ (generateMailboxCookie 1 2 0) = .panic ∧
      exampleSystem.cookieToMailbox ⟨0x3000, 3⟩ (forgedCookie 3 0) = .mailbox 0 := by
  decide +kernel

theorem mailbox_cookies_never_example :
    let s := exampleSystem
    ¬ RoundTrip 1 2 0 ∧
      (∀ mb, s.mailboxs 0 = some mb →
        s.cookieToMailbox (mb.owner false) mb.cookie ≠ .mailbox 0) ∧
      ((∀ cookie < 2 ^ 64, ∀ i mb, s.cookieToMailbox ⟨0x3000, 3⟩ cookie = .mailbox i →
        s.mailboxs i = some mb → mb.Owns ⟨0x3000, 3⟩) ↔
          ∀ i mb, s.mailboxs i = some mb → mb.Owns ⟨0x3000, 3⟩) :=
  have h := mailbox_cookies_never exampleVms exampleRun
  ⟨h.1 1 2 0 (by decide) (by decide) (by decide), fun mb => h.2.1 0 mb false,
    h.2.2 ⟨0x3000, 3⟩ (by decide)⟩

/-! ### Who is notified -/

/-- The vcpu of a handler and its mailbox, when the step gets to one. -/
def addressed (s : MailboxSystem) (e : MailboxEvent) : Option (Caller × ℕ) :=
  let call (c : Caller) (cookie : ℕ) : Option (Caller × ℕ) :=
    match s.pc c, s.cookieToMailbox c.vm cookie with
    | .idle, .mailbox i => some (c, i)
    | _, _ => none
  if s.dead then none
  else
    match e with
    | .create _ _ _ _ _ => none
    | .connect c cookie => call c cookie
    | .disconnect c cookie => call c cookie
    | .postEvent c cookie _ => call c cookie
    | .connectLocked c =>
      match s.pc c with
      | .connecting i => some (c, i)
      | _ => none
    | .disconnectLocked c =>
      match s.pc c with
      | .disconnecting i => some (c, i)
      | _ => none

/-- The mailbox is one between two VMs, and `vm` is one of them. -/
def Between (mb : Mailbox) (vm : VmRef) : Prop := mb.owner false ≠ mb.owner true ∧ mb.Owns vm

/-- The virq that the event is about, of the owner with these numbers. -/
def virqOf (info : MailboxVmInfo) : MailboxEvent → ℕ
  | .create _ _ _ _ _ => 0
  | .connect _ _ => info.connectVirq
  | .connectLocked _ => info.connectVirq
  | .disconnect _ _ => info.disconnectVirq
  | .disconnectLocked _ => info.disconnectVirq
  | .postEvent _ _ eventId => info.event eventId

def isPost : MailboxEvent → Bool
  | .postEvent _ _ _ => true
  | _ => false

/-- What is asked of a step of the owner `vm` of `mb`. -/
structure Notifies (vms : ℕ → Option VmRef) (s : MailboxSystem) (e : MailboxEvent) (mb : Mailbox)
    (vm : VmRef) : Prop where
  to_peer : ∀ p ∈ (s.act vms e).sent, p.1 = mb.owner (!mb.ownerId vm) ∧
    p.2 = virqOf (mb.mbInfo (!mb.ownerId vm)) e
  connected : isPost e = false → (s.act vms e).sent ≠ [] → mb.connected (!mb.ownerId vm) = true
  posted : isPost e = true → (s.act vms e).ret = some 0 →
    (mb.owner (!mb.ownerId vm), virqOf (mb.mbInfo (!mb.ownerId vm)) e) ∈ (s.act vms e).sent

/-- The notifications of a step: those of an owner of a mailbox between two VMs, and no others. -/
def Notified (vms : ℕ → Option VmRef) (s : MailboxSystem) (e : MailboxEvent) : Prop :=
  (∀ c i mb, s.addressed e = some (c, i) → s.mailboxs i = some mb → Between mb c.vm →
    s.Notifies vms e mb c.vm) ∧ (s.addressed e = none → (s.act vms e).sent = [])

/-- No event goes through `mailbox_post_event`: the number of the event is too large, or the caller
has no virq for it. -/
def Quiet (s : MailboxSystem) (e : MailboxEvent) : Prop :=
  ∀ c i mb cookie eventId, e = .postEvent c cookie eventId → s.addressed e = some (c, i) →
    s.mailboxs i = some mb → Between mb c.vm →
    MAILBOX_MAX_EVENT ≤ eventId ∨ (mb.mbInfo (mb.ownerId c.vm)).event eventId = 0

variable {c c' : Caller} {cookie eventId : ℕ}

lemma owner_ownerId (h : mb.Owns vm) : mb.owner (mb.ownerId vm) = vm := by
  rw [Mailbox.ownerId]
  split_ifs with h0
  · exact h0.symm
  · exact (h.resolve_left h0).symm

/-- The other owner is another VM. -/
lemma Between.peer_ne (h : Between mb vm) : mb.owner (!mb.ownerId vm) ≠ vm := by
  have hne : ∀ id, mb.owner (!id) ≠ mb.owner id := by
    intro id
    cases id with
    | false => exact h.1.symm
    | true => exact h.1
  have hpeer := hne (mb.ownerId vm)
  rwa [owner_ownerId h.2] at hpeer

/-- A handler sends only what its body sends. -/
lemma withMailbox_sent {f : ℕ → Mailbox → MailboxAct}
    (hf : ∀ i mb, s.cookieToMailbox vm cookie = .mailbox i → (f i mb).sent = []) :
    (s.withMailbox vm cookie f).sent = [] := by
  rw [withMailbox]
  split
  · rfl
  · rfl
  · next i hi =>
    cases hmb : s.mailboxs i with
    | none => rfl
    | some mb => exact hf i mb hi

lemma mailboxConnect_sent : (s.mailboxConnect c cookie).sent = [] := by
  refine withMailbox_sent fun i mb _ => ?_
  split_ifs
  · rfl
  · rfl

lemma mailboxDisconnect_sent : (s.mailboxDisconnect c cookie).sent = [] := by
  refine withMailbox_sent fun i mb _ => ?_
  split_ifs
  · rfl
  · rfl

lemma createMailbox_sent {o1 o2 size : ℕ} {event : ℤ} {env : MailboxEnv} :
    (s.createMailbox vms o1 o2 size event env).sent = [] := by
  rw [createMailbox]
  by_cases hfull : MAX_MAILBOX_NR ≤ s.mailboxIndex
  · rw [if_pos hfull]
    rfl
  · rw [if_neg hfull]
    split
    · dsimp only
      split_ifs
      · rfl
      · rfl
      · rfl
      · rfl
    · rfl

lemma act_connect_sent : (s.act vms (.connect c cookie)).sent = [] := by
  unfold act
  split_ifs
  · rfl
  · dsimp only
    split_ifs
    · exact mailboxConnect_sent
    · rfl

lemma act_disconnect_sent : (s.act vms (.disconnect c cookie)).sent = [] := by
  unfold act
  split_ifs
  · rfl
  · dsimp only
    split_ifs
    · exact mailboxDisconnect_sent
    · rfl

variable (vms) in
/-- A post with a mailbox. -/
lemma act_postEvent (h : s.addressed (.postEvent c cookie eventId) = some (c', i))
    (hmb : s.mailboxs i = some mb) :
    c' = c ∧ s.act vms (.postEvent c cookie eventId) =
      if MAILBOX_MAX_EVENT ≤ eventId ∨ (mb.mbInfo (mb.ownerId c.vm)).event eventId = 0 then
        s.returns (-EINVAL)
      else ⟨s, [(c.vm, (mb.mbInfo (mb.ownerId c.vm)).event eventId)], some 0⟩ := by
  unfold addressed at h
  split_ifs at h with hdead
  dsimp only at h
  split at h
  · next j hpc hlook =>
    obtain ⟨rfl, rfl⟩ : c = c' ∧ j = i := by simpa using h
    refine ⟨rfl, ?_⟩
    simp only [act, hdead, hpc, mailboxPostEvent, withMailbox, hlook, hmb]
    rfl
  · cases h

variable (vms) in
/-- A locked section with a mailbox. -/
lemma act_connectLocked (h : s.addressed (.connectLocked c) = some (c', i))
    (hmb : s.mailboxs i = some mb) :
    c' = c ∧ s.act vms (.connectLocked c) =
      s.mailboxLocked c i mb true MailboxVmInfo.connectVirq := by
  unfold addressed at h
  split_ifs at h with hdead
  dsimp only at h
  split at h
  · next j hpc =>
    obtain ⟨rfl, rfl⟩ : c = c' ∧ j = i := by simpa using h
    refine ⟨rfl, ?_⟩
    simp only [act, hdead, connectLocked, hpc, hmb]
    rfl
  · cases h

variable (vms) in
lemma act_disconnectLocked (h : s.addressed (.disconnectLocked c) = some (c', i))
    (hmb : s.mailboxs i = some mb) :
    c' = c ∧ s.act vms (.disconnectLocked c) =
      s.mailboxLocked c i mb false MailboxVmInfo.disconnectVirq := by
  unfold addressed at h
  split_ifs at h with hdead
  dsimp only at h
  split at h
  · next j hpc =>
    obtain ⟨rfl, rfl⟩ : c = c' ∧ j = i := by simpa using h
    refine ⟨rfl, ?_⟩
    simp only [act, hdead, disconnectLocked, hpc, hmb]
    rfl
  · cases h

/-- A step that does not get to a mailbox sends nothing. -/
lemma sent_of_not_addressed (h : s.addressed e = none) : (s.act vms e).sent = [] := by
  cases e with
  | connect c cookie => exact act_connect_sent
  | disconnect c cookie => exact act_disconnect_sent
  | create o1 o2 size event env =>
    unfold act
    split_ifs
    · rfl
    · exact createMailbox_sent
  | connectLocked c =>
    unfold addressed at h
    unfold act
    split_ifs at h ⊢
    · rfl
    · dsimp only at h ⊢
      rw [connectLocked]
      split at h
      · cases h
      · rfl
  | disconnectLocked c =>
    unfold addressed at h
    unfold act
    split_ifs at h ⊢
    · rfl
    · dsimp only at h ⊢
      rw [disconnectLocked]
      split at h
      · cases h
      · rfl
  | postEvent c cookie eventId =>
    unfold addressed at h
    unfold act
    split_ifs at h ⊢
    · rfl
    · dsimp only at h ⊢
      split_ifs with hpc
      · refine withMailbox_sent fun i mb hlook => ?_
        simp [hpc, hlook] at h
      · rfl

/-- What the section under the lock sends. -/
lemma mailboxLocked_notifies {status : Bool} {virq : MailboxVmInfo → ℕ}
    (hact : s.act vms e = s.mailboxLocked c i mb status virq)
    (hvirq : ∀ info, virqOf info e = virq info) (hpost : isPost e = false) :
    s.Notifies vms e mb c.vm := by
  have hsent : (s.act vms e).sent = if mb.connected (!mb.ownerId c.vm) then
      [(mb.owner (!mb.ownerId c.vm), virq (mb.mbInfo (!mb.ownerId c.vm)))] else [] := by
    rw [hact]
    rfl
  refine ⟨?_, ?_, ?_⟩
  · intro p hp
    rw [hsent] at hp
    split_ifs at hp
    · rw [List.mem_singleton.1 hp, hvirq]
      exact ⟨rfl, rfl⟩
    · cases hp
  · intro _ hne
    rw [hsent] at hne
    by_contra hnot
    exact hne (if_neg hnot)
  · intro h
    rw [hpost] at h
    cases h

/-- A step that sends nothing, and does not post. -/
lemma notifies_of_sent_nil (hsent : (s.act vms e).sent = [])
    (hret : isPost e = true → (s.act vms e).ret ≠ some 0) : s.Notifies vms e mb vm where
  to_peer p hp := by
    rw [hsent] at hp
    cases hp
  connected _ hne := absurd hsent hne
  posted hpost h := absurd h (hret hpost)

/-- A step of an owner is right if and only if it does not post an event. -/
lemma notified_iff : s.Notified vms e ↔ s.Quiet e := by
  constructor
  · rintro ⟨h, -⟩ c i mb cookie eventId rfl hadd hmb hbetween
    by_contra hnot
    obtain ⟨-, hact⟩ := act_postEvent vms hadd hmb
    rw [if_neg hnot] at hact
    have hpeer := (h c i mb hadd hmb hbetween).to_peer
    rw [hact] at hpeer
    exact hbetween.peer_ne (hpeer _ (List.mem_singleton.2 rfl)).1.symm
  · intro hquiet
    refine ⟨fun c i mb hadd hmb hbetween => ?_, sent_of_not_addressed⟩
    cases e with
    | create o1 o2 size event env =>
      unfold addressed at hadd
      split_ifs at hadd
    | connect d cookie => exact notifies_of_sent_nil act_connect_sent nofun
    | disconnect d cookie => exact notifies_of_sent_nil act_disconnect_sent nofun
    | connectLocked d =>
      obtain ⟨rfl, hact⟩ := act_connectLocked vms hadd hmb
      exact mailboxLocked_notifies hact (fun _ => rfl) rfl
    | disconnectLocked d =>
      obtain ⟨rfl, hact⟩ := act_disconnectLocked vms hadd hmb
      exact mailboxLocked_notifies hact (fun _ => rfl) rfl
    | postEvent d cookie eventId =>
      obtain ⟨rfl, hact⟩ := act_postEvent vms hadd hmb
      rw [if_pos (hquiet c i mb cookie eventId rfl hadd hmb hbetween)] at hact
      refine notifies_of_sent_nil (by rw [hact]; rfl) fun _ => ?_
      rw [hact]
      show some (-EINVAL) ≠ some 0
      decide

/-- **Notifications of mailboxes.** In a run, what the owners of mailboxes send goes to the other
owner and is its own virq, and it is sent for a change of the connection only if the other side is
connected, if and only if no event is posted. -/
theorem mailbox_notified_iff (vms : ℕ → Option VmRef) (es : List MailboxEvent) :
    Along (step vms) (Notified vms) init es ↔ Along (step vms) Quiet init es :=
  along_congr fun _ _ => notified_iff

/-- VM 1 posts event 1 of its mailbox with VM 2, and gets the virq itself. -/
theorem mailbox_notified_fails :
    (exampleSystem.act exampleVms (.postEvent ⟨⟨0x1000, 1⟩, 0⟩ (forgedCookie 1 0) 1)).sent =
        [(⟨0x1000, 1⟩, 43)] ∧
      ¬ Along (step exampleVms) (Notified exampleVms) init
        (exampleRun ++ [.postEvent ⟨⟨0x1000, 1⟩, 0⟩ (forgedCookie 1 0) 1]) := by
  have hsent : (exampleSystem.act exampleVms
      (.postEvent ⟨⟨0x1000, 1⟩, 0⟩ (forgedCookie 1 0) 1)).sent = [(⟨0x1000, 1⟩, 43)] := by
    decide +kernel
  refine ⟨hsent, fun h => ?_⟩
  have hadd : exampleSystem.addressed (.postEvent ⟨⟨0x1000, 1⟩, 0⟩ (forgedCookie 1 0) 1) =
      some (⟨⟨0x1000, 1⟩, 0⟩, 0) := by decide +kernel
  have hown : (exampleSystem.mailboxs 0).map (fun mb => (mb.owner false, mb.owner true)) =
      some (⟨0x1000, 1⟩, ⟨0x2000, 2⟩) := by decide +kernel
  obtain ⟨mb, hmb, hmbown⟩ := Option.map_eq_some_iff.1 hown
  obtain ⟨h0, h1⟩ := Prod.mk.inj hmbown
  have hbetween : Between mb ⟨0x1000, 1⟩ := by
    refine ⟨?_, .inl h0.symm⟩
    rw [h0, h1]
    decide
  have hpeer := ((along_append.1 h).2.1.1 _ 0 mb hadd hmb hbetween).to_peer
    (⟨0x1000, 1⟩, 43) (hsent ▸ List.mem_singleton.2 rfl)
  exact hbetween.peer_ne hpeer.1.symm

end MailboxSystem

end Minos.Virt
