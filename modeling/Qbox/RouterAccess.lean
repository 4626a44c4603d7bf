import Qbox.AddressMapRegions
import Qbox.RouterDmi

/-! Accesses through the router: the transactions it passes on, and the regions it grants. -/
namespace Qbox.Router
open MachineWord

/-- What the router reads or changes of a payload; `path` is the `PathIDExtension`, newest first. -/
structure Payload where
  address : U64
  dataLength : U64
  response : TlmResponse := .incomplete
  path : List ℕ := []
  deriving DecidableEq

def stampTxn (id : ℕ) (txn : Payload) : Payload := { txn with path := id :: txn.path }

def unstampTxn (txn : Payload) : Payload := { txn with path := txn.path.tail }

def proceeds (response : TlmResponse) : Bool := response = .ok || response = .incomplete

/-- What the targets receive, by their index, and the transaction after the call. -/
structure Transported (C : Type) where
  received : List (ℕ × Payload)
  trans : Payload
  router : Router C

section
variable {C : Type} [AddressMap.AddrMapCacheBase C TargetInfo]

def decodeAddress (trans : Payload) (r : Router C) : Option TargetInfo × Router C :=
  let found := r.addressMap.find trans.address trans.dataLength
  (found.1,{ r with addressMap := found.2 })

/-- `b_transport`, with the responses of the targets to what they receive. -/
def bTransport (target : ℕ → Payload → TlmResponse) (id : ℕ) (trans : Payload) (r : Router C) : Transported C :=
  match r.decodeAddress trans with
  | (none,r) => ⟨[],{ trans with response := .addressError },r⟩
  | (some ti,r) =>
    let trans := stampTxn id trans
    if proceeds trans.response then
      let sent := { trans with address := ti.toLocal trans.address }
      ⟨[(ti.index,sent)],unstampTxn { trans with response := target ti.index sent },r⟩
    else ⟨[],unstampTxn trans,r⟩

/-- `transport_dbg`, with the numbers of bytes and the responses of the targets. -/
def transportDbg (target : ℕ → Payload → ℕ × TlmResponse) (trans : Payload) (r : Router C) : ℕ × Transported C :=
  match r.decodeAddress trans with
  | (none,r) => (0,⟨[],{ trans with response := .addressError },r⟩)
  | (some ti,r) =>
    let sent := { trans with address := ti.toLocal trans.address }
    ((target ti.index sent).1,⟨[(ti.index,sent)],{ trans with response := (target ti.index sent).2 },r⟩)

/-- Some byte of the transaction has not the target of the first one. -/
def Crosses (trans : Payload) (r : Router C) : Prop :=
  ∃ x, trans.address.toNat ≤ x.toNat ∧ x.toNat < trans.address.toNat+trans.dataLength.toNat ∧
    AddressMap.lookup r.addressMap.regions x ≠ AddressMap.lookup r.addressMap.regions trans.address

def Transported.Rejected (out : Transported C) : Prop := out.received = [] ∧ out.trans.response = .addressError

/-- A transaction that crosses the border of its target is rejected on both paths. -/
def CrossingRejected (target : ℕ → Payload → TlmResponse) (debug : ℕ → Payload → ℕ × TlmResponse) (id : ℕ)
    (trans : Payload) (r : Router C) : Prop :=
  Crosses trans r → (r.bTransport target id trans).Rejected ∧
    (r.transportDbg debug trans).1 = 0 ∧ (r.transportDbg debug trans).2.Rejected

/-- Only the first address counts: a crossing transaction is rejected exactly when it has no target there. -/
theorem crossing_rejected_iff (target : ℕ → Payload → TlmResponse) (debug : ℕ → Payload → ℕ × TlmResponse) (id : ℕ)
    (trans : Payload) (r : Router C) : CrossingRejected target debug id trans r ↔
      (Crosses trans r → (r.addressMap.find trans.address trans.dataLength).1 = none) := by
  refine imp_congr_right fun _ => ?_
  cases hf : (r.addressMap.find trans.address trans.dataLength).1 with
  | none => simp [bTransport,transportDbg,decodeAddress,hf,Transported.Rejected]
  | some ti => simp [transportDbg,decodeAddress,hf,Transported.Rejected]

end

def smallRouter : Router AddressMap.AddrMapNoCache := lazyInitialize .mk [⟨⟨"target",0,0x1000,0x100,0,true⟩,[]⟩]

/-- Four bytes at `0x10FE` reach the target, on both paths, and the last two lie behind it. -/
theorem crossing_delivered : (smallRouter.bTransport (fun _ _ => .ok) 0 ⟨0x10FE,4,.incomplete,[]⟩).received =
        [(0,⟨0xFE,4,.incomplete,[0]⟩)] ∧
      (smallRouter.transportDbg (fun _ _ => (4,.ok)) ⟨0x10FE,4,.incomplete,[]⟩).2.received =
        [(0,⟨0xFE,4,.incomplete,[]⟩)] ∧
      ¬ CrossingRejected (fun _ _ => .ok) (fun _ _ => (4,.ok)) 0 ⟨0x10FE,4,.incomplete,[]⟩ smallRouter := by
  refine ⟨by decide +kernel,by decide +kernel,fun h => ?_⟩
  have hc : Crosses ⟨0x10FE,4,.incomplete,[]⟩ smallRouter := ⟨0x1100,by decide,by decide,by decide +kernel⟩
  exact absurd (h hc).2.1 (by decide +kernel)

section
variable {C : Type} {target : ℕ → U64 → Option TlmDmi} {id : ℕ} {addr : U64} (ti : TargetInfo)

section
variable (lo hi : U64) (dmi : TlmDmi)
include lo hi dmi

lemma clipDmi_start :
    (clipDmi ti lo hi dmi).start = if ti.toBus dmi.start < lo then lo else ti.toBus dmi.start := by
  simp only [clipDmi]
  split_ifs <;> rfl

lemma clipDmi_endAddr :
    (clipDmi ti lo hi dmi).endAddr = if hi < ti.toBus dmi.endAddr then hi else ti.toBus dmi.endAddr := by
  simp only [clipDmi]
  split_ifs <;> rfl

lemma clipDmi_byte (x : U64) :
    (clipDmi ti lo hi dmi).ptr+(x-(clipDmi ti lo hi dmi).start) = dmi.ptr+(ti.toLocal x-dmi.start) := by
  have hb : x-ti.toBus dmi.start = ti.toLocal x-dmi.start := by
    rw [TargetInfo.toBus,TargetInfo.toLocal]
    split_ifs
    · ring
    · rfl
  rw [← hb]
  simp only [clipDmi]
  split_ifs <;> ring

end

/-- A granted region has the address, lies in its segment, and leads each address to the target's byte for it. -/
structure GrantInside (r : Router C) (addr : U64) (ti : TargetInfo) (dmi granted : TlmDmi) : Prop where
  holds : granted.Holds addr
  first : (AddressMap.findRegion r.addressMap.regions addr).2.1 ≤ granted.start
  last : granted.endAddr ≤ (AddressMap.findRegion r.addressMap.regions addr).2.2
  bytes : ∀ x, granted.Holds x → granted.ptr+(x-granted.start) = dmi.ptr+(ti.toLocal x-dmi.start)

variable [AddressMap.AddrMapCacheBase C TargetInfo] {cache : C} {bound : List BoundTarget}

lemma lazyInitialize_addAll (cache : C) (bound : List BoundTarget) : (lazyInitialize cache bound).addressMap =
    AddressMap.addAll cache (bound.flatMap fun b => b.target :: b.aliasTargets) := by
  rw [AddressMap.addAll,List.foldl_flatMap]
  rfl

omit [AddressMap.AddrMapCacheBase C TargetInfo] in
lemma step_addressMap (s : System C) (a : Action) : (s.step a).router.addressMap = s.router.addressMap := by
  cases a with
  | request target id addr =>
    rw [System.step]
    cases ho : s.router.getDirectMemPtr target id addr with
    | none => rfl
    | some out =>
      rcases getDirectMemPtr_cases ho with rfl | ⟨ti,lo,hi,dmi,sent,r,-,-,hr,rfl⟩
      · rfl
      · rw [recordDmi] at hr
        split_ifs at hr
        all_goals
          obtain ⟨m,-,heq⟩ := Option.map_eq_some_iff.mp hr
          cases heq
          rfl
  | invalidate id start stop =>
    rw [System.step]
    split <;> rfl
  | invalidateTs start stop => rfl

/-- In a configured router the segment around an address lies in the region of its target. -/
lemma findRegion_reachable {s : System C} (hs : System.Reachable cache bound s) {ti : TargetInfo} {lo hi : U64}
    (h : AddressMap.findRegion s.router.addressMap.regions addr = (some ti,lo,hi)) :
    lo ≤ addr ∧ addr ≤ hi ∧ ti.address ≤ lo := by
  have hm := GuardedRun.invariant (I := fun t => t.router.addressMap = (lazyInitialize cache bound).addressMap)
      (fun t a ht _ => (step_addressMap t a).trans ht) rfl hs
  rw [hm,lazyInitialize_addAll] at h
  obtain ⟨hw,-,hl⟩ := AddressMap.addAll_lookup cache (bound.flatMap fun b => b.target :: b.aliasTargets)
  have hta := AddressMap.findRegion_target
    (AddressMap.addAll cache (bound.flatMap fun b => b.target :: b.aliasTargets)).regions addr
  rw [h] at hta
  obtain ⟨e,he,hc,rfl⟩ := (AddressMap.lookup_eq_some_iff hw addr ti).mp hta.symm
  rw [AddressMap.findRegion_mapped hw he hc] at h
  obtain ⟨rfl,rfl⟩ : e.2.start = lo ∧ e.2.endAddr-1 = hi := by simpa using h
  have hlt := hw.nonempty e he
  have hf := AddressMap.lookup_mapped hw he ⟨le_rfl,hlt⟩
  rw [hl] at hf
  obtain ⟨-,-,hcl,-⟩ := PriorityChoice.best_of_choice _ _ _ _ hf
  exact ⟨hc.1,by have := hc.2; bv_omega,hcl.1.1⟩

/-- The router's grant stays in the region exactly when the end of the target's, moved to the bus, does not wrap. -/
theorem dmi_grant_inside_iff {s : System C} (hs : System.Reachable cache bound s) {out : DmiOutcome C}
    {ti : TargetInfo} {granted dmi : TlmDmi} (hout : s.router.getDirectMemPtr target id addr = some out)
    (hg : out.granted = some (ti,granted)) (hdmi : target ti.index (ti.toLocal addr) = some dmi)
    (hh : dmi.Holds (ti.toLocal addr)) : GrantInside s.router addr ti dmi granted ↔
      (ti.useOffset = true → ti.address.toNat+dmi.endAddr.toNat < 2^64) := by
  rcases getDirectMemPtr_cases hout with rfl | ⟨ti,lo,hi,dmi',sent,r,hf,hdmi',-,rfl⟩
  · cases hg
  cases hg
  obtain rfl : dmi = dmi' := Option.some.inj (hdmi.symm.trans hdmi')
  obtain ⟨hlo,hhi,hb⟩ := findRegion_reachable hs hf
  obtain ⟨hst,he⟩ := hh
  have hif : GrantInside s.router addr ti dmi (clipDmi ti lo hi dmi) ↔ addr ≤ ti.toBus dmi.endAddr := by
    have hfi : ti.toBus dmi.start ≤ addr := by
      rw [TargetInfo.toLocal] at hst
      rw [TargetInfo.toBus]
      split_ifs at hst ⊢ <;> bv_omega
    constructor
    · intro h
      have hle := h.holds.2
      rw [clipDmi_endAddr] at hle
      split_ifs at hle <;> bv_omega
    · intro hle
      refine ⟨⟨?_,?_⟩,?_,?_,fun x _ => clipDmi_byte ti lo hi dmi x⟩
      · rw [clipDmi_start]
        split_ifs <;> bv_omega
      · rw [clipDmi_endAddr]
        split_ifs <;> bv_omega
      · rw [hf,clipDmi_start]
        show lo ≤ _
        split_ifs <;> bv_omega
      · rw [hf,clipDmi_endAddr]
        show _ ≤ hi
        split_ifs <;> bv_omega
  rw [hif,TargetInfo.toBus]
  rw [TargetInfo.toLocal] at he
  split_ifs at he ⊢ with ho
  · simp only [ho,forall_const]
    constructor
    · intro hle
      bv_omega
    · intro hft
      bv_omega
  · simpa [ho] using he

end

/-- The whole memory is granted for an address of it. -/
theorem dmi_grant_inside_memory :
    ∃ out ti granted, (lazyInitialize AddressMap.AddrMapNoCache.mk System.memoryRouter).getDirectMemPtr
        (fun _ _ => some ⟨0,0xFFFF,0,.rw⟩) 0 0x1000 = some out ∧ out.granted = some (ti,granted) ∧
      GrantInside (lazyInitialize AddressMap.AddrMapNoCache.mk System.memoryRouter) 0x1000 ti ⟨0,0xFFFF,0,.rw⟩
        granted := by
  have hm : ((lazyInitialize AddressMap.AddrMapNoCache.mk System.memoryRouter).getDirectMemPtr
      (fun _ _ => some ⟨0,0xFFFF,0,.rw⟩) 0 0x1000).map DmiOutcome.granted =
        some (some (⟨"memory",0,0,0x10000,0,true⟩,⟨0,0xFFFF,0,.rw⟩)) := by
    decide +kernel
  obtain ⟨out,ho,hg⟩ := Option.map_eq_some_iff.mp hm
  exact ⟨out,_,_,ho,hg,(dmi_grant_inside_iff .refl ho hg rfl
    ⟨by decide,by decide⟩).mpr (by decide)⟩

/-- A target that grants up to the last address makes the router grant a range that ends below its start. -/
theorem dmi_grant_wraps :
    ∃ out ti granted, (lazyInitialize AddressMap.AddrMapNoCache.mk System.aliasedRouter).getDirectMemPtr
        (fun _ _ => some ⟨0,BitVec.allOnes 64,0,.rw⟩) 0 0x1000 = some out ∧ out.granted = some (ti,granted) ∧
      (granted.start = 0x1000 ∧ granted.endAddr = 0xFFF) ∧
      ¬ GrantInside (lazyInitialize AddressMap.AddrMapNoCache.mk System.aliasedRouter) 0x1000 ti
        ⟨0,BitVec.allOnes 64,0,.rw⟩ granted := by
  have hm : ((lazyInitialize AddressMap.AddrMapNoCache.mk System.aliasedRouter).getDirectMemPtr
      (fun _ _ => some ⟨0,BitVec.allOnes 64,0,.rw⟩) 0 0x1000).map DmiOutcome.granted =
        some (some (⟨"memory",0,0x1000,0x1000,0,true⟩,⟨0x1000,0xFFF,0,.rw⟩)) := by
    decide +kernel
  obtain ⟨out,ho,hg⟩ := Option.map_eq_some_iff.mp hm
  exact ⟨out,_,_,ho,hg,⟨rfl,rfl⟩,fun h => absurd h.holds.2 (by decide)⟩

end Qbox.Router
