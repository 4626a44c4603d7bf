import Qbox.GuardedRun
import Qbox.Smmuv3Dmi
import Qbox.Smmuv3Tlbi

/-! Runs of the SMMU with the masters behind its front ends: transactions, DMI
requests, command queues and DMI invalidations from downstream, in any order. -/
namespace Qbox.Smmuv3
open MachineWord DmaSocket

variable (t : Tbu)

def Tbu.grants : List DmiGrant := t.events.filterMap fun
    | .granted g => some g
    | .invalidated _ _ => none

@[simp] lemma Tbu.grants_show_invalidated (a b : U64) : (t.show (.invalidated a b)).grants = t.grants := rfl

@[simp] lemma Tbu.grants_upstreamInvalidate (a b : U64) : (t.upstreamInvalidate a b).grants = t.grants := by
  rw [upstreamInvalidate]
  split_ifs
  · exact grants_show_invalidated t a b
  · rfl

section
variable (start endAddr : U64) (iotlb : EvictingMap IOTLBKey IOMMUTLBEntry)
include start endAddr iotlb

lemma Tbu.invalidateDirectMemPtr_events :
    (t.invalidateDirectMemPtr start endAddr iotlb).events =
      (invalidatedRanges start endAddr iotlb).reverse.map (fun r => .invalidated r.1 r.2) ++ t.events := by
  rw [invalidateDirectMemPtr]
  generalize invalidatedRanges start endAddr iotlb = ranges
  induction ranges generalizing t with
  | nil => rfl
  | cons r ranges ih =>
    rw [List.foldl_cons,ih]
    simp [Tbu.show]

@[simp] lemma Tbu.grants_invalidateDirectMemPtr : (t.invalidateDirectMemPtr start endAddr iotlb).grants = t.grants := by
  rw [grants,invalidateDirectMemPtr_events,List.filterMap_append,List.filterMap_map,List.filterMap_eq_nil_iff.mpr]
  · rfl
  · intro r _
    rfl

end

lemma map_modify_of_eq {α β : Type} (g : α → β) {f : α → α} (h : ∀ x, g (f x) = g x) (i : ℕ) (l : List α) :
    (l.modify i f).map g = l.map g := by
  induction l generalizing i with
  | nil => cases i <;> rfl
  | cons x l ih =>
    cases i with
    | zero => simp [h]
    | succ i => simp [ih]

section
variable {M : Type}

/-- No region is granted and no IOTLB entry appears. -/
structure Quiet (s s' : Smmuv3 M) : Prop where
  grants : s'.tbus.map Tbu.grants = s.tbus.map Tbu.grants
  iotlb : ∀ k e, s'.iotlb.find k = some e → s.iotlb.find k = some e

lemma Quiet.of_eq {s s' : Smmuv3 M} (ht : s'.tbus = s.tbus) (hi : s'.iotlb = s.iotlb) : Quiet s s' :=
  ⟨by rw [ht],fun k e h => by rwa [hi] at h⟩

lemma Quiet.trans {s1 s2 s3 : Smmuv3 M} (h12 : Quiet s1 s2) (h23 : Quiet s2 s3) : Quiet s1 s3 :=
  ⟨h23.grants.trans h12.grants,fun k e h => h12.iotlb k e (h23.iotlb k e h)⟩

lemma iotlbInvIf_quiet (p : IOTLBKey → Bool) (s : Smmuv3 M) : Quiet s (iotlbInvIf p s) :=
  ⟨rfl,fun _ _ h => (find_iotlbInvIf.mp h).1⟩

lemma iotlbInvAll_quiet (s : Smmuv3 M) : Quiet s (iotlbInvAll s) := ⟨rfl,fun k e h => by simp [iotlbInvAll] at h⟩

lemma mapCore_quiet (f : Core M → Core M) (s : Smmuv3 M) : Quiet s (s.mapCore f) := .of_eq rfl rfl

/-- The key of an entry is the page it was filled for. -/
def IotlbKeyed (iotlb : EvictingMap IOTLBKey IOMMUTLBEntry) : Prop :=
  ∀ k e, iotlb.find k = some e → ∃ n, 12 ≤ n ∧ e.addrMask = lowMask n ∧ k.iova = e.iova &&& ~~~lowMask n

lemma Quiet.keyed {s s' : Smmuv3 M} (hq : Quiet s s') (h : IotlbKeyed s.iotlb) : IotlbKeyed s'.iotlb :=
  fun k e hf => h k e (hq.iotlb k e hf)

end

section
variable {M : Type} [DmaSocket M]

/-- The tags of the translation that answers a transaction. -/
def translationTags (txn : Txn) (sid ssid : U32) (isSecure : Bool) (s : Smmuv3 M) : Option IOTLBTags :=
  match resolve txn sid ssid s.streams with
  | (.tables t,st) => some (tagsOf t isSecure st.core.regs.e2h)
  | (.answer _,_) => none

/-- The region a master holds after a grant, with the physical addresses behind its pointer. -/
def grantOf (region granted : TlmDmi) (tags : Option IOTLBTags) : DmiGrant where
  start := granted.start
  endAddr := granted.endAddr
  paStart := region.start+(granted.ptr-region.ptr)
  paEnd := region.start+(granted.ptr-region.ptr)+(granted.endAddr-granted.start)
  tags := tags

/-- What a front end asks the downstream for, and is answered. -/
def downstreamReply (downstream : U64 → TlmCommand → DmiReply) (topologyId : U32) (txn : Txn) (s : Smmuv3 M) :
    DmiReply :=
  downstream (dmiAddress (tbuTranslate topologyId txn s).1 txn.address) txn.command

inductive Action (M : Type) where
  /-- A transaction at a front end. -/
  | transport (tbu : ℕ) (txn : Txn)
  /-- A DMI request at a front end, with the downstream that answers it. -/
  | requestDmi (tbu : ℕ) (txn : Txn) (dmi : TlmDmi) (downstream : U64 → TlmCommand → DmiReply)
  /-- The producer indices are written. -/
  | commands
  | secureCommands
  /-- A downstream DMI invalidation at a front end. -/
  | invalidate (tbu : ℕ) (start endAddr : U64)
  /-- Registers and memory are written by others. -/
  | environment (core : Core M)
  /-- `S_INIT.INV_ALL`. -/
  | invAll

variable (i : ℕ)

def transport (txn : Txn) (s : Smmuv3 M) : Smmuv3 M := match s.tbus[i]? with
  | none => s
  | some t => (bTransport t.topologyId txn s).2

def requestDmi (txn : Txn) (dmi : TlmDmi) (downstream : U64 → TlmCommand → DmiReply) (s : Smmuv3 M) : Smmuv3 M :=
  match s.tbus[i]? with
  | none => s
  | some t =>
    let (reply,s') := getDirectMemPtr downstream t.topologyId txn dmi s
    if reply.ok then
      let g := grantOf (downstreamReply downstream t.topologyId txn s).dmi reply.dmi
        (translationTags txn t.topologyId (extractSubstreamId txn) (extractSecure txn) s)
      { s' with tbus := s'.tbus.modify i (Tbu.show · (.granted g)) }
    else s'

def invalidate (start endAddr : U64) (s : Smmuv3 M) : Smmuv3 M :=
  { s with tbus := s.tbus.modify i (Tbu.invalidateDirectMemPtr start endAddr s.iotlb) }

def step (s : Smmuv3 M) : Action M → Smmuv3 M
  | .transport i txn => transport i txn s
  | .requestDmi i txn dmi downstream => requestDmi i txn dmi downstream s
  | .commands => consumeCmdq s
  | .secureCommands => consumeSecureCmdq s
  | .invalidate i start endAddr => invalidate i start endAddr s
  | .environment core => { s with streams := { s.streams with core := core } }
  | .invAll => iotlbInvAll (clearCdCache (clearSteCache s))

lemma handleOp_quiet (op : CmdOp) (c : Cmd) (s : Smmuv3 M) : Quiet s (handleOp op c s) := by
  cases op with
  | prefetchConfig | prefetchAddr | priResp | stallTerm => exact .of_eq rfl rfl
  | cfgiSte | cfgiSteRange | cfgiCd | cfgiCdAll | cfgiAll => exact .of_eq rfl rfl
  | tlbiNhAll | tlbiEl3All | tlbiEl2All | tlbiNsnhAll => exact iotlbInvAll_quiet s
  | tlbiNhAsid | tlbiEl2Asid | tlbiNhVa | tlbiEl3Va | tlbiEl2Va | tlbiNhVaa | tlbiEl2Vaa | tlbiS12Vmall
  | tlbiS2Ipa => exact iotlbInvIf_quiet _ s
  | atcInv => exact ⟨by simp [handleOp,handleCmdAtcInv],fun k e h => h⟩
  | resume =>
    rw [handleOp,handleCmdResume]
    split <;> exact .of_eq rfl rfl
  | sync =>
    rw [handleOp,handleCmdSync]
    split_ifs <;> exact .of_eq rfl rfl

variable {c : Cmd} {s s' : Smmuv3 M} {txn : Txn}

lemma execCmd_quiet (h : execCmd c s = some s') : Quiet s s' := by
  rw [execCmd,Option.map_eq_some_iff] at h
  obtain ⟨op,-,rfl⟩ := h
  exact handleOp_quiet op c s

lemma execSecureCmd_quiet (h : execSecureCmd c s = some s') : Quiet s s' := by
  rw [execSecureCmd,Option.bind_eq_some_iff] at h
  obtain ⟨op,-,hop⟩ := h
  rcases handleSecureOp_cases hop with rfl | rfl | rfl
  · exact .of_eq rfl rfl
  · exact iotlbInvAll_quiet s
  · exact .of_eq rfl rfl

lemma consumeCmdq_quiet (s : Smmuv3 M) : Quiet s (consumeCmdq s) :=
  consumeCmdq_rel (fun _ => .of_eq rfl rfl) .trans (fun _ _ => .of_eq rfl rfl) execCmd_quiet
    (fun s _ => mapCore_quiet _ s) (fun s _ => mapCore_quiet _ s) s

lemma consumeSecureCmdq_quiet (s : Smmuv3 M) : Quiet s (consumeSecureCmdq s) :=
  consumeSecureCmdq_rel (fun _ => .of_eq rfl rfl) .trans (fun _ _ => .of_eq rfl rfl) execSecureCmd_quiet
    (fun s _ => mapCore_quiet _ s) (fun s _ => mapCore_quiet _ s) s

lemma smmuv3Translate_tbus (txn : Txn) (sid ssid : U32) (isSecure : Bool) (s : Smmuv3 M) :
    (smmuv3Translate txn sid ssid isSecure s).2.tbus = s.tbus := by
  have hc := smmuv3Translate_cases txn sid ssid isSecure s
  generalize smmuv3Translate txn sid ssid isSecure s = r at hc ⊢
  cases hc <;> rfl

lemma smmuv3Translate_keyed {sid ssid : U32} {isSecure : Bool}
    (h : IotlbKeyed s.iotlb) : IotlbKeyed (smmuv3Translate txn sid ssid isSecure s).2.iotlb := by
  have hc := smmuv3Translate_cases txn sid ssid isSecure s
  generalize smmuv3Translate txn sid ssid isSecure s = r at hc ⊢
  cases hc with
  | answer hr | hit hr hfi | fault hr hfi hw hp => exact h
  | fill hr hfi hw =>
    intro k e hf
    rcases EvictingMap.find_put hf with ⟨rfl,rfl⟩ | ⟨-,hf'⟩
    · exact ⟨_,walkLeaves_pageSize hw,rfl,rfl⟩
    · exact h k e hf'

lemma transportAfter_quiet (topologyId : U32) (txn : Txn) (te : IOMMUTLBEntry) (s : Smmuv3 M) :
    Quiet s (transportAfter topologyId txn te s).2 := by
  rw [transportAfter]
  split_ifs
  · exact .of_eq rfl rfl
  · split
    · simp only [atsAnswer]
      split_ifs <;> exact .of_eq rfl rfl
    · exact .of_eq rfl rfl
  · split
    · simp only [atsAnswer]
      split_ifs <;> exact .of_eq rfl rfl
    · exact .of_eq rfl rfl

lemma transport_keyed (txn : Txn) (h : IotlbKeyed s.iotlb) : IotlbKeyed (transport i txn s).iotlb := by
  rw [transport]
  split
  · exact h
  · rw [bTransport]
    split
    · exact h
    · exact (transportAfter_quiet _ txn _ _).keyed (smmuv3Translate_keyed h)

lemma transport_grants (txn : Txn) (s : Smmuv3 M) :
    (transport i txn s).tbus.map Tbu.grants = s.tbus.map Tbu.grants := by
  rw [transport]
  split
  · rfl
  · rw [bTransport]
    split
    · rfl
    · exact (transportAfter_quiet _ txn _ _).grants.trans
        (congrArg (List.map Tbu.grants) (smmuv3Translate_tbus _ _ _ _ s))

lemma getDirectMemPtr_ok {downstream : U64 → TlmCommand → DmiReply} {topologyId : U32} {dmi : TlmDmi}
    (h : (getDirectMemPtr downstream topologyId txn dmi s).1.ok = true) :
    refuses (tbuTranslate topologyId txn s).1.perm txn.command = false ∧
      ∃ region, downstreamReply downstream topologyId txn s = ⟨true,region⟩ ∧
        (getDirectMemPtr downstream topologyId txn dmi s).1 =
          clampDmi (tbuTranslate topologyId txn s).1 txn.address region := by
  simp only [getDirectMemPtr,dmiAfter,deniedDmi] at h ⊢
  rcases hre : downstreamReply downstream topologyId txn s with ⟨ok,region⟩
  rw [downstreamReply] at hre
  rw [hre] at h ⊢
  split_ifs at h ⊢ with hr hok
  · simp only at hok
    subst hok
    exact ⟨Bool.eq_false_iff.mpr hr,region,rfl,rfl⟩
  · exact absurd h hok

/-- A step grants nothing, or it is a DMI request that adds its grant to one front end. -/
lemma step_grants (s : Smmuv3 M) (a : Action M) : (step s a).tbus.map Tbu.grants = s.tbus.map Tbu.grants ∨
      ∃ i txn dmi downstream t, a = .requestDmi i txn dmi downstream ∧ s.tbus[i]? = some t ∧
        (getDirectMemPtr downstream t.topologyId txn dmi s).1.ok = true ∧
        (step s a).iotlb = (tbuTranslate t.topologyId txn s).2.iotlb ∧
        (step s a).tbus = s.tbus.modify i (Tbu.show · (.granted
          (grantOf (downstreamReply downstream t.topologyId txn s).dmi
            (getDirectMemPtr downstream t.topologyId txn dmi s).1.dmi
            (translationTags txn t.topologyId (extractSubstreamId txn) (extractSecure txn) s)))) := by
  cases a with
  | transport i txn => exact Or.inl (transport_grants i txn s)
  | requestDmi i txn dmi downstream =>
    simp only [step,requestDmi]
    cases ht : s.tbus[i]? with
    | none => exact Or.inl rfl
    | some t =>
      have htb : (tbuTranslate t.topologyId txn s).2.tbus = s.tbus := smmuv3Translate_tbus _ _ _ _ s
      simp only
      split_ifs with hok
      · refine Or.inr ⟨i,txn,dmi,downstream,t,rfl,ht,hok,rfl,?_⟩
        rw [← htb]
        rfl
      · exact Or.inl (congrArg (List.map Tbu.grants) htb)
  | commands => exact Or.inl (consumeCmdq_quiet s).grants
  | secureCommands => exact Or.inl (consumeSecureCmdq_quiet s).grants
  | invalidate i start endAddr =>
    exact Or.inl (map_modify_of_eq _ (fun t => t.grants_invalidateDirectMemPtr start endAddr s.iotlb) i s.tbus)
  | environment core | invAll => exact Or.inl rfl

lemma step_keyed (h : IotlbKeyed s.iotlb) (a : Action M) : IotlbKeyed (step s a).iotlb := by
  cases a with
  | transport i txn => exact transport_keyed i txn h
  | requestDmi i txn dmi downstream =>
    simp only [step,requestDmi]
    split
    · exact h
    · next t _ =>
      split_ifs <;> exact smmuv3Translate_keyed h
  | commands => exact (consumeCmdq_quiet s).keyed h
  | secureCommands => exact (consumeSecureCmdq_quiet s).keyed h
  | invalidate i start endAddr | environment core => exact h
  | invAll => exact (iotlbInvAll_quiet _).keyed h

end

end Qbox.Smmuv3
