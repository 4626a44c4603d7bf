import Qbox.Smmuv3System

/-! DMI regions that masters hold, through invalidations of the IOTLB and
invalidations from downstream. -/
namespace Qbox.Smmuv3
open MachineWord DmaSocket List BitVec

/-- The commands that invalidate translations of the non-secure world. -/
def CmdOp.InvalidatesTlb (op : CmdOp) : Prop :=
  op ∈ [.tlbiNhAll,.tlbiNsnhAll,.tlbiNhAsid,.tlbiNhVa,.tlbiNhVaa,.tlbiS12Vmall,.tlbiS2Ipa]

instance (op : CmdOp) : Decidable op.InvalidatesTlb :=
  inferInstanceAs (Decidable (op ∈ [.tlbiNhAll,.tlbiNsnhAll,.tlbiNhAsid,.tlbiNhVa,.tlbiNhVaa,.tlbiS12Vmall,.tlbiS2Ipa]))

/-- The translation behind a region is one that the command invalidates. -/
def Cmd.covers (op : CmdOp) (c : Cmd) (g : DmiGrant) : Bool := match g.tags with
  | none => false
  | some tags =>
    match op with
    | .tlbiNhAll | .tlbiNsnhAll => true
    | .tlbiNhAsid => tags.asid == c.asidBytes
    | .tlbiS12Vmall => tags.vmid == c.vmid
    | .tlbiNhVa | .tlbiNhVaa | .tlbiS2Ipa => c.Names op tags.vmid tags.asid ∧ c.Meets op g.start g.endAddr
    | _ => false

/-- The regions granted in a history, newest event first, and not passed upstream since. -/
def outstanding : List UpstreamEvent → List DmiGrant
  | [] => []
  | .granted g :: older => g :: outstanding older
  | .invalidated a b :: older => (outstanding older).filter (fun g => ¬ (a ≤ g.start ∧ g.endAddr ≤ b))

section
variable {M : Type} [DmaSocket M] {op : CmdOp} {c : Cmd} {s s' : Smmuv3 M}

/-- No master keeps a region that the command covers. -/
def NoStaleDmi (op : CmdOp) (c : Cmd) (s : Smmuv3 M) : Prop :=
  ∀ t ∈ s.tbus, ∀ g ∈ outstanding t.events, c.covers op g = false

instance (op : CmdOp) (c : Cmd) (s : Smmuv3 M) : Decidable (NoStaleDmi op c s) :=
  inferInstanceAs (Decidable (∀ t ∈ s.tbus, ∀ g ∈ outstanding t.events, c.covers op g = false))

lemma handleOp_tbus (h : op.InvalidatesTlb) (c : Cmd) (s : Smmuv3 M) : (handleOp op c s).tbus = s.tbus := by
  simp only [CmdOp.InvalidatesTlb,mem_cons,not_mem_nil,or_false] at h
  rcases h with rfl | rfl | rfl | rfl | rfl | rfl | rfl <;> rfl

lemma handleSecureOp_tbus (h : op.InvalidatesTlb) (he : handleSecureOp op c s = some s') : s'.tbus = s.tbus := by
  simp only [CmdOp.InvalidatesTlb,mem_cons,not_mem_nil,or_false] at h
  rcases h with rfl | rfl | rfl | rfl | rfl | rfl | rfl <;> cases he <;> rfl

/-- No command that invalidates the IOTLB reaches the masters: none keeps a covered region exactly when none did
before. -/
theorem tlbi_no_stale_dmi_iff (hop : op.InvalidatesTlb) (hdecode : decodeOp c.opcode = some op)
    (hexec : execCmd c s = some s' ∨ execSecureCmd c s = some s') : NoStaleDmi op c s' ↔ NoStaleDmi op c s := by
  have ht : s'.tbus = s.tbus := by
    rcases hexec with hexec | hexec
    · rw [execCmd,hdecode] at hexec
      rw [← Option.some.inj hexec]
      exact handleOp_tbus hop c s
    · rw [execSecureCmd,hdecode] at hexec
      exact handleSecureOp_tbus hop hexec
  rw [NoStaleDmi,NoStaleDmi,ht]

end

def sampleSystem (prod : U32) (words : List (U64 × U64)) : Smmuv3 Ram :=
  let s := sampleSmmu 5 (words ++ [(0x20000,0x21003),(0x21000,0x22003),(0x22008,0x5443)])
  { s with
    tbus := [{ topologyId := 0 }]
    streams := s.streams.mapCore fun core =>
      { core with regs := { core.regs with cmdqBaseLo := 0x40001, cmdqProd := prod } } }

def sampleRequest (iova : U64) : Action Ram :=
  .requestDmi 0 (readTxn iova) sampleRegion (fun _ _ => ⟨true,sampleRegion⟩)

def sampleTlbiNhAll : Cmd := storeLe 8 (0x10 : U64) ++ storeLe 8 (0 : U64)

def sampleAtcInv (va : U64) : Cmd := storeLe 8 (0x40 : U64) ++ storeLe 8 va

/-- A region that `ATC_INV` has withdrawn is not stale after `TLBI_NH_ALL`. -/
theorem tlbi_after_atc_inv : NoStaleDmi .tlbiNhAll sampleTlbiNhAll (handleOp .tlbiNhAll sampleTlbiNhAll
      (handleOp .atcInv (sampleAtcInv 0x1000) (step (sampleSystem 0 []) (sampleRequest 0x1000)))) :=
  (tlbi_no_stale_dmi_iff (by decide) (by decide +kernel) (Or.inl rfl)).mpr (by decide +kernel)

/-- A page is granted and invalidated by `TLBI_NH_ALL`: the IOTLB is empty, but the master was told nothing. -/
theorem tlbi_leaves_dmi : let s1 := step (sampleSystem 1 [(0x40000,0x10),(0x40008,0)]) (sampleRequest 0x1000)
    let s2 := step s1 .commands
    s1.iotlb.size = 1 ∧ s2.iotlb.size = 0 ∧
      s2.tbus = [⟨0,true,[.granted ⟨0x1000,0x1FFF,0x5000,0x5FFF,some ⟨0,1,0,false,0⟩⟩]⟩] ∧
      ¬ NoStaleDmi .tlbiNhAll sampleTlbiNhAll s2 := by
  decide +kernel

/-- The entry lies behind the region: it has its physical addresses, and reaches over it. -/
structure Backs (e : IOMMUTLBEntry) (g : DmiGrant) : Prop where
  paStart : e.translatedAddr ≤ g.paStart
  paEnd : g.paEnd ≤ e.translatedAddr ||| e.addrMask
  start : e.iova ≤ g.start
  endAddr : g.endAddr ≤ e.iova ||| e.addrMask

/-- A grant cut from an entry filled at the first byte of its page is backed by it. -/
lemma backs_of_clamp {te : IOMMUTLBEntry} {iova : U64} {region : TlmDmi} {n : ℕ} (tags : Option IOTLBTags)
    (hm : te.addrMask = lowMask n) (hio : te.iova = iova &&& ~~~lowMask n)
    (hh : region.Holds (dmiAddress te iova)) : Backs te (grantOf region (clampDmi te iova region).dmi tags) := by
  obtain ⟨cs,ce,heq,⟨hc1,-,hcs3⟩,⟨hce1,hc2,-⟩⟩ := clampDmi_spec hh
  have hc3 := hcs3.trans hce1
  have hb := and_not_and iova (lowMask n)
  have hs (x : U64) (h1 : te.translatedAddr ≤ x) (h2 : x ≤ ce) : x-te.translatedAddr ≤ lowMask n := by
    have hta := and_not_and te.translatedAddr (lowMask n)
    have hor : te.translatedAddr ||| te.addrMask = (te.translatedAddr &&& ~~~lowMask n)+lowMask n := by
      rw [add_eq_or_of_and_eq_zero _ _ hta,hm]
      apply eq_of_getLsbD_eq
      intro i hi
      grind
    have hle := h2.trans hc2
    rw [hor,le_def,toNat_base_add hta (le_refl _)] at hle
    have hc : (te.translatedAddr &&& ~~~lowMask n).toNat ≤ te.translatedAddr.toNat := by
      exact Nat.and_le_left
    rw [le_def,toNat_sub_of_le h1]
    omega
  have hst := hs cs hc1 hc3
  have he := hs ce (hc1.trans hc3) (le_refl _)
  have hz : (iova &&& ~~~lowMask n)+0 ≤ (iova &&& ~~~lowMask n)+(cs-te.translatedAddr) :=
    (base_add_le_iff hb (Nat.zero_le _) hst).mpr (Nat.zero_le _)
  have hl := (base_add_le_iff hb he (le_refl _)).mpr he
  rw [add_eq_or_of_and_eq_zero _ _ hb] at hl
  rw [add_zero] at hz
  have hpa : region.start+(region.ptr+(cs-region.start)-region.ptr) = cs := by ring
  have hp : cs+((iova &&& ~~~lowMask n)+(ce-te.translatedAddr)-
      ((iova &&& ~~~lowMask n)+(cs-te.translatedAddr))) = ce := by ring
  rw [heq,grantOf]
  simp only [hm]
  refine ⟨?_,?_,?_,?_⟩
  · rw [hpa]
    exact hc1
  · rw [hpa,hp]
    exact hc2
  · rw [hio]
    exact hz
  · rw [hio,hm]
    exact hl

section
variable {M : Type} [DmaSocket M] {s : Smmuv3 M}

/-- The entry of a DMI request was filled at the first byte of its page, or a walk is made for that byte. -/
structure FromPageStart (topologyId : U32) (txn : Txn) (s : Smmuv3 M) : Prop where
  translated : ∀ e st, resolve txn topologyId (extractSubstreamId txn) s.streams = (.answer e,st) → e.perm = .none
  cached : ∀ e, cachedEntry txn topologyId (extractSubstreamId txn) (extractSecure txn) s = some e →
    e.iova &&& e.addrMask = 0
  walked : ∀ w, freshWalk txn topologyId (extractSubstreamId txn) s = some w →
    txn.address &&& lowMask w.last.leaf.pageSize = 0

/-- The entry that answers such a request stays in the IOTLB and begins with the page. -/
lemma tbuTranslate_pageStart {topologyId : U32} {txn : Txn} (hk : IotlbKeyed s.iotlb)
    (hs : FromPageStart topologyId txn s) (hok : refuses (tbuTranslate topologyId txn s).1.perm txn.command = false) :
    ∃ k n, (tbuTranslate topologyId txn s).2.iotlb.find k = some (tbuTranslate topologyId txn s).1 ∧
      (tbuTranslate topologyId txn s).1.addrMask = lowMask n ∧
      (tbuTranslate topologyId txn s).1.iova = txn.address &&& ~~~lowMask n := by
  rw [tbuTranslate] at *
  have hc := smmuv3Translate_cases txn topologyId (extractSubstreamId txn) (extractSecure txn) s
  generalize smmuv3Translate txn topologyId (extractSubstreamId txn) (extractSecure txn) s = r at *
  have hp := perm_ne_none_of_taken hok
  cases hc with
  | answer hr => exact absurd (hs.translated _ _ hr) hp
  | fault hr hf hw hno => exact absurd hno hp
  | @hit t st e hr hf =>
    have hh := (cachedEntry_of_tables hr (extractSecure txn)).trans hf
    obtain ⟨n,hn,hm,hke⟩ := hk _ _ hf
    have hpa := and_not_lowMask_mono hn hke
    have hfi := hs.cached e hh
    rw [hm] at hfi
    exact ⟨_,n,hf,hm,by rw [hpa,and_not_of_and_eq_zero hfi]⟩
  | @fill t st w bus hr hf hw =>
    have hfi := hs.walked w (freshWalk_eq_some.mpr ⟨t,st,bus,hr,hw⟩)
    exact ⟨_,w.last.leaf.pageSize,EvictingMap.find_put_self _ _ _ _,rfl,(and_not_of_and_eq_zero hfi).symm⟩

/-- Every region ever granted is backed by an entry that is still cached. -/
def AllBacked (s : Smmuv3 M) : Prop := ∀ t ∈ s.tbus, ∀ g ∈ t.grants, ∃ k e, s.iotlb.find k = some e ∧ Backs e g

/-- Backing lasts: DMI requests are answered by entries filled at the first byte of their page and by downstream
regions with the address, and no entry behind a region leaves the IOTLB. -/
structure KeepsBacking (s : Smmuv3 M) (a : Action M) : Prop where
  requests : ∀ i txn dmi downstream t, a = .requestDmi i txn dmi downstream → s.tbus[i]? = some t →
    FromPageStart t.topologyId txn s ∧ ∀ region, downstreamReply downstream t.topologyId txn s = ⟨true,region⟩ →
      region.Holds (dmiAddress (tbuTranslate t.topologyId txn s).1 txn.address)
  entries : ∀ t ∈ s.tbus, ∀ g ∈ t.grants, ∀ k e, s.iotlb.find k = some e → Backs e g →
    (step s a).iotlb.find k = some e

lemma mem_grants_of_map_eq {l l' : List Tbu} (h : l'.map Tbu.grants = l.map Tbu.grants) {t' : Tbu} (ht : t' ∈ l')
    {g : DmiGrant} (hg : g ∈ t'.grants) : ∃ t ∈ l, g ∈ t.grants := by
  have hm := h ▸ List.mem_map_of_mem ht
  obtain ⟨t,ht,heq⟩ := List.mem_map.mp hm
  exact ⟨t,ht,heq ▸ hg⟩

lemma mem_modify {α : Type} {l : List α} {i : ℕ} {f : α → α} {x : α} (h : x ∈ l.modify i f) :
    x ∈ l ∨ ∃ y, l[i]? = some y ∧ x = f y := by
  obtain ⟨j,hj⟩ := mem_iff_getElem?.mp h
  rw [getElem?_modify] at hj
  obtain ⟨y,hy,hx⟩ := Option.map_eq_some_iff.mp hj
  by_cases hij : i = j
  · subst hij
    rw [if_pos rfl] at hx
    exact Or.inr ⟨y,hy,hx.symm⟩
  · rw [if_neg hij] at hx
    exact Or.inl (mem_iff_getElem?.mpr ⟨j,by rw [hy]; exact congrArg some hx⟩)

lemma step_backed {a : Action M} (hke : IotlbKeyed s.iotlb) (hba : AllBacked s) (hk : KeepsBacking s a) :
    AllBacked (step s a) := by
  have hold {t : Tbu} (ht : t ∈ s.tbus) {g : DmiGrant} (hg : g ∈ t.grants) :
      ∃ k e, (step s a).iotlb.find k = some e ∧ Backs e g := by
    obtain ⟨k,e,hf,hb⟩ := hba t ht g hg
    exact ⟨k,e,hk.entries t ht g hg k e hf hb,hb⟩
  intro t' ht' g hg
  rcases step_grants s a with hsa | ⟨i,txn,dmi,downstream,t,ha,ht,hok,hi,htb⟩
  · obtain ⟨t,ht,hgt⟩ := mem_grants_of_map_eq hsa ht' hg
    exact hold ht hgt
  · rw [htb] at ht'
    rcases mem_modify ht' with hme | ⟨t1,ht1,rfl⟩
    · exact hold hme hg
    · cases ht.symm.trans ht1
      rcases mem_cons.mp hg with rfl | hgt
      · obtain ⟨hp,region,hd,hgr⟩ := getDirectMemPtr_ok hok
        obtain ⟨hs,hh⟩ := hk.requests i txn dmi downstream t ha ht
        obtain ⟨k,n,hf,hm,hio⟩ := tbuTranslate_pageStart hke hs hp
        rw [hi,hd,hgr]
        exact ⟨k,_,hf,backs_of_clamp _ hm hio (hh region hd)⟩
      · exact hold (mem_of_getElem? ht) hgt

/-- Every granted region with a byte in the invalidated range lies in the ranges passed upstream. -/
def InvalidationReaches (i : ℕ) (start endAddr : U64) (s : Smmuv3 M) : Prop := ∀ t, s.tbus[i]? = some t → ∃ passed,
    (t.invalidateDirectMemPtr start endAddr s.iotlb).events = passed ++ t.events ∧
    ∀ g ∈ t.grants, g.paStart ≤ endAddr → start ≤ g.paEnd → ∀ x, g.start ≤ x → x ≤ g.endAddr →
      ∃ a b, .invalidated a b ∈ passed ∧ a ≤ x ∧ x ≤ b

omit [DmaSocket M] in
lemma invalidationReaches_of_backed (h : AllBacked s) (i : ℕ) (start endAddr : U64) :
    InvalidationReaches i start endAddr s := by
  intro t ht
  refine ⟨_,t.invalidateDirectMemPtr_events start endAddr s.iotlb,fun g hg hlo hhi x hx1 hx2 => ?_⟩
  obtain ⟨k,e,hf,hb⟩ := h t (mem_of_getElem? ht) g hg
  refine ⟨e.iova,e.iova ||| e.addrMask,?_,hb.start.trans hx1,hx2.trans hb.endAddr⟩
  have hm : ¬ (endAddr < e.translatedAddr ∨ e.translatedAddr ||| e.addrMask < start) := by
    push Not
    exact ⟨hb.paStart.trans hlo,hhi.trans hb.paEnd⟩
  have hr : (e.iova,e.iova ||| e.addrMask) ∈ invalidatedRanges start endAddr s.iotlb :=
    mem_filterMap.mpr ⟨(k,e),EvictingMap.mem_entries.mpr hf,if_neg hm⟩
  exact List.mem_map.mpr ⟨_,mem_reverse.mpr hr,rfl⟩

/-- In a run without grants at first whose steps keep the backing, a downstream invalidation reaches every region it
affects. -/
theorem invalidation_reaches {s0 : Smmuv3 M} (hempty : s0.iotlb = .empty) (hnone : ∀ t ∈ s0.tbus, t.grants = [])
    (hrun : GuardedRun step KeepsBacking s0 s) (i : ℕ) (start endAddr : U64) :
    InvalidationReaches i start endAddr s := by
  have hi : IotlbKeyed s.iotlb ∧ AllBacked s := by
    refine GuardedRun.invariant (I := fun s => IotlbKeyed s.iotlb ∧ AllBacked s)
      (fun s a h hk => ⟨step_keyed h.1 a,step_backed h.1 h.2 hk⟩) ⟨?_,?_⟩ hrun
    · intro k e hf
      rw [hempty,EvictingMap.find_empty] at hf
      cases hf
    · intro t ht g hg
      rw [hnone t ht] at hg
      cases hg
  exact invalidationReaches_of_backed hi.2 i start endAddr

omit [DmaSocket M] in
lemma not_invalidationReaches {i : ℕ} {start endAddr : U64} {t : Tbu} (ht : s.tbus[i]? = some t) {g : DmiGrant}
    (hg : g ∈ t.grants) (hpa : g.paStart ≤ endAddr ∧ start ≤ g.paEnd) (hne : g.start ≤ g.endAddr)
    (hm : (invalidatedRanges start endAddr s.iotlb).any (fun r => r.1 ≤ g.start && g.start ≤ r.2) = false) :
    ¬ InvalidationReaches i start endAddr s := by
  intro h
  obtain ⟨passed,he,hre⟩ := h t ht
  obtain ⟨a,b,hme,ha,hb⟩ := hre g hg hpa.1 hpa.2 g.start (le_refl _) hne
  rw [t.invalidateDirectMemPtr_events] at he
  rw [← append_cancel_right he] at hme
  obtain ⟨r,hr,heq⟩ := List.mem_map.mp hme
  cases heq
  have hr := List.any_eq_false.mp hm r (mem_reverse.mp hr)
  exact hr (by simp [ha,hb])

end

/-- The granted page at `0x1000` is reached by an invalidation of a part of its frame. -/
theorem invalidation_reaches_page : (step (sampleSystem 0 []) (sampleRequest 0x1000)).tbus =
        [⟨0,true,[.granted ⟨0x1000,0x1FFF,0x5000,0x5FFF,some ⟨0,1,0,false,0⟩⟩]⟩] ∧
      InvalidationReaches 0 0x5800 0x58FF (step (sampleSystem 0 []) (sampleRequest 0x1000)) := by
  have hw : freshWalk (readTxn 0x1000) 0 (extractSubstreamId (readTxn 0x1000)) (sampleSystem 0 []) =
      some ⟨⟨.g4k,⟨0x5000,12,0x5443,0,0x22008,.rw⟩⟩,none⟩ := by decide +kernel
  obtain ⟨t,st,bus,hr,-⟩ := freshWalk_eq_some.mp hw
  have hs : FromPageStart 0 (readTxn 0x1000) (sampleSystem 0 []) := by
    refine ⟨fun e st' h => ?_,fun e h => ?_,fun w h => ?_⟩
    · cases hr.symm.trans h
    · rw [cachedEntry_of_empty rfl] at h
      cases h
    · cases hw.symm.trans h
      decide
  have hgu : KeepsBacking (sampleSystem 0 []) (sampleRequest 0x1000) := by
    refine ⟨fun i txn dmi downstream t' ha ht => ?_,fun t' ht g hg => ?_⟩
    · cases ha
      cases ht
      refine ⟨hs,fun region h => ?_⟩
      cases h
      exact ⟨by decide +kernel,by decide +kernel⟩
    · cases mem_singleton.mp ht
      cases hg
  refine ⟨by decide +kernel,invalidation_reaches rfl ?_ (.tail .refl hgu) 0 0x5800 0x58FF⟩
  intro t' ht
  cases mem_singleton.mp ht
  rfl

/-- A region granted in bypass, one whose translation is gone, and one asked for in the middle of a page: each misses
the first byte. -/
theorem invalidation_misses_grants : ¬ InvalidationReaches 0 0x5000 0x5FFF
        (step (step (sampleSystem 0 []) (.environment ⟨{},(sampleSystem 0 []).bus,{}⟩)) (sampleRequest 0x5000)) ∧
      ¬ InvalidationReaches 0 0x5000 0x5FFF
        (step (step (sampleSystem 1 [(0x40000,0x10),(0x40008,0)]) (sampleRequest 0x1000)) .commands) ∧
      ¬ InvalidationReaches 0 0x5000 0x5FFF (step (sampleSystem 0 []) (sampleRequest 0x1234)) := by
  refine ⟨?_,?_,?_⟩
  · exact not_invalidationReaches (t := ⟨0,true,[.granted ⟨0,0xFFF,0x5000,0x5FFF,none⟩]⟩)
      (g := ⟨0,0xFFF,0x5000,0x5FFF,none⟩) (by decide +kernel) (by decide) (by decide) (by decide) (by decide +kernel)
  · exact not_invalidationReaches
      (t := ⟨0,true,[.granted ⟨0x1000,0x1FFF,0x5000,0x5FFF,some ⟨0,1,0,false,0⟩⟩]⟩)
      (g := ⟨0x1000,0x1FFF,0x5000,0x5FFF,some ⟨0,1,0,false,0⟩⟩)
      (by decide +kernel) (by decide) (by decide) (by decide) (by decide +kernel)
  · exact not_invalidationReaches
      (t := ⟨0,true,[.granted ⟨0x1000,0x1DCB,0x5234,0x5FFF,some ⟨0,1,0,false,0⟩⟩]⟩)
      (g := ⟨0x1000,0x1DCB,0x5234,0x5FFF,some ⟨0,1,0,false,0⟩⟩)
      (by decide +kernel) (by decide) (by decide) (by decide) (by decide +kernel)

end Qbox.Smmuv3
