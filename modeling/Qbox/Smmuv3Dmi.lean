import Qbox.Smmuv3Pages
import Qbox.Smmuv3Tbu

/-! Direct memory regions granted by a front end against its bus path. -/
namespace Qbox.Smmuv3
open MachineWord DmaSocket BitVec

lemma le_or_left (a b : U64) : a ≤ a ||| b := by
  exact Nat.left_le_or

lemma dmiAddress_le (te : IOMMUTLBEntry) (iova : U64) :
    te.translatedAddr ≤ dmiAddress te iova ∧ dmiAddress te iova ≤ te.translatedAddr ||| te.addrMask := by
  refine ⟨le_or_left _ _,?_⟩
  have ha : te.translatedAddr ||| te.addrMask = dmiAddress te iova ||| te.addrMask := by
    apply eq_of_getLsbD_eq
    intro i hi
    simp [dmiAddress]
    grind
  rw [ha]
  exact le_or_left _ _

lemma clampDmi_spec {te : IOMMUTLBEntry} {iova : U64} {region : TlmDmi}
    (h : region.Holds (dmiAddress te iova)) : ∃ cs ce, clampDmi te iova region = ⟨true,{
        start := (iova &&& ~~~te.addrMask)+(cs-te.translatedAddr)
        endAddr := (iova &&& ~~~te.addrMask)+(ce-te.translatedAddr)
        ptr := region.ptr+(cs-region.start)
        access := if te.perm = .ro then .ro else if te.perm = .wo then .wo else region.access }⟩ ∧
      (te.translatedAddr ≤ cs ∧ region.start ≤ cs ∧ cs ≤ dmiAddress te iova) ∧
      (dmiAddress te iova ≤ ce ∧ ce ≤ te.translatedAddr ||| te.addrMask ∧ ce ≤ region.endAddr) := by
  obtain ⟨hlo,hhi⟩ := dmiAddress_le te iova
  refine ⟨max region.start te.translatedAddr,min (te.translatedAddr ||| te.addrMask) region.endAddr,?_,
    ⟨le_max_right _ _,le_max_left _ _,max_le h.1 hlo⟩,⟨le_min hhi h.2,min_le_left _ _,min_le_right _ _⟩⟩
  have hs : (if region.start < te.translatedAddr then te.translatedAddr else region.start) =
      max region.start te.translatedAddr := by
    rcases lt_or_ge region.start te.translatedAddr with hlt | hge
    · rw [if_pos hlt,max_eq_right hlt.le]
    · rw [if_neg hge.not_gt,max_eq_left hge]
  have he : (if te.translatedAddr ||| te.addrMask < region.endAddr then te.translatedAddr ||| te.addrMask
      else region.endAddr) = min (te.translatedAddr ||| te.addrMask) region.endAddr := by
    rcases lt_or_ge (te.translatedAddr ||| te.addrMask) region.endAddr with hlt | hge
    · rw [if_pos hlt,min_eq_left hlt.le]
    · rw [if_neg hge.not_gt,min_eq_right hge]
  have hne := not_lt.mpr ((max_le h.1 hlo).trans (le_min hhi h.2))
  simp only [clampDmi,hs,he,if_neg hne]

lemma perm_ne_none_of_taken {perm : IOMMUAccessFlags} {c : TlmCommand} (h : refuses perm c = false) : perm ≠ .none := by
  rintro rfl
  revert h
  cases c <;> decide

lemma grantedAccess_le {perm perm' access : IOMMUAccessFlags} {c : TlmCommand} (hok : refuses perm c = false)
    (h : perm ≤ perm') : (if perm = .ro then .ro else if perm = .wo then .wo else access) ≤ perm' := by
  cases perm with
  | none => exact absurd rfl (perm_ne_none_of_taken hok)
  | ro | wo => exact h
  | rw =>
    obtain rfl := IOMMUAccessFlags.rw_le.mp h
    exact IOMMUAccessFlags.le_rw access

section
variable {M : Type} [DmaSocket M] {downstream : U64 → TlmCommand → DmiReply} {topologyId : U32} {txn : Txn}
  {dmi region : TlmDmi} {s : Smmuv3 M} {k : ℕ} {frame : U64}

/-- The bus path sends every address of the page to the same frame, with no less rights. -/
structure BusUniform (topologyId : U32) (txn : Txn) (s : Smmuv3 M) (k : ℕ) (frame : U64) : Prop where
  large : 12 ≤ k
  mask : (tbuTranslate topologyId txn s).1.addrMask = lowMask k
  aligned : frame &&& lowMask k = 0
  path : ∀ x, x &&& ~~~lowMask k = txn.address &&& ~~~lowMask k → ∃ desc attrs,
    (bTransport topologyId (txn.withAddress x) s).1 = .forwarded (frame ||| (x &&& lowMask k)) desc attrs
  rights : ∀ x, x &&& ~~~lowMask k = txn.address &&& ~~~lowMask k →
    (tbuTranslate topologyId txn s).1.perm ≤ (tbuTranslate topologyId (txn.withAddress x) s).1.perm

/-- The answered region agrees with the bus path: it has the address, and each `x` in it reaches the byte that a
transaction at `x` is sent to, with no more rights. -/
structure RegionAgrees (topologyId : U32) (txn : Txn) (s : Smmuv3 M) (region granted : TlmDmi) : Prop where
  holds : granted.Holds txn.address
  bytes : ∀ x, granted.Holds x → ∃ pa desc attrs,
    (bTransport topologyId (txn.withAddress x) s).1 = .forwarded pa desc attrs ∧ region.Holds pa ∧
      granted.ptr+(x-granted.start) = region.ptr+(pa-region.start)
  rights : ∀ x, granted.Holds x → granted.access ≤ (tbuTranslate topologyId (txn.withAddress x) s).1.perm

def DmiAgrees (downstream : U64 → TlmCommand → DmiReply) (topologyId : U32) (txn : Txn) (dmi : TlmDmi)
    (s : Smmuv3 M) (region : TlmDmi) : Prop :=
  (getDirectMemPtr downstream topologyId txn dmi s).1.ok = true →
    RegionAgrees topologyId txn s region (getDirectMemPtr downstream topologyId txn dmi s).1.dmi

/-- The answering entry begins with its page: a cached one was stored so, a walk is at the page's first byte, and
without a translation the address is zero. -/
def StartsPage (topologyId : U32) (txn : Txn) (s : Smmuv3 M) : Prop :=
  match cachedEntry txn topologyId (extractSubstreamId txn) (extractSecure txn) s with
  | some e => e.translatedAddr &&& e.addrMask = 0
  | none =>
    match (resolve txn topologyId (extractSubstreamId txn) s.streams).1 with
    | .answer _ => txn.address = 0
    | .tables _ => ∀ w, freshWalk txn topologyId (extractSubstreamId txn) s = some w →
        txn.address &&& lowMask w.last.leaf.pageSize = 0

section
variable (hb : BusUniform topologyId txn s k frame)
include hb

lemma BusUniform.self :
    refuses (tbuTranslate topologyId txn s).1.perm txn.command = false ∧
      frame ||| (txn.address &&& lowMask k) = busAddress (tbuTranslate topologyId txn s).1 txn.address := by
  obtain ⟨desc,attrs,hf⟩ := hb.path txn.address rfl
  exact bTransport_forwarded hf

lemma BusUniform.frame_iff :
    (tbuTranslate topologyId txn s).1.translatedAddr = frame ↔
      (tbuTranslate topologyId txn s).1.translatedAddr &&& lowMask k = 0 := by
  have hs := hb.self.2
  rw [busAddress] at hs
  have hl := hb.large
  have ha := hb.aligned
  constructor
  · intro h
    rw [h,ha]
  · intro h
    apply eq_of_getLsbD_eq
    intro i hi
    have h1 := congrArg (fun v : U64 => v.getLsbD i) h
    have h2 := congrArg (fun v : U64 => v.getLsbD i) hs
    have h3 := congrArg (fun v : U64 => v.getLsbD i) ha
    simp [hi] at h1 h2 h3 ⊢
    grind

omit hb in
/-- Granted addresses count from the input page, bytes from the translated address: they agree when this is the frame.
-/
lemma clampDmi_agrees_iff (hbu : BusUniform topologyId txn s k frame)
    (hh : region.Holds (dmiAddress (tbuTranslate topologyId txn s).1 txn.address)) :
    RegionAgrees topologyId txn s region (clampDmi (tbuTranslate topologyId txn s).1 txn.address region).dmi ↔
      (tbuTranslate topologyId txn s).1.translatedAddr = frame := by
  obtain ⟨hok,-⟩ := hbu.self
  obtain ⟨cs,ce,heq,⟨hcs1,hcs2,hc3⟩,⟨hc1,hc2,hce3⟩⟩ := clampDmi_spec hh
  have hm := hbu.mask
  have hr := hbu.rights
  generalize (tbuTranslate topologyId txn s).1 = te at *
  rw [heq]
  rw [hm] at hc2
  simp only [hm]
  rw [dmiAddress,hm] at hc3 hc1
  have hs := and_not_add_and txn.address (lowMask k)
  have hb := and_not_and txn.address (lowMask k)
  have ho := and_lowMask_le txn.address k
  constructor
  · intro h
    obtain ⟨pa,desc,attrs,hfw,-,hpt⟩ := h.bytes txn.address h.holds
    obtain ⟨desc',attrs',hfw'⟩ := hbu.path txn.address rfl
    rw [hfw'] at hfw
    have hpa : frame ||| (txn.address &&& lowMask k) = pa := by
      simp only [TransportOutcome.forwarded.injEq] at hfw
      exact hfw.1
    rw [← add_eq_or_of_and_eq_zero _ _ (and_of_le_lowMask hbu.aligned ho)] at hpa
    subst hpa
    simp only at hpt
    generalize txn.address &&& lowMask k = o at *
    generalize txn.address &&& ~~~lowMask k = b at *
    rw [← hs] at hpt
    linear_combination hpt
  · intro hf
    subst hf
    have ha := hbu.aligned
    rw [← add_eq_or_of_and_eq_zero _ _ (and_of_le_lowMask ha ho)] at hc3 hc1
    rw [← add_eq_or_of_and_eq_zero _ _ (and_of_le_lowMask ha (le_refl _))] at hc2
    have hz : (0 : U64) ≤ txn.address &&& lowMask k := Nat.zero_le _
    obtain ⟨yc,-,hyc,rfl⟩ := (window_iff ha hz ho).mp ⟨by rwa [add_zero],hc3⟩
    obtain ⟨ye,hye1,hye2,rfl⟩ := (window_iff ha ho (le_refl _)).mp ⟨hc1,hc2⟩
    have hw (x : U64) : (txn.address &&& ~~~lowMask k)+yc ≤ x ∧ x ≤ (txn.address &&& ~~~lowMask k)+ye ↔
        ∃ y, yc ≤ y ∧ y ≤ ye ∧ (txn.address &&& ~~~lowMask k)+y = x :=
      window_iff hb (hyc.trans hye1) hye2
    have hp (x : U64) (hx : (txn.address &&& ~~~lowMask k)+yc ≤ x ∧ x ≤ (txn.address &&& ~~~lowMask k)+ye) :
        x &&& ~~~lowMask k = txn.address &&& ~~~lowMask k := by
      obtain ⟨y,-,hy,rfl⟩ := (hw x).mp hx
      exact (base_add_split hb (hy.trans hye2)).1
    simp only [add_sub_cancel_left]
    refine ⟨(hw _).mpr ⟨_,hyc,hye1,hs⟩,fun x hx => ?_,fun x hx => ?_⟩
    · obtain ⟨desc,attrs,hfw⟩ := hbu.path x (hp x hx)
      obtain ⟨y,hy1,hy2,rfl⟩ := (hw x).mp hx
      rw [(base_add_split hb (hy2.trans hye2)).2,
        ← add_eq_or_of_and_eq_zero _ _ (and_of_le_lowMask ha (hy2.trans hye2))] at hfw
      refine ⟨_,desc,attrs,hfw,⟨?_,?_⟩,?_⟩
      · exact hcs2.trans ((base_add_le_iff ha ((hyc.trans hye1).trans hye2) (hy2.trans hye2)).mpr hy1)
      · exact ((base_add_le_iff ha (hy2.trans hye2) hye2).mpr hy2).trans hce3
      · ring
    · have hx' := hr x (hp x hx)
      exact grantedAccess_le hok hx'

omit hb in
lemma offset_clear_iff {pa addr : U64} (ha : frame &&& lowMask k = 0)
    (had : frame ||| (addr &&& lowMask k) = pa ||| (addr &&& lowMask 12))
    (hl : ∀ i, i < 12 → addr.getLsbD i = true → pa.getLsbD i = true) :
    pa &&& lowMask k = 0 ↔ addr &&& lowMask k = 0 := by
  constructor
  all_goals
    intro h
    apply eq_of_getLsbD_eq
    intro i hi
    have h1 := congrArg (fun v : U64 => v.getLsbD i) h
    have h2 := congrArg (fun v : U64 => v.getLsbD i) had
    have h3 := congrArg (fun v : U64 => v.getLsbD i) ha
    have h4 := hl i
    simp [hi] at h1 h2 h3 h4 ⊢
    grind

lemma startsPage_iff :
    (tbuTranslate topologyId txn s).1.translatedAddr &&& lowMask k = 0 ↔ StartsPage topologyId txn s := by
  obtain ⟨hok,ha⟩ := hb.self
  have hm := hb.mask
  rw [tbuTranslate] at *
  have hc := smmuv3Translate_cases txn topologyId (extractSubstreamId txn) (extractSecure txn) s
  generalize smmuv3Translate txn topologyId (extractSubstreamId txn) (extractSecure txn) s = r at *
  have hp := perm_ne_none_of_taken hok
  cases hc with
  | answer hr =>
    have hmi : cachedEntry txn topologyId (extractSubstreamId txn) (extractSecure txn) s = none := by
      rw [cachedEntry,hr]
    rcases resolve_answer hr with rfl | hn
    · rw [← hm]
      simp only [StartsPage,hmi,hr]
      show txn.address &&& (-1) = 0 ↔ _
      rw [show (-1 : U64) = allOnes 64 from rfl,and_allOnes]
    · exact absurd hn hp
  | @hit t st e hr hf =>
    have hh := (cachedEntry_of_tables hr (extractSecure txn)).trans hf
    have hm' : e.addrMask = lowMask k := hm
    simp [StartsPage,hh,hm']
  | fault hr hf hw hn => exact absurd hn hp
  | @fill t st w bus hr hf hw =>
    have hmi := (cachedEntry_of_tables hr (extractSecure txn)).trans hf
    have hfr := freshWalk_eq_some.mpr ⟨t,st,bus,hr,hw⟩
    have hm' : lowMask w.last.leaf.pageSize = lowMask k := hm
    simp only [StartsPage,hmi,hr,hfr,Option.some.injEq,forall_eq',hm']
    exact offset_clear_iff hb.aligned ha (fun i => walkLeaves_offset hw)

end

/-- On a page that fits and is aligned, with nothing of it cached, the bus path is uniform. -/
lemma busUniform_of_walk {w : Walked} (he : s.iotlb = .empty) (hat : txn.ats = none)
    (hwa : freshWalk txn topologyId (extractSubstreamId txn) s = some w) (hf : w.Fits) (ha : w.Aligned)
    (hok : refuses w.last.leaf.prot txn.command = false) :
    BusUniform topologyId txn s w.last.leaf.pageSize w.offsetBase := by
  obtain ⟨t,st,bus,hr,hl⟩ := freshWalk_eq_some.mp hwa
  obtain ⟨hpa,hp⟩ := walkLeaves_page hl hf
  have h12 := walkLeaves_pageSize hl
  have hte (x : U64) (hx : x &&& ~~~lowMask w.last.leaf.pageSize = txn.address &&& ~~~lowMask w.last.leaf.pageSize) :
      (tbuTranslate topologyId (txn.withAddress x) s).1 = leafEntry x
        (w.last.leaf.withPa (w.offsetBase ||| (x &&& lowMask w.last.leaf.pageSize))) := by
    obtain ⟨w',hw',hle⟩ := hp x (agreeAbove_iff.mpr hx.symm)
    have hwa' : freshWalk (txn.withAddress x) topologyId (extractSubstreamId (txn.withAddress x)) s = some w' :=
      freshWalk_eq_some.mpr ⟨t,st,bus,resolve_tables hr _,hw'⟩
    rw [tbuTranslate,(smmuv3Translate_fill (cachedEntry_of_empty he _ _ _ _) hwa').1,hle]
    rfl
  have hs := hte txn.address rfl
  rw [Txn.withAddress_self] at hs
  refine ⟨h12,?_,w.aligned_iff.mp ha,fun x hx => ?_,fun x hx => ?_⟩
  · rw [hs]
    rfl
  · have hst : (tbuTranslate topologyId (txn.withAddress x) s).1.stallableFault = false := by
      rw [hte x hx]
      rfl
    have hok' : refuses (tbuTranslate topologyId (txn.withAddress x) s).1.perm (txn.withAddress x).command = false := by
      rw [hte x hx]
      exact hok
    have hat' : (txn.withAddress x).ats = none := hat
    rw [bTransport_plain hat' hst hok',hte x hx]
    refine ⟨_,_,congrArg (fun a => TransportOutcome.forwarded a _ _) ?_⟩
    apply eq_of_getLsbD_eq
    intro i hi
    simp [busAddress,leafEntry,PtwLeaf.withPa,Txn.withAddress]
    grind
  · rw [hs,hte x hx]
    exact IOMMUAccessFlags.le_refl _

end

def sampleRegion : TlmDmi := ⟨0x5000,0x5FFF,0,.rw⟩


end Qbox.Smmuv3
