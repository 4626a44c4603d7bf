import Qbox.PageAccess
import Qbox.Smmu500Tbu
import Qbox.Smmuv3Config
import Qbox.Smmuv3Dmi

/-! The bytes of a transaction behind the front ends `smmuv3_tbu` and `smmu500_tbu`. Both translate the first address
and send the transaction on as a whole; its length is not looked at. -/
namespace Qbox
open MachineWord DmaSocket PageAccess

namespace Smmuv3
variable {M : Type} [DmaSocket M]

section
lemma walkedLeaf_shift {pamax : ℕ} {ctx : PtwCtx} {bus bus' : M} {w : WalkedLeaf}
    (h : walkedLeaf pamax ctx bus = (some w,bus')) {iova' : U64} (ha : AgreeAbove 12 ctx.iova iova') :
    walkedLeaf pamax (ctx.withIova iova') bus = (some (w.withPa (w.leaf.pa+(iova'-ctx.iova))),bus') ∧
      AgreeAbove 12 w.leaf.pa (w.leaf.pa+(iova'-ctx.iova)) := by
  obtain ⟨h12,hpa,hp⟩ := walkedLeaf_page h
  have hb : w.base &&& lowMask 12 = 0 := Smmu500.outputBase_aligned w.granule w.leaf.descriptor
  have hs := or_and_lowMask_shift h12 hb ha
  rw [← hpa] at hs
  refine ⟨?_,?_⟩
  · rw [hp iova' (ha.mono h12),hs]
  · rw [← hs,hpa]
    exact ha.or_and w.base (lowMask w.leaf.pageSize)

lemma walkLeaves_shift {pamax : ℕ} {t : Tables} {iova iova' : U64} {access : IOMMUAccessFlags} {bus bus' : M}
    {w : Walked} (h : walkLeaves pamax t iova access bus = (some w,bus')) (ha : AgreeAbove 12 iova iova') :
    ∃ w', walkLeaves pamax t iova' access bus = (some w',bus') ∧
      w'.last.leaf = w.last.leaf.withPa (w.last.leaf.pa+(iova'-iova)) := by
  have hf : AgreeAbove 12 (t.firstCtx iova access).iova iova' := by rwa [t.firstCtx_iova]
  rcases walkLeaves_eq_some.mp h with ⟨hn,-,hw⟩ | ⟨hn,w1,bus1,-,hw1,hw2⟩
  · have hs := (walkedLeaf_shift hw hf).1
    rw [t.firstCtx_withIova,t.firstCtx_iova] at hs
    exact ⟨⟨w.last.withPa _,none⟩,walkLeaves_eq_some.mpr (.inl ⟨hn,rfl,hs⟩),rfl⟩
  · obtain ⟨hs1,hag⟩ := walkedLeaf_shift hw1 hf
    rw [t.firstCtx_withIova,t.firstCtx_iova] at hs1
    rw [t.firstCtx_iova] at hag
    have hs2 := (walkedLeaf_shift hw2 hag).1
    have hst : w1.leaf.pa+(iova'-iova)-w1.leaf.pa = iova'-iova := add_sub_cancel_left _ _
    refine ⟨⟨w.last.withPa _,some (w1.withPa _)⟩,walkLeaves_eq_some.mpr (.inr ⟨hn,_,bus1,rfl,hs1,hs2⟩),?_⟩
    exact congrArg (fun d => w.last.leaf.withPa (w.last.leaf.pa+d)) hst

lemma freshWalk_shift {txn : Txn} {sid ssid : U32} {s : Smmuv3 M} {x y : U64} {w : Walked}
    (h : freshWalk (txn.withAddress x) sid ssid s = some w) (ha : AgreeAbove 12 x y) :
    ∃ w', freshWalk (txn.withAddress y) sid ssid s = some w' ∧
      w'.last.leaf = w.last.leaf.withPa (w.last.leaf.pa+(y-x)) := by
  obtain ⟨t,st,bus,hr,hw⟩ := freshWalk_eq_some.mp h
  obtain ⟨w',hw',hl⟩ := walkLeaves_shift hw ha
  exact ⟨w',freshWalk_eq_some.mpr ⟨t,st,bus,resolve_tables hr _,hw'⟩,hl⟩

end

section
variable {txn : Txn} {sid ssid : U32} {isSecure : Bool} {s : Smmuv3 M}

lemma resolve_bypass (h : (resolve txn sid ssid s.streams).1 = .answer (bypassEntry txn.address)) (txn' : Txn) :
    (resolve txn' sid ssid s.streams).1 = .answer (bypassEntry txn'.address) := by
  rw [resolve_fst] at h ⊢
  simp only [resolvedBy] at h ⊢
  cases hen : s.streams.core.regs.smmuen with
  | false => rfl
  | true =>
    simp only [hen,Bool.not_true,Bool.false_eq_true,if_false] at h ⊢
    generalize used sid ssid s.streams = u at h ⊢
    obtain ⟨_ | ste,cd⟩ := u
    · cases hg : s.streams.core.regs.gbpaAbort with
      | false => rfl
      | true =>
        rw [hg] at h
        cases h
    · by_cases hs : 0 < ste.s1cdmax ∧ 1#32 <<< ste.s1cdmax.toNat ≤ ssid
      · simp only [if_pos hs] at h
        cases h
      · simp only [if_neg hs] at h ⊢
        have hlt := ste.config.isLt
        generalize ste.config.toNat = config at h hlt ⊢
        -- only the configuration 4 bypasses
        interval_cases config
        · cases h
        · cases h
        · cases h
        · cases h
        · rfl
        · cases cd <;> cases h
        · cases h
        · cases cd <;> cases h

lemma freshTranslate_answer {e : IOMMUTLBEntry} (h : (resolve txn sid ssid s.streams).1 = .answer e) :
    freshTranslate txn sid ssid isSecure s = e := by
  rcases hr : resolve txn sid ssid s.streams with ⟨r,st⟩
  rw [hr] at h
  cases h
  have hr' : resolve txn sid ssid s.flushed.streams = (.answer e,st) := hr
  rw [freshTranslate,smmuv3Translate,hr']

/-- A translation that the IOTLB does not answer grants something only as a bypass or by a walk. -/
lemma smmuv3Translate_granted (hm : cachedEntry txn sid ssid isSecure s = none)
    (hp : (smmuv3Translate txn sid ssid isSecure s).1.perm ≠ .none) :
    ((resolve txn sid ssid s.streams).1 = .answer (bypassEntry txn.address) ∧
      (smmuv3Translate txn sid ssid isSecure s).1 = bypassEntry txn.address) ∨
    ∃ w, freshWalk txn sid ssid s = some w ∧
      (smmuv3Translate txn sid ssid isSecure s).1 = leafEntry txn.address w.last.leaf := by
  generalize hr : smmuv3Translate txn sid ssid isSecure s = r at hp ⊢
  have hc := smmuv3Translate_cases txn sid ssid isSecure s
  rw [hr] at hc
  cases hc with
  | answer hre =>
    rcases resolve_answer hre with rfl | hn
    · exact .inl ⟨by rw [hre],rfl⟩
    · exact absurd hn hp
  | hit hre hf => cases hm.symm.trans ((cachedEntry_of_tables hre isSecure).trans hf)
  | fault hre hf hw hn => exact absurd hn hp
  | fill hre hf hw => exact .inr ⟨_,freshWalk_eq_some.mpr ⟨_,_,_,hre,hw⟩,rfl⟩

lemma freshTranslate_granted (hp : (freshTranslate txn sid ssid isSecure s).perm ≠ .none) :
    ((resolve txn sid ssid s.streams).1 = .answer (bypassEntry txn.address) ∧
      freshTranslate txn sid ssid isSecure s = bypassEntry txn.address) ∨
    ∃ w, freshWalk txn sid ssid s = some w ∧ freshTranslate txn sid ssid isSecure s = leafEntry txn.address w.last.leaf :=
  smmuv3Translate_granted (cachedEntry_of_empty rfl txn sid ssid isSecure) hp

end

variable (topologyId : U32)

/-- The physical address that one byte is translated to by the tables, with the rights for the command. -/
def reached (txn : Txn) (s : Smmuv3 M) (iova : U64) : Option U64 :=
  let te := freshTranslate (txn.withAddress iova) topologyId (extractSubstreamId txn) (extractSecure txn) s
  if refuses te.perm txn.command then none else some te.translatedAddr

def BytesTranslated (txn : Txn) (len : ℕ) (s : Smmuv3 M) : Prop :=
  ∀ addr desc attrs, (bTransport topologyId txn s).1 = .forwarded addr desc attrs →
    EveryByte (reached topologyId txn s) txn.address addr len

/-- A transaction that is sent on goes where the tables have it, at its first byte and that of every further page. -/
def PagesTranslated (txn : Txn) (len : ℕ) (s : Smmuv3 M) : Prop :=
  ∀ addr desc attrs, (bTransport topologyId txn s).1 = .forwarded addr desc attrs →
    (0 < len → cachedEntry txn topologyId (extractSubstreamId txn) (extractSecure txn) s ≠ none →
      reached topologyId txn s txn.address = some addr) ∧
    EntersPages 12 (reached topologyId txn s) txn.address addr len

section
variable {topologyId : U32} {txn : Txn} {s : Smmuv3 M}

lemma reached_eq_some {iova pa : U64} : reached topologyId txn s iova = some pa ↔
    refuses (freshTranslate (txn.withAddress iova) topologyId (extractSubstreamId txn) (extractSecure txn) s).perm
        txn.command = false ∧
      (freshTranslate (txn.withAddress iova) topologyId (extractSubstreamId txn) (extractSecure txn) s).translatedAddr =
        pa := by
  rw [reached]
  split_ifs with h
  · simp [h]
  · simp [h]

lemma reached_bypass {iova : U64}
    (h : (resolve (txn.withAddress iova) topologyId (extractSubstreamId txn) s.streams).1 = .answer (bypassEntry iova)) :
    reached topologyId txn s iova = some iova := by
  rw [reached_eq_some,freshTranslate_answer h]
  exact ⟨by cases txn.command <;> rfl,rfl⟩

lemma reached_walk {iova : U64} {w : Walked}
    (h : freshWalk (txn.withAddress iova) topologyId (extractSubstreamId txn) s = some w)
    (hok : refuses w.last.leaf.prot txn.command = false) : reached topologyId txn s iova = some w.last.leaf.pa := by
  rw [reached_eq_some,freshTranslate_of_freshWalk h]
  exact ⟨hok,rfl⟩

lemma reached_pageMap : PageMap 12 (reached topologyId txn s) := by
  intro x y pa ha hx
  obtain ⟨hok,rfl⟩ := reached_eq_some.mp hx
  rcases freshTranslate_granted (perm_ne_none_of_taken hok) with ⟨hr,he⟩ | ⟨w,hw,he⟩
  · rw [he,reached_bypass (resolve_bypass hr (txn.withAddress y))]
    exact congrArg some (add_sub_cancel x y).symm
  · obtain ⟨w',hw',hl⟩ := freshWalk_shift hw ha
    rw [he] at hok ⊢
    rw [reached_walk hw' (by rw [hl]; exact hok),hl]
    rfl

lemma busAddress_walk {sid ssid : U32} {w : Walked} (h : freshWalk txn sid ssid s = some w) :
    busAddress (leafEntry txn.address w.last.leaf) txn.address = w.last.leaf.pa := by
  obtain ⟨t,st,bus,-,hw⟩ := freshWalk_eq_some.mp h
  refine BitVec.eq_of_getLsbD_eq fun i hi => ?_
  have ho := walkLeaves_offset hw (i := i)
  simp [busAddress,leafEntry,hi]
  grind

lemma first_byte_reached (hm : cachedEntry txn topologyId (extractSubstreamId txn) (extractSecure txn) s = none)
    {addr desc : U64} {attrs : U32} (h : (bTransport topologyId txn s).1 = .forwarded addr desc attrs) :
    reached topologyId txn s txn.address = some addr := by
  obtain ⟨hok,rfl⟩ := bTransport_forwarded h
  rcases smmuv3Translate_granted hm (perm_ne_none_of_taken hok) with ⟨hr,he⟩ | ⟨w,hw,he⟩
  · rw [tbuTranslate,he,reached_bypass hr]
    exact congrArg some (or_self_and txn.address (lowMask 12)).symm
  · rw [tbuTranslate,he] at hok ⊢
    rw [reached_walk hw hok,busAddress_walk hw]

lemma bytesTranslated_iff (topologyId : U32) (txn : Txn) (len : ℕ) (s : Smmuv3 M) :
    BytesTranslated topologyId txn len s ↔ PagesTranslated topologyId txn len s := by
  refine forall_congr' fun addr => forall_congr' fun desc => forall_congr' fun attrs => forall_congr' fun h => ?_
  rw [reached_pageMap.everyByte_iff]
  refine and_congr_left fun _ => forall_congr' fun _ => ⟨fun hf _ => hf,fun hf => ?_⟩
  by_cases hm : cachedEntry txn topologyId (extractSubstreamId txn) (extractSecure txn) s = none
  · exact first_byte_reached hm h
  · exact hf hm

end

end Smmuv3

namespace Smmu500
variable {M : Type} [DmaSocket M] {cmd : TlmCommand} {t : Tbu} {s : Smmu500 M}

def reached (cmd : TlmCommand) (t : Tbu) (s : Smmu500 M) (addr : U64) : Option U64 := do
  let (te,_) ← smmu500Translate addr cmd t.sid s
  if refuses te.perm cmd then none else some (te.translatedAddr ||| (addr &&& pagemask))

/-- The bytes of a transaction of the given length that is sent on are where the tables have them. -/
def BytesTranslated (addr : U64) (cmd : TlmCommand) (len : ℕ) (t : Tbu) (s : Smmu500 M) : Prop :=
  ∀ pa s', t.bTransport addr cmd s = some (.forwarded pa,s') → EveryByte (reached cmd t s) addr pa len

def PagesTranslated (addr : U64) (cmd : TlmCommand) (len : ℕ) (t : Tbu) (s : Smmu500 M) : Prop :=
  ∀ pa s', t.bTransport addr cmd s = some (.forwarded pa,s') → EntersPages 12 (reached cmd t s) addr pa len

lemma reached_eq_some {addr pa : U64} : reached cmd t s addr = some pa ↔
    ∃ te s', smmu500Translate addr cmd t.sid s = some (te,s') ∧ refuses te.perm cmd = false ∧
      te.translatedAddr ||| (addr &&& pagemask) = pa := by
  rw [reached]
  cases smmu500Translate addr cmd t.sid s with
  | none => simp
  | some r =>
    obtain ⟨te,s'⟩ := r
    cases h : refuses te.perm cmd <;> simp [h]

lemma reached_pageMap : PageMap 12 (reached cmd t s) := by
  intro x y pa ha hx
  obtain ⟨te,s',hte,hok,rfl⟩ := reached_eq_some.mp hx
  have hp := agreeAbove_iff.mp ha
  cases smmu500Translate_cases hte with
  | bypass hby =>
    have hs : y >>> 32 = x >>> 32 := by
      refine BitVec.eq_of_getLsbD_eq fun i hi => ?_
      simpa using (ha (32+i) (by omega)).symm
    have hby' := (bypasses_congr hs t.sid s).trans hby
    refine reached_eq_some.mpr ⟨_,_,smmu500Translate_bypass hby' cmd,hok,?_⟩
    rw [or_self_and,or_self_and,add_sub_cancel]
  | fault hby => cases hok
  | page hby hal =>
    rw [← smmu500Translate_congr hby hp.symm] at hte
    exact reached_eq_some.mpr ⟨_,_,hte,hok,or_and_lowMask_shift (le_refl 12) hal ha⟩

lemma bytesTranslated_iff (addr : U64) (cmd : TlmCommand) (len : ℕ) (t : Tbu) (s : Smmu500 M) :
    BytesTranslated addr cmd len t s ↔ PagesTranslated addr cmd len t s := by
  refine forall_congr' fun pa => forall_congr' fun s' => forall_congr' fun h => ?_
  rw [reached_pageMap.everyByte_iff]
  obtain ⟨te,hte,hok,hpa⟩ := Tbu.bTransport_eq_forwarded.mp h
  exact and_iff_right fun _ => reached_eq_some.mpr ⟨te,s',hte,hok,hpa⟩

end Smmu500

/-- The bytes sent on are all translated exactly when every page entered is mapped behind the one before, with the
rights, and the IOTLB has not answered with another first address. -/
theorem every_byte_translated_iff {M : Type} [DmaSocket M] (len : ℕ) :
    (∀ (topologyId : U32) (txn : Smmuv3.Txn) (s : Smmuv3 M),
      Smmuv3.BytesTranslated topologyId txn len s ↔ Smmuv3.PagesTranslated topologyId txn len s) ∧
    (∀ (addr : U64) (cmd : TlmCommand) (t : Smmu500.Tbu) (s : Smmu500 M),
      Smmu500.BytesTranslated addr cmd len t s ↔ Smmu500.PagesTranslated addr cmd len t s) :=
  ⟨fun topologyId txn s => Smmuv3.bytesTranslated_iff topologyId txn len s,
    fun addr cmd t s => Smmu500.bytesTranslated_iff addr cmd len t s⟩

/-- A read of 8 bytes at `0x1FFC`, with only `0x1000` mapped, to `0x5000`, goes on to `0x5FFC`. -/
theorem access_crosses_page : let words : List (U64 × U64) := [(0x20000,0x21003),(0x21000,0x22003),(0x22008,0x5443)]
    ((Smmuv3.bTransport 0 (Smmuv3.readTxn 0x1FFC) (Smmuv3.sampleSmmu 5 words)).1 = .forwarded 0x5FFC 0x5443 0 ∧
      Smmuv3.reached 0 (Smmuv3.readTxn 0x1FFC) (Smmuv3.sampleSmmu 5 words) 0x2000 = none ∧
      ¬ Smmuv3.BytesTranslated 0 (Smmuv3.readTxn 0x1FFC) 8 (Smmuv3.sampleSmmu 5 words)) ∧
    ((Smmu500.Tbu.bTransport 0x1FFC .read {} (Smmu500.Tbu.tbuSmmu 0x10000 words)).map Prod.fst =
        some (.forwarded 0x5FFC) ∧
      Smmu500.reached .read {} (Smmu500.Tbu.tbuSmmu 0x10000 words) 0x2000 = none ∧
      ¬ Smmu500.BytesTranslated 0x1FFC .read 8 {} (Smmu500.Tbu.tbuSmmu 0x10000 words)) := by
  intro words
  have hf : (Smmuv3.bTransport 0 (Smmuv3.readTxn 0x1FFC) (Smmuv3.sampleSmmu 5 words)).1 =
      .forwarded 0x5FFC 0x5443 0 := by decide +kernel
  have hn : Smmuv3.reached 0 (Smmuv3.readTxn 0x1FFC) (Smmuv3.sampleSmmu 5 words) 0x2000 = none := by decide +kernel
  have hf' : (Smmu500.Tbu.bTransport 0x1FFC .read {} (Smmu500.Tbu.tbuSmmu 0x10000 words)).map Prod.fst =
      some (.forwarded 0x5FFC) := by decide +kernel
  have hn' : Smmu500.reached .read {} (Smmu500.Tbu.tbuSmmu 0x10000 words) 0x2000 = none := by decide +kernel
  refine ⟨⟨hf,hn,fun h => ?_⟩,hf',hn',fun h => ?_⟩
  · cases hn.symm.trans (h _ _ _ hf 4 (by decide))
  · obtain ⟨⟨_,s'⟩,ho,rfl⟩ := Option.map_eq_some_iff.mp hf'
    cases hn'.symm.trans (h _ _ ho 4 (by decide))

end Qbox
