import Qbox.Smmuv3Reporting
import Qbox.Smmuv3Transparency

/-! The descriptor caches of the SMMUv3: which stream-table entry and which context descriptor a translation
uses, and what the commands of both queues that invalidate them achieve. -/
namespace Qbox.Smmuv3
open MachineWord DmaSocket BitVec Core EvictingMap

variable {M : Type} [DmaSocket M]

section
def fetchSte (sid : U32) (c : Core M) : Option STE × Core M := match locateSte sid c.regs c.bus with
  | (.missing,bus) => (none,{ c with bus := bus })
  | (.aborted,bus) => (none,Core.setGerror gerrorBitSfmErr { c with bus := bus })
  | (.at addr,bus) =>
    match dmaRead addr 64 bus with
    | (none,bus) => (none,Core.setGerror gerrorBitSfmErr { c with bus := bus })
    | (some bytes,bus) =>
      (some (decodeSte (dword bytes 0) (dword bytes 1) (dword bytes 2) (dword bytes 3)),{ c with bus := bus })

def fetchCd (ste : STE) (substreamId : U32) (c : Core M) : Option CD × Core M :=
  match locateCd ste substreamId c.bus with
  | (.missing,bus) => (none,{ c with bus := bus })
  | (.aborted,bus) => (none,Core.setGerror gerrorBitSfmErr { c with bus := bus })
  | (.at addr,bus) =>
    match dmaRead addr 64 bus with
    | (none,bus) => (none,Core.setGerror gerrorBitSfmErr { c with bus := bus })
    | (some bytes,bus) =>
      (some (decodeCd (word bytes 0) (word bytes 1) (word bytes 2) (word bytes 3) (word bytes 4) (word bytes 5)),
        { c with bus := bus })

variable {s : Streams M} {sid ssid : U32} {ste : STE} {c c' : Core M}

lemma findSte_hit {e : STE} (h : s.steCache.find sid = some e) : findSte sid s = ((some e).filter STE.valid,s) := by
  rw [findSte,h]
  rfl

lemma findSte_miss (h : s.steCache.find sid = none) : findSte sid s = ((fetchSte sid s.core).1.filter STE.valid,
      { core := (fetchSte sid s.core).2, cdCache := s.cdCache
        steCache := ((fetchSte sid s.core).1.map (s.steCache.put steCacheMax sid)).getD s.steCache }) := by
  rw [findSte,h,fetchSte]
  rcases locateSte sid s.core.regs s.core.bus with ⟨_ | _ | addr,bus⟩
  · rfl
  · rfl
  · dsimp only
    rcases dmaRead addr 64 bus with ⟨_ | bytes,bus'⟩ <;> rfl

lemma readCd_hit {cd : CD} (h : s.cdCache.find (cdKey sid ssid) = some cd) :
    readCd sid ste ssid s = ((some cd).filter CD.valid,s) := by
  rw [readCd,h]
  rfl

lemma readCd_miss (h : s.cdCache.find (cdKey sid ssid) = none) :
    readCd sid ste ssid s = ((fetchCd ste ssid s.core).1.filter CD.valid,
      { core := (fetchCd ste ssid s.core).2, steCache := s.steCache
        cdCache := ((fetchCd ste ssid s.core).1.map (s.cdCache.put cdCacheMax (cdKey sid ssid))).getD s.cdCache }) := by
  rw [readCd,h,fetchCd]
  rcases locateCd ste ssid s.core.bus with ⟨_ | _ | addr,bus⟩
  · rfl
  · rfl
  · dsimp only
    rcases dmaRead addr 64 bus with ⟨_ | bytes,bus'⟩ <;> rfl

section
variable (hp : PureReads M)
include hp

lemma locateSte_bus (sid : U32) (r : Regs) (bus : M) : (locateSte sid r bus).2 = bus := by
  simp only [locateSte]
  split_ifs
  · rfl
  · rfl
  · rfl
  · split
    · next heq => exact (congrArg Prod.snd heq).symm.trans (hp.dmaRead64 _ bus)
    · next heq => split_ifs <;> exact (congrArg Prod.snd heq).symm.trans (hp.dmaRead64 _ bus)

lemma locateCd_bus (ste : STE) (ssid : U32) (bus : M) : (locateCd ste ssid bus).2 = bus := by
  simp only [locateCd]
  split
  · rfl
  · split
    · next heq => exact (congrArg Prod.snd heq).symm.trans (hp.dmaRead64 _ bus)
    · next heq => split_ifs <;> exact (congrArg Prod.snd heq).symm.trans (hp.dmaRead64 _ bus)

lemma fetchSte_core {e : STE} (h : fetchSte sid c = (some e,c')) : c' = c := by
  have hb := locateSte_bus hp sid c.regs c.bus
  rw [fetchSte] at h
  split at h
  · cases h
  · cases h
  · next addr bus heq =>
    rw [heq] at hb
    split at h
    · cases h
    · next bytes bus' hr =>
      cases h
      obtain rfl : bus = c.bus := hb
      obtain rfl : bus' = c.bus := (congrArg Prod.snd hr).symm.trans (hp _ _ _)
      rfl

lemma fetchCd_core {cd : CD} (h : fetchCd ste ssid c = (some cd,c')) : c' = c := by
  have hb := locateCd_bus hp ste ssid c.bus
  rw [fetchCd] at h
  split at h
  · cases h
  · cases h
  · next addr bus heq =>
    rw [heq] at hb
    split at h
    · cases h
    · next bytes bus' hr =>
      cases h
      obtain rfl : bus = c.bus := hb
      obtain rfl : bus' = c.bus := (congrArg Prod.snd hr).symm.trans (hp _ _ _)
      rfl

end

end

section
/-- A translation for the substream goes through a context descriptor. -/
def STE.readsCd (ste : STE) (substreamId : U32) : Prop :=
  ¬ (0 < ste.s1cdmax ∧ 1#32 <<< ste.s1cdmax.toNat ≤ substreamId) ∧ (ste.config = 5 ∨ ste.config = 7)

instance (ste : STE) (substreamId : U32) : Decidable (ste.readsCd substreamId) := inferInstanceAs (Decidable (_ ∧ _))

/-- The stream-table entry and the context descriptor a translation uses. -/
def used (sid substreamId : U32) (s : Streams M) : Option STE × Option CD := match findSte sid s with
  | (none,_) => (none,none)
  | (some ste,s) => (some ste,if ste.readsCd substreamId then (readCd sid ste substreamId s).1 else none)

/-- The descriptors in memory, as a translation would follow them. -/
def inMemory (sid substreamId : U32) (c : Core M) : Option STE × Option CD :=
  match (fetchSte sid c).1.filter STE.valid with
  | none => (none,none)
  | some ste => (some ste,if ste.readsCd substreamId then (fetchCd ste substreamId c).1.filter CD.valid else none)

def Streams.uncached (s : Streams M) : Streams M := { core := s.core }

def uncached (s : Smmuv3 M) : Smmuv3 M := { s with streams := s.streams.uncached }

/-- The copies of its descriptors that a translation would find are those in memory. -/
structure Current (sid substreamId : U32) (s : Streams M) : Prop where
  ste : ∀ e, s.steCache.find sid = some e → (some e).filter STE.valid = (fetchSte sid s.core).1.filter STE.valid
  cd : ∀ ste, (fetchSte sid s.core).1.filter STE.valid = some ste → ste.readsCd substreamId →
    ∀ cd, s.cdCache.find (cdKey sid substreamId) = some cd →
      (some cd).filter CD.valid = (fetchCd ste substreamId s.core).1.filter CD.valid

variable {s : Streams M} {sid ssid : U32} {ste : STE} {txn : Txn} {t : Tables} {isSecure : Bool}

lemma findSte_state (hp : PureReads M) {s' : Streams M} (h : findSte sid s = (some ste,s')) :
    s'.core = s.core ∧ s'.cdCache = s.cdCache := by
  cases hfi : s.steCache.find sid with
  | some e =>
    rw [findSte_hit hfi] at h
    obtain rfl := (Prod.mk.inj h).2
    exact ⟨rfl,rfl⟩
  | none =>
    rw [findSte_miss hfi] at h
    obtain ⟨hs,rfl⟩ := Prod.mk.inj h
    rcases hf : fetchSte sid s.core with ⟨_ | e,c⟩
    · rw [hf] at hs
      cases hs
    · exact ⟨fetchSte_core hp hf,rfl⟩

lemma findSte_eq_iff : (findSte sid s).1 = (fetchSte sid s.core).1.filter STE.valid ↔
    ∀ e, s.steCache.find sid = some e → (some e).filter STE.valid = (fetchSte sid s.core).1.filter STE.valid := by
  cases hf : s.steCache.find sid with
  | some e => simp [findSte_hit hf]
  | none => simp [findSte_miss hf]

lemma readCd_eq_iff : (readCd sid ste ssid s).1 = (fetchCd ste ssid s.core).1.filter CD.valid ↔
    ∀ cd, s.cdCache.find (cdKey sid ssid) = some cd →
      (some cd).filter CD.valid = (fetchCd ste ssid s.core).1.filter CD.valid := by
  cases hf : s.cdCache.find (cdKey sid ssid) with
  | some cd => simp [readCd_hit hf]
  | none => simp [readCd_miss hf]

/-- A translation uses the descriptors in memory exactly when its copies of them are those. -/
lemma used_eq_iff (hp : PureReads M) : used sid ssid s = inMemory sid ssid s.core ↔ Current sid ssid s := by
  have hs : Current sid ssid s ↔ (findSte sid s).1 = (fetchSte sid s.core).1.filter STE.valid ∧
      ∀ ste, (fetchSte sid s.core).1.filter STE.valid = some ste → ste.readsCd ssid →
        ∀ cd, s.cdCache.find (cdKey sid ssid) = some cd →
          (some cd).filter CD.valid = (fetchCd ste ssid s.core).1.filter CD.valid := by
    rw [findSte_eq_iff]
    exact ⟨fun h => ⟨h.ste,h.cd⟩,fun h => ⟨h.1,h.2⟩⟩
  rw [hs,used,inMemory]
  generalize (fetchSte sid s.core).1.filter STE.valid = m
  rcases hst : findSte sid s with ⟨_ | ste,s'⟩
  · cases m <;> simp
  · obtain ⟨hc,hcd⟩ := findSte_state hp hst
    cases m with
    | none => simp
    | some ste' =>
      simp only [Prod.mk.injEq,Option.some.injEq,forall_eq']
      refine and_congr_right fun heq => ?_
      subst heq
      split_ifs with hr
      · rw [← hc,readCd_eq_iff,hcd]
        exact ⟨fun h _ => h,fun h => h hr⟩
      · simp [hr]

lemma uncached_current (s : Streams M) (sid ssid : U32) : Current sid ssid s.uncached where
  ste e he := by cases he.symm.trans (find_empty sid)
  cd ste _ _ cd hcd := by cases hcd.symm.trans (find_empty _)

/-- What a translation is answered before any walk, by the descriptors it uses. -/
def resolvedBy (txn : Txn) (ssid : U32) (r : Regs) (u : Option STE × Option CD) : Resolved :=
  let fault type : Resolved := .answer (faultEntry txn.address type)
  let bypass : Resolved := .answer (bypassEntry txn.address)
  if !r.smmuen then bypass
  else match u with
    | (none,_) => if r.gbpaAbort then fault evtFSteFetch else bypass
    | (some ste,cd) =>
      if 0 < ste.s1cdmax ∧ 1#32 <<< ste.s1cdmax.toNat ≤ ssid then fault evtCBadSubstreamid
      else match ste.config.toNat with
        | 4 => bypass
        | 5 => cd.elim (fault evtFCdFetch) fun cd => .tables ⟨.s1,ste,cd⟩
        | 6 => .tables ⟨.s2,ste,{}⟩
        | 7 => cd.elim (fault evtFCdFetch) fun cd => .tables ⟨.nested,ste,cd⟩
        | _ => fault evtCBadSte

lemma findSte_gbpaAbort (sid : U32) (s : Streams M) :
    (findSte sid s).2.core.regs.gbpaAbort = s.core.regs.gbpaAbort := by
  have hg : ∀ c : Core M, (Core.setGerror gerrorBitSfmErr c).regs.gbpaAbort = c.regs.gbpaAbort := fun c => by
    rw [(setGerror_signals (by decide) c).1.regs]
    rfl
  rw [findSte]
  split
  · rfl
  · split
    · rfl
    · exact hg _
    · split
      · exact hg _
      · rfl

lemma STE.readsCd_of_config (hs : ¬ (0 < ste.s1cdmax ∧ 1#32 <<< ste.s1cdmax.toNat ≤ ssid))
    (h : ste.config.toNat = 5 ∨ ste.config.toNat = 7) : ste.readsCd ssid :=
  ⟨hs,h.imp (fun h => eq_of_toNat_eq h) (fun h => eq_of_toNat_eq h)⟩

lemma resolve_fst (txn : Txn) (sid ssid : U32) (s : Streams M) :
    (resolve txn sid ssid s).1 = resolvedBy txn ssid s.core.regs (used sid ssid s) := by
  have hg := findSte_gbpaAbort sid s
  simp only [resolve,resolvedBy,used]
  cases hen : s.core.regs.smmuen with
  | false => rfl
  | true =>
    rcases hst : findSte sid s with ⟨_ | ste,s'⟩
    · rw [hst] at hg
      dsimp only at hg ⊢
      rw [hg]
      cases s.core.regs.gbpaAbort <;> rfl
    · by_cases hs : 0 < ste.s1cdmax ∧ 1#32 <<< ste.s1cdmax.toNat ≤ ssid
      · simp only [if_pos hs]
        rfl
      · simp only [if_neg hs]
        have hr := STE.readsCd_of_config hs
        have hlt := ste.config.isLt
        generalize ste.config.toNat = config at hr hlt ⊢
        interval_cases config
        · rfl
        · rfl
        · rfl
        · rfl
        · rfl
        · rw [if_pos (hr (.inl rfl))]
          rcases readCd sid ste ssid s' with ⟨_ | cd,s2⟩ <;> rfl
        · rfl
        · rw [if_pos (hr (.inr rfl))]
          rcases readCd sid ste ssid s' with ⟨_ | cd,s2⟩ <;> rfl

lemma readCd_state (hp : PureReads M) {cd : CD} {s' : Streams M}
    (h : readCd sid ste ssid s = (some cd,s')) : s'.core = s.core := by
  cases hfi : s.cdCache.find (cdKey sid ssid) with
  | some e =>
    rw [readCd_hit hfi] at h
    rw [(Prod.mk.inj h).2]
  | none =>
    rw [readCd_miss hfi] at h
    obtain ⟨hcd,rfl⟩ := Prod.mk.inj h
    rcases hf : fetchCd ste ssid s.core with ⟨_ | e,c⟩
    · rw [hf] at hcd
      cases hcd
    · exact fetchCd_core hp hf

lemma resolve_tables_core (hp : PureReads M) {s' : Streams M}
    (h : resolve txn sid ssid s = (.tables t,s')) : s'.core = s.core := by
  simp only [resolve,reject] at h
  split_ifs at h
  · cases h
  · rcases hs : findSte sid s with ⟨_ | ste,s1⟩
    · simp only [hs] at h
      split_ifs at h <;> cases h
    · have hc := (findSte_state hp hs).1
      simp only [hs] at h
      split_ifs at h
      · cases h
      · split at h
        · cases h
        · split at h
          · cases h
          · next hcd =>
            cases h
            exact (readCd_state hp hcd).trans hc
        · cases h
          exact hc
        · split at h
          · cases h
          · next hcd =>
            cases h
            exact (readCd_state hp hcd).trans hc
        · cases h

lemma walkAndCache_fst_congr {s s' : Smmuv3 M} (hp : s'.pamax = s.pamax) (hb : s'.bus = s.bus) :
    (walkAndCache txn sid ssid isSecure t s').1 = (walkAndCache txn sid ssid isSecure t s).1 := by
  rw [walkAndCache,walkAndCache,hp,hb]
  dsimp only
  split_ifs
  · simp only [faultAnswer]
    split_ifs <;> rfl
  · rfl

/-- The answer of a translation is given by what the descriptors resolve to, the IOTLB and the memory. -/
lemma smmuv3Translate_fst_congr {s s' : Smmuv3 M} {r : Resolved} {st st' : Streams M}
    (hr : resolve txn sid ssid s.streams = (r,st)) (hr' : resolve txn sid ssid s'.streams = (r,st'))
    (hco : ∀ t, r = .tables t → st'.core = st.core) (hp : s'.pamax = s.pamax) (hi : s'.iotlb = s.iotlb) :
    (smmuv3Translate txn sid ssid isSecure s').1 = (smmuv3Translate txn sid ssid isSecure s).1 := by
  rw [smmuv3Translate,smmuv3Translate,hr,hr']
  cases r with
  | answer e => rfl
  | tables t =>
    have hc := hco t rfl
    simp only [iotlbLookup,regs,hi,hc]
    cases s.iotlb.find (lookupKey (tagsOf t isSecure st.core.regs.e2h) txn.address) with
    | some e => rfl
    | none => exact walkAndCache_fst_congr hp (congrArg Core.bus hc)

/-- A translation whose copies are those in memory is answered as with empty caches. -/
lemma Current.translate_eq (hp : PureReads M) {s : Smmuv3 M} (h : Current sid ssid s.streams) (txn : Txn)
    (isSecure : Bool) :
    (smmuv3Translate txn sid ssid isSecure s).1 = (smmuv3Translate txn sid ssid isSecure s.uncached).1 := by
  have hu := ((used_eq_iff hp).mpr h).trans ((used_eq_iff hp).mpr (uncached_current s.streams sid ssid)).symm
  have hf : (resolve txn sid ssid s.streams.uncached).1 = (resolve txn sid ssid s.streams).1 := by
    rw [resolve_fst,resolve_fst,hu]
    rfl
  rcases hr : resolve txn sid ssid s.streams with ⟨r,st⟩
  rcases hr' : resolve txn sid ssid s.streams.uncached with ⟨r',st'⟩
  rw [hr,hr'] at hf
  obtain rfl : r' = r := hf
  have hc : ∀ t, r' = .tables t → st'.core = st.core := fun t ht => by
    subst ht
    exact (resolve_tables_core hp hr').trans (resolve_tables_core hp hr).symm
  have heq : (smmuv3Translate txn sid ssid isSecure s.uncached).1 = (smmuv3Translate txn sid ssid isSecure s).1 :=
    smmuv3Translate_fst_congr hr hr' hc rfl rfl
  exact heq.symm

end

section
/-- Translations, commands of both queues, changes of registers and memory, and the writes that empty caches. -/
inductive ConfigAction (M : Type) where
  | translate (a : Access)
  | command (c : Cmd)
  | secureCommand (c : Cmd)
  | software (core : Core M)
  /-- A write of `STRTAB_BASE_CFG`. -/
  | strtabBaseCfg (v : U32)
  /-- A write of `S_INIT` with `INV_ALL`. -/
  | initInvAll

def configStep (s : Smmuv3 M) : ConfigAction M → Smmuv3 M
  | .translate a => translateStep s a
  | .command c => (execCmd c s).getD s
  | .secureCommand c => (execSecureCmd c s).getD s
  | .software core => s.mapCore fun _ => core
  | .strtabBaseCfg v =>
    clearSteCache (s.mapCore fun core => { core with regs := { core.regs with strtabBaseCfg := v } })
  | .initInvAll => clearCdCache (clearSteCache (iotlbInvAll s))

/-- Whatever is cached for the stream was so before or, where that is possible, has been fetched. -/
structure CachesFrom (sid : U32) (new : Prop) (s s' : Streams M) : Prop where
  ste : ∀ e, s'.steCache.find sid = some e → s.steCache.find sid = some e ∨ new ∧ (fetchSte sid s.core).1 = some e
  cd : ∀ ssid cd, s'.cdCache.find (cdKey sid ssid) = some cd → s.cdCache.find (cdKey sid ssid) = some cd ∨
    new ∧ ∃ ste, (findSte sid s).1 = some ste ∧ (fetchCd ste ssid s.core).1 = some cd

lemma cdKey_inj {sid sid' ssid ssid' : U32} (h : cdKey sid ssid = cdKey sid' ssid') : sid = sid' ∧ ssid = ssid' := by
  have hn : ∀ a b : U32, (cdKey a b).toNat = a.toNat*2^32+b.toNat := fun a b => by
    rw [cdKey,toNat_or,toNat_shiftLeft,toNat_setWidth_of_le (by omega),
      toNat_setWidth_of_le (by omega),Nat.mod_eq_of_lt (by rw [Nat.shiftLeft_eq]; omega),
      ← Nat.shiftLeft_add_eq_or_of_lt b.isLt,Nat.shiftLeft_eq]
  have heq := congrArg BitVec.toNat h
  rw [hn,hn] at heq
  constructor <;> refine eq_of_toNat_eq ?_ <;> omega

variable {s s' : Streams M} {sid ssid : U32} {new : Prop}

lemma CachesFrom.of_eq (hs : s'.steCache = s.steCache) (hcd : s'.cdCache = s.cdCache) : CachesFrom sid new s s' where
  ste _ he := .inl (hs ▸ he)
  cd _ _ h := .inl (hcd ▸ h)

lemma findSte_caches (a : U32) (s : Streams M) : CachesFrom sid (a = sid) s (findSte a s).2 := by
  cases hfi : s.steCache.find a with
  | some e =>
    rw [findSte_hit hfi]
    exact .of_eq rfl rfl
  | none =>
    rw [findSte_miss hfi]
    refine ⟨fun e he => ?_,fun ssid cd h => .inl h⟩
    rcases hf : (fetchSte a s.core).1 with _ | e'
    · rw [hf] at he
      exact .inl he
    · rw [hf] at he
      rcases find_put he with ⟨rfl,rfl⟩ | ⟨-,hold⟩
      · exact .inr ⟨rfl,hf⟩
      · exact .inl hold

lemma CachesFrom.mapCore (h : CachesFrom sid new s s') (f : Core M → Core M) : CachesFrom sid new s (s'.mapCore f) :=
  ⟨h.ste,h.cd⟩

section
variable (hp : PureReads M)
include hp

lemma readCd_caches {a : U32} {ste : STE} {s1 : Streams M} (h : findSte a s = (some ste,s1))
    (ssid : U32) : CachesFrom sid (a = sid) s (readCd a ste ssid s1).2 := by
  obtain ⟨hco,hcd⟩ := findSte_state hp h
  have hc : CachesFrom sid (a = sid) s _ := findSte_caches a s
  rw [h] at hc
  cases hfi : s1.cdCache.find (cdKey a ssid) with
  | some cd =>
    rw [readCd_hit hfi]
    exact hc
  | none =>
    rw [readCd_miss hfi,hco,hcd]
    refine ⟨hc.ste,fun ssid' cd hcd' => ?_⟩
    rcases hf : (fetchCd ste ssid s.core).1 with _ | cd'
    · rw [hf] at hcd'
      exact .inl hcd'
    · rw [hf] at hcd'
      rcases find_put hcd' with ⟨hk,rfl⟩ | ⟨-,hold⟩
      · obtain ⟨rfl,rfl⟩ := cdKey_inj hk
        exact .inr ⟨rfl,ste,by rw [h],hf⟩
      · exact .inl hold

lemma resolve_caches (txn : Txn) (a ssid : U32) (s : Streams M) :
    CachesFrom sid (a = sid) s (resolve txn a ssid s).2 :=
  resolve_inv (P := CachesFrom sid (a = sid) s) (.of_eq rfl rfl) (findSte_caches a s)
    (fun hf => readCd_caches hp hf ssid) (fun _ _ h => h.mapCore _)

omit hp in
lemma smmuv3Translate_caches (txn : Txn) (sid ssid : U32) (isSecure : Bool) (s : Smmuv3 M) :
    (smmuv3Translate txn sid ssid isSecure s).2.streams.steCache = (resolve txn sid ssid s.streams).2.steCache ∧
      (smmuv3Translate txn sid ssid isSecure s).2.streams.cdCache = (resolve txn sid ssid s.streams).2.cdCache := by
  rw [smmuv3Translate]
  rcases resolve txn sid ssid s.streams with ⟨e | t,st⟩
  · exact ⟨rfl,rfl⟩
  · dsimp only
    split
    · exact ⟨rfl,rfl⟩
    · simp only [walkAndCache]
      split_ifs
      · simp only [faultAnswer]
        split_ifs <;> exact ⟨rfl,rfl⟩
      · exact ⟨rfl,rfl⟩

lemma translateStep_caches (s : Smmuv3 M) (a : Access) :
    CachesFrom sid (a.sid = sid) s.streams (translateStep s a).streams := by
  obtain ⟨hs,hcd⟩ := smmuv3Translate_caches a.txn a.sid a.ssid a.isSecure s
  have hr : CachesFrom sid (a.sid = sid) s.streams _ := resolve_caches hp a.txn a.sid a.ssid s.streams
  exact ⟨fun e he => hr.ste e (hs ▸ he),fun ssid cd h => hr.cd ssid cd (hcd ▸ h)⟩

omit hp in
lemma handleOp_caches (op : CmdOp) (c : Cmd) (s : Smmuv3 M) :
    CachesFrom sid new s.streams (handleOp op c s).streams := by
  have hem : ∀ {V : Type} {v : V} {P : Prop} (k : U32), (EvictingMap.empty : EvictingMap U32 V).find k = some v → P :=
    fun k h => by cases h.symm.trans (find_empty k)
  have he64 : ∀ {V : Type} {v : V} {P : Prop} (k : U64), (EvictingMap.empty : EvictingMap U64 V).find k = some v → P :=
    fun k h => by cases h.symm.trans (find_empty k)
  cases op with
  | cfgiSte =>
    refine ⟨fun e he => .inl ?_,fun _ _ h => .inl h⟩
    have he : (s.streams.steCache.remove c.sid).find sid = some e := he
    rw [find_remove] at he
    split_ifs at he
    exact he
  | cfgiSteRange => exact ⟨fun e he => hem _ he,fun _ _ h => .inl h⟩
  | cfgiCd | cfgiCdAll => exact ⟨fun _ h => .inl h,fun _ _ h => he64 _ h⟩
  | cfgiAll => exact ⟨fun e he => hem _ he,fun _ _ h => he64 _ h⟩
  | sync =>
    show CachesFrom sid new s.streams (handleCmdSync c s).streams
    rw [handleCmdSync]
    split_ifs <;> exact .of_eq rfl rfl
  | resume =>
    show CachesFrom sid new s.streams (handleCmdResume c s).streams
    rw [handleCmdResume]
    split <;> exact .of_eq rfl rfl
  | _ => exact .of_eq rfl rfl

omit hp in
lemma execSecureCmd_caches {c : Cmd} {s s' : Smmuv3 M} (h : execSecureCmd c s = some s') :
    s'.streams.steCache = s.streams.steCache ∧ s'.streams.cdCache = s.streams.cdCache := by
  obtain ⟨op,-,h⟩ := Option.bind_eq_some_iff.mp h
  cases op <;> cases h
  case sync => split_ifs <;> exact ⟨rfl,rfl⟩
  all_goals exact ⟨rfl,rfl⟩

def ConfigAction.Translates (sid : U32) (a : ConfigAction M) : Prop := ∃ access, a = .translate access ∧ access.sid = sid

lemma configStep_caches (s : Smmuv3 M) (a : ConfigAction M) :
    CachesFrom sid (a.Translates sid) s.streams (configStep s a).streams := by
  cases a with
  | translate access =>
    have h : CachesFrom sid (access.sid = sid) s.streams _ := translateStep_caches hp s access
    exact ⟨fun e he => (h.ste e he).imp_right (And.imp_left fun hs => ⟨access,rfl,hs⟩),
      fun ssid cd hcd => (h.cd ssid cd hcd).imp_right (And.imp_left fun hs => ⟨access,rfl,hs⟩)⟩
  | command c =>
    rw [configStep,execCmd]
    cases decodeOp c.opcode with
    | none => exact .of_eq rfl rfl
    | some op => exact handleOp_caches op c s
  | secureCommand c =>
    rw [configStep]
    cases h : execSecureCmd c s with
    | none => exact .of_eq rfl rfl
    | some s' =>
      obtain ⟨hst,hcd⟩ := execSecureCmd_caches h
      exact .of_eq hst hcd
  | software core => exact .of_eq rfl rfl
  | strtabBaseCfg v =>
    exact (handleOp_caches .cfgiSteRange [] s).mapCore
      fun core => { core with regs := { core.regs with strtabBaseCfg := v } }
  | initInvAll => exact handleOp_caches .cfgiAll [] s

/-- Translations of the stream are answered as with empty descriptor caches. -/
structure Fresh (sid ssid : U32) (s : Smmuv3 M) : Prop where
  used : used sid ssid s.streams = inMemory sid ssid s.streams.core
  answer : ∀ txn isSecure,
    (smmuv3Translate txn sid ssid isSecure s).1 = (smmuv3Translate txn sid ssid isSecure s.uncached).1

lemma fresh_iff {s : Smmuv3 M} : Fresh sid ssid s ↔ Current sid ssid s.streams :=
  ⟨fun h => (used_eq_iff hp).mp h.used,fun h => ⟨(used_eq_iff hp).mpr h,h.translate_eq hp⟩⟩

/-- Copies cached in both states are those in memory in the second one. -/
structure CopiesCurrent (sid ssid : U32) (s s' : Streams M) : Prop where
  ste : ∀ e, s.steCache.find sid = some e → s'.steCache.find sid = some e →
    (some e).filter STE.valid = (fetchSte sid s'.core).1.filter STE.valid
  cd : ∀ ste, (fetchSte sid s'.core).1.filter STE.valid = some ste → ste.readsCd ssid →
    ∀ cd, s.cdCache.find (cdKey sid ssid) = some cd → s'.cdCache.find (cdKey sid ssid) = some cd →
      (some cd).filter CD.valid = (fetchCd ste ssid s'.core).1.filter CD.valid

/-- Without a translation of the stream nothing new is cached for it. -/
lemma run_caches {s s' : Smmuv3 M}
    (h : GuardedRun configStep (fun _ a => ¬ a.Translates sid) s s') : CachesFrom sid False s.streams s'.streams := by
  induction h with
  | refl => exact .of_eq rfl rfl
  | @tail t a _ hg ih =>
    have hs : CachesFrom sid (a.Translates sid) t.streams _ := configStep_caches hp t a
    exact ⟨fun e he => ih.ste e ((hs.ste e he).resolve_right fun hn => hg hn.1),
      fun ssid cd hcd => ih.cd ssid cd ((hs.cd ssid cd hcd).resolve_right fun hn => hg hn.1)⟩

end

/-- After a command of the secure queue the next translation is fresh exactly when every copy of its descriptors still
cached is the one in memory. -/
theorem secure_cfgi_takes_effect_iff (hpure : PureReads M) {s s1 s2 : Smmuv3 M} {c : Cmd}
    (h : execSecureCmd c s = some s1) (hrun : GuardedRun configStep (fun _ a => ¬ a.Translates sid) s1 s2) :
    Fresh sid ssid s2 ↔ CopiesCurrent sid ssid s.streams s2.streams := by
  obtain ⟨hs,hcd⟩ := execSecureCmd_caches h
  have hca := run_caches hpure hrun
  rw [fresh_iff hpure]
  constructor
  · intro hc
    exact ⟨fun e _ he => hc.ste e he,fun ste hv hr cd _ hcd' => hc.cd ste hv hr cd hcd'⟩
  · intro hc
    refine ⟨fun e he => hc.ste e ?_ he,fun ste hv hr cd hcd' => hc.cd ste hv hr cd ?_ hcd'⟩
    · rw [← hs]
      exact (hca.ste e he).resolve_right fun hn => hn.1
    · rw [← hcd]
      exact (hca.cd ssid cd hcd').resolve_right fun hn => hn.1

/-- The tables of `sampleSmmu 5` for one page, and those behind another context descriptor at `0x4000`. -/
def samplePages : List (U64 × U64) :=
  [(0x20000,0x21003),(0x21000,0x22003),(0x22008,0x5443),(0x4000,0x0001000580000019),(0x4008,0x30000),
    (0x30000,0x31003),(0x31000,0x32003),(0x32008,0x7443)]

/-- The stream of `sampleSmmu 5` after one translation. -/
def translatedSample (isSecure : Bool) : Smmuv3 Ram :=
  translateStep (sampleSmmu 5 samplePages) ⟨readTxn 0x1000,0,0,isSecure⟩

/-- Software writes words over those in memory, and two commands into a queue at `0x8000`. -/
def rewrite (words : List (U64 × U64)) (s : Smmuv3 Ram) : Smmuv3 Ram := s.mapCore fun c => { c with
    bus := ⟨words ++ c.bus.words,c.bus.written⟩
    regs := { c.regs with cmdqBaseLo := 0x8001, cmdqProd := 2, sCmdqBaseLo := 0x8001, sCmdqProd := 2 } }

/-- A secure translation after `CFGI_ALL` on the secure queue, with the descriptors as they were cached. -/
theorem secure_cfgi_takes_effect_unchanged : Fresh 0 0 (translatedSample true) := by
  have hex : execSecureCmd [7,0,0,0,0,0,0,0,0,0,0,0,0,0,0,0] (translatedSample true) = some (translatedSample true) := rfl
  refine (secure_cfgi_takes_effect_iff Ram.pureReads hex .refl).mpr ⟨fun e he _ => ?_,fun ste hs _ cd hcd _ => ?_⟩
  · have hc : (translatedSample true).streams.steCache.find 0 = (fetchSte 0 (translatedSample true).streams.core).1 := by
      decide +kernel
    rw [← hc,he]
  · have hc : (translatedSample true).streams.cdCache.find (cdKey 0 0) =
        (fetchCd (decodeSte 0x300B 0 0x0005005900000000 0x10000) 0 (translatedSample true).streams.core).1 := by
      decide +kernel
    have hm : (fetchSte 0 (translatedSample true).streams.core).1.filter STE.valid =
        some (decodeSte 0x300B 0 0x0005005900000000 0x10000) := by
      decide +kernel
    obtain rfl := Option.some.inj (hm.symm.trans hs)
    rw [← hc,hcd]

/-- A translated stream is set to bypass, and `CFGI_ALL` and a TLB invalidation come by the secure queue: the next
secure translation follows the old descriptors. -/
theorem secure_cfgi_ignored :
    let s := consumeSecureCmdq (rewrite [(0x1000,0x3009),(0x8000,0x07),(0x8010,0x30)] (translatedSample true))
    s.regs.sCmdqCons = 2 ∧ (smmuv3Translate (readTxn 0x1000) 0 0 true s).1.translatedAddr = 0x5000 ∧
      (smmuv3Translate (readTxn 0x1000) 0 0 true s.uncached).1 = bypassEntry 0x1000 ∧ ¬ Fresh 0 0 s := by
  intro s
  have hc : (smmuv3Translate (readTxn 0x1000) 0 0 true s).1.translatedAddr = 0x5000 := by decide +kernel
  have hf : (smmuv3Translate (readTxn 0x1000) 0 0 true s.uncached).1 = bypassEntry 0x1000 := by decide +kernel
  refine ⟨by decide +kernel,hc,hf,fun h => ?_⟩
  rw [h.answer (readTxn 0x1000) true,hf] at hc
  exact absurd hc (by decide)

/-- A command that drops the stream-table entry of a stream. -/
def Cmd.DropsSte (c : Cmd) (sid : U32) : Prop :=
  decodeOp c.opcode = some .cfgiSte ∧ c.sid = sid ∨ decodeOp c.opcode = some .cfgiSteRange

/-- A context descriptor cached for the stream is the one its stream-table entry in memory leads to. -/
def CdCurrent (sid ssid : U32) (s : Streams M) : Prop :=
  ∀ ste, (fetchSte sid s.core).1.filter STE.valid = some ste → ste.readsCd ssid →
    ∀ cd, s.cdCache.find (cdKey sid ssid) = some cd →
      (some cd).filter CD.valid = (fetchCd ste ssid s.core).1.filter CD.valid

/-- The step leaves the descriptors of the stream in memory as they are. -/
def DescriptorsStay (sid : U32) (s : Smmuv3 M) (a : ConfigAction M) : Prop :=
  (fetchSte sid (configStep s a).streams.core).1 = (fetchSte sid s.streams.core).1 ∧
    ∀ ste, (fetchSte sid s.streams.core).1.filter STE.valid = some ste → ∀ ssid,
      (fetchCd ste ssid (configStep s a).streams.core).1 = (fetchCd ste ssid s.streams.core).1

lemma configStep_current (hp : PureReads M) {s : Smmuv3 M} {a : ConfigAction M}
    (h : ∀ ssid, Current sid ssid s.streams) (hs : DescriptorsStay sid s a) (ssid : U32) :
    Current sid ssid (configStep s a).streams := by
  have hc : CachesFrom sid (a.Translates sid) s.streams _ := configStep_caches hp s a
  have hf := findSte_eq_iff.mpr (h ssid).ste
  refine ⟨fun e he => ?_,fun ste hv hr cd hcd => ?_⟩
  · rw [hs.1]
    rcases hc.ste e he with hold | ⟨-,hn⟩
    · exact (h ssid).ste e hold
    · rw [hn]
  · rw [hs.1] at hv
    rw [hs.2 ste hv ssid]
    rcases hc.cd ssid cd hcd with hold | ⟨-,ste',hst',hn⟩
    · exact (h ssid).cd ste hv hr cd hold
    · obtain rfl : ste' = ste := Option.some.inj (hst'.symm.trans (hf.trans hv))
      rw [hn]

lemma execCmd_dropsSte {c : Cmd} {s s1 : Smmuv3 M} (hd : c.DropsSte sid) (h : execCmd c s = some s1) :
    s1.streams.core = s.streams.core ∧ s1.streams.cdCache = s.streams.cdCache ∧ s1.streams.steCache.find sid = none := by
  obtain ⟨op,hop,hs1⟩ := Option.map_eq_some_iff.mp h
  rcases hd with ⟨hop',rfl⟩ | hop'
  · obtain rfl : op = .cfgiSte := Option.some.inj (hop.symm.trans hop')
    subst hs1
    exact ⟨rfl,rfl,(find_remove _ _ _).trans (if_pos rfl)⟩
  · obtain rfl : op = .cfgiSteRange := Option.some.inj (hop.symm.trans hop')
    subst hs1
    exact ⟨rfl,rfl,find_empty sid⟩

/-- After a command that drops its stream-table entry, translations are fresh while the descriptors stay, exactly when
no other context descriptor was cached. -/
theorem cfgi_ste_seen_iff (hpure : PureReads M) {s s1 : Smmuv3 M} {c : Cmd} (hdrops : c.DropsSte sid)
    (h : execCmd c s = some s1) :
    (∀ s2, GuardedRun configStep (DescriptorsStay sid) s1 s2 → ∀ ssid, Fresh sid ssid s2) ↔
      ∀ ssid, CdCurrent sid ssid s.streams := by
  obtain ⟨hco,hcd,hst⟩ := execCmd_dropsSte hdrops h
  have hcu : (∀ ssid, Current sid ssid s1.streams) ↔ ∀ ssid, CdCurrent sid ssid s.streams := by
    refine forall_congr' fun ssid => ⟨fun hc ste => ?_,fun hc => ⟨fun e he => ?_,?_⟩⟩
    · rw [← hco,← hcd]
      exact hc.cd ste
    · cases hst.symm.trans he
    · rw [hco,hcd]
      exact hc
  rw [← hcu]
  constructor
  · intro hf ssid
    exact (fresh_iff hpure).mp (hf s1 .refl ssid)
  · intro hc s2 hr ssid
    refine (fresh_iff hpure).mpr (GuardedRun.invariant (I := fun t => ∀ ssid, Current sid ssid t.streams) ?_ hc hr ssid)
    exact fun t a ht hs => configStep_current hpure ht hs

/-- `CFGI_STE` for a stream whose cached context descriptor is the one in memory. -/
theorem cfgi_ste_seen_unchanged : Cmd.DropsSte [3,0,0,0,0,0,0,0,0,0,0,0,0,0,0,0] 0 ∧
    ∀ ssid, Fresh 0 ssid (handleCmdCfgiSte [3,0,0,0,0,0,0,0,0,0,0,0,0,0,0,0] (translatedSample false)) := by
  have hd : Cmd.DropsSte [3,0,0,0,0,0,0,0,0,0,0,0,0,0,0,0] 0 := .inl ⟨by decide,by decide⟩
  have hex : execCmd [3,0,0,0,0,0,0,0,0,0,0,0,0,0,0,0] (translatedSample false) =
      some (handleCmdCfgiSte [3,0,0,0,0,0,0,0,0,0,0,0,0,0,0,0] (translatedSample false)) := rfl
  refine ⟨hd,(cfgi_ste_seen_iff Ram.pureReads hd hex).mpr (fun ssid ste hs _ cd hcd => ?_) _ .refl⟩
  have he : (translatedSample false).streams.cdCache.entries =
      [(cdKey 0 0,decodeCd 0x80000019 0x00010005 0x20000 0 0 0)] := by
    decide +kernel
  have hm : (fetchSte 0 (translatedSample false).streams.core).1.filter STE.valid =
      some (decodeSte 0x300B 0 0x0005005900000000 0x10000) := by
    decide +kernel
  obtain rfl := Option.some.inj (hm.symm.trans hs)
  rw [← mem_entries,he,List.mem_singleton] at hcd
  obtain ⟨hk,rfl⟩ := Prod.mk.inj hcd
  obtain ⟨-,rfl⟩ := cdKey_inj hk
  decide +kernel

/-- A translated stream gets another context descriptor, and `CFGI_STE` and a TLB invalidation come: the old one is
used. -/
theorem cfgi_ste_keeps_cd :
    let s := consumeCmdq (rewrite [(0x1000,0x400B),(0x8000,0x03),(0x8010,0x10)] (translatedSample false))
    s.regs.cmdqCons = 2 ∧ (smmuv3Translate (readTxn 0x1000) 0 0 false s).1.translatedAddr = 0x5000 ∧
      (smmuv3Translate (readTxn 0x1000) 0 0 false s.uncached).1.translatedAddr = 0x7000 ∧ ¬ Fresh 0 0 s := by
  intro s
  have hc : (smmuv3Translate (readTxn 0x1000) 0 0 false s).1.translatedAddr = 0x5000 := by decide +kernel
  have hf : (smmuv3Translate (readTxn 0x1000) 0 0 false s.uncached).1.translatedAddr = 0x7000 := by decide +kernel
  refine ⟨by decide +kernel,hc,hf,fun h => ?_⟩
  rw [h.answer (readTxn 0x1000) false,hf] at hc
  exact absurd hc (by decide)

end

end Qbox.Smmuv3
