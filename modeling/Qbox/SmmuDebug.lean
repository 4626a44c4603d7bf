import Qbox.Smmu500Grants
import Qbox.Smmu500Nested
import Qbox.Smmuv3Tbu
import Qbox.SocketLog

/-! Debug accesses through the front ends `smmuv3_tbu` and `smmu500_tbu`: whether a fault stops them, and what they leave
behind. The sockets are logged, so that every write through them counts. -/
namespace Qbox
open MachineWord DmaSocket

namespace Smmuv3
variable {M : Type} [DmaSocket M]

/-- `transport_dbg`: the value returned and the addresses passed on. Rights are not looked at. -/
def transportDbg (downstream : U64 → ℕ) (topologyId : U32) (txn : Txn) (s : Smmuv3 M) : (ℕ × List U64) × Smmuv3 M :=
  let (te,s) := tbuTranslate topologyId txn s
  ((downstream (busAddress te txn.address),[busAddress te txn.address]),s)

def Core.SameSignals (c c' : Core M) : Prop := c'.regs = c.regs ∧ c'.irq = c.irq

/-- A refused debug access goes nowhere, and none changes a register, an interrupt line or the memory. -/
structure DebugSilent (downstream : U64 → ℕ) (topologyId : U32) (txn : Txn) (s : Smmuv3 (Logged M)) : Prop where
  refused : refuses (tbuTranslate topologyId txn s).1.perm txn.command = true →
    (transportDbg downstream topologyId txn s).1 = (0,[])
  signals : s.streams.core.SameSignals (transportDbg downstream topologyId txn s).2.streams.core
  writes : (transportDbg downstream topologyId txn s).2.bus.writes = s.bus.writes

variable {sid ssid : U32} {s' : Streams M} {txn : Txn} {isSecure : Bool}

lemma readCd_signals {ste : STE} {cd : CD} {s : Streams M}
    (h : readCd sid ste ssid s = (some cd,s')) : s.core.SameSignals s'.core := by
  rw [readCd] at h
  split at h
  · cases (Prod.mk.inj h).2
    exact ⟨rfl,rfl⟩
  · split at h
    · cases h
    · cases h
    · split at h
      · cases h
      · cases (Prod.mk.inj h).2
        exact ⟨rfl,rfl⟩

/-- Only the lookup of the stream-table entry can signal anything before a stream is found or bypassed. -/
lemma resolve_signals {s : Streams M} {r : Resolved}
    (h : resolve txn sid ssid s = (r,s')) (hr : ∀ e, r = .answer e → e.perm ≠ .none) :
    (s.core.regs.smmuen = false ∧ s' = s) ∨
      s.core.regs.smmuen = true ∧ (findSte sid s).2.core.SameSignals s'.core := by
  have hre : ∀ {type cls : U32} {s1 : Streams M}, reject txn sid ssid type cls s1 ≠ (r,s') := by
    intro type cls s1 heq
    exact hr _ (Prod.mk.inj heq).1.symm rfl
  rw [resolve] at h
  split_ifs at h with hen
  · cases h
    exact .inl ⟨by simpa using hen,rfl⟩
  · refine .inr ⟨by simpa using hen,?_⟩
    rcases hf : findSte sid s with ⟨_ | ste,s1⟩
    · simp only [hf] at h
      split_ifs at h
      · exact absurd h hre
      · cases h
        exact ⟨rfl,rfl⟩
    · simp only [hf] at h
      split_ifs at h
      · exact absurd h hre
      · split at h
        · cases h
          exact ⟨rfl,rfl⟩
        · rcases hcd : readCd sid ste ssid s1 with ⟨_ | cd,s2⟩
          · simp only [hcd] at h
            exact absurd h hre
          · simp only [hcd] at h
            cases h
            exact readCd_signals hcd
        · cases h
          exact ⟨rfl,rfl⟩
        · rcases hcd : readCd sid ste ssid s1 with ⟨_ | cd,s2⟩
          · simp only [hcd] at h
            exact absurd h hre
          · simp only [hcd] at h
            cases h
            exact readCd_signals hcd
        · exact absurd h hre

lemma walkAndCache_signals {t : Tables} {s : Smmuv3 M}
    (h : (walkAndCache txn sid ssid isSecure t s).1.perm ≠ .none) :
    s.streams.core.SameSignals (walkAndCache txn sid ssid isSecure t s).2.streams.core := by
  rcases hw : walkTables s.pamax t.config (initialReq txn sid ssid t) s.bus with ⟨req,bus⟩
  simp only [walkAndCache,hw] at h ⊢
  by_cases he : req.err = true
  · obtain ⟨e,st,heq,hp⟩ := faultAnswer_eq txn sid ssid t.config req (s.setBus bus)
    rw [if_pos he,heq] at h
    exact absurd hp h
  · rw [if_neg he]
    exact ⟨rfl,rfl⟩

/-- A translation that does not fault signals what the lookup of the stream-table entry does. -/
lemma smmuv3Translate_signals {s : Smmuv3 M} (h : (smmuv3Translate txn sid ssid isSecure s).1.perm ≠ .none) :
    s.streams.core.SameSignals (smmuv3Translate txn sid ssid isSecure s).2.streams.core ↔
      (s.regs.smmuen = true → s.streams.core.SameSignals (findSte sid s.streams).2.core) := by
  have hf : (s.regs.smmuen = false ∧ s.streams.core.SameSignals
        (smmuv3Translate txn sid ssid isSecure s).2.streams.core) ∨
      s.regs.smmuen = true ∧ (findSte sid s.streams).2.core.SameSignals
        (smmuv3Translate txn sid ssid isSecure s).2.streams.core := by
    rcases hre : resolve txn sid ssid s.streams with ⟨e | t,st⟩
    · simp only [smmuv3Translate,hre] at h ⊢
      rcases resolve_signals hre (fun e' he => by cases he; exact h) with ⟨hen,rfl⟩ | hon
      · exact .inl ⟨hen,rfl,rfl⟩
      · exact .inr hon
    · have hst : st.core.SameSignals (smmuv3Translate txn sid ssid isSecure s).2.streams.core := by
        simp only [smmuv3Translate,hre] at h ⊢
        rcases hh : Smmuv3.iotlbLookup (lookupKey (tagsOf t isSecure st.core.regs.e2h) txn.address)
          { s with streams := st } with _ | e
        · simp only [Smmuv3.regs,hh] at h ⊢
          exact walkAndCache_signals h
        · simp only [Smmuv3.regs,hh]
          exact ⟨rfl,rfl⟩
      rcases resolve_signals hre (fun _ he => by cases he) with ⟨hen,rfl⟩ | ⟨hen,hs⟩
      · exact .inl ⟨hen,hst⟩
      · exact .inr ⟨hen,hst.1.trans hs.1,hst.2.trans hs.2⟩
  rcases hf with ⟨hen,hs⟩ | ⟨hen,hs⟩
  · exact ⟨fun _ hc => (Bool.noConfusion (hen.symm.trans hc)),fun _ => hs⟩
  · constructor
    · rintro ⟨hr,hi⟩ -
      exact ⟨hs.1.symm.trans hr,hs.2.symm.trans hi⟩
    · intro hste
      obtain ⟨hr,hi⟩ := hste hen
      exact ⟨hs.1.trans hr,hs.2.trans hi⟩

lemma debugSilent_iff (downstream : U64 → ℕ) (topologyId : U32) (txn : Txn) (s : Smmuv3 (Logged M)) :
    DebugSilent downstream topologyId txn s ↔ refuses (tbuTranslate topologyId txn s).1.perm txn.command = false ∧
      (s.regs.smmuen = true → s.streams.core.SameSignals (findSte topologyId s.streams).2.core) ∧
      (tbuTranslate topologyId txn s).2.bus.writes = s.bus.writes := by
  have hg : refuses (tbuTranslate topologyId txn s).1.perm txn.command = false →
      (tbuTranslate topologyId txn s).1.perm ≠ .none := by
    intro h hn
    simp [refuses,hn] at h
  constructor
  · rintro ⟨hre,hs,hw⟩
    have hok : refuses (tbuTranslate topologyId txn s).1.perm txn.command = false := by
      by_contra hr
      exact absurd (Prod.mk.inj (hre (by simpa using hr))).2 (List.cons_ne_nil _ _)
    exact ⟨hok,(smmuv3Translate_signals (hg hok)).mp hs,hw⟩
  · rintro ⟨hok,hst,hw⟩
    refine ⟨fun hr => ?_,(smmuv3Translate_signals (hg hok)).mpr hst,hw⟩
    cases hok.symm.trans hr

end Smmuv3

namespace Smmu500
variable {M : Type} [DmaSocket M] (downstream : U64 → ℕ)

/-- `transport_dbg`, which does not look at the rights either; nothing if the simulator stops. -/
def Tbu.transportDbg (addr : U64) (cmd : TlmCommand) (t : Tbu) (s : Smmu500 M) :
    Option ((ℕ × List U64) × Smmu500 M) := do
  let (te,s) ← smmu500Translate addr cmd t.sid s
  let pa := te.translatedAddr ||| (addr &&& pagemask)
  return ((downstream pa,[pa]),s)

lemma Tbu.transportDbg_eq {downstream : U64 → ℕ} {addr : U64} {cmd : TlmCommand} {t : Tbu} {te : IOMMUTLBEntry}
    {s s' : Smmu500 M} (h : smmu500Translate addr cmd t.sid s = some (te,s')) : t.transportDbg downstream addr cmd s =
      some ((downstream (te.translatedAddr ||| (addr &&& pagemask)),[te.translatedAddr ||| (addr &&& pagemask)]),s') := by
  rw [transportDbg,h]
  rfl

/-- A refused debug access goes nowhere, and none changes a fault register, a line or the memory. -/
def DebugSilent (addr : U64) (cmd : TlmCommand) (t : Tbu) (s : Smmu500 (Logged M)) : Prop :=
  ∀ te s₁, smmu500Translate addr cmd t.sid s = some (te,s₁) → ∀ out s', t.transportDbg downstream addr cmd s =
    some (out,s') → (refuses te.perm cmd = true → out = (0,[])) ∧
      s'.faults = s.faults ∧ s'.irqContext = s.irqContext ∧ s'.dma.writes = s.dma.writes

lemma smmu500Translate_writes {addr sid : U64} {cmd : TlmCommand} {te : IOMMUTLBEntry} {s s' : Smmu500 (Logged M)}
    (h : smmu500Translate addr cmd sid s = some (te,s')) : s'.dma.writes = s.dma.writes := by
  have hwa : ∀ {cb : ℕ} {req req' : TransReq} {t t' : Smmu500 (Logged M)},
      smmu500Ptw64 cb req t = some (req',t') → t'.dma.writes = t.dma.writes := by
    intro cb req req' t t' hp
    have hw := walk_rel (R := fun l l' : Logged M => l'.writes = l.writes) (fun _ => rfl)
      (fun _ _ _ h1 h2 => h2.trans h1) (fun addr l => Logged.dmaRead64_writes addr l) t.pamax t.banks cb
      req.toWalkReq t.dma
    rw [smmu500Ptw64] at hp
    rcases heq : walk t.pamax t.banks cb req.toWalkReq t.dma with ⟨(f | _) | l,m⟩
    · rw [heq] at hp hw
      cases hp
      simpa using hw
    · rw [heq] at hp
      cases hp
    · rw [heq] at hp hw
      cases hp
      exact hw
  rcases smmu500Translate_state h with rfl | ⟨cb,r,-,-,hat⟩
  · rfl
  · exact smmu500At64_rel (R := fun t t' : Smmu500 (Logged M) => t'.dma.writes = t.dma.writes) (fun _ => rfl)
      (fun h1 h2 => h2.trans h1) (fun _ hp => hwa hp) hat

lemma debugSilent_iff (addr : U64) (cmd : TlmCommand) (t : Tbu) (s : Smmu500 (Logged M)) :
    DebugSilent downstream addr cmd t s ↔ ∀ te s', smmu500Translate addr cmd t.sid s = some (te,s') →
      refuses te.perm cmd = false ∧ s'.faults = s.faults ∧ s'.irqContext = s.irqContext := by
  refine forall_congr' fun te => forall_congr' fun s₁ => forall_congr' fun hte => ?_
  rw [Tbu.transportDbg_eq hte]
  constructor
  · intro h
    obtain ⟨hre,hf,hi,-⟩ := h _ _ rfl
    refine ⟨?_,hf,hi⟩
    by_contra hr
    exact absurd (Prod.mk.inj (hre (by simpa using hr))).2 (List.cons_ne_nil _ _)
  · rintro ⟨hok,hf,hi⟩ out s' heq
    cases heq
    refine ⟨fun hr => ?_,hf,hi,smmu500Translate_writes hte⟩
    cases hok.symm.trans hr

end Smmu500

/-- The stream goes through stage 2 only, and the event queue is at `0x40000`. -/
def Smmuv3.loggedSample (words : List (U64 × U64)) : Smmuv3 (Logged Ram) where
  pamax := 48
  iotlbSize := 256
  streams := { core := {
    regs := { (sampleSmmu 6 words).regs with cr0 := 5, eventqBaseLo := 0x40004 }
    bus := .start (sampleSmmu 6 words).bus } }

def Smmu500.loggedSample (words : List (U64 × U64)) : Smmu500 (Logged Ram) where
  smr := (Tbu.tbuSmmu 0x10000 words).smr
  banks := (Tbu.tbuSmmu 0x10000 words).banks
  dma := .start (Tbu.tbuSmmu 0x10000 words).dma

end Qbox
