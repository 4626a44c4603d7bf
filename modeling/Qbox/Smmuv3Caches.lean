import Qbox.Smmuv3Config
import Qbox.Smmuv3Reset

/-! The IOTLB and the caches of stream-table entries and context descriptors, each a table with an order beside
it, over every run of translations, commands, register writes and resets. -/
namespace Qbox.Smmuv3
open DmaSocket

variable {M : Type}

/-- What the host does, and the reset line. -/
inductive CacheAction (M : Type) where
  | host (a : HostAction M)
  | reset (ato level : Bool)

def Streams.CachesReached (s : Streams M) : Prop :=
  (∃ hist, EvictingMap.Reached steCacheMax hist s.steCache) ∧ ∃ hist, EvictingMap.Reached cdCacheMax hist s.cdCache

/-- The caches have been changed by insertions and removals only. -/
structure CachesReached (size : ℕ) (s : Smmuv3 M) : Prop where
  iotlbSize : s.iotlbSize = size
  iotlb : ∃ hist, EvictingMap.Reached size hist s.iotlb
  streams : s.streams.CachesReached

namespace CachesReached
variable {size : ℕ} {s : Smmuv3 M}

section
variable (h : CachesReached size s)
include h

lemma invAll : CachesReached size (iotlbInvAll s) := by
  obtain ⟨hist,hi⟩ := h.iotlb
  exact ⟨h.iotlbSize,⟨hist,hi.clear⟩,h.streams⟩

lemma invIf (p : IOTLBKey → Bool) : CachesReached size (iotlbInvIf p s) := by
  obtain ⟨hist,hi⟩ := h.iotlb
  exact ⟨h.iotlbSize,⟨hist,hi.eraseIf p⟩,h.streams⟩

lemma clearSte : CachesReached size (clearSteCache s) := by
  obtain ⟨hist,hs⟩ := h.streams.1
  exact ⟨h.iotlbSize,h.iotlb,⟨hist,hs.clear⟩,h.streams.2⟩

lemma clearCd : CachesReached size (clearCdCache s) := by
  obtain ⟨hist,hcd⟩ := h.streams.2
  exact ⟨h.iotlbSize,h.iotlb,h.streams.1,⟨hist,hcd.clear⟩⟩

end

end CachesReached

variable [DmaSocket M]

def cacheStep (s : Smmuv3 M) : CacheAction M → Smmuv3 M
  | .host a => (hostStep a s).2
  | .reset ato level => resetChanged ato level s

def cacheRun (l : List (CacheAction M)) (s : Smmuv3 M) : Smmuv3 M := l.foldl cacheStep s

lemma findSte_reached {sid : U32} {s : Streams M} (h : s.CachesReached) : (findSte sid s).2.CachesReached := by
  refine findSte_inv h (fun _ => h) (fun _ => h) fun _ ste => ⟨?_,h.2⟩
  obtain ⟨hist,hs⟩ := h.1
  exact ⟨sid :: hist,hs.put sid ste⟩

lemma readCd_reached {sid ssid : U32} {ste : STE} {s : Streams M} (h : s.CachesReached) :
    (readCd sid ste ssid s).2.CachesReached := by
  refine readCd_inv h (fun _ => h) (fun _ => h) fun _ cd => ⟨h.1,?_⟩
  obtain ⟨hist,hcd⟩ := h.2
  exact ⟨cdKey sid ssid :: hist,hcd.put _ cd⟩

lemma resolve_reached {txn : Txn} {sid ssid : U32} {s : Streams M} (h : s.CachesReached) :
    (resolve txn sid ssid s).2.CachesReached := by
  have hs : (findSte sid s).2.CachesReached := findSte_reached h
  refine resolve_inv h hs ?_ (fun _ _ h => h)
  intro ste s1 heq
  rw [heq] at hs
  exact readCd_reached hs

namespace CachesReached
variable {size : ℕ} {s : Smmuv3 M}

section
variable (h : CachesReached size s)
include h

lemma translate (txn : Txn) (sid ssid : U32) (isSecure : Bool) :
    CachesReached size (smmuv3Translate txn sid ssid isSecure s).2 := by
  obtain ⟨hst,hcd⟩ := smmuv3Translate_caches txn sid ssid isSecure s
  have hs : (smmuv3Translate txn sid ssid isSecure s).2.streams.CachesReached := by
    rw [Streams.CachesReached,hst,hcd]
    exact resolve_reached h.streams
  have hc := smmuv3Translate_cases txn sid ssid isSecure s
  generalize smmuv3Translate txn sid ssid isSecure s = r at hc hs ⊢
  cases hc with
  | answer hr | hit hr hf | fault hr hf hw hp => exact ⟨h.iotlbSize,h.iotlb,hs⟩
  | fill hr hf hw =>
    obtain ⟨rfl,⟨hist,hi⟩,-⟩ := h
    exact ⟨rfl,⟨_,hi.put _ _⟩,hs⟩

lemma handleOp (op : CmdOp) (c : Cmd) : CachesReached size (Smmuv3.handleOp op c s) := by
  cases op with
  | prefetchConfig | prefetchAddr | priResp | stallTerm | atcInv => exact ⟨h.1,h.2,h.3⟩
  | cfgiSte =>
    obtain ⟨hist,hs⟩ := h.streams.1
    exact ⟨h.iotlbSize,h.iotlb,⟨hist,hs.remove c.sid⟩,h.streams.2⟩
  | cfgiSteRange => exact h.clearSte
  | cfgiCd | cfgiCdAll => exact h.clearCd
  | cfgiAll => exact h.clearSte.clearCd
  | tlbiNhAll | tlbiEl3All | tlbiEl2All | tlbiNsnhAll => exact h.invAll
  | tlbiNhAsid | tlbiEl2Asid | tlbiNhVa | tlbiEl3Va | tlbiEl2Va | tlbiNhVaa | tlbiEl2Vaa | tlbiS12Vmall
  | tlbiS2Ipa => exact h.invIf _
  | resume =>
    rw [Smmuv3.handleOp,handleCmdResume]
    split
    · exact h
    · exact ⟨h.1,h.2,h.3⟩
  | sync =>
    rw [Smmuv3.handleOp,handleCmdSync]
    split_ifs
    · exact ⟨h.1,h.2,h.3⟩
    · exact h

lemma handleSecureOp {op : CmdOp} {c : Cmd} {s' : Smmuv3 M}
    (hop : Smmuv3.handleSecureOp op c s = some s') : CachesReached size s' := by
  rcases handleSecureOp_cases hop with rfl | rfl | rfl
  · exact h
  · exact h.invAll
  · exact ⟨h.1,h.2,h.3⟩

lemma drainCmdq : CachesReached size (Smmuv3.drainCmdq s) := by
  rw [Smmuv3.drainCmdq]
  split_ifs
  · refine consumeCmdq_rel (R := fun s s' => CachesReached size s → CachesReached size s') (fun _ h => h)
      (fun h1 h2 h => h2 (h1 h)) (fun _ _ h => ⟨h.1,h.2,h.3⟩) (fun {c s s'} he h => ?_) (fun _ _ h => ⟨h.1,h.2,h.3⟩)
      (fun _ _ h => ⟨h.1,h.2,h.3⟩) s h
    obtain ⟨op,-,rfl⟩ := Option.map_eq_some_iff.mp he
    exact h.handleOp op c
  · exact h

lemma consumeSecureCmdq : CachesReached size (Smmuv3.consumeSecureCmdq s) := by
  refine consumeSecureCmdq_rel (R := fun s s' => CachesReached size s → CachesReached size s') (fun _ h => h)
    (fun h1 h2 h => h2 (h1 h)) (fun _ _ h => ⟨h.1,h.2,h.3⟩) (fun {c s s'} he h => ?_) (fun _ _ h => ⟨h.1,h.2,h.3⟩)
    (fun _ _ h => ⟨h.1,h.2,h.3⟩) s h
  obtain ⟨op,-,hop⟩ := Option.bind_eq_some_iff.mp he
  exact h.handleSecureOp hop

lemma transportAfter (topologyId : U32) (txn : Txn) (te : IOMMUTLBEntry) :
    CachesReached size (Smmuv3.transportAfter topologyId txn te s).2 := by
  rw [Smmuv3.transportAfter]
  split_ifs
  · exact ⟨h.1,h.2,h.3⟩
  · split
    · simp only [atsAnswer]
      split_ifs <;> exact ⟨h.1,h.2,h.3⟩
    · exact h
  · split
    · simp only [atsAnswer]
      split_ifs <;> exact ⟨h.1,h.2,h.3⟩
    · exact h

lemma hostStep (a : HostAction M) : CachesReached size (Smmuv3.hostStep a s).2 := by
  have ht : ∀ {s : Smmuv3 M} (topologyId : U32) (txn : Txn), CachesReached size s →
      CachesReached size (Smmuv3.transportAfter topologyId txn (tbuTranslate topologyId txn s).1
        (tbuTranslate topologyId txn s).2).2 := fun topologyId txn h =>
    (h.translate txn topologyId _ _).transportAfter topologyId txn _
  cases a with
  | write reg v =>
    have hr : CachesReached size (s.mapRegs (Regs.store reg v)) := ⟨h.1,h.2,h.3⟩
    cases reg with
    | cmdqProd | cmdqProdP1 => exact hr.drainCmdq
    | strtabBaseCfg => exact hr.clearSte
    | _ => exact ⟨h.1,h.2,h.3⟩
  | writeSide reg v => cases reg <;> exact ⟨h.1,h.2,h.3⟩
  | writeSCr0 | memory bus => exact ⟨h.1,h.2,h.3⟩
  | readCmdqCons => exact h.drainCmdq
  | secureCommands => exact h.consumeSecureCmdq
  | initInvAll => exact h.clearSte.clearCd.invAll
  | transport i txn =>
    rw [Smmuv3.hostStep]
    split
    · exact h
    · rw [bTransport]
      split
      · exact h
      · exact ht _ txn h
  | wake i txn stag =>
    rw [Smmuv3.hostStep]
    split
    · dsimp only [resumeTransport]
      split_ifs
      · exact ⟨h.1,h.2,h.3⟩
      · exact ht _ txn ⟨h.1,h.2,h.3⟩
    · exact h
  | requestDmi i txn dmi downstream =>
    rw [Smmuv3.hostStep]
    split
    · exact h
    · exact h.translate txn _ _ _
  | translate txn sid ssid isSecure => exact h.translate txn sid ssid isSecure

lemma cacheRun (l : List (CacheAction M)) : CachesReached size (Smmuv3.cacheRun l s) := by
  induction l generalizing s with
  | nil => exact h
  | cons a l ih =>
    refine ih ?_
    cases a with
    | host a => exact h.hostStep a
    | reset ato level =>
      rw [cacheStep,resetChanged]
      split_ifs
      · exact ⟨h.iotlbSize,h.invAll.clearSte.clearCd.iotlb,h.invAll.clearSte.clearCd.streams⟩
      · exact ⟨h.1,h.2,h.3⟩

end

end CachesReached

/-- A cache whose table and order agree, after the insertions of `hist`, newest first. -/
structure CacheWellFormed {K V : Type} [DecidableEq K] (cap : ℕ) (hist : List K) (m : EvictingMap K V) : Prop where
  reached : EvictingMap.Reached cap hist m
  nodup : m.order.Nodup
  keys : ∀ k, k ∈ m.order ↔ (m.find k).isSome
  bounded : m.size ≤ cap
  evicts : EvictingMap.EvictsOldest cap hist m

lemma cacheWellFormed_of_reached {K V : Type} [DecidableEq K] {cap : ℕ} {m : EvictingMap K V} (hc : 1 ≤ cap)
    (h : ∃ hist, EvictingMap.Reached cap hist m) : ∃ hist, CacheWellFormed cap hist m := by
  obtain ⟨hist,hr⟩ := h
  obtain ⟨ho,hl⟩ := hr.ordered hc
  exact ⟨hist,hr,ho.nodup,ho.mem_iff,ho.size_eq.trans_le hl,ho.evictsOldest hc⟩

/-- In every run of a new SMMU all three caches stay well formed. -/
theorem caches_well_formed (ato : Bool) (gbpa : U32) (s : Smmuv3 M) (hsize : 1 ≤ s.iotlbSize) (l : List (CacheAction M)) :
    (∃ hist, CacheWellFormed s.iotlbSize hist (cacheRun l (constructed ato gbpa s)).iotlb) ∧
    (∃ hist, CacheWellFormed 1024 hist (cacheRun l (constructed ato gbpa s)).streams.steCache) ∧
    ∃ hist, CacheWellFormed 1024 hist (cacheRun l (constructed ato gbpa s)).streams.cdCache := by
  have hs : CachesReached s.iotlbSize (constructed ato gbpa s) := ⟨rfl,⟨_,.empty⟩,⟨_,.empty⟩,⟨_,.empty⟩⟩
  obtain ⟨-,hi,hst,hcd⟩ := hs.cacheRun l
  exact ⟨cacheWellFormed_of_reached hsize hi,cacheWellFormed_of_reached (by decide) hst,
    cacheWellFormed_of_reached (by decide) hcd⟩

/-- Two translations through one stream, an invalidation and a reset in between. -/
theorem caches_well_formed_sample :
    let l : List (CacheAction Ram) := [.host (.translate (readTxn 0x1000) 0 0 false),.host .initInvAll,
      .reset false true,.reset false false,.host (.translate (readTxn 0x2000) 0 0 false)]
    1 ≤ (sampleSmmu 5 []).iotlbSize ∧
      ∃ hist, CacheWellFormed 256 hist (cacheRun l (constructed false 0 (sampleSmmu 5 []))).iotlb :=
  ⟨by decide,(caches_well_formed false 0 (sampleSmmu 5 []) (by decide) _).1⟩

end Qbox.Smmuv3
