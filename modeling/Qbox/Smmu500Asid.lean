import Qbox.Smmu500Grants

/-! Invalidation by ASID in the SMMU-500: which grants a write of `TLBIASID` reaches, and which entries of the
per-bank tables of the front ends are used. -/
namespace Qbox.Smmu500
open MachineWord DmaSocket

/-- `SMMU_MAX_CB`: the entries of `dmi_range` and `dmi_range_valid`. -/
def maxCb : ℕ := 128

/-- The ASID of a context bank: the bits 63:48 of `TTBR0`. -/
def ContextBank.asid (bank : ContextBank) : BitVec 16 := (pair bank.ttbr0High bank.ttbr0Low >>> 48).setWidth 16

namespace System
variable {M : Type}

/-- If `val` is written to `TLBIASID` of bank `b`, the tables are used inside their bounds, and every region granted
through it under that ASID since its last invalidation lies in a range passed upstream. -/
def TlbiAsidReaches (s : System M) (b : ℕ) (val : U32) : Prop :=
  val.toNat < maxCb ∧ ∀ g ∈ s.granted, g.bank = some b → (s.smmu.banks b).asid = val.setWidth 16 →
    ∃ first second, s.passed val.toNat g.tbu = some (first,second) ∧ first ≤ g.region.start ∧ g.region.endAddr ≤ second

variable [DmaSocket M]

/-- A DMI request that comes to the tables uses an entry of them. -/
def RequestInBounds (downstream : U64 → TlmCommand → Bool × TlmDmi) (addr : U64) (cmd : TlmCommand) (t : Tbu)
    (s : Smmu500 M) : Prop :=
  ∀ te s', smmu500Translate addr cmd t.sid s = some (te,s') → Tbu.PageGranted downstream cmd te →
    ∃ cb < maxCb, smmu500StreamIdMatch (t.topologyId ||| ((addr >>> 32) &&& 0xF).setWidth 32) s' = some cb

omit [DmaSocket M] in
lemma Tracked.tlbiAsidReaches {s : System M} (h : s.Tracked) {b : ℕ} {val : U32} (hv : val.toNat = b) (hb : b < maxCb) :
    s.TlbiAsidReaches b val := by
  refine ⟨hv ▸ hb,fun g hg hba _ => ?_⟩
  obtain ⟨t,ht,first,second,hra,hr⟩ := h g hg b hba
  refine ⟨first,second,?_,hr⟩
  rw [passed,ht,hv]
  exact hra

lemma exists_bank_of_translated {addr sid : U64} {cmd : TlmCommand} {s s' : Smmu500 M} {te : IOMMUTLBEntry}
    (h : smmu500Translate addr cmd sid s = some (te,s')) (hm : te.addrMask ≠ BitVec.allOnes 64) :
    ∃ cb < s.numCb, smmu500StreamIdMatch (masterId addr sid) s = some cb := by
  rw [smmu500Translate] at h
  split_ifs at h
  · cases h
    exact absurd rfl hm
  · split at h
    · cases h
      exact absurd rfl hm
    · rename_i cb hcb
      split_ifs at h with hn
      exact ⟨cb,not_le.mp hn,hcb⟩

lemma Trackable.requestInBounds {t : Tbu} (h : Trackable t.topologyId) {s : Smmu500 M} (hn : s.numCb ≤ maxCb)
    (downstream : U64 → TlmCommand → Bool × TlmDmi) (addr : U64) (cmd : TlmCommand) :
    RequestInBounds downstream addr cmd t s := by
  intro te s' hte hg
  obtain ⟨cb,hcb,hm⟩ := exists_bank_of_translated hte hg.translated
  refine ⟨cb,by omega,?_⟩
  rw [(smmu500Translate_configKept hte).streamIdMatch]
  exact h.streamIdMatch hm

/-- An identifier that is not trackable uses the entry `-1`. -/
lemma not_requestInBounds {id : U32} (h : ¬Trackable id) (dma : M) :
    ¬RequestInBounds wholeSpace 0 .read { topologyId := id } (openSmmu 1 dma) := by
  obtain ⟨hl,hbi⟩ := not_or.mp h
  have hid := masterId_lt_of_bit (Bool.eq_false_iff.mpr hbi)
  have hte : smmu500Translate 0 .read (id.setWidth 64) (openSmmu 1 dma) = some (⟨0,0,lowMask 12,.rw⟩,openSmmu 1 dma) :=
    translate_bankSmmu (b := 0) (by omega) 0 dma hid (by omega)
  intro hb
  obtain ⟨cb,-,hcb⟩ := hb _ _ hte ⟨by decide,by decide,rfl,by decide⟩
  rw [streamIdMatch_of_large (not_lt.mp hl)] at hcb
  cases hcb

omit [DmaSocket M] in
lemma asid_bankSmmu (numCb b : ℕ) (val : U32) (dma : M) (cb : ℕ) :
    ((bankSmmu numCb b (val <<< 16) dma).banks cb).asid = val.setWidth 16 := by
  refine BitVec.eq_of_getLsbD_eq fun i hi => ?_
  have h64 : 48+i < 64 := by omega
  have h32 : ¬48+i < 32 := by omega
  have hs : 48+i-32 = 16+i := by omega
  have hlt : 16+i < 32 := by omega
  simp [ContextBank.asid,bankSmmu,pair,hi,h64,h32,hs,hlt]
  exact (BitVec.getLsbD_eq_getElem (by omega)).symm

/-- A page is granted through bank `b` with the ASID to be written, and another entry is looked up. -/
lemma not_tlbiAsidReaches {b : ℕ} (hb : b < maxCb) {val : U32} (hv : val.toNat ≠ b) (dma : M) :
    ¬(step (start (bankSmmu maxCb b (val <<< 16) dma) [0]) (.request 0 wholeSpace 0 .read)).TlbiAsidReaches b val := by
  have hb' : b < 256 := hb.trans (by decide)
  have hid : (masterId 0 ((0 : U32).setWidth 64)).toNat < 2^15 := by decide
  have hd := getDirectMemPtr_bankSmmu hb' (val <<< 16) dma hid hb
  have hba : bankOf 0 ((0 : U32).setWidth 64) (bankSmmu maxCb b (val <<< 16) dma) = some b := by
    have hc : bit32 (bankSmmu maxCb b (val <<< 16) dma).scr0 0 = false := (by decide : bit32 0 0 = false)
    rw [bankOf,hc,streamIdMatch_bankSmmu hb' (val <<< 16) dma hid]
    rfl
  rw [streamIdMatch_bankSmmu hb' (val <<< 16) dma (by decide)] at hd
  obtain ⟨phys,hre⟩ := request_granted (s := start (bankSmmu maxCb b (val <<< 16) dma) [0]) (i := 0) rfl hd
  rw [step,hre,Option.getD_some]
  rintro ⟨-,hr⟩
  obtain ⟨first,second,hp,-⟩ := hr _ List.mem_cons_self hba (asid_bankSmmu maxCb b val dma b)
  have hn : Tbu.dmiRange (Tbu.track (some b) ⟨0,0xFFF,0,.rw⟩ { topologyId := 0 }) val.toNat = none :=
    Function.update_of_ne hv _ _
  cases hn.symm.trans hp

/-- A write of `TLBIASID` reaches its bank's grants in every state of every run exactly when the value is the bank's
number; requests stay inside the tables exactly when the identifier is trackable. -/
theorem tlbiAsid_reaches_iff (dma : M) (b : Fin maxCb) (val id : U32) :
    ((∀ (smmu : Smmu500 M) (ids : List U32) (l : List (Action M)), b < smmu.numCb → (∀ id ∈ ids, Trackable id) →
        (l.foldl step (start smmu ids)).TlbiAsidReaches b val) ↔ val.toNat = b) ∧
      ((∀ (smmu : Smmu500 M) downstream addr cmd, smmu.numCb ≤ maxCb →
        RequestInBounds downstream addr cmd { topologyId := id } smmu) ↔ Trackable id) := by
  refine ⟨⟨fun h => ?_,fun hv smmu ids l _ hi => ?_⟩,fun h => ?_,fun h smmu downstream addr cmd hn => ?_⟩
  · by_contra hv
    refine not_tlbiAsidReaches b.isLt hv dma (h (bankSmmu maxCb b (val <<< 16) dma) [0] [.request 0 wholeSpace 0 .read]
      b.isLt ?_)
    simp [Trackable]
  · refine (run_tracked l ?_ ?_).tlbiAsidReaches hv b.isLt
    · intro g hg
      cases hg
    · intro t ht
      obtain ⟨id,hid,rfl⟩ := List.mem_map.mp ht
      exact hi id hid
  · by_contra hid
    exact not_requestInBounds hid dma (h (openSmmu 1 dma) wholeSpace 0 .read (by decide : 1 ≤ maxCb))
  · exact Trackable.requestInBounds h hn downstream addr cmd

/-- A page is granted through bank 1 with the ASID 5. Writing 5 to its `TLBIASID` passes nothing upstream, where 1
would; and 200 leaves the tables. -/
theorem tlbiAsid_misses_bank :
    let s : System Ram := step (start (bankSmmu 16 1 (5 <<< 16) ⟨[],[]⟩) [0]) (.request 0 wholeSpace 0 .read)
    s.granted.map (fun g => (g.bank,g.range)) = [(some 1,(0,0xFFF))] ∧ (s.smmu.banks 1).asid = 5 ∧
      s.passed 5 0 = none ∧ s.passed 1 0 = some (0,0xFFF) ∧ ¬s.TlbiAsidReaches 1 5 ∧ ¬s.TlbiAsidReaches 1 200 := by
  intro s
  have hgr : s.granted.map (fun g => (g.bank,g.tbu)) = [(some 1,0)] := by decide +kernel
  have ha : (s.smmu.banks 1).asid = 5 := by decide +kernel
  have hn : s.passed 5 0 = none := by decide +kernel
  refine ⟨by decide +kernel,ha,hn,by decide +kernel,?_,fun h => absurd h.1 (by decide)⟩
  obtain ⟨g,hg,hb,ht⟩ : ∃ g ∈ s.granted, g.bank = some 1 ∧ g.tbu = 0 := by
    have hm : (some 1,0) ∈ s.granted.map (fun g => (g.bank,g.tbu)) := by simp [hgr]
    obtain ⟨g,hg,heq⟩ := List.mem_map.mp hm
    exact ⟨g,hg,congrArg Prod.fst heq,congrArg Prod.snd heq⟩
  rintro ⟨-,hr⟩
  obtain ⟨first,second,hp,-⟩ := hr g hg hb ha
  rw [ht] at hp
  cases hn.symm.trans hp

end System
end Qbox.Smmu500
