import Qbox.Smmu500Tbu

/-! The SMMU-500 with its front ends and the regions their masters have been granted: what a TLB invalidation
passes upstream, and what becomes of an invalidation by the memory behind. -/
namespace Qbox.Smmu500
open MachineWord DmaSocket List Option
open BitVec hiding not_or

variable {M : Type}

section
/-- The two states differ in fault registers, interrupt lines and memory only. -/
def ConfigKept (s s' : Smmu500 M) : Prop := ∃ f i m, s' = { s with faults := f, irqContext := i, dma := m }

lemma ConfigKept.refl (s : Smmu500 M) : ConfigKept s s := ⟨_,_,_,rfl⟩

lemma ConfigKept.trans {s1 s2 s3 : Smmu500 M} (h12 : ConfigKept s1 s2) (h23 : ConfigKept s2 s3) : ConfigKept s1 s3 := by
  obtain ⟨f,i,m,rfl⟩ := h12
  obtain ⟨f',i',m',rfl⟩ := h23
  exact ⟨f',i',m',rfl⟩

lemma raise_configKept (cb : ℕ) (req : WalkReq) (f : PtwFault) (s : Smmu500 M) : ConfigKept s (raise cb req f s) := by
  rw [raise]
  cases f.nested <;> exact ⟨_,_,_,rfl⟩

variable {s s' : Smmu500 M}

lemma ConfigKept.streamIdMatch (h : ConfigKept s s') (streamId : U32) :
    smmu500StreamIdMatch streamId s' = smmu500StreamIdMatch streamId s := by
  obtain ⟨f,i,m,rfl⟩ := h
  rfl

lemma ConfigKept.numCb (h : ConfigKept s s') : s'.numCb = s.numCb := by
  obtain ⟨f,i,m,rfl⟩ := h
  rfl

variable [DmaSocket M]
  {cb pageSize : ℕ} {req req' : TransReq} {va addr sid : U64} {wr s2 : Bool} {r : AtResult} {cmd : TlmCommand}
  {te : IOMMUTLBEntry}

section
variable (h : smmu500Ptw64 cb req s = some (req',s'))
include h

lemma smmu500Ptw64_configKept : ConfigKept s s' := by
  rw [smmu500Ptw64] at h
  split at h <;> cases h
  · exact ⟨_,_,_,rfl⟩
  · exact ConfigKept.trans ⟨_,_,_,rfl⟩ (raise_configKept cb req.toWalkReq _ _)

lemma smmu500Ptw64_s2Cb : req'.s2Cb = req.s2Cb := by
  rw [smmu500Ptw64] at h
  split at h <;> cases h <;> rfl

end

/-- What every walk of an access does to the registers, the whole access does. -/
lemma smmu500At64_rel {R : Smmu500 M → Smmu500 M → Prop} (hre : ∀ s, R s s)
    (ht : ∀ {s s' s''}, R s s' → R s' s'' → R s s'')
    (hw : ∀ {req req' t t'}, req.s2Cb = (walkReq s.banks cb va wr).s2Cb →
      smmu500Ptw64 cb req t = some (req',t') → R t t')
    (h : smmu500At64 cb va wr s2 pageSize s = some (r,s')) : R s s' := by
  simp only [smmu500At64] at h
  split_ifs at h <;> obtain ⟨⟨req,s1⟩,hf,h⟩ := bind_eq_some_iff.mp h
  · have hs1 := hw rfl hf
    split_ifs at h <;> obtain ⟨⟨req2,s2'⟩,hs,hr⟩ := bind_eq_some_iff.mp h <;> cases hr
    · refine ht hs1 (hw ?_ hs)
      exact smmu500Ptw64_s2Cb hf
    · cases hs
      exact hs1
  · cases hf
    split_ifs at h <;> obtain ⟨⟨req2,s2'⟩,hs,hr⟩ := bind_eq_some_iff.mp h <;> cases hr
    · exact hw rfl hs
    · cases hs
      exact hre s

lemma smmu500At64_configKept (h : smmu500At64 cb va wr s2 pageSize s = some (r,s')) : ConfigKept s s' :=
  smmu500At64_rel .refl .trans (fun _ hw => smmu500Ptw64_configKept hw) h

section
variable (h : smmu500Translate addr cmd sid s = some (te,s'))
include h

lemma smmu500Translate_state : s' = s ∨ ∃ cb r,
      smmu500StreamIdMatch (masterId addr sid) s = some cb ∧ cb < s.numCb ∧
        smmu500At64 cb (lookupAddress addr) (cmd == .write) true 12 s = some (r,s') := by
  rw [smmu500Translate] at h
  split_ifs at h
  · cases h
    exact .inl rfl
  · split at h
    · cases h
      exact .inl rfl
    · next cb hm =>
      split_ifs at h with hn
      obtain ⟨⟨r,s1⟩,hat,hr⟩ := bind_eq_some_iff.mp h
      cases hr
      exact .inr ⟨cb,r,hm,not_le.mp hn,hat⟩

lemma smmu500Translate_configKept : ConfigKept s s' := by
  rcases smmu500Translate_state h with rfl | ⟨cb,r,-,-,hat⟩
  · exact .refl s'
  · exact smmu500At64_configKept hat

end

end

section
variable {i cb : ℕ} {s : Smmu500 M} {id : U32} {addr : U64}

lemma getLsbD_of_toNat_lt {w n : ℕ} {v : BitVec w} (h : v.toNat < 2^n) (hi : n ≤ i) : v.getLsbD i = false :=
  Nat.testBit_lt_two_pow (h.trans_le (Nat.pow_le_pow_right (by omega) hi))

/-- Only identifiers of fifteen bits match a stream match register. -/
lemma getLsbD_of_streamIdMatch {streamId : U32}
    (h : smmu500StreamIdMatch streamId s = some cb) (hi : 15 ≤ i) : streamId.getLsbD i = false := by
  obtain ⟨j,hf,-⟩ := map_eq_some_iff.mp h
  have hm := find?_some hf
  simp only [Bool.and_eq_true,beq_iff_eq] at hm
  have hbi := congrArg (fun v : U32 => v.getLsbD i) hm.2
  simp [extract32,getLsbD_lowMask,show ¬ i < 15 by omega] at hbi
  by_cases h32 : i < 32
  · exact hbi h32
  · exact getLsbD_of_ge _ _ (by omega)

/-- An identifier that is tracked as it is translated: it has sixteen bits, or it is never translated. -/
def Trackable (id : U32) : Prop := id.toNat < 2^16 ∨ id.getLsbD 15 = true

instance (id : U32) : Decidable (Trackable id) := inferInstanceAs (Decidable (_ ∨ _))

lemma getLsbD_masterId (id : U32) (addr : U64) (i : ℕ) : (masterId addr (id.setWidth 64)).getLsbD i =
    (decide (i < 16) && (id.getLsbD i || ((addr >>> 32) &&& 0xF).getLsbD i)) := by
  simp only [masterId,getLsbD_setWidth,getLsbD_or]
  by_cases hi : i < 16
  · simp [hi,show i < 32 by omega,show i < 64 by omega]
  · simp [hi]

lemma getLsbD_window (hi : 4 ≤ i) : ((addr >>> 32) &&& 0xF).getLsbD i = false := by
  rw [show (0xF : U64) = lowMask 4 from by decide,getLsbD_and,getLsbD_lowMask]
  simp [show ¬ i < 4 by omega]

lemma Trackable.streamIdMatch (h : Trackable id)
    (hcb : smmu500StreamIdMatch (masterId addr (id.setWidth 64)) s = some cb) :
    smmu500StreamIdMatch (id ||| ((addr >>> 32) &&& 0xF).setWidth 32) s = some cb := by
  have hbi := getLsbD_of_streamIdMatch hcb (le_refl 15)
  rw [getLsbD_masterId,getLsbD_window (by omega),Bool.or_false,decide_eq_true (by omega),Bool.true_and] at hbi
  have hid := h.resolve_right (by rw [hbi]; exact Bool.false_ne_true)
  rw [← hcb]
  congr 1
  refine eq_of_getLsbD_eq fun i hi => ?_
  rw [getLsbD_masterId,getLsbD_or,getLsbD_setWidth]
  by_cases h16 : i < 16
  · simp [hi,h16]
  · rw [getLsbD_of_toNat_lt hid (not_lt.mp h16),getLsbD_window (by omega),decide_eq_false h16]
    simp

lemma streamIdMatch_of_large (h : 2^16 ≤ id.toNat) (window : U32) (s : Smmu500 M) :
    smmu500StreamIdMatch (id ||| window) s = none := by
  refine eq_none_iff_forall_ne_some.mpr fun cb hcb => ?_
  have hlt := Nat.lt_pow_two_of_testBit _ fun i hi => by
    have hbi := getLsbD_of_streamIdMatch hcb hi
    rw [getLsbD_or] at hbi
    exact (Bool.or_eq_false_iff.mp hbi).1
  omega

lemma masterId_lt_of_bit (h : id.getLsbD 15 = false) : (masterId 0 (id.setWidth 64)).toNat < 2^15 :=
  Nat.lt_pow_two_of_testBit _ fun j hj => by
    show (masterId 0 (id.setWidth 64)).getLsbD j = false
    rw [getLsbD_masterId,getLsbD_window (by omega),Bool.or_false]
    rcases Nat.eq_or_lt_of_le hj with rfl | hj
    · rw [h,Bool.and_false]
    · rw [decide_eq_false (by omega),Bool.false_and]

end

def meets (a b : U64 × U64) : Bool := a.1 ≤ b.2 && b.1 ≤ a.2

/-- A granted region: its bank, the physical address of its first byte, and whether the memory stands by it. -/
structure Grant where
  tbu : ℕ
  bank : Option ℕ
  region : TlmDmi
  phys : U64
  live : Bool := true
  deriving DecidableEq

def Grant.range (g : Grant) : U64 × U64 := (g.region.start,g.region.endAddr)

def Grant.physRange (g : Grant) : U64 × U64 := (g.phys,g.phys+(g.region.endAddr-g.region.start))

def bankOf (addr sid : U64) (s : Smmu500 M) : Option ℕ :=
  if bit32 s.scr0 0 then none else smmu500StreamIdMatch (masterId addr sid) s

def IOMMUTLBEntry.physStart (te : IOMMUTLBEntry) (region : TlmDmi) : U64 :=
  if te.addrMask = allOnes 64 then region.start else te.pageStart

/-- What a front end passes upstream on an invalidation by the memory: its socket has no callback. -/
def Tbu.invalidateDirectMemPtr (_start _stop : U64) (_t : Tbu) : List (U64 × U64) := []

/-- The SMMU with its front ends, the regions granted through each bank since its invalidation, and those in use. -/
structure System (M : Type) where
  smmu : Smmu500 M
  tbus : List Tbu
  granted : List Grant := []
  held : List Grant := []

inductive Action (M : Type) where
  /-- A DMI request to a front end, with the answers of the memory behind. -/
  | request (i : ℕ) (downstream : U64 → TlmCommand → Bool × TlmDmi) (addr : U64) (cmd : TlmCommand)
  /-- A write of `TLBIALL` of a bank. -/
  | tlbiAll (cb : ℕ)
  /-- A write of `TLBIASID` of a bank. -/
  | tlbiAsid (cb : ℕ) (val : U32)
  /-- An invalidation by the memory behind a front end. -/
  | invalidate (i : ℕ) (start stop : U64)
  /-- Whatever else happens to the registers and the memory. -/
  | other (smmu : Smmu500 M)

namespace System
def start (smmu : Smmu500 M) (ids : List U32) : System M where
  smmu := smmu
  tbus := ids.map fun id => { topologyId := id }

/-- What the invalidation of a bank passes upstream at a front end. -/
def passed (cb i : ℕ) (s : System M) : Option (U64 × U64) := (s.tbus[i]?).bind fun t => (t.invalidate cb).1

/-- The invalidation of a bank on every front end. A master that is told of a range drops what meets it. -/
def invalidateBank (cb : ℕ) (s : System M) : System M := { s with
    tbus := s.tbus.map fun t => (t.invalidate cb).2
    granted := s.granted.filter fun g => g.bank ≠ some cb
    held := s.held.filter fun g => !(s.passed cb g.tbu).any (meets g.range) }

def invalidateMemory (i : ℕ) (start stop : U64) (s : System M) : System M :=
  let sent := ((s.tbus[i]?).map (Tbu.invalidateDirectMemPtr start stop)).getD []
  { s with
    held := (s.held.filter fun g => !(g.tbu = i && sent.any (meets g.range))).map fun g =>
      if g.tbu = i && meets g.physRange (start,stop) then { g with live := false } else g }

variable [DmaSocket M]

def request (i : ℕ) (downstream : U64 → TlmCommand → Bool × TlmDmi) (addr : U64) (cmd : TlmCommand)
    (s : System M) : Option (System M) := do
  let t ← s.tbus[i]?
  let (te,_) ← smmu500Translate addr cmd t.sid s.smmu
  let ((ret,region),t',smmu) ← t.getDirectMemPtr downstream addr cmd s.smmu
  let s' := { s with smmu := smmu, tbus := s.tbus.set i t' }
  let g : Grant := { tbu := i, bank := bankOf addr t.sid s.smmu, region := region, phys := te.physStart region }
  return if ret then { s' with granted := g :: s.granted, held := g :: s.held } else s'

/-- One action. A request that ends the simulation changes nothing, and the number of banks is fixed. -/
def step (s : System M) : Action M → System M
  | .request i downstream addr cmd => (s.request i downstream addr cmd).getD s
  | .tlbiAll cb => if cb < s.smmu.numCb then s.invalidateBank cb else s
  | .tlbiAsid cb val => if cb < s.smmu.numCb then s.invalidateBank val.toNat else s
  | .invalidate i start stop => s.invalidateMemory i start stop
  | .other smmu => { s with smmu := { smmu with numCb := s.smmu.numCb } }

/-- After `TLBIALL` for any bank each front end passes upstream what it granted through it, and the other banks'
regions stay tracked. -/
def TlbiAllCovers (s : System M) : Prop := ∀ cb < s.smmu.numCb, ∀ g ∈ s.granted,
    (g.bank = some cb → ∃ first second, s.passed cb g.tbu = some (first,second) ∧
      first ≤ g.region.start ∧ g.region.endAddr ≤ second) ∧
    (∀ b, g.bank = some b → b ≠ cb → g ∈ (s.step (.tlbiAll cb)).granted ∧
      ∃ t, (s.step (.tlbiAll cb)).tbus[g.tbu]? = some t ∧ t.Covers b g.region)

def Tracked (s : System M) : Prop :=
  ∀ g ∈ s.granted, ∀ cb, g.bank = some cb → ∃ t, s.tbus[g.tbu]? = some t ∧ t.Covers cb g.region

variable {s s' : System M} {downstream : U64 → TlmCommand → Bool × TlmDmi} {cmd : TlmCommand}
  {i : ℕ} {addr : U64} {t t' : Tbu} {region : TlmDmi} {smmu smmu' : Smmu500 M}

lemma request_cases
    (h : s.request i downstream addr cmd = some s') : ∃ t te s1 ret region t' smmu, s.tbus[i]? = some t ∧
      smmu500Translate addr cmd t.sid s.smmu = some (te,s1) ∧
      t.getDirectMemPtr downstream addr cmd s.smmu = some ((ret,region),t',smmu) ∧
      s' = { smmu := smmu, tbus := s.tbus.set i t'
             granted := if ret then ⟨i,bankOf addr t.sid s.smmu,region,te.physStart region,true⟩ :: s.granted else s.granted
             held := if ret then ⟨i,bankOf addr t.sid s.smmu,region,te.physStart region,true⟩ :: s.held else s.held } := by
  obtain ⟨t,ht,h⟩ := bind_eq_some_iff.mp h
  obtain ⟨⟨te,s1⟩,hte,h⟩ := bind_eq_some_iff.mp h
  obtain ⟨⟨⟨ret,region⟩,t',smmu⟩,hd,h⟩ := bind_eq_some_iff.mp h
  refine ⟨t,te,s1,ret,region,t',smmu,ht,hte,hd,?_⟩
  cases h
  cases ret <;> rfl

lemma request_granted (ht : s.tbus[i]? = some t)
    (hd : t.getDirectMemPtr downstream addr cmd s.smmu = some ((true,region),t',smmu)) : ∃ phys,
      s.request i downstream addr cmd = some
        { smmu := smmu, tbus := s.tbus.set i t'
          granted := ⟨i,bankOf addr t.sid s.smmu,region,phys,true⟩ :: s.granted
          held := ⟨i,bankOf addr t.sid s.smmu,region,phys,true⟩ :: s.held } := by
  obtain ⟨te,hte,-⟩ := Tbu.getDirectMemPtr_eq_true hd
  refine ⟨te.physStart region,?_⟩
  rw [request,ht,bind_eq_bind,bind_some,hte,bind_eq_bind,bind_some,hd]
  rfl

lemma getDirectMemPtr_topologyId {reply : Bool × TlmDmi}
    (h : t.getDirectMemPtr downstream addr cmd smmu = some (reply,t',smmu')) : t'.topologyId = t.topologyId := by
  rcases Tbu.getDirectMemPtr_track h with rfl | ⟨_ | cb,rfl⟩ <;> rfl

lemma getDirectMemPtr_configKept
        (h : t.getDirectMemPtr downstream addr cmd smmu = some ((true,region),t',smmu')) : ConfigKept smmu smmu' := by
  obtain ⟨te,hte,-⟩ := Tbu.getDirectMemPtr_eq_true h
  exact smmu500Translate_configKept hte

lemma step_topologyId (s : System M) (a : Action M) :
    (s.step a).tbus.map Tbu.topologyId = s.tbus.map Tbu.topologyId := by
  cases a with
  | request i downstream addr cmd =>
    rw [step]
    cases hr : s.request i downstream addr cmd with
    | none => rfl
    | some s' =>
      obtain ⟨t,te,s1,ret,region,t',smmu,ht,-,hd,rfl⟩ := request_cases hr
      have hid := getDirectMemPtr_topologyId hd
      rw [getD_some,map_set,hid]
      refine ext_getElem? fun j => ?_
      rw [getElem?_set]
      split_ifs with hij hl
      · rw [← hij,getElem?_map,ht]
        rfl
      · rw [← hij]
        exact (List.getElem?_eq_none (not_lt.mp hl)).symm
      · rfl
  | tlbiAll cb | tlbiAsid cb val =>
    rw [step]
    split_ifs
    · simp [invalidateBank,Tbu.invalidate,Function.comp_def]
    · rfl
  | invalidate i start stop | other smmu => rfl

omit [DmaSocket M] in
lemma invalidateBank_tracked (h : s.Tracked) (cb : ℕ) : (s.invalidateBank cb).Tracked := by
  intro g hg b hb
  obtain ⟨hg,hne⟩ := mem_filter.mp hg
  obtain ⟨t,ht,first,second,hra,hr⟩ := h g hg b hb
  have hcb : b ≠ cb := by
    rintro rfl
    simp [hb] at hne
  refine ⟨(t.invalidate cb).2,?_,first,second,(Function.update_of_ne hcb _ _).trans hra,hr⟩
  rw [invalidateBank,getElem?_map,ht]
  rfl

lemma request_tracked (h : s.Tracked) (his : ∀ t ∈ s.tbus, Trackable t.topologyId)
   
    (hr : s.request i downstream addr cmd = some s') : s'.Tracked := by
  obtain ⟨t,te,s1,ret,region,t',smmu,ht,-,hd,rfl⟩ := request_cases hr
  have hl := (List.getElem?_eq_some_iff.mp ht).1
  have hn : (s.tbus.set i t')[i]? = some t' := getElem?_set_self hl
  have hold : ∀ g ∈ s.granted, ∀ cb, g.bank = some cb → ∃ t, (s.tbus.set i t')[g.tbu]? = some t ∧ t.Covers cb g.region := by
    intro g hg cb hcb
    obtain ⟨t1,ht1,hc⟩ := h g hg cb hcb
    by_cases hi : g.tbu = i
    · rw [hi] at ht1 ⊢
      obtain rfl := Option.some.inj (ht.symm.trans ht1)
      refine ⟨t',hn,?_⟩
      rcases Tbu.getDirectMemPtr_track hd with rfl | ⟨cb',rfl⟩
      · exact hc
      · exact hc.track cb' _
    · exact ⟨t1,by rw [getElem?_set_ne (Ne.symm hi),ht1],hc⟩
  cases ret with
  | false => exact hold
  | true =>
    intro g hg cb hcb
    rcases mem_cons.mp hg with rfl | hg
    · refine ⟨t',hn,?_⟩
      have hba : bankOf addr t.sid s.smmu = some cb := hcb
      rw [bankOf] at hba
      split_ifs at hba with hcl
      have hby : bypasses addr t.sid s.smmu = false := by
        simp [bypasses,hcl,hba]
      refine Tbu.getDirectMemPtr_covers hby ?_ hd
      rw [(getDirectMemPtr_configKept hd).streamIdMatch]
      exact (his t (mem_of_getElem? ht)).streamIdMatch hba
    · exact hold g hg cb hcb

lemma step_tracked (h : s.Tracked) (hi : ∀ t ∈ s.tbus, Trackable t.topologyId) (a : Action M) :
    (s.step a).Tracked := by
  cases a with
  | request i downstream addr cmd =>
    rw [step]
    cases hr : s.request i downstream addr cmd with
    | none => exact h
    | some s' => exact request_tracked h hi hr
  | tlbiAll cb =>
    rw [step]
    split_ifs
    · exact invalidateBank_tracked h cb
    · exact h
  | tlbiAsid cb val =>
    rw [step]
    split_ifs
    · exact invalidateBank_tracked h _
    · exact h
  | invalidate i start stop | other smmu => exact h

lemma Tracked.tlbiAllCovers (h : s.Tracked) : s.TlbiAllCovers := by
  intro cb hcb g hg
  constructor
  · intro hb
    obtain ⟨t,ht,first,second,hra,hr⟩ := h g hg cb hb
    refine ⟨first,second,?_,hr⟩
    rw [passed,ht]
    exact hra
  · intro b hb hne
    have hk : g ∈ (s.step (.tlbiAll cb)).granted := by
      rw [step,if_pos hcb]
      refine mem_filter.mpr ⟨hg,?_⟩
      simpa [hb] using hne
    refine ⟨hk,?_⟩
    have htr : (s.step (.tlbiAll cb)).Tracked := by
      rw [step,if_pos hcb]
      exact invalidateBank_tracked h cb
    exact htr g hk b hb

lemma step_numCb (s : System M) (a : Action M) : (s.step a).smmu.numCb = s.smmu.numCb := by
  cases a with
  | request i downstream addr cmd =>
    rw [step]
    cases hr : s.request i downstream addr cmd with
    | none => rfl
    | some s' =>
      obtain ⟨t,te,s1,ret,region,t',smmu,-,-,hd,rfl⟩ := request_cases hr
      obtain ⟨⟨te',smmu'⟩,hte,hd⟩ := bind_eq_some_iff.mp hd
      have hk := (smmu500Translate_configKept hte).numCb
      dsimp only at hd
      split_ifs at hd <;> cases hd <;> exact hk
  | tlbiAll cb | tlbiAsid cb val =>
    rw [step]
    split_ifs <;> rfl
  | invalidate i start stop | other smmu => rfl

def openSmmu (numCb : ℕ) (dma : M) : Smmu500 M where
  numCb := numCb
  smr := fun _ => 0xFFFF0000
  banks := fun _ => { cbar := 0x10000 }
  dma := dma

def bankSmmu (numCb b : ℕ) (ttbr0High : U32) (dma : M) : Smmu500 M where
  numCb := numCb
  smr := fun _ => 0xFFFF0000
  s2cr := fun _ => BitVec.ofNat 32 b
  banks := fun _ => { cbar := 0x10000, ttbr0High := ttbr0High }
  dma := dma

def wholeSpace (_ : U64) (_ : TlmCommand) : Bool × TlmDmi := (true,⟨0,allOnes 64,0,.rw⟩)

section
variable {numCb b : ℕ} (hb : b < 256) (ttbr0High : U32) (dma : M)

include hb

omit [DmaSocket M] in
lemma streamIdMatch_bankSmmu {streamId : U32} (h : streamId.toNat < 2^15) :
    smmu500StreamIdMatch streamId (bankSmmu numCb b ttbr0High dma) = some b := by
  have hm : ~~~(0x7FFF : U32) &&& streamId = 0 := by
    refine eq_of_getLsbD_eq fun i hi => ?_
    rw [show (0x7FFF : U32) = lowMask 15 from by decide,getLsbD_and,getLsbD_not,getLsbD_lowMask]
    by_cases h15 : i < 15
    · simp [h15,hi]
    · simp [getLsbD_of_toNat_lt h (not_lt.mp h15)]
  have hf : ∀ n p, p 0 = true → (List.range (n+1)).find? p = some 0 := fun n p hp => by
    rw [range_succ_eq_map,find?_cons_of_pos hp]
  have hn : (extract32 (bankSmmu numCb b ttbr0High dma).sidr0 0 8).toNat = 47+1 :=
    (by decide : (extract32 48 0 8).toNat = 47+1)
  have hba : (extract32 (BitVec.ofNat 32 b) 0 8).toNat = b := by
    rw [extract32,toNat_and_lowMask,ushiftRight_zero,toNat_ofNat]
    omega
  rw [smmu500StreamIdMatch,hn,hf]
  · exact congrArg some hba
  · have hs : extract32 ((bankSmmu numCb b ttbr0High dma).smr 0) 16 15 = 0x7FFF :=
      (by decide : extract32 0xFFFF0000 16 15 = 0x7FFF)
    dsimp only
    rw [hs,hm]
    exact (by decide : (bit32 0xFFFF0000 31 && (~~~0x7FFF &&& extract32 0xFFFF0000 0 15 == 0)) = true)

omit hb in
lemma at64_bankSmmu : smmu500At64 b 0 false true 12 (bankSmmu numCb b ttbr0High dma) =
    some (⟨false,0,.rw,12⟩,bankSmmu numCb b ttbr0High dma) := by
  have ht : ((bankSmmu numCb b ttbr0High dma).banks b).type = 1 := (by decide : (extract32 0x10000 16 2).toNat = 1)
  have ho : (!bit32 ((bankSmmu numCb b ttbr0High dma).banks b).sctlr 0) = true := (by decide : (!bit32 0 0) = true)
  have hw : ∀ req, smmu500Ptw64 b req (bankSmmu numCb b ttbr0High dma) =
      some ({ req with err := false, pa := req.va, prot := .rw },bankSmmu numCb b ttbr0High dma) := fun req => by
    rw [smmu500Ptw64,walk,walkWith,if_pos ho]
    rfl
  simp [smmu500At64,walkReq,ht,hw]

lemma translate_bankSmmu {sid : U64} (h : (masterId 0 sid).toNat < 2^15) (hcb : b < numCb) :
    smmu500Translate 0 .read sid (bankSmmu numCb b ttbr0High dma) =
      some (⟨0,0,lowMask 12,.rw⟩,bankSmmu numCb b ttbr0High dma) := by
  have hc : bit32 (bankSmmu numCb b ttbr0High dma).scr0 0 = false := (by decide : bit32 0 0 = false)
  have hn : ¬ (bankSmmu numCb b ttbr0High dma).numCb ≤ b := not_le.mpr hcb
  have ha : lookupAddress 0 = 0 := by decide
  rw [smmu500Translate,hc,streamIdMatch_bankSmmu hb ttbr0High dma h,ha]
  simp only [Bool.false_eq_true,if_false,if_neg hn]
  rw [show (TlmCommand.read == TlmCommand.write) = false from rfl,at64_bankSmmu]
  rfl

lemma getDirectMemPtr_bankSmmu {id : U32} (h : (masterId 0 (id.setWidth 64)).toNat < 2^15) (hcb : b < numCb) :
    Tbu.getDirectMemPtr wholeSpace 0 .read { topologyId := id } (bankSmmu numCb b ttbr0High dma) =
      some ((true,⟨0,0xFFF,0,.rw⟩),Tbu.track
        (smmu500StreamIdMatch (id ||| ((0 : U64) >>> 32 &&& 0xF).setWidth 32) (bankSmmu numCb b ttbr0High dma))
        ⟨0,0xFFF,0,.rw⟩ { topologyId := id },bankSmmu numCb b ttbr0High dma) := by
  have hm : (lowMask 12 : U64) ≠ allOnes 64 := by decide
  have hp : IOMMUTLBEntry.pageStart ⟨0,0,lowMask 12,.rw⟩ = 0 := by decide
  have he : IOMMUTLBEntry.pageEnd ⟨0,0,lowMask 12,.rw⟩ = 0x1000 := by decide
  rw [Tbu.getDirectMemPtr,Tbu.sid,translate_bankSmmu hb ttbr0High dma h hcb]
  rfl

end

lemma getDirectMemPtr_openSmmu {id : U32} (hl : 2^16 ≤ id.toNat) (hbi : id.getLsbD 15 = false) {numCb : ℕ}
    (hcb : 0 < numCb) (dma : M) : bankOf 0 (id.setWidth 64) (openSmmu numCb dma) = some 0 ∧
      Tbu.getDirectMemPtr wholeSpace 0 .read { topologyId := id } (openSmmu numCb dma) =
        some ((true,⟨0,0xFFF,0,.rw⟩),{ topologyId := id },openSmmu numCb dma) := by
  have hid := masterId_lt_of_bit hbi
  have ho : openSmmu numCb dma = bankSmmu numCb 0 0 dma := rfl
  have hc : bit32 (openSmmu numCb dma).scr0 0 = false := (by decide : bit32 0 0 = false)
  constructor
  · rw [bankOf,hc,ho,streamIdMatch_bankSmmu (by omega) 0 dma hid]
    rfl
  · rw [ho,getDirectMemPtr_bankSmmu (by omega) 0 dma hid hcb,streamIdMatch_of_large hl]
    rfl

lemma run_kept (l : List (Action M)) (s : System M) : (l.foldl step s).smmu.numCb = s.smmu.numCb ∧
    (l.foldl step s).tbus.map Tbu.topologyId = s.tbus.map Tbu.topologyId := by
  induction l generalizing s with
  | nil => exact ⟨rfl,rfl⟩
  | cons a l ih => exact ⟨(ih _).1.trans (step_numCb s a),(ih _).2.trans (step_topologyId s a)⟩

/-- Where every identifier is trackable, everything granted is tracked along a run. -/
lemma run_tracked (l : List (Action M)) (h : s.Tracked) (hi : ∀ t ∈ s.tbus, Trackable t.topologyId) :
    (l.foldl step s).Tracked := by
  induction l generalizing s with
  | nil => exact h
  | cons a l ih =>
    refine ih (step_tracked h hi a) fun t ht => ?_
    have hm := List.mem_map_of_mem (f := Tbu.topologyId) ht
    rw [step_topologyId] at hm
    obtain ⟨t0,ht0,hid⟩ := List.mem_map.mp hm
    exact hid ▸ hi t0 ht0

/-- `TLBIALL` covers every grant in every state of every run exactly when every front end has an identifier of sixteen
bits or one that no register matches. -/
theorem tlbiAll_covers_iff (smmu : Smmu500 M) (ids : List U32) :
    (∀ l : List (Action M), (l.foldl step (start smmu ids)).TlbiAllCovers) ↔
      smmu.numCb = 0 ∨ ∀ id ∈ ids, Trackable id := by
  constructor
  · intro h
    refine or_iff_not_imp_left.mpr fun hn id hid => ?_
    have hcb := Nat.pos_of_ne_zero hn
    by_contra htr
    obtain ⟨hl,hbi⟩ := not_or.mp htr
    obtain ⟨i,hi⟩ := mem_iff_getElem?.mp hid
    obtain ⟨hba,hd⟩ := getDirectMemPtr_openSmmu (not_lt.mp hl) (Bool.eq_false_iff.mpr hbi) hcb smmu.dma
    have ht : (start smmu ids).tbus[i]? = some { topologyId := id } := by
      rw [start,getElem?_map,hi]
      rfl
    have ho : step (start smmu ids) (.other (openSmmu smmu.numCb smmu.dma)) =
      ⟨openSmmu smmu.numCb smmu.dma,(start smmu ids).tbus,[],[]⟩ := rfl
    obtain ⟨phys,hr⟩ := request_granted (s := ⟨openSmmu smmu.numCb smmu.dma,(start smmu ids).tbus,[],[]⟩) ht hd
    have hc := h [.other (openSmmu smmu.numCb smmu.dma),.request i wholeSpace 0 .read]
    rw [foldl_cons,ho,foldl_cons,foldl_nil,step,hr] at hc
    obtain ⟨first,second,hp,-⟩ := (hc 0 hcb _ mem_cons_self).1 hba
    dsimp only [passed,getD_some] at hp
    rw [getElem?_set_self (List.getElem?_eq_some_iff.mp ht).1] at hp
    cases hp
  · rintro (hn | his) l
    · intro cb hcb
      rw [(run_kept l _).1,start,hn] at hcb
      cases hcb
    · refine (run_tracked l ?_ ?_).tlbiAllCovers
      · intro g hg
        cases hg
      · intro t ht
        obtain ⟨id,hid,rfl⟩ := List.mem_map.mp ht
        exact his id hid

/-- With the identifier `0x10000` `TLBIALL` passes nothing upstream of a granted page; with 0 it passes the page. -/
theorem tlbiAll_misses_wide_id :
    let run (id : U32) : System Ram := step (start (Tbu.tbuSmmu 0x10000 [(0x20000,0x21003),(0x21000,0x22003),(0x22008,0x5443)])
      [id]) (.request 0 Tbu.wholeMemory 0x1000 .read)
    (run 0x10000).granted.map (fun g => (g.bank,g.range)) = [(some 0,(0x1000,0x1FFF))] ∧
      (run 0x10000).passed 0 0 = none ∧ (run 0).passed 0 0 = some (0x1000,0x1FFF) ∧ ¬ (run 0x10000).TlbiAllCovers := by
  refine ⟨by decide +kernel,by decide +kernel,by decide +kernel,fun h => ?_⟩
  obtain ⟨g,hg,hba,hp⟩ : ∃ g, g ∈ (step (start (Tbu.tbuSmmu 0x10000
      [(0x20000,0x21003),(0x21000,0x22003),(0x22008,0x5443)]) [0x10000]) (.request 0 Tbu.wholeMemory 0x1000 .read)).granted ∧
      g.bank = some 0 ∧ (step (start (Tbu.tbuSmmu 0x10000
        [(0x20000,0x21003),(0x21000,0x22003),(0x22008,0x5443)]) [0x10000])
          (.request 0 Tbu.wholeMemory 0x1000 .read)).passed 0 g.tbu = none :=
    ⟨⟨0,some 0,⟨0x1000,0x1FFF,0x5000,.rw⟩,0x5000,true⟩,by decide +kernel⟩
  obtain ⟨first,second,hs,-⟩ := (h 0 (by decide +kernel) g hg).1 hba
  cases hp.symm.trans hs

def Backed (s : System M) : Prop := ∀ g ∈ s.held, g.live = true

/-- An invalidation by the memory behind touches no byte behind a region in use. -/
def TouchesNoGrant (s : System M) : Action M → Prop
  | .invalidate i start stop => ∀ g ∈ s.held, g.tbu = i → meets g.physRange (start,stop) = false
  | _ => True

omit [DmaSocket M] in
lemma invalidateMemory_backed_iff (h : s.Backed) (i : ℕ) (start stop : U64) :
    (s.invalidateMemory i start stop).Backed ↔ s.TouchesNoGrant (.invalidate i start stop) := by
  have hs : ((s.tbus[i]?).map (Tbu.invalidateDirectMemPtr start stop)).getD [] = [] := by
    cases s.tbus[i]? <;> rfl
  have hh : (s.invalidateMemory i start stop).held = s.held.map fun g =>
      if g.tbu = i && meets g.physRange (start,stop) then { g with live := false } else g := by
    simp [invalidateMemory,hs]
  rw [Backed,hh,List.forall_mem_map]
  refine forall₂_congr fun g hg => ?_
  have hl := h g hg
  by_cases hi : g.tbu = i <;> cases hm : meets g.physRange (start,stop) <;> simp [hi,hl]

lemma step_backed_iff (h : s.Backed) (a : Action M) : (s.step a).Backed ↔ s.TouchesNoGrant a := by
  have hba : ∀ cb, (s.invalidateBank cb).Backed := fun cb g hg => h g (mem_filter.mp hg).1
  cases a with
  | request i downstream addr cmd =>
    refine iff_of_true ?_ trivial
    rw [step]
    cases hr : s.request i downstream addr cmd with
    | none => exact h
    | some s' =>
      obtain ⟨t,te,s1,ret,region,t',smmu,-,-,-,rfl⟩ := request_cases hr
      cases ret with
      | false => exact h
      | true => exact forall_mem_cons.mpr ⟨rfl,h⟩
  | tlbiAll cb =>
    refine iff_of_true ?_ trivial
    rw [step]
    split_ifs
    · exact hba cb
    · exact h
  | tlbiAsid cb val =>
    refine iff_of_true ?_ trivial
    rw [step]
    split_ifs
    · exact hba _
    · exact h
  | invalidate i start stop => exact invalidateMemory_backed_iff h i start stop
  | other smmu => exact iff_of_true h trivial

/-- In a run from power-on no master holds a withdrawn region exactly when no invalidation by the memory touches a
region in use. -/
theorem memory_invalidation_reaches_iff (smmu : Smmu500 M) (ids : List U32) (l : List (Action M)) :
    (∀ l', l' <+: l → (l'.foldl step (start smmu ids)).Backed) ↔
      GuardedRun.Along step TouchesNoGrant (start smmu ids) l :=
  GuardedRun.forall_prefix_iff_along (J := fun _ => True) (I := Backed) (fun _ _ _ _ _ => trivial)
    (fun _ a _ h => step_backed_iff h a)
    trivial (fun _ hg => absurd hg not_mem_nil) l

/-- The memory withdraws the frame of a granted page, and the master keeps the page. -/
theorem memory_invalidation_swallowed :
    let run : List (Action Ram) := [.request 0 Tbu.wholeMemory 0x1000 .read,.invalidate 0 0x5000 0x5FFF]
    let s : System Ram := run.foldl step
      (start (Tbu.tbuSmmu 0x10000 [(0x20000,0x21003),(0x21000,0x22003),(0x22008,0x5443)]) [0])
    s.held = [⟨0,some 0,⟨0x1000,0x1FFF,0x5000,.rw⟩,0x5000,false⟩] ∧ ¬ s.Backed := by
  have hh : (List.foldl step (start (Tbu.tbuSmmu 0x10000 [(0x20000,0x21003),(0x21000,0x22003),(0x22008,0x5443)]) [0])
      [.request 0 Tbu.wholeMemory 0x1000 .read,.invalidate 0 0x5000 0x5FFF]).held =
        [⟨0,some 0,⟨0x1000,0x1FFF,0x5000,.rw⟩,0x5000,false⟩] := by
    decide +kernel
  refine ⟨hh,fun h => ?_⟩
  have hl := h ⟨0,some 0,⟨0x1000,0x1FFF,0x5000,.rw⟩,0x5000,false⟩ (by rw [hh]; exact mem_singleton.mpr rfl)
  cases hl

end System

end Qbox.Smmu500
