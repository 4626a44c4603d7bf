import Qbox.InitiatorDmi

/-! Translations answered from the cache of `dmi_translate` against those of its slow path. -/
namespace Qbox.Initiator
open MachineWord BitVec Option

/-- The translation that the slow path makes of an answer of the bus. -/
def slowEntry (answer : DmiAnswer) (baseAddr addr : U64) (minPageSz : ℕ) : IOMMUTLBEntry := if answer.valid then
    match answer.getLast .iommu with
    | some lu => iommuEntry addr answer.dmi lu
    | none => passthrough baseAddr addr (lowMask minPageSz) answer.dmi.access
  else passthrough baseAddr addr (lowMask minPageSz) .rw

/-- The entry built for an address from one found in the cache. -/
def fastEntry (te : IOMMUTLBEntry) (addr : U64) : IOMMUTLBEntry :=
  { te with iova := addr, translatedAddr := (te.translatedAddr &&& ~~~te.addrMask)+(addr &&& te.addrMask) }

variable {answer : DmiAnswer} {baseAddr addr : U64} {mr : IOMMUMemoryRegion}

lemma dmiTranslate_hit {e : U64 × IOMMUTLBEntry} (h : findRegion mr.mappedTe addr = some e) :
    dmiTranslate answer baseAddr addr mr = some (fastEntry e.2 addr,mr) := by
  rw [dmiTranslate,h]
  rfl

lemma dmiTranslate_miss (h : findRegion mr.mappedTe addr = none) : dmiTranslate answer baseAddr addr mr =
      let te := slowEntry answer baseAddr addr mr.minPageSz
      if answer.valid = false ∧ mr.mappedTe.find (addr &&& ~~~te.addrMask) ≠ none then none
      else some (te,mr.store addr te) := by
  rw [dmiTranslate,h,slowEntry]
  cases hv : answer.valid with
  | true => rfl
  | false =>
    cases hf : mr.mappedTe.find (addr &&& ~~~lowMask mr.minPageSz) with
    | none | some te => simp [passthrough,hf]

def physical (te : IOMMUTLBEntry) (addr : U64) : U64 := (te.translatedAddr &&& ~~~te.addrMask) ||| (addr &&& te.addrMask)

/-- Two entries lead an address to the same place with the same rights. -/
structure SameAnswer (te te' : IOMMUTLBEntry) (addr : U64) : Prop where
  targetAs : te.targetAs = te'.targetAs
  perm : te.perm = te'.perm
  physical : physical te addr = physical te' addr

lemma sameAnswer_fastEntry {te te' : IOMMUTLBEntry} :
    SameAnswer (fastEntry te addr) te' addr ↔ SameAnswer te te' addr := by
  have hph : physical (fastEntry te addr) addr = physical te addr := by
    have hd : (te.translatedAddr &&& ~~~te.addrMask) &&& (addr &&& te.addrMask) = 0 := by
      refine eq_of_getLsbD_eq fun i hi => ?_
      grind
    rw [physical,physical,fastEntry]
    simp only [add_eq_or_of_and_eq_zero _ _ hd]
    refine eq_of_getLsbD_eq fun i hi => ?_
    grind
  constructor
  · rintro ⟨has,hp,h⟩
    exact ⟨has,hp,hph.symm.trans h⟩
  · rintro ⟨has,hp,h⟩
    exact ⟨has,hp,hph.trans h⟩

section
variable (downstream : U64 → DmiAnswer) (baseAddr : U64)

def translateStep (mr : IOMMUMemoryRegion) (addr : U64) : Option IOMMUMemoryRegion :=
  (dmiTranslate (downstream (baseAddr+addr)) baseAddr addr mr).map Prod.snd

def slow (minPageSz : ℕ) (addr : U64) : IOMMUTLBEntry := slowEntry (downstream (baseAddr+addr)) baseAddr addr minPageSz

/-- After any requests of a new region, what the cache answers is what the slow path would. -/
def CacheTransparent (size : U64) (minPageSz : ℕ) : Prop :=
  ∀ (requests : List U64) mr, requests.foldlM (translateStep downstream baseAddr) ⟨size,minPageSz,.empty⟩ = some mr →
    ∀ addr te mr', findRegion mr.mappedTe addr ≠ none →
      dmiTranslate (downstream (baseAddr+addr)) baseAddr addr mr = some (te,mr') →
      SameAnswer te (slow downstream baseAddr minPageSz addr) addr

/-- The translation of an address is that of every address its mask joins to it. -/
def BlockUniform (minPageSz : ℕ) : Prop := ∀ addr x, x &&& ~~~(slow downstream baseAddr minPageSz addr).addrMask =
      addr &&& ~~~(slow downstream baseAddr minPageSz addr).addrMask →
    SameAnswer (slow downstream baseAddr minPageSz addr) (slow downstream baseAddr minPageSz x) x

/-- Every entry of the table is the slow path's, under the first address of its block. -/
def FromSlow (minPageSz : ℕ) (mr : IOMMUMemoryRegion) : Prop :=
  mr.minPageSz = minPageSz ∧ ∀ e ∈ mr.mappedTe, ∃ addr, e.2 = slow downstream baseAddr minPageSz addr ∧
    e.1 = addr &&& ~~~e.2.addrMask

variable {downstream baseAddr} {minPageSz : ℕ}

lemma FromSlow.step {mr mr' : IOMMUMemoryRegion} (h : FromSlow downstream baseAddr minPageSz mr)
    (hs : translateStep downstream baseAddr mr addr = some mr') : FromSlow downstream baseAddr minPageSz mr' := by
  obtain ⟨⟨te,_⟩,ht,rfl⟩ := map_eq_some_iff.mp hs
  cases hf : findRegion mr.mappedTe addr with
  | some e =>
    rw [dmiTranslate_hit hf] at ht
    cases ht
    exact h
  | none =>
    rw [dmiTranslate_miss hf] at ht
    dsimp only at ht
    split_ifs at ht
    cases ht
    refine ⟨h.1,fun e he => ?_⟩
    rcases OrderedMap.mem_assign.mp he with rfl | ⟨he,-⟩
    · exact ⟨addr,by rw [slow,h.1],rfl⟩
    · exact h.2 e he

lemma FromSlow.run {requests : List U64} {mr mr' : IOMMUMemoryRegion} (h : FromSlow downstream baseAddr minPageSz mr)
    (hru : requests.foldlM (translateStep downstream baseAddr) mr = some mr') :
    FromSlow downstream baseAddr minPageSz mr' := by
  induction requests generalizing mr with
  | nil =>
    cases hru
    exact h
  | cons addr requests ih =>
    obtain ⟨mr1,hs,hr⟩ := bind_eq_some_iff.mp hru
    exact ih (h.step hs) hr

lemma findRegion_eq_some {table : OrderedMap U64 IOMMUTLBEntry} {e : U64 × IOMMUTLBEntry}
    (h : findRegion table addr = some e) : e ∈ table ∧ addr &&& ~~~e.2.addrMask = e.1 := by
  rw [findRegion] at h
  split at h
  · next hb =>
    split_ifs at h with hm
    cases h
    exact ⟨(OrderedMap.beforeUpperBound_eq_some.mp hb).1,hm⟩
  · cases h

lemma findRegion_single {te : IOMMUTLBEntry} {key x : U64} (h : x &&& ~~~te.addrMask = key) :
    findRegion (OrderedMap.empty.assign key te) x = some (key,te) := by
  have hle : key ≤ x := by
    rw [← h,le_def,toNat_and]
    exact Nat.and_le_left
  have hb : (OrderedMap.empty.assign key te).beforeUpperBound x = some (key,te) := by
    refine OrderedMap.beforeUpperBound_eq_some.mpr ⟨OrderedMap.mem_assign.mpr (.inl rfl),hle,fun a ha _ => ?_⟩
    rcases OrderedMap.mem_assign.mp ha with rfl | ⟨ha,-⟩
    · exact le_rfl
    · exact absurd ha (OrderedMap.not_mem_empty a)
  simp [findRegion,hb,h]

end

def twoPages (addr : U64) : DmiAnswer :=
  if 0x1000 ≤ addr ∧ addr ≤ 0x2FFF then ⟨true,⟨0x1000,0x2FFF,0,.rw⟩,[(.iommu,⟨0x5000,0x6FFF,0,.rw⟩)]⟩
  else ⟨false,QemuInitiatorSocket.noDmi,[]⟩

end Qbox.Initiator
