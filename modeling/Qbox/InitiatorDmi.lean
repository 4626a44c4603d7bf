import Qbox.OrderedMap
import Qbox.Tlm

/-! Direct memory on the QEMU side of an initiator socket: the translations an
IOMMU region has handed out, the aliases of plain memory, and their invalidation. -/
namespace Qbox.Initiator
open MachineWord OrderedMap

/-- The address space a translation leads into: `m_as_te` or `m_as_io`. -/
inductive TargetAs where
  | te | io
  deriving DecidableEq, Repr

structure IOMMUTLBEntry where
  targetAs : TargetAs
  iova : U64
  translatedAddr : U64
  addrMask : U64
  perm : IOMMUAccessFlags
  deriving DecidableEq

/-- `IOMMUMemoryRegion`: its size, the logarithm of its page size, and the translations by their first offset. -/
structure IOMMUMemoryRegion where
  size : U64
  minPageSz : ℕ
  mappedTe : OrderedMap U64 IOMMUTLBEntry

/-- `tlm_dmi_ex::dmi_type`. -/
inductive DmiType where
  | mapped | nomap | valid | iommu
  deriving DecidableEq, Repr

/-- What a DMI request brings back: success, the region, and the regions recorded on the way. -/
structure DmiAnswer where
  valid : Bool
  dmi : TlmDmi
  underlying : List (DmiType × TlmDmi)

variable (answer : DmiAnswer)

def DmiAnswer.getFirst (type : DmiType) : Option TlmDmi :=
  (answer.underlying.find? (fun d => d.1 == type)).map Prod.snd

def DmiAnswer.getLast (type : DmiType) : Option TlmDmi :=
  (answer.underlying.reverse.find? (fun d => d.1 == type)).map Prod.snd

/-- The entry at the greatest key not above the address, if the address masked by it is that key. -/
def findRegion (table : OrderedMap U64 IOMMUTLBEntry) (addr : U64) : Option (U64 × IOMMUTLBEntry) :=
  match table.beforeUpperBound addr with
  | some e => if addr &&& ~~~e.2.addrMask = e.1 then some e else none
  | none => none

/-- A 1-1 translation of the least page into the untranslated address space. -/
def passthrough (baseAddr addr mask : U64) (perm : IOMMUAccessFlags) : IOMMUTLBEntry where
  targetAs := .io
  iova := addr &&& ~~~mask
  translatedAddr := (addr &&& ~~~mask)+baseAddr
  addrMask := mask
  perm := perm

/-- A translation into the memory behind the IOMMU, of the size of the region granted. -/
def iommuEntry (addr : U64) (ldmi lu : TlmDmi) : IOMMUTLBEntry where
  targetAs := .te
  iova := addr
  translatedAddr := lu.start+(ldmi.ptr-lu.ptr)+(addr &&& (ldmi.endAddr-ldmi.start))
  addrMask := ldmi.endAddr-ldmi.start
  perm := ldmi.access

def IOMMUMemoryRegion.store (iommumr : IOMMUMemoryRegion) (addr : U64) (te : IOMMUTLBEntry) : IOMMUMemoryRegion :=
  { iommumr with mappedTe := iommumr.mappedTe.assign (addr &&& ~~~te.addrMask) te }

/-- `dmi_translate`: the entry and the region after it; `none` is a 1-1 mapping over an existing one. -/
def dmiTranslate (baseAddr addr : U64) (iommumr : IOMMUMemoryRegion) : Option (IOMMUTLBEntry × IOMMUMemoryRegion) :=
  match findRegion iommumr.mappedTe addr with
  | some e =>
    some ({ e.2 with
      iova := addr
      translatedAddr := (e.2.translatedAddr &&& ~~~e.2.addrMask)+(addr &&& e.2.addrMask) },iommumr)
  | none =>
    if answer.valid then
      let te := match answer.getLast .iommu with
        | some lu => iommuEntry addr answer.dmi lu
        | none => passthrough baseAddr addr (lowMask iommumr.minPageSz) answer.dmi.access
      some (te,iommumr.store addr te)
    else
      let te := passthrough baseAddr addr (lowMask iommumr.minPageSz) .rw
      match iommumr.mappedTe.find (addr &&& ~~~te.addrMask) with
      | some _ => none
      | none => some (te,iommumr.store addr te)

/-- A `QemuInitiatorSocket`: the IOMMU regions by base, the last address of each alias by its first, the ranges still
to be invalidated. -/
structure QemuInitiatorSocket where
  finished : Bool
  mmioMrs : OrderedMap U64 IOMMUMemoryRegion
  dmiAliases : OrderedMap U64 U64
  ranges : List (U64 × U64)

namespace QemuInitiatorSocket
/-- The aliases an invalidation visits: from the one before the first that begins above `start`. -/
def visited (aliases : OrderedMap U64 U64) (start : U64) : List (U64 × U64) :=
  (aliases.beforeUpperBound start).toList ++ aliases.beyond start

def invalidateSingleRange (aliases : OrderedMap U64 U64) (start stop : U64) : OrderedMap U64 U64 :=
  eraseScan (fun a => decide (stop < a.1)) (fun a => !decide (a.2 < start)) (visited aliases start)
    aliases

variable (s : QemuInitiatorSocket)

/-- The aliases once the queued ranges have been invalidated. -/
def drainRanges : OrderedMap U64 U64 :=
  s.ranges.foldl (fun aliases r => invalidateSingleRange aliases r.1 r.2) s.dmiAliases

def invalidateRangesSafeCb : QemuInitiatorSocket :=
  if s.finished then s else { s with dmiAliases := s.drainRanges, ranges := [] }

def regionMatch (mrRelStart mrRelEnd addr mask : U64) : Bool :=
  decide (mrRelStart ≤ addr+mask+1) && decide (addr ≤ mrRelEnd)

def invalidatePrev (mrRelStart mrRelEnd : U64) (table : OrderedMap U64 IOMMUTLBEntry) :
    OrderedMap U64 IOMMUTLBEntry :=
  match table.beforeLowerBound mrRelStart with
  | some prev => if regionMatch mrRelStart mrRelEnd prev.1 prev.2.addrMask then table.erase prev.1 else table
  | none => table

/-- The invalidation of one region's translations, in offsets of that region. -/
def invalidateTe (mrRelStart mrRelEnd : U64) (table : OrderedMap U64 IOMMUTLBEntry) : OrderedMap U64 IOMMUTLBEntry :=
  eraseScan (fun t => decide (mrRelEnd < t.1))
    (fun t => regionMatch mrRelStart mrRelEnd t.1 t.2.addrMask) (table.fromLowerBound mrRelStart)
    (invalidatePrev mrRelStart mrRelEnd table)

variable (start stop : U64)

/-- The first region, in the order of the bases, that meets the range. -/
def firstOverlap : Option (U64 × IOMMUMemoryRegion) :=
  s.mmioMrs.entries.find? (fun m => decide (start ≤ m.1+m.2.size-1) && decide (m.1 ≤ stop))

def invalidateDirectMemPtr (s : QemuInitiatorSocket) : QemuInitiatorSocket := if s.finished then s
  else
    match s.firstOverlap start stop with
    | some (mrStart,mr) =>
      { s with mmioMrs := s.mmioMrs.assign mrStart
                 { mr with mappedTe := invalidateTe (start-mrStart) (stop-mrStart) mr.mappedTe } }
    | none => { s with ranges := s.ranges ++ [(start,stop)] }

/-- The state once the invalidation and the queued callback have run. -/
def invalidated : QemuInitiatorSocket := (s.invalidateDirectMemPtr start stop).invalidateRangesSafeCb

def noDmi : TlmDmi := ⟨0,BitVec.allOnes 64,0,.none⟩

def maxMap : ℕ := 250

/-- `check_dmi_hint_locked`: the region and the state after it; `none` is fatal. `minPageSz` is what QEMU reports for
a new region. -/
def checkDmiHintLocked (answer : DmiAnswer) (minPageSz : ℕ) (addr : U64) (s : QemuInitiatorSocket) :
    Option (TlmDmi × QemuInitiatorSocket) :=
  match s.mmioMrs.entries.find? (fun m => decide (m.1 ≤ addr) && decide (addr ≤ m.1+m.2.size-1)) with
  | some (mrStart,mr) =>
    match findRegion mr.mappedTe (addr-mrStart) with
    | some e =>
      some (noDmi,{ s with mmioMrs := s.mmioMrs.assign mrStart { mr with mappedTe := mr.mappedTe.erase e.1 } })
    | none => some (noDmi,s)
  | none =>
    if !answer.valid then
      some ((answer.getFirst .mapped).getD ((answer.getFirst .nomap).getD answer.dmi),s)
    else if (answer.getLast .iommu).isSome then
      match answer.getFirst .mapped with
      | none => none
      | some firstMap =>
        let start := firstMap.start
        let size := firstMap.endAddr-firstMap.start+1
        match s.mmioMrs.find start with
        | none =>
          some (answer.dmi,{ s with
            dmiAliases := invalidateSingleRange s.dmiAliases start (start+size-1)
            mmioMrs := s.mmioMrs.assign start ⟨size,minPageSz,.empty⟩ })
        | some mr => some (answer.dmi,s.invalidateDirectMemPtr start (start+mr.size-1))
    else if maxMap < s.dmiAliases.entries.length then none
    else some (answer.dmi,{ s with dmiAliases := s.dmiAliases.emplace answer.dmi.start answer.dmi.endAddr })

def reset : QemuInitiatorSocket := { s with
    mmioMrs := ⟨s.mmioMrs.entries.map (fun m => (m.1,{ m.2 with mappedTe := .empty })),
      List.pairwise_map.mpr s.mmioMrs.sorted⟩
    dmiAliases := .empty }

def endOfSimulation : QemuInitiatorSocket := { s with finished := true }

inductive Action where
  | translate (answer : DmiAnswer) (baseAddr addr : U64)
  | hint (answer : DmiAnswer) (minPageSz : ℕ) (addr : U64)
  | invalidate (start stop : U64)
  | callback
  | reset
  | finish

/-- One call of the socket; a translation reaches the region registered at its base. -/
def step : Action → Option QemuInitiatorSocket
  | .translate answer baseAddr addr =>
    match s.mmioMrs.find baseAddr with
    | some mr => (dmiTranslate answer baseAddr addr mr).map fun r =>
        { s with mmioMrs := s.mmioMrs.assign baseAddr r.2 }
    | none => some s
  | .hint answer minPageSz addr => (s.checkDmiHintLocked answer minPageSz addr).map Prod.snd
  | .invalidate start stop => some (s.invalidateDirectMemPtr start stop)
  | .callback => some s.invalidateRangesSafeCb
  | .reset => some s.reset
  | .finish => some s.endOfSimulation

def fresh : QemuInitiatorSocket := ⟨false,.empty,.empty,[]⟩

def run (actions : List Action) : Option QemuInitiatorSocket := actions.foldlM step fresh

def Meets (lo hi start stop : ℕ) : Prop := max lo start ≤ min hi stop

instance (lo hi start stop : ℕ) : Decidable (Meets lo hi start stop) :=
  inferInstanceAs (Decidable (max lo start ≤ min hi stop))

def TeMeets (base : U64) (t : U64 × IOMMUTLBEntry) : Prop :=
  Meets (base.toNat+t.1.toNat) (base.toNat+t.1.toNat+t.2.addrMask.toNat) start.toNat stop.toNat

def AliasMeets (a : U64 × U64) : Prop := Meets a.1.toNat a.2.toNat start.toNat stop.toNat

instance (start stop base : U64) (t : U64 × IOMMUTLBEntry) : Decidable (TeMeets start stop base t) :=
  inferInstanceAs (Decidable (Meets _ _ _ _))

instance (start stop : U64) (a : U64 × U64) : Decidable (AliasMeets start stop a) :=
  inferInstanceAs (Decidable (Meets _ _ _ _))

/-- No translation of any region and no alias has an address of the range. -/
def Invalidated : Prop := (∀ m ∈ s.mmioMrs, ∀ t ∈ m.2.mappedTe, ¬ TeMeets start stop m.1 t) ∧
    ∀ a ∈ s.dmiAliases, ¬ AliasMeets start stop a

instance (s : QemuInitiatorSocket) (start stop : U64) : Decidable (s.Invalidated start stop) :=
  inferInstanceAs (Decidable (_ ∧ _))

/-- The invalidation gets to a translation: its region is the first that meets the range, and its offset is not below
that of the range or the last below it, as `region_match` compares. -/
def TeReached (m : U64 × IOMMUMemoryRegion) (t : U64 × IOMMUTLBEntry) : Prop :=
  s.finished = false ∧ s.firstOverlap start stop = some m ∧
    regionMatch (start-m.1) (stop-m.1) t.1 t.2.addrMask = true ∧
    (start-m.1 ≤ t.1 ∨ m.2.mappedTe.beforeLowerBound (start-m.1) = some t)

/-- The invalidation gets to an alias: a queued range removes it, or no region meets the range and no alias begins
between. -/
def AliasReached (a : U64 × U64) : Prop := s.finished = false ∧ (a ∉ s.drainRanges ∨
    s.firstOverlap start stop = none ∧ ∀ b ∈ s.drainRanges, b.1 ≤ start → b.1 ≤ a.1)

section
variable {s : QemuInitiatorSocket} {start stop : U64}

lemma mem_visited {aliases : OrderedMap U64 U64} {a : U64 × U64} :
    a ∈ visited aliases start ↔ a ∈ aliases ∧ ∀ b ∈ aliases, b.1 ≤ start → b.1 ≤ a.1 :=
  mem_fromBeforeUpperBound

lemma visited_sorted (aliases : OrderedMap U64 U64) (start : U64) :
    (visited aliases start).Pairwise (fun a b => a.1 < b.1) :=
  aliases.fromBeforeUpperBound_sorted start

/-- An alias that meets the range survives exactly when another one begins between it and the range. -/
lemma mem_invalidateSingleRange {aliases : OrderedMap U64 U64} {a : U64 × U64} :
    a ∈ invalidateSingleRange aliases start stop ↔ a ∈ aliases ∧
      ¬ ((a.1 ≤ stop ∧ start ≤ a.2) ∧ ∀ b ∈ aliases, b.1 ≤ start → b.1 ≤ a.1) := by
  have hp := past_pairwise (visited_sorted aliases start) stop
  rw [invalidateSingleRange,mem_eraseScan_self hp fun b hb => (mem_visited.mp hb).1]
  refine and_congr_right fun ha => not_congr ?_
  simp only [mem_visited,ha,true_and,decide_eq_false_iff_not,not_lt,Bool.not_eq_true']
  tauto

lemma mem_drainRanges {a : U64 × U64} (h : a ∈ s.drainRanges) : a ∈ s.dmiAliases :=
  List.foldlRecOn (motive := fun aliases => a ∈ aliases → a ∈ s.dmiAliases) s.ranges _ id
    (fun _ ih _ _ ha => ih (mem_invalidateSingleRange.mp ha).1) h

section
variable {relStart relEnd : U64} {table : OrderedMap U64 IOMMUTLBEntry} {t : U64 × IOMMUTLBEntry}

lemma mem_invalidatePrev : t ∈ invalidatePrev relStart relEnd table ↔ t ∈ table ∧
    ¬ (regionMatch relStart relEnd t.1 t.2.addrMask = true ∧ table.beforeLowerBound relStart = some t) := by
  rw [invalidatePrev]
  cases hb : table.beforeLowerBound relStart with
  | none => simp
  | some prev =>
    have hp := (OrderedMap.beforeLowerBound_eq_some.mp hb).1
    have hke : t ∈ table → (t.1 = prev.1 ↔ prev = t) := by
      intro ht
      exact ⟨fun hk => eq_of_mem hp ht hk.symm,fun h => by rw [h]⟩
    by_cases hm : regionMatch relStart relEnd prev.1 prev.2.addrMask = true
    · simp only [hm,if_true,mem_erase,Option.some.injEq]
      grind
    · simp only [hm,Option.some.injEq]
      grind

/-- A translation survives when the comparison fails or it is more than one entry below the range. -/
lemma mem_invalidateTe : t ∈ invalidateTe relStart relEnd table ↔ t ∈ table ∧
    ¬ (regionMatch relStart relEnd t.1 t.2.addrMask = true ∧
      (relStart ≤ t.1 ∨ table.beforeLowerBound relStart = some t)) := by
  have hs : (table.fromLowerBound relStart).Pairwise (fun a b => a.1 < b.1) := table.sorted_ahead _
  have hp := past_pairwise hs relEnd
  have hsc : t ∈ table → ((∀ a ∈ table.fromLowerBound relStart, a.1 = t.1 → decide (relEnd < a.1) = false →
      regionMatch relStart relEnd a.1 a.2.addrMask = false) ↔
      ¬ (regionMatch relStart relEnd t.1 t.2.addrMask = true ∧ relStart ≤ t.1)) := by
    intro ht
    constructor
    · rintro h ⟨hm,hle⟩
      have hlt : t.1 ≤ relEnd := by
        rw [regionMatch,Bool.and_eq_true,decide_eq_true_eq,decide_eq_true_eq] at hm
        exact hm.2
      have hf := h t (OrderedMap.mem_fromLowerBound.mpr ⟨ht,hle⟩) rfl (by simpa using hlt)
      rw [hm] at hf
      exact absurd hf (by simp)
    · intro h a ha hk _
      obtain ⟨ha,hle⟩ := OrderedMap.mem_fromLowerBound.mp ha
      obtain rfl := eq_of_mem ha ht hk
      by_contra hm
      exact h ⟨by simpa using hm,hle⟩
  rw [invalidateTe,mem_eraseScan hp,mem_invalidatePrev,and_assoc]
  refine and_congr_right fun ht => ?_
  tauto

end

lemma mem_invalidated_te {base : U64} {t : U64 × IOMMUTLBEntry} :
    (∃ mr, (base,mr) ∈ (s.invalidated start stop).mmioMrs ∧ t ∈ mr.mappedTe) ↔
      ∃ mr, (base,mr) ∈ s.mmioMrs ∧ t ∈ mr.mappedTe ∧ ¬ s.TeReached start stop (base,mr) t := by
  have hcb : (s.invalidated start stop).mmioMrs = (s.invalidateDirectMemPtr start stop).mmioMrs := by
    rw [invalidated,invalidateRangesSafeCb]
    split_ifs
    · rfl
    · rfl
  rw [hcb,invalidateDirectMemPtr]
  cases hf : s.finished with
  | true => simp [TeReached,hf]
  | false =>
    cases ho : s.firstOverlap start stop with
    | none => simp [TeReached,ho]
    | some m =>
      have hm := List.mem_of_find?_eq_some ho
      simp only [Bool.false_eq_true,if_false,mem_assign,TeReached,hf,ho,true_and,Option.some.injEq,
        Prod.mk.injEq]
      by_cases hb : base = m.1
      · subst hb
        constructor
        · rintro ⟨mr,⟨_,rfl⟩ | ⟨_,hne⟩,ht⟩
          · obtain ⟨ht,hmi⟩ := mem_invalidateTe.mp ht
            exact ⟨m.2,hm,ht,fun h => hmi h.2⟩
          · exact absurd rfl hne
        · rintro ⟨mr,hmr,ht,hmi⟩
          have hmm := eq_of_mem hm hmr rfl
          refine ⟨_,Or.inl ⟨rfl,rfl⟩,mem_invalidateTe.mpr ⟨?_,fun h => hmi ⟨hmm,?_⟩⟩⟩
          · rw [hmm]
            exact ht
          · rw [hmm] at h
            exact h
      · have hne : ∀ mr, m ≠ (base,mr) := fun mr h => hb (by rw [h])
        simp [hb,hne]

lemma dmiAliases_callback (hf : s.finished = false) : s.invalidateRangesSafeCb.dmiAliases = s.drainRanges := by
  simp [invalidateRangesSafeCb,hf]

lemma mem_invalidated_aliases {a : U64 × U64} (hm : AliasMeets start stop a) :
    a ∈ (s.invalidated start stop).dmiAliases ↔ a ∈ s.dmiAliases ∧ ¬ s.AliasReached start stop a := by
  have hov : a.1 ≤ stop ∧ start ≤ a.2 := by
    rw [AliasMeets,Meets] at hm
    rw [BitVec.le_def,BitVec.le_def]
    omega
  rw [invalidated,AliasReached]
  cases hf : s.finished with
  | true => simp [invalidateDirectMemPtr,invalidateRangesSafeCb,hf]
  | false =>
    have hd : a ∈ s.drainRanges → a ∈ s.dmiAliases := mem_drainRanges
    cases ho : s.firstOverlap start stop with
    | some m =>
      have ha : (invalidateRangesSafeCb (s.invalidateDirectMemPtr start stop)).dmiAliases = s.drainRanges := by
        rw [invalidateDirectMemPtr,hf,ho]
        exact dmiAliases_callback rfl
      rw [ha]
      simp only [reduceCtorEq]
      tauto
    | none =>
      have ha : (invalidateRangesSafeCb (s.invalidateDirectMemPtr start stop)).dmiAliases =
          invalidateSingleRange s.drainRanges start stop := by
        rw [invalidateDirectMemPtr,hf,ho]
        refine (dmiAliases_callback rfl).trans ?_
        simp [drainRanges]
      rw [ha,mem_invalidateSingleRange]
      tauto

/-- An invalidation leaves nothing of its range exactly when it reaches every translation and alias there. -/
theorem dmi_invalidated_iff : (s.invalidated start stop).Invalidated start stop ↔
    (∀ m ∈ s.mmioMrs, ∀ t ∈ m.2.mappedTe, TeMeets start stop m.1 t → s.TeReached start stop m t) ∧
      ∀ a ∈ s.dmiAliases, AliasMeets start stop a → s.AliasReached start stop a := by
  constructor
  · rintro ⟨hte,hal⟩
    refine ⟨fun m hm t ht hme => ?_,fun a ha hme => ?_⟩
    · by_contra hmi
      obtain ⟨mr,hmr,ht'⟩ := mem_invalidated_te.mpr ⟨m.2,hm,ht,hmi⟩
      exact hte _ hmr t ht' hme
    · by_contra hmi
      exact hal a ((mem_invalidated_aliases hme).mpr ⟨ha,hmi⟩) hme
  · rintro ⟨hte,hal⟩
    refine ⟨fun m hm t ht hme => ?_,fun a ha hme => ?_⟩
    · obtain ⟨mr,hmr,ht',hmi⟩ := mem_invalidated_te.mp ⟨m.2,hm,ht⟩
      exact hmi (hte _ hmr t ht' hme)
    · obtain ⟨ha',hmi⟩ := (mem_invalidated_aliases hme).mp ha
      exact hmi (hal a ha' hme)

end

def registerRegion (base : U64) : Action :=
  .hint ⟨true,noDmi,[(.mapped,⟨base,base+0xFFFF,0,.rw⟩),(.iommu,⟨base,base+0xFFFF,0,.rw⟩)]⟩ 12 base

def translateIommu (base addr mask : U64) : Action :=
  .translate ⟨true,⟨base,base+mask,0,.rw⟩,[(.iommu,⟨0,0xFFFF,0,.rw⟩)]⟩ base addr

def installAlias : Action := .hint ⟨true,⟨start,stop,0,.rw⟩,[]⟩ 12 start

example : ∃ s ∈ run [registerRegion 0x100000,translateIommu 0x100000 0x1000 0xFFF],
      (s.invalidated 0x101000 0x101FFF).Invalidated 0x101000 0x101FFF := by
  decide +kernel

/-- What is left: translations of a second region, of one that begins inside the range, one from two entries below,
and an alias after a region. -/
theorem dmi_invalidation_leaves :
    (∃ s ∈ run [registerRegion 0x100000,registerRegion 0x200000,translateIommu 0x200000 0x1000 0xFFF],
        ¬ (s.invalidated 0x100000 0x20FFFF).Invalidated 0x100000 0x20FFFF) ∧
      (∃ s ∈ run [registerRegion 0x100000,translateIommu 0x100000 0x1000 0xFFF],
        ¬ (s.invalidated 0xFF000 0x10FFFF).Invalidated 0xFF000 0x10FFFF) ∧
      (∃ s ∈ run [registerRegion 0x100000,translateIommu 0x100000 0x1000 0xFFF,translateIommu 0x100000 0x5000 0xFFFF],
        ¬ (s.invalidated 0x103000 0x103FFF).Invalidated 0x103000 0x103FFF) ∧
      ∃ s ∈ run [registerRegion 0x100000,installAlias 0x300000 0x30FFFF],
        ¬ (s.invalidated 0x100000 0x30FFFF).Invalidated 0x100000 0x30FFFF := by
  decide +kernel

end QemuInitiatorSocket
end Qbox.Initiator
