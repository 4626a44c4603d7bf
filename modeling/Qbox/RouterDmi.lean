import Mathlib.Data.Finset.Basic
import Qbox.AddressMap
import Qbox.GuardedRun
import Qbox.Tlm

/-! Direct memory through the router: the regions it has passed on, by their first
address, with the initiators that asked for them, and their invalidation from either
side. -/
namespace Qbox
open List OrderedMap
namespace Router
open MachineWord

/-- `router_if::target_info`, of a bound target or of one of its aliases. -/
structure TargetInfo where
  name : String
  index : ℕ
  address : U64
  size : U64
  priority : U32
  useOffset : Bool
  deriving DecidableEq

instance : AddressMap.TargetInfoType TargetInfo where
  name := TargetInfo.name
  address := TargetInfo.address
  size := TargetInfo.size
  priority := TargetInfo.priority

def TargetInfo.toLocal (ti : TargetInfo) (addr : U64) : U64 := if ti.useOffset then addr-ti.address else addr

def TargetInfo.toBus (ti : TargetInfo) (addr : U64) : U64 := if ti.useOffset then ti.address+addr else addr

/-- `dmi_info`. -/
structure DmiInfo where
  initiators : Finset ℕ
  dmi : TlmDmi
  deriving DecidableEq

/-- A region and a range each begin before the other ends. -/
def meets (first last start stop : U64) : Bool := decide (first ≤ stop) && decide (start ≤ last)

/-- `m_dmi_info_map`: regions under their first address. -/
structure DmiInfoMap where
  map : OrderedMap U64 DmiInfo
  keyed : ∀ e ∈ map, e.2.dmi.start = e.1

namespace DmiInfoMap
def empty : DmiInfoMap := ⟨.empty,fun _ he => absurd he (OrderedMap.not_mem_empty _)⟩

/-- The invalidation loop from an iterator on, with the initiators collected so far. -/
def invalidateLoop (start stop : U64) :
    List (U64 × DmiInfo) → Finset ℕ × OrderedMap U64 DmiInfo → Finset ℕ × OrderedMap U64 DmiInfo
  | [], acc => acc
  | e :: l, (initiators,m) =>
    if stop < e.2.dmi.start then (initiators,m)
    else if e.2.dmi.endAddr < start then invalidateLoop start stop l (initiators,m)
    else invalidateLoop start stop l (initiators ∪ e.2.initiators,m.erase e.1)

lemma invalidateLoop_snd (start stop : U64) (l : List (U64 × DmiInfo)) (initiators : Finset ℕ)
    (m : OrderedMap U64 DmiInfo) : (invalidateLoop start stop l (initiators,m)).2 =
      eraseScan (fun e => decide (stop < e.2.dmi.start)) (fun e => !decide (e.2.dmi.endAddr < start)) l m := by
  induction l generalizing initiators m with
  | nil => rfl
  | cons e l ih =>
    rw [invalidateLoop,eraseScan]
    by_cases hs : stop < e.2.dmi.start
    · simp [hs]
    · by_cases he : e.2.dmi.endAddr < start
      · simp [hs,he,ih]
      · simp [hs,he,ih]

lemma mem_invalidateLoop_fst {start stop : U64} {l : List (U64 × DmiInfo)} {initiators : Finset ℕ}
    {m : OrderedMap U64 DmiInfo} {i : ℕ} (hl : l.Pairwise (fun a b => a.2.dmi.start < b.2.dmi.start)) :
    i ∈ (invalidateLoop start stop l (initiators,m)).1 ↔
      i ∈ initiators ∨ ∃ e ∈ l, meets e.2.dmi.start e.2.dmi.endAddr start stop = true ∧ i ∈ e.2.initiators := by
  induction l generalizing initiators m with
  | nil => simp [invalidateLoop]
  | cons e l ih =>
    obtain ⟨he,hl⟩ := pairwise_cons.mp hl
    rw [invalidateLoop]
    by_cases hs : stop < e.2.dmi.start
    · have hp : ∀ a ∈ e :: l, meets a.2.dmi.start a.2.dmi.endAddr start stop = false := by
        intro a ha
        rcases mem_cons.mp ha with rfl | ha
        · simp [meets,hs]
        · simp [meets,hs.trans (he a ha)]
      rw [if_pos hs]
      refine ⟨Or.inl,?_⟩
      rintro (hi | ⟨a,ha,hm,-⟩)
      · exact hi
      · rw [hp a ha] at hm
        exact absurd hm (by simp)
    · rw [if_neg hs]
      by_cases hen : e.2.dmi.endAddr < start
      · rw [if_pos hen,ih hl]
        simp [meets,not_le.mpr hen]
      · rw [if_neg hen,ih hl]
        simp [meets,not_lt.mp hs,not_lt.mp hen,or_assoc]

lemma visited_sorted (m : DmiInfoMap) (start : U64) :
    (m.map.fromBeforeUpperBound start).Pairwise (fun a b => a.2.dmi.start < b.2.dmi.start) := by
  refine (m.map.fromBeforeUpperBound_sorted start).imp_of_mem fun {a b} ha hb hab => ?_
  rw [m.keyed a (OrderedMap.mem_fromBeforeUpperBound.mp ha).1,m.keyed b (OrderedMap.mem_fromBeforeUpperBound.mp hb).1]
  exact hab

/-- No region begins after `first` and not after `start`. -/
def Exposed (m : DmiInfoMap) (start first : U64) : Prop := ∀ a ∈ m.map, a.1 ≤ start → a.1 ≤ first

instance (m : DmiInfoMap) (start first : U64) : Decidable (m.Exposed start first) :=
  inferInstanceAs (Decidable (∀ a ∈ m.map, a.1 ≤ start → a.1 ≤ first))

def invalidated (m : DmiInfoMap) (start stop : U64) : Finset ℕ × OrderedMap U64 DmiInfo :=
  invalidateLoop start stop (m.map.fromBeforeUpperBound start) (∅,m.map)

/-- The regions erased are those that meet the range and are exposed to it. -/
lemma mem_invalidated_snd {m : DmiInfoMap} {start stop : U64} {e : U64 × DmiInfo} :
    e ∈ (m.invalidated start stop).2 ↔ e ∈ m.map ∧
      ¬ (meets e.2.dmi.start e.2.dmi.endAddr start stop = true ∧ m.Exposed start e.1) := by
  have hp : (m.map.fromBeforeUpperBound start).Pairwise
      (fun a b => decide (stop < a.2.dmi.start) = true → decide (stop < b.2.dmi.start) = true) := by
    refine (m.visited_sorted start).imp fun {a b} hab ha => ?_
    rw [decide_eq_true_eq] at ha ⊢
    exact ha.trans hab
  rw [invalidated,invalidateLoop_snd,
    mem_eraseScan_self hp fun a ha => (OrderedMap.mem_fromBeforeUpperBound.mp ha).1]
  refine and_congr_right fun he => not_congr ?_
  simp only [mem_fromBeforeUpperBound,he,true_and,decide_eq_false_iff_not,not_lt,Bool.not_eq_true',meets,
    Bool.and_eq_true,decide_eq_true_eq,Exposed]
  tauto

lemma mem_invalidated_fst {m : DmiInfoMap} {start stop : U64} {i : ℕ} :
    i ∈ (m.invalidated start stop).1 ↔ ∃ e ∈ m.map, i ∈ e.2.initiators ∧
      meets e.2.dmi.start e.2.dmi.endAddr start stop = true ∧ m.Exposed start e.1 := by
  rw [invalidated,mem_invalidateLoop_fst (m.visited_sorted start)]
  simp only [mem_fromBeforeUpperBound,Finset.notMem_empty,false_or,Exposed]
  constructor
  · rintro ⟨e,⟨he,hx⟩,hm,hi⟩
    exact ⟨e,he,hi,hm,hx⟩
  · rintro ⟨e,he,hi,hm,hx⟩
    exact ⟨e,⟨he,hx⟩,hm,hi⟩

def without (m : DmiInfoMap) (start stop : U64) : DmiInfoMap where
  map := (m.invalidated start stop).2
  keyed := fun e he => m.keyed e (mem_invalidated_snd.mp he).1

/-- `in_dmi_cache`: the table with a region under the first address, or nothing on the reported
error. -/
def inDmiCache (m : DmiInfoMap) (dmi : TlmDmi) : Option DmiInfoMap :=
  match m.map.find dmi.start with
  | some info => if info.dmi.endAddr ≠ dmi.endAddr then none else some m
  | none => some ⟨m.map.emplace dmi.start ⟨∅,dmi⟩,fun e he => by
      rcases OrderedMap.mem_emplace.mp he with he | ⟨rfl,-⟩
      · exact m.keyed e he
      · rfl⟩

/-- The initiator joins those of the region under a first address. -/
def addInitiator (m : DmiInfoMap) (id : ℕ) (start : U64) : DmiInfoMap where
  map := m.map.modify start (fun info => { info with initiators := insert id info.initiators })
  keyed := fun e he => by
    obtain ⟨a,ha,rfl⟩ := OrderedMap.mem_modify.mp he
    split_ifs <;> exact m.keyed a ha

def Lists (m : DmiInfoMap) (i : ℕ) (first last : U64) : Prop :=
  ∃ e ∈ m.map, e.1 = first ∧ e.2.dmi.endAddr = last ∧ i ∈ e.2.initiators

variable {m m' : DmiInfoMap} {i id : ℕ} {first last start stop : U64} {dmi : TlmDmi}

lemma Lists.without (start stop : U64) (h : m.Lists i first last) :
    (m.without start stop).Lists i first last ∨
      i ∈ (m.invalidated start stop).1 ∧ meets first last start stop = true := by
  obtain ⟨e,he,rfl,rfl,hi⟩ := h
  by_cases hg : meets e.2.dmi.start e.2.dmi.endAddr start stop = true ∧ m.Exposed start e.1
  · refine Or.inr ⟨mem_invalidated_fst.mpr ⟨e,he,hi,hg⟩,?_⟩
    rw [← m.keyed e he]
    exact hg.1
  · exact Or.inl ⟨e,mem_invalidated_snd.mpr ⟨he,hg⟩,rfl,rfl,hi⟩

lemma Lists.inDmiCache (h : m.Lists i first last) (hc : m.inDmiCache dmi = some m') : m'.Lists i first last := by
  obtain ⟨e,he,hf,hl,hi⟩ := h
  rw [DmiInfoMap.inDmiCache] at hc
  split at hc
  · split_ifs at hc with hen
    cases hc
    exact ⟨e,he,hf,hl,hi⟩
  · cases hc
    exact ⟨e,OrderedMap.mem_emplace.mpr (Or.inl he),hf,hl,hi⟩

lemma exists_of_inDmiCache (hc : m.inDmiCache dmi = some m') :
    ∃ e ∈ m'.map, e.1 = dmi.start ∧ e.2.dmi.endAddr = dmi.endAddr := by
  rw [DmiInfoMap.inDmiCache] at hc
  split at hc
  · next info hf =>
    split_ifs at hc with he
    cases hc
    exact ⟨_,OrderedMap.find_eq_some.mp hf,rfl,not_not.mp he⟩
  · next hf =>
    cases hc
    exact ⟨_,OrderedMap.mem_emplace.mpr (Or.inr ⟨rfl,OrderedMap.find_eq_none.mp hf⟩),rfl,rfl⟩

lemma Lists.addInitiator (h : m.Lists i first last) : (m.addInitiator id start).Lists i first last := by
  obtain ⟨e,he,hf,hl,hi⟩ := h
  refine ⟨_,OrderedMap.mem_modify.mpr ⟨e,he,rfl⟩,hf,?_,?_⟩
  · split_ifs <;> exact hl
  · split_ifs
    · exact Finset.mem_insert_of_mem hi
    · exact hi

lemma addInitiator_lists {e : U64 × DmiInfo} (he : e ∈ m.map) :
    (m.addInitiator id e.1).Lists id e.1 e.2.dmi.endAddr :=
  ⟨_,OrderedMap.mem_modify.mpr ⟨e,he,rfl⟩,rfl,by simp,by simp⟩

end DmiInfoMap

/-- What the router sends up to some of its initiators: `invalidate_direct_mem_ptr(start, stop)`. -/
structure Invalidation where
  initiators : Finset ℕ
  start : U64
  stop : U64

end Router

/-- `router`. The cache of its address map plays no part in DMI requests. -/
structure Router (C : Type) where
  addressMap : AddressMap Router.TargetInfo C
  idTargets : List Router.TargetInfo
  aliasTargets : List Router.TargetInfo
  dmiInfoMap : Router.DmiInfoMap

namespace Router
section
variable {C : Type}

def invalidateDirectMemPtrTs (start stop : U64) (r : Router C) : Invalidation × Router C :=
  (⟨(r.dmiInfoMap.invalidated start stop).1,start,stop⟩,{ r with dmiInfoMap := r.dmiInfoMap.without start stop })

/-- `invalidate_direct_mem_ptr` of a target; nothing for an index without one. -/
def invalidateDirectMemPtr (id : ℕ) (start stop : U64) (r : Router C) : Option (Invalidation × Router C) :=
  (r.idTargets[id]?).map fun ti => r.invalidateDirectMemPtrTs (ti.toBus start) (ti.toBus stop)

/-- Whether a region with the same first address and another last one is recorded. -/
def overlapsOld (dmi : TlmDmi) (r : Router C) : Bool :=
  match r.dmiInfoMap.map.find dmi.start with
  | some info => info.dmi.endAddr ≠ dmi.endAddr
  | none => false

/-- `record_dmi`: what is sent up on the way and the router after it, or nothing on the reported
error. -/
def recordDmi (id : ℕ) (dmi : TlmDmi) (r : Router C) : Option (List Invalidation × Router C) :=
  let (sent,r) :=
    if r.overlapsOld dmi then
      let (i,r) := r.invalidateDirectMemPtrTs dmi.start dmi.endAddr
      ([i],r)
    else ([],r)
  (r.dmiInfoMap.inDmiCache dmi).map fun m => (sent,{ r with dmiInfoMap := m.addInitiator id dmi.start })

/-- The region a target grants, in bus addresses and inside the segment of the address map. -/
def clipDmi (ti : TargetInfo) (holeStart holeEnd : U64) (dmi : TlmDmi) : TlmDmi :=
  let dmi := { dmi with start := ti.toBus dmi.start, endAddr := ti.toBus dmi.endAddr }
  let dmi := if dmi.start < holeStart then { dmi with ptr := dmi.ptr+(holeStart-dmi.start), start := holeStart } else dmi
  if holeEnd < dmi.endAddr then { dmi with endAddr := holeEnd } else dmi

/-- What a DMI request leads to: the target and the region granted, if any, and what is sent up. -/
structure DmiOutcome (C : Type) where
  granted : Option (TargetInfo × TlmDmi)
  sent : List Invalidation
  router : Router C

/-- `get_direct_mem_ptr`, with the targets' answers; nothing is a failed assertion or an error. -/
def getDirectMemPtr (target : ℕ → U64 → Option TlmDmi) (id : ℕ) (addr : U64) (r : Router C) : Option (DmiOutcome C) :=
  match AddressMap.findRegion r.addressMap.regions addr with
  | (none,_,_) => some ⟨none,[],r⟩
  | (some ti,holeStart,holeEnd) =>
    match target ti.index (ti.toLocal addr) with
    | none => some ⟨none,[],r⟩
    | some dmi =>
      if ti.useOffset ∧ ¬ dmi.start < ti.size then none
      else
        let dmi := clipDmi ti holeStart holeEnd dmi
        (r.recordDmi id dmi).map fun out => ⟨some (ti,dmi),out.1,out.2⟩

/-- A request that is answered grants nothing and changes nothing, or records the region it grants. -/
lemma getDirectMemPtr_cases {target : ℕ → U64 → Option TlmDmi} {id : ℕ} {addr : U64} {r : Router C}
    {out : DmiOutcome C} (h : r.getDirectMemPtr target id addr = some out) : out = ⟨none,[],r⟩ ∨
      ∃ ti holeStart holeEnd dmi sent r',
        AddressMap.findRegion r.addressMap.regions addr = (some ti,holeStart,holeEnd) ∧
        target ti.index (ti.toLocal addr) = some dmi ∧
        r.recordDmi id (clipDmi ti holeStart holeEnd dmi) = some (sent,r') ∧
        out = ⟨some (ti,clipDmi ti holeStart holeEnd dmi),sent,r'⟩ := by
  rw [getDirectMemPtr] at h
  rcases hf : AddressMap.findRegion r.addressMap.regions addr with ⟨_ | ti,holeStart,holeEnd⟩
  · rw [hf] at h
    cases h
    exact .inl rfl
  · rw [hf] at h
    rcases ht : target ti.index (ti.toLocal addr) with _ | dmi
    · simp only [ht] at h
      cases h
      exact .inl rfl
    · simp only [ht] at h
      split_ifs at h
      obtain ⟨⟨sent,r'⟩,hr,rfl⟩ := Option.map_eq_some_iff.mp h
      exact .inr ⟨ti,holeStart,holeEnd,dmi,sent,r',rfl,ht,hr,rfl⟩

/-- The configuration of a bound target: itself and the name, address and size of each alias. -/
structure BoundTarget where
  target : TargetInfo
  aliases : List (String × U64 × U64)

def BoundTarget.aliasTargets (b : BoundTarget) : List TargetInfo :=
  b.aliases.map fun a => { b.target with name := a.1, address := a.2.1, size := a.2.2 }

/-- `lazy_initialize`, from the configuration of the bound targets. -/
def lazyInitialize [AddressMap.AddrMapCacheBase C TargetInfo] (cache : C) (bound : List BoundTarget) : Router C where
  addressMap := bound.foldl (fun m b => b.aliasTargets.foldl AddressMap.add (m.add b.target)) ⟨.empty,cache⟩
  idTargets := bound.map BoundTarget.target
  aliasTargets := bound.flatMap BoundTarget.aliasTargets
  dmiInfoMap := .empty

end

/-- A region an initiator has been granted, and the mapping it went through. -/
structure Grant where
  initiator : ℕ
  target : TargetInfo
  start : U64
  endAddr : U64
  deriving DecidableEq

def Grant.meets (g : Grant) (start stop : U64) : Bool := Router.meets g.start g.endAddr start stop

/-- An initiator that is told of a range drops every grant that meets it. -/
def Invalidation.drops (i : Invalidation) (g : Grant) : Bool := g.initiator ∈ i.initiators && g.meets i.start i.stop

def deliver (held : List Grant) (i : Invalidation) : List Grant := held.filter (fun g => !i.drops g)

structure System (C : Type) where
  router : Router C
  held : List Grant

inductive Action where
  /-- A DMI request of an initiator, with the answers of the targets. -/
  | request (target : ℕ → U64 → Option TlmDmi) (id : ℕ) (addr : U64)
  /-- A DMI invalidation by a target. -/
  | invalidate (id : ℕ) (start stop : U64)
  /-- A DMI invalidation in bus addresses. -/
  | invalidateTs (start stop : U64)

namespace System
variable {C : Type}

def invalidateTs (start stop : U64) (s : System C) : System C :=
  let (i,r) := s.router.invalidateDirectMemPtrTs start stop
  ⟨r,deliver s.held i⟩

/-- One call of the router. A call that ends the simulation changes nothing here. -/
def step (s : System C) : Action → System C
  | .request target id addr =>
    match s.router.getDirectMemPtr target id addr with
    | none => s
    | some out =>
      let held := out.sent.foldl deliver s.held
      match out.granted with
      | none => ⟨out.router,held⟩
      | some (ti,dmi) => ⟨out.router,⟨id,ti,dmi.start,dmi.endAddr⟩ :: held⟩
  | .invalidate id start stop =>
    match s.router.idTargets[id]? with
    | none => s
    | some ti => s.invalidateTs (ti.toBus start) (ti.toBus stop)
  | .invalidateTs start stop => s.invalidateTs start stop

/-- The states reached from a configured router whose initiators hold nothing. -/
def Reachable [AddressMap.AddrMapCacheBase C TargetInfo] (cache : C) (bound : List BoundTarget) : System C → Prop :=
  GuardedRun step (fun _ _ => True) ⟨lazyInitialize cache bound,[]⟩

def Recorded (s : System C) : Prop := ∀ g ∈ s.held, s.router.dmiInfoMap.Lists g.initiator g.start g.endAddr

variable {s : System C} {start stop : U64}

lemma mem_held_invalidateTs {g : Grant} : g ∈ (s.invalidateTs start stop).held ↔ g ∈ s.held ∧
    ¬ (g.initiator ∈ (s.router.invalidateDirectMemPtrTs start stop).1.initiators ∧ g.meets start stop = true) := by
  refine mem_filter.trans (and_congr_right fun _ => ?_)
  rw [Bool.not_eq_true',← Bool.not_eq_true,Invalidation.drops,Bool.and_eq_true,decide_eq_true_eq]
  rfl

/-- An invalidation strikes a grant off the books only where its holder drops it. -/
lemma invalidateTs_recorded (h : s.Recorded) (start stop : U64) : (s.invalidateTs start stop).Recorded := by
  intro g hg
  obtain ⟨hh,hk⟩ := mem_held_invalidateTs.mp hg
  rcases DmiInfoMap.Lists.without start stop (h g hh) with hl | hd
  · exact hl
  · exact absurd hd hk

lemma recordDmi_recorded (h : s.Recorded) {id : ℕ} {dmi : TlmDmi} {sent : List Invalidation} {r : Router C}
    (hr : s.router.recordDmi id dmi = some (sent,r)) :
    Recorded ⟨r,sent.foldl deliver s.held⟩ ∧ r.dmiInfoMap.Lists id dmi.start dmi.endAddr := by
  have hc : ∀ t : System C, t.Recorded → ∀ m, t.router.dmiInfoMap.inDmiCache dmi = some m →
      (∀ g ∈ t.held, (m.addInitiator id dmi.start).Lists g.initiator g.start g.endAddr) ∧
        (m.addInitiator id dmi.start).Lists id dmi.start dmi.endAddr := by
    intro t ht m hm
    refine ⟨fun g hg => ((ht g hg).inDmiCache hm).addInitiator,?_⟩
    obtain ⟨e,he,hf,hl⟩ := DmiInfoMap.exists_of_inDmiCache hm
    rw [← hf,← hl]
    exact DmiInfoMap.addInitiator_lists he
  rw [recordDmi] at hr
  split_ifs at hr with hold
  · obtain ⟨m,hm,heq⟩ := Option.map_eq_some_iff.mp hr
    cases heq
    exact hc _ (invalidateTs_recorded h dmi.start dmi.endAddr) m hm
  · obtain ⟨m,hm,heq⟩ := Option.map_eq_some_iff.mp hr
    cases heq
    exact hc s h m hm

lemma step_recorded (h : s.Recorded) (a : Action) : (s.step a).Recorded := by
  cases a with
  | request target id addr =>
    rw [step]
    cases ho : s.router.getDirectMemPtr target id addr with
    | none => exact h
    | some out =>
      rcases getDirectMemPtr_cases ho with rfl | ⟨ti,lo,hi,dmi,sent,r,-,-,hr,rfl⟩
      · exact h
      · obtain ⟨hk,hn⟩ := recordDmi_recorded h hr
        intro g hg
        rcases mem_cons.mp hg with rfl | hg
        · exact hn
        · exact hk g hg
  | invalidate id start stop =>
    rw [step]
    split
    · exact h
    · exact invalidateTs_recorded h _ _
  | invalidateTs start stop => exact invalidateTs_recorded h start stop

lemma Reachable.recorded [AddressMap.AddrMapCacheBase C TargetInfo] {cache : C} {bound : List BoundTarget}
    (h : Reachable cache bound s) : s.Recorded :=
  GuardedRun.invariant (fun _ a ht _ => step_recorded ht a) (fun _ hg => absurd hg not_mem_nil) h

/-- An invalidation gets to a holder: nothing hides the region, or another of the holder's that meets the range. -/
def HolderReached (s : System C) (start stop : U64) (g : Grant) : Prop :=
  s.router.dmiInfoMap.Exposed start g.start ∨ ∃ e ∈ s.router.dmiInfoMap.map, g.initiator ∈ e.2.initiators ∧
    Router.meets e.2.dmi.start e.2.dmi.endAddr start stop = true ∧ s.router.dmiInfoMap.Exposed start e.1

/-- An invalidation tells the holder of a grant that meets it exactly when it gets to that holder. -/
lemma mem_told_iff (h : s.Recorded) {g : Grant} (hg : g ∈ s.held) (hm : g.meets start stop = true) :
    g.initiator ∈ (s.router.invalidateDirectMemPtrTs start stop).1.initiators ↔ s.HolderReached start stop g := by
  rw [invalidateDirectMemPtrTs,DmiInfoMap.mem_invalidated_fst]
  refine ⟨Or.inr,?_⟩
  rintro (hx | hx)
  · obtain ⟨e,he,hf,hl,hi⟩ := h g hg
    refine ⟨e,he,hi,?_,by rwa [hf]⟩
    rw [s.router.dmiInfoMap.keyed e he,hf,hl]
    exact hm
  · exact hx

/-- After the invalidation, whoever still holds a region that meets the range has been told of it. -/
def LosesNoHolder (s : System C) (start stop : U64) : Prop :=
  ∀ g ∈ (s.invalidateTs start stop).held, g.meets start stop = true →
    g.initiator ∈ (s.router.invalidateDirectMemPtrTs start stop).1.initiators

/-- A bus-side invalidation loses no holder exactly when it gets to that of every region that meets it. -/
theorem invalidation_loses_no_holder_iff [AddressMap.AddrMapCacheBase C TargetInfo] {cache : C}
    {bound : List BoundTarget} (hs : Reachable cache bound s) (start stop : U64) :
    s.LosesNoHolder start stop ↔ ∀ g ∈ s.held, g.meets start stop = true → s.HolderReached start stop g := by
  have hr := hs.recorded
  constructor
  · intro h g hg hm
    rw [← mem_told_iff hr hg hm]
    by_contra ht
    exact ht (h g (mem_held_invalidateTs.mpr ⟨hg,fun hc => ht hc.1⟩) hm)
  · intro h g hg hm
    have hh := (mem_held_invalidateTs.mp hg).1
    exact (mem_told_iff hr hh hm).mpr (h g hh hm)

instance (s : System C) (start stop : U64) : Decidable (s.LosesNoHolder start stop) :=
  inferInstanceAs (Decidable (∀ g ∈ (s.invalidateTs start stop).held, g.meets start stop = true →
    g.initiator ∈ (s.router.invalidateDirectMemPtrTs start stop).1.initiators))

instance (s : System C) (start stop : U64) (g : Grant) : Decidable (s.HolderReached start stop g) :=
  inferInstanceAs (Decidable (_ ∨ _))

def memoryRouter : List BoundTarget := [⟨⟨"memory",0,0,0x10000,0,true⟩,[]⟩]

def nestedGrants : System AddressMap.AddrMapNoCache :=
  (step ⟨lazyInitialize .mk memoryRouter,[]⟩ (.request (fun _ _ => some ⟨0,0xFFFF,0,.rw⟩) 0 0)).step
    (.request (fun _ _ => some ⟨0x1000,0x1FFF,0x1000,.rw⟩) 1 0x1000)

lemma nestedGrants_reachable : Reachable .mk memoryRouter nestedGrants := .tail (.tail .refl trivial) trivial

theorem invalidation_loses_no_holder_first_page :
    Reachable .mk memoryRouter nestedGrants ∧ nestedGrants.LosesNoHolder 0 0xFFF :=
  ⟨nestedGrants_reachable,(invalidation_loses_no_holder_iff nestedGrants_reachable 0 0xFFF).mpr (by decide +kernel)⟩

/-- The page granted to the second initiator hides the first one, which holds all of the memory. -/
theorem invalidation_loses_holder :
    Reachable .mk memoryRouter nestedGrants ∧ ¬ nestedGrants.LosesNoHolder 0x3000 0x3FFF :=
  ⟨nestedGrants_reachable,by decide +kernel⟩

/-- Whoever holds a byte of the target's range `[lo, hi]`, through any mapping, is sent a range with it. -/
def CoversMappings (s : System C) (id : ℕ) (lo hi : U64) : Prop :=
  ∀ out ∈ s.router.invalidateDirectMemPtr id lo hi, ∀ g ∈ s.held, g.target.index = id →
    ∀ x, g.start ≤ x → x ≤ g.endAddr → lo ≤ g.target.toLocal x → g.target.toLocal x ≤ hi →
      g.initiator ∈ out.1.initiators ∧ out.1.start ≤ x ∧ x ≤ out.1.stop

/-- A target-side invalidation covers a mapping exactly when every such byte lies between the ends of the range moved
to the target's first mapping, which gets to the holder. -/
theorem target_invalidation_covers_mappings_iff [AddressMap.AddrMapCacheBase C TargetInfo] {cache : C}
    {bound : List BoundTarget} (hs : Reachable cache bound s) {id : ℕ} {ti : TargetInfo}
    (hti : s.router.idTargets[id]? = some ti) (lo hi : U64) :
    s.CoversMappings id lo hi ↔ ∀ g ∈ s.held, g.target.index = id →
      ∀ x, g.start ≤ x → x ≤ g.endAddr → lo ≤ g.target.toLocal x → g.target.toLocal x ≤ hi →
        (ti.toBus lo ≤ x ∧ x ≤ ti.toBus hi) ∧ s.HolderReached (ti.toBus lo) (ti.toBus hi) g := by
  have ho : s.router.invalidateDirectMemPtr id lo hi =
      some (s.router.invalidateDirectMemPtrTs (ti.toBus lo) (ti.toBus hi)) := by
    rw [invalidateDirectMemPtr,hti,Option.map_some]
  have hm : ∀ (g : Grant) (x : U64), g.start ≤ x → x ≤ g.endAddr → ti.toBus lo ≤ x → x ≤ ti.toBus hi →
      g.meets (ti.toBus lo) (ti.toBus hi) = true := by
    intro g x hx1 hx2 h1 h2
    simp [Grant.meets,Router.meets,hx1.trans h2,h1.trans hx2]
  rw [CoversMappings,ho]
  constructor
  · intro h g hg hi x hx1 hx2 hl1 hl2
    obtain ⟨ht,h1,h2⟩ := h _ rfl g hg hi x hx1 hx2 hl1 hl2
    exact ⟨⟨h1,h2⟩,(mem_told_iff hs.recorded hg (hm g x hx1 hx2 h1 h2)).mp ht⟩
  · rintro h out ⟨⟩ g hg hi x hx1 hx2 hl1 hl2
    obtain ⟨⟨h1,h2⟩,hr⟩ := h g hg hi x hx1 hx2 hl1 hl2
    exact ⟨(mem_told_iff hs.recorded hg (hm g x hx1 hx2 h1 h2)).mpr hr,h1,h2⟩

def aliasedRouter : List BoundTarget := [⟨⟨"memory",0,0x1000,0x1000,0,true⟩,[("alias",0x9000,0x1000)]⟩]

def pageGrant : System AddressMap.AddrMapNoCache :=
  step ⟨lazyInitialize .mk aliasedRouter,[]⟩ (.request (fun _ _ => some ⟨0,0xFFF,0,.rw⟩) 0 0x1000)

lemma pageGrant_held : pageGrant.held = [⟨0,⟨"memory",0,0x1000,0x1000,0,true⟩,0x1000,0x1FFF⟩] := by
  decide +kernel

lemma pageGrant_reachable : Reachable .mk aliasedRouter pageGrant := .tail .refl trivial

theorem target_invalidation_covers_mappings_page :
    Reachable .mk aliasedRouter pageGrant ∧ pageGrant.CoversMappings 0 0 0xFFF := by
  refine ⟨pageGrant_reachable,(target_invalidation_covers_mappings_iff pageGrant_reachable
    (rfl : pageGrant.router.idTargets[0]? = _) 0 0xFFF).mpr ?_⟩
  intro g hg _ x h1 h2 _ _
  rw [pageGrant_held,mem_singleton] at hg
  subst hg
  exact ⟨⟨h1,h2⟩,by decide +kernel⟩

def aliasedGrants : System AddressMap.AddrMapNoCache :=
  pageGrant.step (.request (fun _ _ => some ⟨0,0xFFF,0,.rw⟩) 1 0x9000)

/-- The holder of an alias is not told of an invalidation behind it, and one of everything is told to nobody. -/
theorem target_invalidation_misses_alias :
    Reachable .mk aliasedRouter aliasedGrants ∧ ¬ aliasedGrants.CoversMappings 0 0 0xFFF ∧
      ¬ aliasedGrants.CoversMappings 0 0 (BitVec.allOnes 64) := by
  have hp : (⟨0,⟨"memory",0,0x1000,0x1000,0,true⟩,0x1000,0x1FFF⟩ : Grant) ∈ aliasedGrants.held := by
    decide +kernel
  have ha : (⟨1,⟨"alias",0,0x9000,0x1000,0,true⟩,0x9000,0x9FFF⟩ : Grant) ∈ aliasedGrants.held := by
    decide +kernel
  refine ⟨.tail pageGrant_reachable trivial,fun h => ?_,fun h => ?_⟩
  · have ht := (h _ rfl _ ha rfl 0x9000 (by decide) (by decide) (by decide) (by decide)).1
    revert ht
    decide +kernel
  · have ht := (h _ rfl _ hp rfl 0x1000 (by decide) (by decide) (by decide) (by decide)).1
    revert ht
    decide +kernel

end System
end Router
end Qbox
