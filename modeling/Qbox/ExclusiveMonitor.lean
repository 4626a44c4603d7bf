import Qbox.OrderedMap
import Qbox.Tlm

/-! The exclusive monitor: the regions locked by exclusive loads, in a table by
their first address and one by their owner, and what a transaction does to them. -/
namespace Qbox
open List OrderedMap
namespace ExclusiveMonitor
/-- `Region`. Owners are `PathIDExtension`s, of which only the order matters. -/
structure Region (I : Type) where
  start : U64
  endAddr : U64
  id : I
  deriving DecidableEq

structure Txn (I : Type) where
  address : U64
  dataLength : U32
  command : TlmCommand
  exclusive : Bool
  id : I
  deriving DecidableEq

variable {I : Type} (t : Txn I)

def Txn.isStore : Bool := t.command = .write

def Txn.last : U64 := t.address+t.dataLength.setWidth 64-1

def Txn.region : Region I := ⟨t.address,t.last,t.id⟩

@[simp] lemma Txn.region_id : t.region.id = t.id := rfl

def Region.isExactMatch (r : Region I) (t : Txn I) : Bool :=
  r.start = t.address && r.endAddr = r.start+t.dataLength.setWidth 64-1

def Region.Meets (r q : Region I) : Prop := r.start ≤ q.endAddr ∧ q.start ≤ r.endAddr

instance (r q : Region I) : Decidable (r.Meets q) := inferInstanceAs (Decidable (_ ∧ _))

lemma Region.Meets.symm {r q : Region I} (h : r.Meets q) : q.Meets r := ⟨h.2,h.1⟩

/-- A transaction of at least one byte that does not run past the last address. -/
def Txn.Proper : Prop := 1 ≤ t.dataLength.toNat ∧ t.address.toNat+t.dataLength.toNat ≤ 2^64

instance (t : Txn I) : Decidable t.Proper := inferInstanceAs (Decidable (_ ∧ _))

lemma Txn.Proper.le {t : Txn I} (h : t.Proper) : t.address ≤ t.last := by
  obtain ⟨hle,he⟩ := h
  have hl : t.last.toNat = t.address.toNat+t.dataLength.toNat-1 := by
    rw [Txn.last]
    bv_omega
  rw [BitVec.le_def,hl]
  omega

end ExclusiveMonitor

/-- `exclusive_monitor`: `m_regions` and `m_regions_by_id`. -/
structure ExclusiveMonitor (I : Type) [LinearOrder I] where
  regions : OrderedMap U64 (ExclusiveMonitor.Region I)
  regionsById : OrderedMap I (ExclusiveMonitor.Region I)

namespace ExclusiveMonitor
variable {I : Type}

/-- The loop of `find_region` from an iterator on. -/
def findLoop (start last : U64) : List (U64 × Region I) → Option (Region I)
  | [] => none
  | e :: l =>
    if e.2.endAddr < start then findLoop start last l
    else if last < e.2.start then none
    else some e.2

lemma findLoop_eq_some {start last : U64} {l : List (U64 × Region I)} {r : Region I}
    (h : findLoop start last l = some r) : ∃ e ∈ l, e.2 = r ∧ start ≤ r.endAddr ∧ r.start ≤ last := by
  induction l with
  | nil => cases h
  | cons e l ih =>
    rw [findLoop] at h
    split_ifs at h with he hl
    · obtain ⟨a,ha,hr⟩ := ih h
      exact ⟨a,mem_cons_of_mem _ ha,hr⟩
    · cases h
      exact ⟨e,mem_cons_self ..,rfl,not_lt.mp he,not_lt.mp hl⟩

lemma findLoop_eq_none {start last : U64} {l : List (U64 × Region I)}
    (hl : l.Pairwise (fun a b => a.2.start < b.2.start)) (h : findLoop start last l = none) :
    ∀ e ∈ l, ¬ (start ≤ e.2.endAddr ∧ e.2.start ≤ last) := by
  induction l with
  | nil => simp
  | cons a l ih =>
    obtain ⟨ha,hl⟩ := pairwise_cons.mp hl
    rw [findLoop] at h
    intro e he hm
    split_ifs at h with hen hla
    · rcases mem_cons.mp he with rfl | he
      · exact absurd hm.1 (not_le.mpr hen)
      · exact ih hl h e he hm
    · rcases mem_cons.mp he with rfl | he
      · exact absurd hm.2 (not_le.mpr hla)
      · exact absurd hm.2 (not_le.mpr (hla.trans (ha e he)))

variable [LinearOrder I]

def empty : ExclusiveMonitor I := ⟨.empty,.empty⟩

variable (t : Txn I) (m : ExclusiveMonitor I)

def findRegion : Option (Region I) := findLoop t.address t.last (m.regions.fromBeforeLowerBound t.address)

/-- `lock_region`, up to the DMI invalidation of the region; nothing stands for a failed assertion. -/
def lockRegion : Option (ExclusiveMonitor I) := if (m.findRegion t).isSome then none
  else some ⟨m.regions.assign t.address t.region,m.regionsById.assign t.id t.region⟩

def unlockRegion (r : Region I) (m : ExclusiveMonitor I) : Option (ExclusiveMonitor I) :=
  if (m.regions.find r.start).isNone ∨ (m.regionsById.find r.id).isNone then none
  else some ⟨m.regions.erase r.start,m.regionsById.erase r.id⟩

def unlockRegionById (id : I) (m : ExclusiveMonitor I) : Option (ExclusiveMonitor I) :=
  match m.regionsById.find id with
  | none => some m
  | some r => m.unlockRegion r

/-- `handle_exclusive_load`, with the region it locks. -/
def handleExclusiveLoad : Option (Option (Region I) × ExclusiveMonitor I) := match m.findRegion t with
  | some _ => some (none,m)
  | none => do
    let m ← m.unlockRegionById t.id
    let m ← m.lockRegion t
    pure (some t.region,m)

/-- `handle_exclusive_store`; the flag is also what the exclusive extension reports. -/
def handleExclusiveStore : Option (Bool × ExclusiveMonitor I) := match m.findRegion t with
  | none => some (false,m)
  | some r =>
    if r.id ≠ t.id then some (false,m)
    else if !r.isExactMatch t then some (false,m)
    else (m.unlockRegion r).map fun m => (true,m)

/-- The loop of `handle_regular_store`; each turn takes one region away. -/
def regularStoreLoop (t : Txn I) : ℕ → ExclusiveMonitor I → Option (ExclusiveMonitor I)
  | 0, m => some m
  | n+1, m =>
    match m.findRegion t with
    | none => some m
    | some r => (m.unlockRegion r).bind (regularStoreLoop t n)

def handleRegularStore : Option (ExclusiveMonitor I) := regularStoreLoop t m.regions.entries.length m

/-- `before_b_transport`: whether to carry on. -/
def beforeBTransport : Option (Bool × ExclusiveMonitor I) := if !t.isStore then some (true,m)
  else if t.exclusive then m.handleExclusiveStore t
  else (m.handleRegularStore t).map fun m => (true,m)

/-- What `after_b_transport` does: whether it clears the DMI hint, and the region it locks. -/
structure After (I : Type) [LinearOrder I] where
  clearHint : Bool
  locked : Option (Region I)
  monitor : ExclusiveMonitor I

def afterBTransport : Option (After I) := if t.isStore then some ⟨false,none,m⟩
  else if !t.exclusive then some ⟨(m.findRegion t).isSome,none,m⟩
  else (m.handleExclusiveLoad t).map fun out => ⟨true,out.1,out.2⟩

/-- The status: `TLM_GENERIC_ERROR_RESPONSE` of the monitor, or the answer of the target. -/
inductive Response where
  | genericError
  | target (ok : Bool)
  deriving DecidableEq

structure Transport (I : Type) [LinearOrder I] where
  forwarded : Bool
  response : Response
  clearHint : Bool
  monitor : ExclusiveMonitor I

/-- `b_transport`, run to completion, with the answer of the target. -/
def bTransport (ok : Bool) (m : ExclusiveMonitor I) : Option (Transport I) := do
  let (carryOn,m) ← m.beforeBTransport t
  if !carryOn then pure ⟨false,.genericError,false,m⟩
  else if !ok then pure ⟨true,.target false,false,m⟩
  else
    let out ← m.afterBTransport t
    pure ⟨true,.target true,out.clearHint,out.monitor⟩

def Locked (r : Region I) : Prop := (r.start,r) ∈ m.regions

def Free (t : Txn I) : Prop := ∀ q, m.Locked q → ¬ q.Meets t.region

/-- Both tables hold the same regions, each under its key, and no two of them share an address. -/
structure WellFormed (m : ExclusiveMonitor I) : Prop where
  keyed : ∀ e ∈ m.regions, e.2.start = e.1
  keyedById : ∀ e ∈ m.regionsById, e.2.id = e.1
  agree : ∀ r, m.Locked r ↔ (r.id,r) ∈ m.regionsById
  nonempty : ∀ r, m.Locked r → r.start ≤ r.endAddr
  apart : ∀ r q, m.Locked r → m.Locked q → r.Meets q → r = q

lemma empty_wellFormed : WellFormed (empty : ExclusiveMonitor I) where
  keyed := by simp [empty]
  keyedById := by simp [empty]
  agree := by simp [empty,Locked]
  nonempty := by simp [empty,Locked]
  apart := by simp [empty,Locked]

namespace WellFormed
variable {m : ExclusiveMonitor I} {t : Txn I} {r q : Region I}

lemma locked_of_mem (h : m.WellFormed) {e : U64 × Region I} (he : e ∈ m.regions) : m.Locked e.2 := by
  rw [Locked,h.keyed e he]
  exact he

lemma eq_of_start (hr : m.Locked r) (hq : m.Locked q) (heq : r.start = q.start) : r = q :=
  congrArg Prod.snd (eq_of_mem hr hq heq)

section
variable (h : m.WellFormed)
include h

lemma eq_of_id (hr : m.Locked r) (hq : m.Locked q) (heq : r.id = q.id) : r = q :=
  congrArg Prod.snd (eq_of_mem ((h.agree r).mp hr) ((h.agree q).mp hq) heq)

lemma findRegion_some (hf : m.findRegion t = some r) : m.Locked r ∧ r.Meets t.region := by
  obtain ⟨e,he,rfl,hs,hl⟩ := findLoop_eq_some hf
  exact ⟨h.locked_of_mem (OrderedMap.mem_fromBeforeLowerBound.mp he).1,hl,hs⟩

/-- A region that the step back leaves out ends before the one it finds begins. -/
lemma findRegion_none : m.findRegion t = none ↔ m.Free t := by
  constructor
  · intro hf q hq hm
    have hs : (m.regions.fromBeforeLowerBound t.address).Pairwise (fun a b => a.2.start < b.2.start) := by
      refine (m.regions.fromBeforeLowerBound_sorted t.address).imp_of_mem fun {a b} ha hb hab => ?_
      rw [h.keyed a (OrderedMap.mem_fromBeforeLowerBound.mp ha).1,h.keyed b (OrderedMap.mem_fromBeforeLowerBound.mp hb).1]
      exact hab
    refine findLoop_eq_none hs hf (q.start,q) (OrderedMap.mem_fromBeforeLowerBound.mpr ⟨hq,?_⟩) ⟨hm.2,hm.1⟩
    intro a ha hlt
    by_contra hle
    have hgt : q.start < a.2.start := by
      rw [h.keyed a ha]
      exact not_le.mp hle
    have he : a.2.start ≤ q.endAddr := by
      rw [h.keyed a ha]
      exact hlt.le.trans hm.2
    have hl := h.locked_of_mem ha
    have heq := h.apart q a.2 hq hl ⟨hgt.le.trans (h.nonempty a.2 hl),he⟩
    exact hgt.ne (by rw [heq])
  · intro hfr
    cases hf : m.findRegion t with
    | none => rfl
    | some r =>
      obtain ⟨hr,hm⟩ := h.findRegion_some hf
      exact absurd hm (hfr r hr)

lemma unlockRegion (hr : m.Locked r) : ∃ m', m.unlockRegion r = some m' ∧ m'.WellFormed ∧
    ∀ q, m'.Locked q ↔ m.Locked q ∧ q ≠ r := by
  have hf : ¬ ((m.regions.find r.start).isNone ∨ (m.regionsById.find r.id).isNone) := by
    rw [OrderedMap.find_eq_some.mpr hr,OrderedMap.find_eq_some.mpr ((h.agree r).mp hr)]
    simp
  have hl : ∀ q, (q.start,q) ∈ m.regions.erase r.start ↔ m.Locked q ∧ q ≠ r := by
    intro q
    rw [mem_erase]
    refine and_congr_right fun hq => not_congr ⟨eq_of_start hq hr,fun heq => by rw [heq]⟩
  have hb : ∀ q, (q.id,q) ∈ m.regionsById.erase r.id ↔ m.Locked q ∧ q ≠ r := by
    intro q
    rw [mem_erase,← h.agree]
    refine and_congr_right fun hq => not_congr ⟨h.eq_of_id hq hr,fun heq => by rw [heq]⟩
  refine ⟨_,if_neg hf,?_,hl⟩
  exact {
    keyed := fun e he => h.keyed e (OrderedMap.mem_erase.mp he).1
    keyedById := fun e he => h.keyedById e (OrderedMap.mem_erase.mp he).1
    agree := fun q => (hl q).trans (hb q).symm
    nonempty := fun q hq => h.nonempty q ((hl q).mp hq).1
    apart := fun q q' hq hq' => h.apart q q' ((hl q).mp hq).1 ((hl q').mp hq').1 }

lemma unlockRegionById (id : I) : ∃ m', m.unlockRegionById id = some m' ∧ m'.WellFormed ∧
    ∀ q, m'.Locked q ↔ m.Locked q ∧ q.id ≠ id := by
  rw [ExclusiveMonitor.unlockRegionById]
  cases hf : m.regionsById.find id with
  | none =>
    refine ⟨m,rfl,h,fun q => ⟨fun hq => ⟨hq,?_⟩,And.left⟩⟩
    exact OrderedMap.find_eq_none.mp hf (q.id,q) ((h.agree q).mp hq)
  | some r =>
    have hme := OrderedMap.find_eq_some.mp hf
    have hid : r.id = id := h.keyedById (id,r) hme
    have hr := (h.agree r).mpr (by rwa [hid])
    obtain ⟨m',hm',hwf,hl⟩ := h.unlockRegion hr
    refine ⟨m',hm',hwf,fun q => (hl q).trans (and_congr_right fun hq => not_congr ?_)⟩
    rw [← hid]
    exact ⟨fun heq => by rw [heq],h.eq_of_id hq hr⟩

lemma lockRegion (ht : t.Proper) (hf : m.Free t) (hid : ∀ q, m.Locked q → q.id ≠ t.id) :
    ∃ m', m.lockRegion t = some m' ∧ m'.WellFormed ∧ ∀ q, m'.Locked q ↔ q = t.region ∨ m.Locked q := by
  have hl : ∀ q, (q.start,q) ∈ m.regions.assign t.address t.region ↔ q = t.region ∨ m.Locked q := by
    intro q
    rw [mem_assign]
    refine or_congr ⟨congrArg Prod.snd,by rintro rfl; rfl⟩ (and_iff_left_of_imp fun hq heq => hf q hq ⟨?_,?_⟩)
    · exact heq.trans_le ht.le
    · exact heq.symm.trans_le (h.nonempty q hq)
  have hb : ∀ q, (q.id,q) ∈ m.regionsById.assign t.id t.region ↔ q = t.region ∨ m.Locked q := by
    intro q
    rw [mem_assign,← h.agree]
    exact or_congr ⟨congrArg Prod.snd,by rintro rfl; rfl⟩ (and_iff_left_of_imp (hid q))
  have hn : ¬ (m.findRegion t).isSome = true := by
    rw [h.findRegion_none.mpr hf]
    simp
  refine ⟨_,if_neg hn,?_,hl⟩
  exact {
    keyed := fun e he => by
      rcases OrderedMap.mem_assign.mp he with rfl | he
      · rfl
      · exact h.keyed e he.1
    keyedById := fun e he => by
      rcases OrderedMap.mem_assign.mp he with rfl | he
      · rfl
      · exact h.keyedById e he.1
    agree := fun q => (hl q).trans (hb q).symm
    nonempty := fun q hq => by
      rcases (hl q).mp hq with rfl | hq
      · exact ht.le
      · exact h.nonempty q hq
    apart := fun q q' hq hq' hm => by
      rcases (hl q).mp hq with rfl | hq <;> rcases (hl q').mp hq' with rfl | hq'
      · rfl
      · exact absurd hm.symm (hf q' hq')
      · exact absurd hm (hf q hq)
      · exact h.apart q q' hq hq' hm }

/-- An exclusive load of free addresses moves its initiator's lock there; any other changes nothing. -/
lemma handleExclusiveLoad (ht : t.Proper) : ∃ out, m.handleExclusiveLoad t = some out ∧
    out.2.WellFormed ∧ (m.Free t → out.1 = some t.region ∧
      ∀ q, out.2.Locked q ↔ q = t.region ∨ m.Locked q ∧ q.id ≠ t.id) ∧ (¬ m.Free t → out = (none,m)) := by
  rw [ExclusiveMonitor.handleExclusiveLoad]
  cases hf : m.findRegion t with
  | some r =>
    have hbu : ¬ m.Free t := fun hfr => hfr r (h.findRegion_some hf).1 (h.findRegion_some hf).2
    exact ⟨_,rfl,h,fun hfr => absurd hfr hbu,fun _ => rfl⟩
  | none =>
    have hfr := h.findRegion_none.mp hf
    obtain ⟨m1,hm1,hw1,hl1⟩ := h.unlockRegionById t.id
    obtain ⟨m2,hm2,hw2,hl2⟩ := hw1.lockRegion ht (fun q hq => hfr q ((hl1 q).mp hq).1)
      (fun q hq => ((hl1 q).mp hq).2)
    refine ⟨(some t.region,m2),by simp [hm1,hm2],hw2,fun _ => ⟨rfl,fun q => ?_⟩,fun hb => absurd hfr hb⟩
    rw [hl2,hl1]

/-- An exclusive store goes through exactly when its own region is locked, and then unlocks it. -/
lemma handleExclusiveStore (ht : t.Proper) : ∃ out, m.handleExclusiveStore t = some out ∧
    out.2.WellFormed ∧ (m.Locked t.region → out.1 = true ∧ ∀ q, out.2.Locked q ↔ m.Locked q ∧ q ≠ t.region) ∧
      (¬ m.Locked t.region → out = (false,m)) := by
  have hs : t.region.Meets t.region := ⟨ht.le,ht.le⟩
  rw [ExclusiveMonitor.handleExclusiveStore]
  by_cases ho : m.Locked t.region
  · cases hf : m.findRegion t with
    | none => exact absurd hs (h.findRegion_none.mp hf t.region ho)
    | some r =>
      obtain ⟨hr,hm⟩ := h.findRegion_some hf
      obtain rfl := h.apart r t.region hr ho hm
      obtain ⟨m',hm',hwf,hlo⟩ := h.unlockRegion ho
      have he : t.region.isExactMatch t = true := by simp [Region.isExactMatch,Txn.region,Txn.last]
      exact ⟨(true,m'),by simp [hm',he],hwf,fun _ => ⟨rfl,hlo⟩,fun hn => absurd ho hn⟩
  · refine ⟨(false,m),?_,h,fun hl => absurd hl ho,fun _ => rfl⟩
    cases hf : m.findRegion t with
    | none => rfl
    | some r =>
      have hne : r.id = t.id → r.isExactMatch t = false := by
        intro hid
        rw [← Bool.not_eq_true]
        intro he
        have heq : r = t.region := by
          obtain ⟨start,last,id⟩ := r
          simp only [Region.isExactMatch,Bool.and_eq_true,decide_eq_true_eq] at he hid
          simp [Txn.region,Txn.last,he.1,hid,he.2]
        exact ho (heq ▸ (h.findRegion_some hf).1)
      by_cases hid : r.id = t.id
      · simp [hid,hne hid]
      · simp [hid]

end

lemma regularStoreLoop (n : ℕ) (h : m.WellFormed) (hn : m.regions.entries.length ≤ n) :
    ∃ m', ExclusiveMonitor.regularStoreLoop t n m = some m' ∧ m'.WellFormed ∧
      ∀ q, m'.Locked q ↔ m.Locked q ∧ ¬ q.Meets t.region := by
  induction n generalizing m with
  | zero =>
    have hni := length_eq_zero_iff.mp (Nat.le_zero.mp hn)
    refine ⟨m,rfl,h,fun q => ⟨fun hq => ?_,And.left⟩⟩
    rw [Locked,OrderedMap.mem_def,hni] at hq
    cases hq
  | succ n ih =>
    rw [ExclusiveMonitor.regularStoreLoop]
    cases hf : m.findRegion t with
    | none =>
      have hfr := h.findRegion_none.mp hf
      exact ⟨m,rfl,h,fun q => ⟨fun hq => ⟨hq,hfr q hq⟩,And.left⟩⟩
    | some r =>
      obtain ⟨hr,hm⟩ := h.findRegion_some hf
      obtain ⟨m1,hm1,hw1,hl1⟩ := h.unlockRegion hr
      have hl : m1.regions.entries.length ≤ n := by
        have hlt : m1.regions.entries.length < m.regions.entries.length := by
          rw [ExclusiveMonitor.unlockRegion] at hm1
          split_ifs at hm1
          cases hm1
          exact length_filter_lt_length_iff_exists.mpr ⟨(r.start,r),hr,by simp⟩
        omega
      obtain ⟨m2,hm2,hw2,hl2⟩ := ih hw1 hl
      refine ⟨m2,by simp [hm1,hm2],hw2,fun q => ?_⟩
      rw [hl2,hl1]
      constructor
      · rintro ⟨⟨hq,-⟩,hnm⟩
        exact ⟨hq,hnm⟩
      · rintro ⟨hq,hnm⟩
        exact ⟨⟨hq,fun heq => hnm (heq ▸ hm)⟩,hnm⟩

lemma handleRegularStore (t : Txn I) (h : m.WellFormed) : ∃ m', m.handleRegularStore t = some m' ∧ m'.WellFormed ∧
    ∀ q, m'.Locked q ↔ m.Locked q ∧ ¬ q.Meets t.region :=
  regularStoreLoop _ h le_rfl

/-- `before_b_transport` of a store: only an exclusive one without its lock is held back, and changes nothing. -/
lemma beforeBTransport (h : m.WellFormed) (ht : t.Proper) : ∃ out, m.beforeBTransport t = some out ∧
    out.2.WellFormed ∧ (out.1 = false ↔ (t.isStore ∧ t.exclusive) ∧ ¬ m.Locked t.region) ∧
    (out.1 = false ∨ t.isStore = false → out.2 = m) ∧
    (t.isStore → out.1 = true → ∀ q, out.2.Locked q ↔ m.Locked q ∧ ¬ q.Meets t.region) := by
  rw [ExclusiveMonitor.beforeBTransport]
  by_cases hst : t.isStore = true
  · by_cases hex : t.exclusive = true
    · obtain ⟨out,hou,hwf,how,ho⟩ := h.handleExclusiveStore ht
      simp only [hst,hex,Bool.not_true,Bool.false_eq_true,if_false,if_true,true_and]
      by_cases hl : m.Locked t.region
      · obtain ⟨htr,hlo⟩ := how hl
        refine ⟨out,hou,hwf,by simp [htr,hl],by simp [htr],fun _ _ q => (hlo q).trans ?_⟩
        refine and_congr_right fun hq => not_congr ⟨fun heq => ?_,h.apart q _ hq hl⟩
        rw [heq]
        exact ⟨ht.le,ht.le⟩
      · obtain rfl := ho hl
        exact ⟨_,hou,hwf,by simp [hl],by simp,by simp⟩
    · obtain ⟨m',hm',hwf,hlo⟩ := h.handleRegularStore t
      exact ⟨(true,m'),by simp [hst,hex,hm'],hwf,by simp [hex],by simp [hst],fun _ _ => hlo⟩
  · exact ⟨(true,m),by simp [hst],h,by simp [hst],by simp,fun hs => absurd hs hst⟩

/-- `after_b_transport`: only an exclusive load of free addresses changes the locks. -/
lemma afterBTransport (h : m.WellFormed) (ht : t.Proper) : ∃ out, m.afterBTransport t = some out ∧
    out.monitor.WellFormed ∧ ((t.isStore = false ∧ t.exclusive) ∧ m.Free t → out.locked = some t.region ∧
      ∀ q, out.monitor.Locked q ↔ q = t.region ∨ m.Locked q ∧ q.id ≠ t.id) ∧
    (¬ ((t.isStore = false ∧ t.exclusive) ∧ m.Free t) → out.locked = none ∧ out.monitor = m) := by
  rw [ExclusiveMonitor.afterBTransport]
  by_cases hl : t.isStore = false ∧ t.exclusive
  · obtain ⟨out,ho,hwf,hfr,hb⟩ := h.handleExclusiveLoad ht
    refine ⟨⟨true,out.1,out.2⟩,by simp [hl.1,hl.2,ho],hwf,fun hc => hfr hc.2,fun hc => ?_⟩
    have ho := hb fun hf => hc ⟨hl,hf⟩
    simp [ho]
  · by_cases hs : t.isStore = true
    · exact ⟨_,by rw [if_pos hs],h,fun hc => absurd hc.1 hl,fun _ => ⟨rfl,rfl⟩⟩
    · have hex : t.exclusive = false := by
        by_contra hex
        exact hl ⟨Bool.eq_false_iff.mpr hs,by simpa using hex⟩
      exact ⟨_,by rw [if_neg hs,if_pos (by simp [hex])],h,fun hc => absurd hc.1 hl,fun _ => ⟨rfl,rfl⟩⟩

end WellFormed

section
/-- A transaction run to completion, with the answer the target gives if it is asked. -/
structure Event (I : Type) where
  txn : Txn I
  ok : Bool

/-- The monitor after a transaction. A failed assertion would end the simulation. -/
def step (m : ExclusiveMonitor I) (e : Event I) : ExclusiveMonitor I :=
  ((m.bTransport e.txn e.ok).map Transport.monitor).getD m

variable (h : List (Event I))

def after : ExclusiveMonitor I := h.foldl step empty

lemma after_concat (e : Event I) : after (h ++ [e]) = (after h).step e := by
  simp [after]

def Forwards (m : ExclusiveMonitor I) (e : Event I) : Prop :=
  ∃ out, m.bTransport e.txn e.ok = some out ∧ out.forwarded = true

def TakesLock (m : ExclusiveMonitor I) (e : Event I) (r : Region I) : Prop :=
  ((e.txn.isStore = false ∧ e.txn.exclusive) ∧ e.ok) ∧ e.txn.region = r ∧ m.Free e.txn

/-- A regular store or a forwarded exclusive store to the region, or another lock for its owner. -/
def Breaks (m : ExclusiveMonitor I) (e : Event I) (r : Region I) : Prop :=
  (e.txn.isStore ∧ e.txn.exclusive = false ∧ r.Meets e.txn.region) ∨
    ((e.txn.isStore ∧ e.txn.exclusive) ∧ m.Forwards e ∧ r.Meets e.txn.region) ∨
    ∃ q, m.TakesLock e q ∧ q.id = r.id

/-- The owner of the region has taken its lock, and nothing has broken it since. -/
def Reserved (r : Region I) : Prop := ∃ h1 e h2, h = h1 ++ e :: h2 ∧ (after h1).TakesLock e r ∧
    ∀ g1 f g2, h2 = g1 ++ f :: g2 → ¬ (after (h1 ++ e :: g1)).Breaks f r

omit [LinearOrder I] in
lemma concat_eq_append_cons {h h1 h2 : List (Event I)} {e f : Event I} (heq : h ++ [e] = h1 ++ f :: h2) :
    (h1 = h ∧ f = e ∧ h2 = []) ∨ ∃ g, h2 = g ++ [e] ∧ h = h1 ++ f :: g := by
  rcases eq_nil_or_concat' h2 with rfl | ⟨g,x,rfl⟩
  · obtain ⟨rfl,hf⟩ := append_inj' heq rfl
    exact .inl ⟨rfl,(List.cons.inj hf).1.symm,rfl⟩
  · rw [← List.cons_append,← List.append_assoc] at heq
    obtain ⟨rfl,hx⟩ := append_inj' heq rfl
    exact .inr ⟨g,by rw [(List.cons.inj hx).1],rfl⟩

lemma reserved_concat {h : List (Event I)} {e : Event I} {r : Region I} :
    Reserved (h ++ [e]) r ↔ (after h).TakesLock e r ∨ Reserved h r ∧ ¬ (after h).Breaks e r := by
  constructor
  · rintro ⟨h1,f,h2,heq,ht,hk⟩
    rcases concat_eq_append_cons heq with ⟨rfl,rfl,rfl⟩ | ⟨g,rfl,rfl⟩
    · exact Or.inl ht
    · refine Or.inr ⟨⟨h1,f,g,rfl,ht,fun g1 y g2 hg => ?_⟩,hk g e [] rfl⟩
      exact hk g1 y (g2 ++ [e]) (by simp [hg])
  · rintro (ht | ⟨⟨h1,f,h2,rfl,ht,hk⟩,hb⟩)
    · exact ⟨h,e,[],rfl,ht,fun g1 f g2 hg => by simp at hg⟩
    · refine ⟨h1,f,h2 ++ [e],by simp,ht,fun g1 y g2 hg => ?_⟩
      rcases concat_eq_append_cons hg with ⟨rfl,rfl,rfl⟩ | ⟨g,rfl,rfl⟩
      · exact hb
      · exact hk g1 y g rfl

variable {m : ExclusiveMonitor I} {e : Event I}

lemma bTransport_store (hs : e.txn.isStore = true) {carryOn : Bool} {m' : ExclusiveMonitor I}
    (hb : m.beforeBTransport e.txn = some (carryOn,m')) : m.bTransport e.txn e.ok =
      some ⟨carryOn,if carryOn then .target e.ok else .genericError,false,m'⟩ := by
  cases hc : carryOn <;> cases hok : e.ok <;> simp [bTransport,hb,afterBTransport,hs,hc]

lemma bTransport_load (hl : e.txn.isStore = false) {out : After I} (ha : m.afterBTransport e.txn = some out) :
    m.bTransport e.txn e.ok =
      some ⟨true,.target e.ok,e.ok && out.clearHint,if e.ok then out.monitor else m⟩ := by
  cases hok : e.ok <;> simp [bTransport,beforeBTransport,hl,ha]

/-- Only an exclusive store without its lock is held back, and changes nothing; afterwards the locks are the one taken
and those not broken. -/
lemma bTransport_spec (hm : m.WellFormed) (he : e.txn.Proper) : ∃ out, m.bTransport e.txn e.ok = some out ∧
    out.monitor.WellFormed ∧ (out.forwarded = false ↔ (e.txn.isStore ∧ e.txn.exclusive) ∧ ¬ m.Locked e.txn.region) ∧
    (out.forwarded = false → out.response = .genericError ∧ out.monitor = m) ∧
    ∀ r, out.monitor.Locked r ↔ m.TakesLock e r ∨ m.Locked r ∧ ¬ m.Breaks e r := by
  by_cases hs : e.txn.isStore = true
  · obtain ⟨⟨carryOn,m'⟩,hb,hwf,hh,hsa,hlo⟩ := hm.beforeBTransport he
    have ho := bTransport_store hs hb
    have ht : ∀ r, ¬ m.TakesLock e r := by
      rintro r ⟨⟨⟨hl,-⟩,-⟩,-⟩
      rw [hs] at hl
      cases hl
    have hf : m.Forwards e ↔ carryOn = true := by
      rw [Forwards,ho]
      simp
    refine ⟨_,ho,hwf,hh,fun (hc : carryOn = false) => ⟨by simp [hc],hsa (Or.inl hc)⟩,fun r => ?_⟩
    cases hc : carryOn with
    | false =>
      have hex := (hh.mp hc).1.2
      have hbr : ¬ m.Breaks e r := by
        rintro (h | h | ⟨q,h,-⟩)
        · simp [hex] at h
        · simp [hf,hc] at h
        · exact ht q h
      obtain rfl := hsa (Or.inl hc)
      simp [ht,hbr]
    | true =>
      have hbr : m.Breaks e r ↔ r.Meets e.txn.region := by
        constructor
        · rintro (h | h | ⟨q,h,-⟩)
          · exact h.2.2
          · exact h.2.2
          · exact absurd h (ht q)
        · intro h
          cases hex : e.txn.exclusive with
          | false => exact Or.inl ⟨hs,hex,h⟩
          | true => exact Or.inr (Or.inl ⟨⟨hs,hex⟩,hf.mpr hc,h⟩)
      rw [hlo hs hc r,hbr]
      simp [ht]
  · have hl := Bool.eq_false_iff.mpr hs
    obtain ⟨out,ha,hwf,hfr,hbu⟩ := hm.afterBTransport he
    have ho := bTransport_load hl ha
    have ht : ∀ r, m.TakesLock e r ↔
        (e.ok ∧ (e.txn.isStore = false ∧ e.txn.exclusive) ∧ m.Free e.txn) ∧ e.txn.region = r := by
      intro r
      rw [TakesLock]
      tauto
    have hbr : ∀ r, m.Breaks e r ↔
        (e.ok ∧ (e.txn.isStore = false ∧ e.txn.exclusive) ∧ m.Free e.txn) ∧ e.txn.id = r.id := by
      intro r
      simp only [Breaks,ht,hl]
      constructor
      · rintro (h | h | ⟨q,⟨h,rfl⟩,hid⟩)
        · simp at h
        · simp at h
        · exact ⟨h,hid⟩
      · rintro ⟨h,hid⟩
        exact Or.inr (Or.inr ⟨_,⟨h,rfl⟩,hid⟩)
    refine ⟨_,ho,?_,by simp [hl],by simp,fun r => ?_⟩
    · cases e.ok with
      | false => exact hm
      | true => exact hwf
    · rw [ht,hbr]
      cases hok : e.ok with
      | false => simp
      | true =>
        by_cases hc : (e.txn.isStore = false ∧ e.txn.exclusive) ∧ m.Free e.txn
        · simp only [if_true,(hfr hc).2,hc,true_and,eq_comm,ne_eq,and_true]
        · simp [(hbu hc).2,hc]

lemma step_eq {out : Transport I} (h : m.bTransport e.txn e.ok = some out) : m.step e = out.monitor := by
  rw [step,h]
  rfl

/-- The locks of the monitor are the reservations of its history. -/
lemma locked_after {h : List (Event I)} (hh : ∀ e ∈ h, e.txn.Proper) :
    (after h).WellFormed ∧ ∀ r, (after h).Locked r ↔ Reserved h r := by
  induction h using reverseRecOn with
  | nil =>
    refine ⟨empty_wellFormed,fun r => ?_⟩
    simp [Reserved,after,empty,Locked]
  | append_singleton h e ih =>
    obtain ⟨hwf,hl⟩ := ih fun f hf => hh f (mem_append_left _ hf)
    obtain ⟨out,ho,hwf',-,-,hl'⟩ := bTransport_spec hwf (hh e (by simp))
    rw [after_concat,step_eq ho]
    refine ⟨hwf',fun r => ?_⟩
    rw [hl',hl,reserved_concat]

/-- An exclusive store is forwarded exactly when its initiator has reserved its region; otherwise it fails and keeps
the locks. -/
theorem exclusive_store_forwarded_iff {h : List (Event I)} (hh : ∀ e ∈ h, e.txn.Proper) {e : Event I}
    (he : e.txn.Proper) (hstore : e.txn.isStore = true) (hex : e.txn.exclusive = true) :
    ∃ out, (after h).bTransport e.txn e.ok = some out ∧ (out.forwarded = true ↔ Reserved h e.txn.region) ∧
      (out.forwarded = false → out.response = .genericError ∧ out.monitor = after h) := by
  obtain ⟨hwf,hl⟩ := locked_after hh
  obtain ⟨out,ho,-,hhe,hs,-⟩ := bTransport_spec hwf he
  refine ⟨out,ho,?_,hs⟩
  rw [← hl,← Bool.not_eq_false,hhe]
  simp [hstore,hex]

def loadExclusive (id : ℕ) (address : U64) (dataLength : U32) : Event ℕ := ⟨⟨address,dataLength,.read,true,id⟩,true⟩

def storeExclusive (id : ℕ) (address : U64) (dataLength : U32) : Event ℕ := ⟨⟨address,dataLength,.write,true,id⟩,true⟩

theorem exclusive_store_forwarded_pair :
    ((after [loadExclusive 0 0x1000 4]).bTransport (storeExclusive 0 0x1000 4).txn true).map Transport.forwarded = some true ∧
      ∃ out, (after [loadExclusive 0 0x1000 4]).bTransport (storeExclusive 0 0x1000 4).txn true = some out ∧
        (out.forwarded = true ↔ Reserved [loadExclusive 0 0x1000 4] (storeExclusive 0 0x1000 4).txn.region) ∧
        (out.forwarded = false → out.response = .genericError ∧ out.monitor = after [loadExclusive 0 0x1000 4]) := by
  refine ⟨by decide +kernel,exclusive_store_forwarded_iff ?_ (by decide) rfl rfl⟩
  intro e he
  rw [mem_singleton.mp he]
  decide

/-- No two reservations share an owner or an address. -/
theorem reserved_pairwise {h : List (Event I)} (hh : ∀ e ∈ h, e.txn.Proper) :
    {r | Reserved h r}.Pairwise fun r q => r.id ≠ q.id ∧ ¬r.Meets q := by
  obtain ⟨hwf,hl⟩ := locked_after hh
  intro r hr q hq hne
  replace hr := (hl r).mpr hr
  replace hq := (hl q).mpr hq
  exact ⟨fun hid => hne (hwf.eq_of_id hr hq hid),fun hm => hne (hwf.apart r q hr hq hm)⟩

theorem reserved_pairwise_two : {r | Reserved [loadExclusive 0 0x1000 4,loadExclusive 1 0x2000 4] r}.Pairwise
    fun r q => r.id ≠ q.id ∧ ¬r.Meets q := reserved_pairwise (by decide)

end
end ExclusiveMonitor
end Qbox
