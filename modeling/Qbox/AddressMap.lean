import Qbox.MachineWord
import Qbox.OrderedMap
import Qbox.PriorityChoice

/-! The router's address map: overlapping target regions are split at every
boundary point and each segment keeps the target of least numeric priority.
Lookup then finds the one segment around an address. -/
namespace Qbox
open List OrderedMap PriorityChoice
namespace AddressMap
/-- What the map reads of a target. The type is the shared pointer: equal data may be two targets. -/
class TargetInfoType (T : Type) where
  name : T → String
  address : T → U64
  size : T → U64
  priority : T → U32

open TargetInfoType

/-- A contiguous range `[start, endAddr)` owned by one target. -/
structure Region (T : Type) where
  start : U64
  endAddr : U64
  target : T
  deriving DecidableEq

structure Interval (T : Type) extends Region T where
  priority : U32

abbrev Regions (T : Type) := OrderedMap U64 (Region T)

def uint32Max : U32 := 0xFFFFFFFF

variable {T : Type}

def Region.overlaps (r : Region T) (newStart newEnd : U64) : Bool :=
  decide (r.start < newEnd) && decide (r.endAddr > newStart)

/-- Steps 1 and 2: the nodes that meet the new range, and the map without them. -/
def overlappingRegions (m : Regions T) (newStart newEnd : U64) : List (U64 × Region T) :=
  m.entries.filter (fun e => e.2.overlaps newStart newEnd)

def removeKeys (m : Regions T) (keys : List U64) : Regions T := keys.foldl OrderedMap.erase m

def boundaries (is : List (Interval T)) : OrderedMap U64 Unit :=
  is.foldl (fun s i => (s.emplace i.start ()).emplace i.endAddr ()) OrderedMap.empty

/-- The inner loop of step 5, carrying `best_target` and `best_priority`. -/
def bestTarget (segStart segEnd : U64) : List (Interval T) → Option T × U32 → Option T × U32
  | [], best => best
  | i :: is, best =>
    bestTarget segStart segEnd is
      (if i.start ≤ segStart ∧ i.endAddr ≥ segEnd ∧ i.priority < best.2 then
        (some i.target,i.priority) else best)

/-- Step 5: walk the boundary points pairwise and store each owned segment. -/
def resolveSegments (is : List (Interval T)) : List U64 → Regions T → Regions T
  | segStart :: segEnd :: rest, m =>
    resolveSegments is (segEnd :: rest)
      (match (bestTarget segStart segEnd is (none,uint32Max)).1 with
      | some t => m.emplace segStart ⟨segStart,segEnd,t⟩
      | none => m)
  | _, m => m

/-- The slow path of `find`: step back from `upper_bound` and test the region. -/
def lookup (regions : Regions T) (a : U64) : Option T := match regions.beforeUpperBound a with
  | some e => if a ≥ e.2.start ∧ a < e.2.endAddr then some e.2.target else none
  | none => none

/-- `find_region`: the target and its segment's inclusive bounds, or those of the hole. -/
def findRegion (regions : Regions T) (addr : U64) : Option T × U64 × U64 :=
  let before := regions.beforeUpperBound addr
  match before.filter (fun e => decide (addr ≥ e.2.start) && decide (addr < e.2.endAddr)) with
  | some e => (some e.2.target,e.2.start,e.2.endAddr-1)
  | none =>
    let holeStart := ((before.filter (fun e => decide (e.2.endAddr ≤ addr))).map (fun e => e.2.endAddr)).getD 0
    let holeEnd := ((regions.upperBound addr).map (fun e => e.2.start)).getD (BitVec.allOnes 64)
    (none,holeStart,if holeEnd = 0 then 0 else holeEnd-1)

/-- `AddrMapCacheBase`; the inner `Option` is the null pointer cached for an unmapped address. -/
class AddrMapCacheBase (C T : Type) where
  get : C → U64 → Option (Option T) × C
  put : C → U64 → Option T → U64 → C
  clear : C → C

structure AddrMapNoCache where
  deriving DecidableEq

instance : AddrMapCacheBase AddrMapNoCache T where
  get c _ := (none,c)
  put c _ _ _ := c
  clear c := c

section
variable [TargetInfoType T]

def Region.interval (r : Region T) : Interval T := ⟨r,priority r.target⟩

/-- Step 3: the new range first, then the old ones in key order. -/
def intervals (m : Regions T) (newStart newEnd : U64) (newTarget : T) : List (Interval T) :=
  (Region.mk newStart newEnd newTarget).interval ::
    (overlappingRegions m newStart newEnd).map (fun e => e.2.interval)

def splitAndResolve (m : Regions T) (newStart newEnd : U64) (newTarget : T) : Regions T :=
  let is := intervals m newStart newEnd newTarget
  resolveSegments is ((boundaries is).entries.map Prod.fst)
    (removeKeys m ((overlappingRegions m newStart newEnd).map Prod.fst))

def hex (a : U64) : String := String.ofList (Nat.toDigits 16 a.toNat)

/-- Step 6: one warning for each interval other than the new one that owns no
segment of the final map. -/
def shadowWarnings [DecidableEq T] (m : Regions T) (newStart newEnd : U64) (newTarget : T) : List String :=
  let final := splitAndResolve m newStart newEnd newTarget
  ((intervals m newStart newEnd newTarget).filter fun i =>
      !(i.start == newStart && i.endAddr == newEnd && decide (i.target = newTarget)) &&
      !final.entries.any fun e =>
        decide (e.2.target = i.target) && decide (e.2.start < i.endAddr) && decide (e.2.endAddr > i.start)).map
    fun i => "Region '" ++ name i.target ++ "' (0x" ++ hex i.start ++ "-0x" ++ hex (i.endAddr - 1) ++
      ", priority " ++ toString i.priority.toNat ++
      ") is completely shadowed by higher priority regions and will never be accessed"

end
end AddressMap

structure AddressMap (T C : Type) where
  regions : AddressMap.Regions T
  cache : C

namespace AddressMap
open TargetInfoType

variable {T C : Type} [AddrMapCacheBase C T]

def find (m : AddressMap T C) (a sz : U64) : Option T × AddressMap T C :=
  match AddrMapCacheBase.get (T := T) m.cache a with
  | (some cached,c) => (cached,{ m with cache := c })
  | (none,c) =>
    let r := lookup m.regions a
    (r,{ m with cache := AddrMapCacheBase.put c a r sz })

def add [TargetInfoType T] (m : AddressMap T C) (t : T) : AddressMap T C where
  regions := splitAndResolve m.regions (address t) (address t + size t) t
  cache := AddrMapCacheBase.clear T m.cache

section
variable {T : Type}

def Region.Covers (r : Region T) (a : U64) : Prop := r.start ≤ a ∧ a < r.endAddr

/-- Stored regions are keyed by their own start, non-empty and pairwise disjoint. -/
structure WellFormed (m : Regions T) : Prop where
  keyed : ∀ e ∈ m, e.1 = e.2.start
  nonempty : ∀ e ∈ m, e.2.start < e.2.endAddr
  disjoint : ∀ e ∈ m, ∀ f ∈ m, e ≠ f → e.2.endAddr ≤ f.2.start ∨ f.2.endAddr ≤ e.2.start

lemma WellFormed.empty : WellFormed (OrderedMap.empty : Regions T) := ⟨by simp,by simp,by simp⟩

variable {m : Regions T}

section
variable (hm : WellFormed m)
include hm

lemma WellFormed.eq_of_covers {e f : U64 × Region T} {a : U64}
    (he : e ∈ m) (hf : f ∈ m) (hea : e.2.Covers a) (hfa : f.2.Covers a) : e = f := by
  by_contra hne
  rcases hm.disjoint e he f hf hne with h | h
  · exact absurd (lt_of_lt_of_le hea.2 h) (not_lt.mpr hfa.1)
  · exact absurd (lt_of_lt_of_le hfa.2 h) (not_lt.mpr hea.1)

lemma beforeUpperBound_of_covers {e : U64 × Region T} {a : U64} (he : e ∈ m)
    (hc : e.2.Covers a) : m.beforeUpperBound a = some e := by
  refine OrderedMap.beforeUpperBound_eq_some.mpr ⟨he,(hm.keyed e he).le.trans hc.1,?_⟩
  intro f hf hfa
  by_contra hlt
  have hef : e ≠ f := by
    rintro rfl
    exact hlt le_rfl
  rcases hm.disjoint e he f hf hef with h | h
  · exact absurd (lt_of_lt_of_le hc.2 h) (not_lt.mpr ((hm.keyed f hf) ▸ hfa))
  · have h₁ := lt_of_lt_of_le (hm.nonempty f hf) h
    rw [← hm.keyed f hf,← hm.keyed e he] at h₁
    exact hlt h₁.le

lemma lookup_eq_some_iff (a : U64) (t : T) :
    lookup m a = some t ↔ ∃ e ∈ m, e.2.Covers a ∧ e.2.target = t := by
  constructor
  · intro h
    cases hb : m.beforeUpperBound a with
    | none => simp [lookup,hb] at h
    | some e =>
      simp only [lookup,hb] at h
      split_ifs at h with hc
      exact ⟨e,(OrderedMap.beforeUpperBound_eq_some.mp hb).1,hc,Option.some.inj h⟩
  · rintro ⟨e,he,hc,rfl⟩
    simp only [lookup,beforeUpperBound_of_covers hm he hc]
    rw [if_pos ⟨hc.1,hc.2⟩]

omit hm in
lemma findRegion_target (m : Regions T) (a : U64) : (findRegion m a).1 = lookup m a := by
  rw [findRegion,lookup]
  cases hb : m.beforeUpperBound a with
  | none => rfl
  | some e =>
    by_cases hc : e.2.start ≤ a ∧ a < e.2.endAddr
    · simp [Option.filter,hc]
    · simp [Option.filter,hc]

lemma lookup_eq_none_iff (a : U64) : lookup m a = none ↔ ∀ e ∈ m, ¬ e.2.Covers a := by
  constructor
  · intro h e he hc
    have := (lookup_eq_some_iff hm a e.2.target).mpr ⟨e,he,hc,rfl⟩
    simp [h] at this
  · intro h
    cases hl : lookup m a with
    | none => rfl
    | some t =>
      obtain ⟨e,he,hc,-⟩ := (lookup_eq_some_iff hm a t).mp hl
      exact absurd hc (h e he)

end

lemma overlaps_iff (r : Region T) (s e : U64) : r.overlaps s e = true ↔ r.start < e ∧ s < r.endAddr := by
  simp [Region.overlaps]

lemma overlaps_of_covers {r : Region T} {s e a : U64} (hr : r.Covers a) (h₁ : s ≤ a) (h₂ : a < e) :
    r.overlaps s e = true :=
  (overlaps_iff r s e).mpr ⟨lt_of_le_of_lt hr.1 h₂,lt_of_le_of_lt h₁ hr.2⟩

lemma mem_overlappingRegions {s e : U64} {x : U64 × Region T} :
    x ∈ overlappingRegions m s e ↔ x ∈ m ∧ x.2.overlaps s e = true := by
  simp [overlappingRegions,OrderedMap.mem_def]

lemma mem_removeKeys_overlapping {s e : U64} {x : U64 × Region T} :
    x ∈ removeKeys m ((overlappingRegions m s e).map Prod.fst) ↔ x ∈ m ∧ x.2.overlaps s e = false := by
  rw [removeKeys,mem_foldl_erase]
  refine and_congr_right fun hx => ?_
  rw [← Bool.not_eq_true,not_iff_not,List.mem_map]
  constructor
  · rintro ⟨y,hy,hk⟩
    obtain ⟨hym,hyo⟩ := mem_overlappingRegions.mp hy
    rwa [← eq_of_mem hym hx hk]
  · intro ho
    exact ⟨x,mem_overlappingRegions.mpr ⟨hx,ho⟩,rfl⟩

variable {is : List (Interval T)}

lemma mem_boundaries {p : U64} :
    p ∈ (boundaries is).entries.map Prod.fst ↔ ∃ i ∈ is, p = i.start ∨ p = i.endAddr := by
  have hke : ∀ (s : OrderedMap U64 Unit) (k p : U64),
      p ∈ (s.emplace k ()).entries.map Prod.fst ↔ p ∈ s.entries.map Prod.fst ∨ p = k := by
    intro s k p
    constructor
    · rintro h
      obtain ⟨e,he,rfl⟩ := List.mem_map.mp h
      rcases OrderedMap.mem_emplace.mp he with he | ⟨rfl,-⟩
      · exact Or.inl (List.mem_map_of_mem he)
      · exact Or.inr rfl
    · intro h
      by_cases hp : ∃ e ∈ s, e.1 = p
      · obtain ⟨e,he,rfl⟩ := hp
        exact List.mem_map_of_mem (OrderedMap.mem_emplace.mpr (Or.inl he))
      · rcases h with h | rfl
        · obtain ⟨e,he,rfl⟩ := List.mem_map.mp h
          exact absurd ⟨e,he,rfl⟩ hp
        · refine List.mem_map.mpr ⟨(p,()),OrderedMap.mem_emplace.mpr (Or.inr ⟨rfl,?_⟩),rfl⟩
          intro a ha hk
          exact hp ⟨a,ha,hk⟩
  have hf : ∀ (is : List (Interval T)) (s : OrderedMap U64 Unit),
      p ∈ (is.foldl (fun s i => (s.emplace i.start ()).emplace i.endAddr ()) s).entries.map Prod.fst ↔
        p ∈ s.entries.map Prod.fst ∨ ∃ i ∈ is, p = i.start ∨ p = i.endAddr := by
    intro is
    induction is with
    | nil => simp
    | cons i is ih =>
      intro s
      rw [foldl_cons,ih,hke,hke]
      simp [or_assoc]
  rw [boundaries,hf]
  simp [OrderedMap.empty]

lemma boundaries_sorted (is : List (Interval T)) : ((boundaries is).entries.map Prod.fst).Pairwise (· < ·) :=
  pairwise_map.mpr (boundaries is).sorted

lemma covers_iff_of_gap {i : Interval T} {g : U64 × U64} {a : U64}
    (hi : i ∈ is) (hg : g ∈ gaps ((boundaries is).entries.map Prod.fst))
    (h₁ : g.1 ≤ a) (h₂ : a < g.2) : i.toRegion.Covers a ↔ i.start ≤ g.1 ∧ i.endAddr ≥ g.2 := by
  obtain ⟨-,-,hga⟩ := gap_spec (boundaries_sorted is) hg
  have hs := hga i.start (mem_boundaries.mpr ⟨i,hi,Or.inl rfl⟩)
  have he := hga i.endAddr (mem_boundaries.mpr ⟨i,hi,Or.inr rfl⟩)
  constructor
  · rintro ⟨hs',he'⟩
    exact ⟨hs.resolve_right (not_le.mpr (lt_of_le_of_lt hs' h₂)),he.resolve_left (not_le.mpr (lt_of_le_of_lt h₁ he'))⟩
  · rintro ⟨hs',he'⟩
    exact ⟨hs'.trans h₁,lt_of_lt_of_le h₂ he'⟩

lemma bestTarget_eq_self {s e : U64} {best : Option T × U32}
    (h : ∀ i ∈ is, i.start ≤ s → i.endAddr ≥ e → ¬ i.priority < best.2) : bestTarget s e is best = best := by
  induction is with
  | nil => rfl
  | cons i is ih =>
    have hi : ¬ (i.start ≤ s ∧ i.endAddr ≥ e ∧ i.priority < best.2) := fun hc =>
      h i (by simp) hc.1 hc.2.1 hc.2.2
    rw [bestTarget,if_neg hi]
    exact ih fun j hj => h j (mem_cons_of_mem _ hj)

lemma bestTarget_unique {s e : U64} {best : Option T × U32} {i : Interval T}
    (hi : i ∈ is) (hs : i.start ≤ s) (he : i.endAddr ≥ e) (hu : ∀ j ∈ is, j.start ≤ s → j.endAddr ≥ e → j = i) :
    bestTarget s e is best = if i.priority < best.2 then (some i.target,i.priority) else best := by
  induction is generalizing best with
  | nil => simp at hi
  | cons k is ih =>
    rw [bestTarget]
    have hr := fun j hj =>
      hu j (mem_cons_of_mem _ hj)
    by_cases hk : k.start ≤ s ∧ k.endAddr ≥ e
    · obtain rfl := hu k (by simp) hk.1 hk.2
      by_cases hp : k.priority < best.2
      · rw [if_pos ⟨hs,he,hp⟩,if_pos hp]
        refine bestTarget_eq_self fun j hj hjs hje => ?_
        rw [hr j hj hjs hje]
        exact lt_irrefl _
      · rw [if_neg fun hc => hp hc.2.2,if_neg hp]
        refine bestTarget_eq_self fun j hj hjs hje => ?_
        rwa [hr j hj hjs hje]
    · rw [if_neg fun hc => hk ⟨hc.1,hc.2.1⟩]
      refine ih ?_ hr
      rcases mem_cons.mp hi with rfl | hi
      · exact absurd ⟨hs,he⟩ hk
      · exact hi

lemma mem_resolveSegments {bs : List U64} (hbs : bs.Pairwise (· < ·))
    (hf : ∀ g ∈ gaps bs, (bestTarget g.1 g.2 is (none,uint32Max)).1 ≠ none →
      ∀ a ∈ m, a.1 ≠ g.1) {x : U64 × Region T} : x ∈ resolveSegments is bs m ↔ x ∈ m ∨ ∃ g ∈ gaps bs, ∃ t,
      (bestTarget g.1 g.2 is (none,uint32Max)).1 = some t ∧ x = (g.1,⟨g.1,g.2,t⟩) := by
  induction bs generalizing m with
  | nil => simp [resolveSegments,gaps]
  | cons a bs ih =>
    cases bs with
    | nil => simp [resolveSegments,gaps]
    | cons b bs =>
      rw [resolveSegments]
      have hr : ∀ g ∈ gaps (b :: bs), g ∈ gaps (a :: b :: bs) := fun g hg => by
        exact mem_cons_of_mem _ hg
      have hab : ∀ g ∈ gaps (b :: bs), a ≠ g.1 := fun g hg =>
        ((pairwise_cons.mp hbs).1 g.1 (gap_spec hbs.of_cons hg).1).ne
      cases ht : (bestTarget a b is (none,uint32Max)).1 with
      | none =>
        rw [ih hbs.of_cons fun g hg hne => hf g (hr g hg) hne,gaps_cons]
        simp [ht]
      | some t =>
        have hk := hf (a,b) (by simp [gaps_cons]) (by simp [ht])
        rw [ih hbs.of_cons,gaps_cons,mem_emplace]
        · constructor
          · rintro ((h | ⟨rfl,-⟩) | ⟨g,hg,u,hu,rfl⟩)
            · exact Or.inl h
            · exact Or.inr ⟨(a,b),by simp,t,ht,rfl⟩
            · exact Or.inr ⟨g,mem_cons_of_mem _ hg,u,hu,rfl⟩
          · rintro (h | ⟨g,hg,u,hu,rfl⟩)
            · exact Or.inl (Or.inl h)
            · rcases mem_cons.mp hg with rfl | hg
              · obtain rfl : t = u := Option.some.inj (ht.symm.trans hu)
                exact Or.inl (Or.inr ⟨rfl,hk⟩)
              · exact Or.inr ⟨g,hg,u,hu,rfl⟩
        · intro g hg hne y hy
          rcases OrderedMap.mem_emplace.mp hy with hy | ⟨rfl,-⟩
          · exact hf g (hr g hg) hne y hy
          · exact hab g hg

end

section
variable {T : Type} [TargetInfoType T]

/-- Every stored target ranks below the sentinel of the priority search. -/
def Ranked (m : Regions T) : Prop := ∀ e ∈ m, priority e.2.target < uint32Max

lemma mem_intervals {m : Regions T} {s e : U64} {t : T} {i : Interval T} :
    i ∈ intervals m s e t ↔ i = (Region.mk s e t).interval ∨
      ∃ x ∈ m, x.2.overlaps s e = true ∧ i = x.2.interval := by
  simp only [intervals,mem_cons,List.mem_map]
  refine or_congr_right ⟨?_,?_⟩
  · rintro ⟨x,hx,rfl⟩
    obtain ⟨hm,ho⟩ := mem_overlappingRegions.mp hx
    exact ⟨x,hm,ho,rfl⟩
  · rintro ⟨x,hm,ho,rfl⟩
    exact ⟨x,mem_overlappingRegions.mpr ⟨hm,ho⟩,rfl⟩

/-- One gap of the boundary set of an insertion. -/
abbrev Gap (m : Regions T) (s e : U64) (t : T) (g : U64 × U64) : Prop :=
  g ∈ gaps ((boundaries (intervals m s e t)).entries.map Prod.fst)

/-- The target step 5 finds for a segment. -/
def winner (m : Regions T) (s e : U64) (t : T) (g : U64 × U64) : Option T :=
  (bestTarget g.1 g.2 (intervals m s e t) (none,uint32Max)).1

variable {m : Regions T} {s e : U64} {t : T} {g : U64 × U64} {a : U64}

lemma new_covers_iff (hg : Gap m s e t g) (h₁ : g.1 ≤ a) (h₂ : a < g.2) : (s ≤ a ∧ a < e) ↔ s ≤ g.1 ∧ e ≥ g.2 :=
  covers_iff_of_gap (i := (Region.mk s e t).interval) (mem_intervals.mpr (Or.inl rfl)) hg h₁ h₂

variable {x : U64 × Region T}

lemma old_covers_iff (hg : Gap m s e t g) (h₁ : g.1 ≤ a) (h₂ : a < g.2)
    (hx : x ∈ m) (ho : x.2.overlaps s e = true) : x.2.Covers a ↔ x.2.start ≤ g.1 ∧ x.2.endAddr ≥ g.2 :=
  covers_iff_of_gap (mem_intervals.mpr (Or.inr ⟨x,hx,ho,rfl⟩)) hg h₁ h₂

/-- A target stands for an address of a range unless its priority is the sentinel. -/
abbrev Stands (s e a : U64) (t : T) : Prop := (s ≤ a ∧ a < e) ∧ priority t < uint32Max

lemma bestTarget_intervals (hg : Gap m s e t g) (h₁ : g.1 ≤ a) (h₂ : a < g.2) :
    bestTarget g.1 g.2 (intervals m s e t) (none,uint32Max) =
      bestTarget g.1 g.2 ((overlappingRegions m s e).map (fun e => e.2.interval))
        (if Stands s e a t then (some t,priority t) else (none,uint32Max)) := by
  rw [intervals,bestTarget]
  congr 1
  by_cases hn : Stands s e a t
  · have hng := (new_covers_iff hg h₁ h₂).mp hn.1
    rw [if_pos hn]
    exact if_pos ⟨hng.1,hng.2,hn.2⟩
  · rw [if_neg hn]
    exact if_neg fun h => hn ⟨(new_covers_iff hg h₁ h₂).mpr ⟨h.1,h.2.1⟩,h.2.2⟩

/-- The winner of a gap: the new target against the old region around any point of it. -/
lemma bestTarget_of_gap (hm : WellFormed m) (hr : Ranked m) (hg : Gap m s e t g) (h₁ : g.1 ≤ a) (h₂ : a < g.2)
    (hx : x ∈ m) (ho : x.2.overlaps s e = true) (hc : x.2.Covers a) :
    winner m s e t g = challenge priority (Stands s e a) (some x.2.target) t := by
  have hxc := (old_covers_iff hg h₁ h₂ hx ho).mp hc
  have hu : ∀ j ∈ (overlappingRegions m s e).map (fun e => e.2.interval),
      j.start ≤ g.1 → j.endAddr ≥ g.2 → j = x.2.interval := by
    intro j hj hjs hje
    obtain ⟨y,hy,rfl⟩ := List.mem_map.mp hj
    obtain ⟨hym,hyo⟩ := mem_overlappingRegions.mp hy
    have hyc := (old_covers_iff hg h₁ h₂ hym hyo).mpr ⟨hjs,hje⟩
    rw [hm.eq_of_covers hym hx hyc hc]
  have hme : x.2.interval ∈ (overlappingRegions m s e).map (fun e => e.2.interval) :=
    List.mem_map.mpr ⟨x,mem_overlappingRegions.mpr ⟨hx,ho⟩,rfl⟩
  rw [winner,bestTarget_intervals hg h₁ h₂,bestTarget_unique hme hxc.1 hxc.2 hu]
  by_cases hn : Stands s e a t
  · rw [if_pos hn,challenge_some priority (Stands s e a) hn]
    show (if priority x.2.target < priority t then (some x.2.target,priority x.2.target)
      else (some t,priority t)).1 = _
    split_ifs <;> rfl
  · rw [if_neg hn,challenge_ineligible priority (Stands s e a) hn]
    show (if priority x.2.target < uint32Max then (some x.2.target,priority x.2.target)
      else (none,uint32Max)).1 = _
    rw [if_pos (hr x hx)]

lemma bestTarget_of_free_gap (hg : Gap m s e t g) (h₁ : g.1 ≤ a) (h₂ : a < g.2)
    (hf : ∀ x ∈ m, x.2.overlaps s e = true → ¬ x.2.Covers a) :
    winner m s e t g = challenge priority (Stands s e a) none t := by
  have hu : ∀ b : Option T × U32, bestTarget g.1 g.2
      ((overlappingRegions m s e).map (fun e => e.2.interval)) b = b := by
    intro b
    refine bestTarget_eq_self fun j hj hjs hje => ?_
    obtain ⟨y,hy,rfl⟩ := List.mem_map.mp hj
    obtain ⟨hym,hyo⟩ := mem_overlappingRegions.mp hy
    exact absurd ((old_covers_iff hg h₁ h₂ hym hyo).mpr ⟨hjs,hje⟩) (hf y hym hyo)
  rw [winner,bestTarget_intervals hg h₁ h₂,hu]
  by_cases hn : Stands s e a t
  · rw [if_pos hn,challenge_none priority (Stands s e a) hn]
  · rw [if_neg hn,challenge_ineligible priority (Stands s e a) hn]

lemma gap_owned {u : T} (hb : winner m s e t g = some u) : (s ≤ g.1 ∧ e ≥ g.2) ∨
      ∃ x ∈ m, x.2.overlaps s e = true ∧ x.2.start ≤ g.1 ∧ x.2.endAddr ≥ g.2 := by
  by_contra hno
  have hc : ∀ i ∈ intervals m s e t, i.start ≤ g.1 → i.endAddr ≥ g.2 → False := by
    intro i hi his hie
    rcases mem_intervals.mp hi with rfl | ⟨x,hx,ho,rfl⟩
    · exact hno (Or.inl ⟨his,hie⟩)
    · exact hno (Or.inr ⟨x,hx,ho,his,hie⟩)
  rw [winner,bestTarget_eq_self fun i hi his hie => absurd hie fun hie => hc i hi his hie] at hb
  simp at hb

section
variable (hm : WellFormed m)
include hm

lemma gap_disjoint_kept {u : T} (hb : winner m s e t g = some u) (hx : x ∈ m)
    (ho : x.2.overlaps s e = false) : x.2.endAddr ≤ g.1 ∨ g.2 ≤ x.2.start := by
  have hno : ¬ (x.2.start < e ∧ s < x.2.endAddr) := fun h => by
    rw [(overlaps_iff x.2 s e).mpr h] at ho
    exact Bool.noConfusion ho
  rcases gap_owned hb with ⟨h₁,h₂⟩ | ⟨y,hy,hyo,h₁,h₂⟩
  · by_cases hxe : x.2.start < e
    · exact Or.inl ((not_lt.mp fun h => hno ⟨hxe,h⟩).trans h₁)
    · exact Or.inr (h₂.le.trans (not_lt.mp hxe))
  · have hne : x ≠ y := by
      rintro rfl
      simp [ho] at hyo
    rcases hm.disjoint x hx y hy hne with h | h
    · exact Or.inl (h.trans h₁)
    · exact Or.inr (h₂.le.trans h)

lemma mem_splitAndResolve : x ∈ splitAndResolve m s e t ↔ (x ∈ m ∧ x.2.overlaps s e = false) ∨
      ∃ g, Gap m s e t g ∧ ∃ u, winner m s e t g = some u ∧ x = (g.1,⟨g.1,g.2,u⟩) := by
  rw [splitAndResolve,mem_resolveSegments (boundaries_sorted _),mem_removeKeys_overlapping]
  · rfl
  intro g hg hne a ha hk
  obtain ⟨u,hu⟩ := Option.ne_none_iff_exists'.mp hne
  obtain ⟨ham,hao⟩ := mem_removeKeys_overlapping.mp ha
  have hlt := (gap_spec (boundaries_sorted _) hg).2.1
  have hne := hm.nonempty a ham
  rw [hm.keyed a ham] at hk
  rcases gap_disjoint_kept hm hu ham hao with h | h
  · exact absurd (lt_of_lt_of_le hne h) (by rw [hk]; exact lt_irrefl _)
  · exact absurd (lt_of_lt_of_le hlt h) (by rw [hk]; exact lt_irrefl _)

/-- Splitting keeps the stored regions keyed, non-empty and disjoint. -/
lemma splitAndResolve_wellFormed : WellFormed (splitAndResolve m s e t) := by
  refine ⟨?_,?_,?_⟩
  · intro x hx
    rcases (mem_splitAndResolve hm).mp hx with ⟨hx,-⟩ | ⟨g,hg,u,hu,rfl⟩
    · exact hm.keyed x hx
    · rfl
  · intro x hx
    rcases (mem_splitAndResolve hm).mp hx with ⟨hx,-⟩ | ⟨g,hg,u,hu,rfl⟩
    · exact hm.nonempty x hx
    · exact (gap_spec (boundaries_sorted _) hg).2.1
  · intro x hx y hy hne
    rcases (mem_splitAndResolve hm).mp hx with ⟨hx,hxo⟩ | ⟨g,hg,u,hu,rfl⟩ <;>
      rcases (mem_splitAndResolve hm).mp hy with ⟨hy,hyo⟩ | ⟨h,hh,v,hv,rfl⟩
    · exact hm.disjoint x hx y hy hne
    · exact gap_disjoint_kept hm hv hx hxo
    · exact (gap_disjoint_kept hm hu hy hyo).symm
    · have hgs := gap_spec (boundaries_sorted _) hg
      have hhs := gap_spec (boundaries_sorted _) hh
      rcases hgs.2.2 h.1 hhs.1 with h₁ | h₁
      · rcases hhs.2.2 g.1 hgs.1 with h₂ | h₂
        · have he := le_antisymm h₂ h₁
          have hge := eq_of_mem hx hy he
          exact absurd hge hne
        · exact Or.inr h₂
      · exact Or.inl h₁

/-- One insertion challenges the owner of every address of the new range. -/
lemma lookup_splitAndResolve (hr : Ranked m) (a : U64) :
    lookup (splitAndResolve m s e t) a = challenge priority (Stands s e a) (lookup m a) t := by
  have hw : WellFormed (splitAndResolve m s e t) := splitAndResolve_wellFormed hm
  -- a gap around `a` settles the answer, whatever region of the old map held `a`
  have hga : ∀ g, Gap m s e t g → g.1 ≤ a → a < g.2 →
      lookup (splitAndResolve m s e t) a = winner m s e t g ∨ winner m s e t g = none := by
    intro g hg h₁ h₂
    cases hb : winner m s e t g with
    | none => exact Or.inr rfl
    | some u =>
      refine Or.inl ((lookup_eq_some_iff hw a u).mpr ⟨(g.1,⟨g.1,g.2,u⟩),?_,⟨h₁,h₂⟩,rfl⟩)
      exact (mem_splitAndResolve hm).mpr (Or.inr ⟨g,hg,u,hb,rfl⟩)
  have he : ∀ i ∈ intervals m s e t, i.start ≤ a → a < i.endAddr →
      ∃ g, Gap m s e t g ∧ g.1 ≤ a ∧ a < g.2 := by
    intro i hi h₁ h₂
    exact exists_gap (boundaries_sorted _) (mem_boundaries.mpr ⟨i,hi,Or.inl rfl⟩)
      (mem_boundaries.mpr ⟨i,hi,Or.inr rfl⟩) h₁ h₂
  by_cases hold : ∃ x ∈ m, x.2.overlaps s e = true ∧ x.2.Covers a
  · obtain ⟨x,hx,ho,hc⟩ := hold
    obtain ⟨g,hg,h₁,h₂⟩ := he x.2.interval (mem_intervals.mpr (Or.inr ⟨x,hx,ho,rfl⟩)) hc.1 hc.2
    have hb := bestTarget_of_gap hm hr hg h₁ h₂ hx ho hc
    rw [(lookup_eq_some_iff hm a x.2.target).mpr ⟨x,hx,hc,rfl⟩,← hb]
    refine (hga g hg h₁ h₂).resolve_right ?_
    rw [hb,challenge]
    split_ifs <;> simp
  · have hf := fun x hx ho hc => hold ⟨x,hx,ho,hc⟩
    by_cases hn : Stands s e a t
    · obtain ⟨g,hg,h₁,h₂⟩ := he (Region.mk s e t).interval (mem_intervals.mpr (Or.inl rfl)) hn.1.1 hn.1.2
      have hb := bestTarget_of_free_gap hg h₁ h₂ hf
      have hno := (lookup_eq_none_iff hm a).mpr fun x hx hc =>
        hf x hx (overlaps_of_covers hc hn.1.1 hn.1.2) hc
      rw [hno,← hb]
      refine (hga g hg h₁ h₂).resolve_right ?_
      rw [hb,challenge_none priority (Stands s e a) hn]
      simp
    · rw [challenge_ineligible priority (Stands s e a) hn]
      refine Option.ext fun u => ?_
      rw [lookup_eq_some_iff hw,lookup_eq_some_iff hm]
      constructor
      · rintro ⟨x,hx,hc,rfl⟩
        rcases (mem_splitAndResolve hm).mp hx with ⟨hx,-⟩ | ⟨g,hg,u,hu,rfl⟩
        · exact ⟨x,hx,hc,rfl⟩
        · rw [bestTarget_of_free_gap hg hc.1 hc.2 hf,
            challenge_ineligible priority (Stands s e a) hn] at hu
          simp at hu
      · rintro ⟨x,hx,hc,rfl⟩
        have ho := Bool.eq_false_iff.mpr fun ho => hf x hx ho hc
        exact ⟨x,(mem_splitAndResolve hm).mpr (Or.inl ⟨hx,ho⟩),hc,rfl⟩

lemma splitAndResolve_ranked (hr : Ranked m) : Ranked (splitAndResolve m s e t) := by
  intro x hx
  rcases (mem_splitAndResolve hm).mp hx with ⟨hx,-⟩ | ⟨g,hg,u,hu,rfl⟩
  · exact hr x hx
  · have hlt := (gap_spec (boundaries_sorted _) hg).2.1
    have hl := (lookup_eq_some_iff (splitAndResolve_wellFormed hm) g.1 u).mpr ⟨_,hx,⟨le_rfl,hlt⟩,rfl⟩
    rw [lookup_splitAndResolve hm hr] at hl
    have hold : lookup m g.1 = some u → priority u < uint32Max := by
      intro h
      obtain ⟨y,hy,-,rfl⟩ := (lookup_eq_some_iff hm g.1 u).mp h
      exact hr y hy
    by_cases hn : Stands s e g.1 t
    · rcases challenge_eq_some priority _ hl with rfl | h
      · exact hn.2
      · exact hold h
    · rw [challenge_ineligible priority (Stands s e g.1) hn] at hl
      exact hold hl

end

end

section
variable {T C : Type} [TargetInfoType T] [AddrMapCacheBase C T]

/-- The region a target was configured with, as a range of integers. -/
def Holds (t : T) (a : U64) : Prop := (address t).toNat ≤ a.toNat ∧ a.toNat < (address t).toNat + (size t).toNat

/-- The end of the target fits in 64 bits, and its priority is below the sentinel. -/
def Addable (t : T) : Prop := (address t).toNat + (size t).toNat < 2^64 ∧ priority t < uint32Max

instance (t : T) (a : U64) : Decidable (Holds t a) := inferInstanceAs (Decidable (_ ∧ _))

instance (t : T) : Decidable (Addable t) := inferInstanceAs (Decidable (_ ∧ _))

lemma holds_iff {t : T} (ht : Addable t) (a : U64) : Holds t a ↔ address t ≤ a ∧ a < address t + size t := by
  have hs : (address t + size t).toNat = (address t).toNat + (size t).toNat := by
    exact Nat.mod_eq_of_lt ht.1
  rw [Holds,BitVec.le_def,BitVec.lt_def,hs]

variable (cache : C) (ts : List T)

/-- The state after a sequence of `add` calls on a fresh map. -/
def addAll : AddressMap T C := ts.foldl add ⟨OrderedMap.empty,cache⟩

lemma addAll_concat (t : T) : addAll cache (ts ++ [t]) = (addAll cache ts).add t := by
  simp [addAll]

/-- The address lies in the target's 64-bit range, and the priority is not the sentinel. -/
def Claims (t : T) (a : U64) : Prop := Stands (address t) (address t + size t) a t

instance (t : T) (a : U64) : Decidable (Claims t a) := inferInstanceAs (Decidable (_ ∧ _))

lemma claims_iff_holds {t : T} (ht : Addable t) (a : U64) : Claims t a ↔ Holds t a := by
  rw [holds_iff ht,Claims]
  exact and_iff_left ht.2

/-- The invariant over the whole history of insertions, of any targets. -/
lemma addAll_lookup : WellFormed (addAll cache ts).regions ∧ Ranked (addAll cache ts).regions ∧
      ∀ a, lookup (addAll cache ts).regions a = choice priority (Claims · a) ts := by
  induction ts using reverseRecOn with
  | nil =>
    refine ⟨WellFormed.empty,fun e he => absurd he (OrderedMap.not_mem_empty e),fun a => ?_⟩
    exact (lookup_eq_none_iff WellFormed.empty a).mpr (by simp)
  | append_singleton ts t ih =>
    obtain ⟨hw,hr,hl⟩ := ih
    rw [addAll_concat]
    refine ⟨splitAndResolve_wellFormed hw,splitAndResolve_ranked hw hr,fun a => ?_⟩
    rw [choice_concat,← hl a]
    exact lookup_splitAndResolve hw hr a

lemma addAll_invariant (hts : ∀ t ∈ ts, Addable t) :
    WellFormed (addAll cache ts).regions ∧ Ranked (addAll cache ts).regions ∧
      ∀ a, lookup (addAll cache ts).regions a = choice priority (Holds · a) ts := by
  obtain ⟨hw,hr,hl⟩ := addAll_lookup cache ts
  refine ⟨hw,hr,fun a => (hl a).trans ?_⟩
  exact choice_congr priority (Claims · a) (Holds · a) fun t ht => claims_iff_holds (hts t ht) a

/-- After any insertions `find` has no target exactly outside the added regions, and otherwise the one of least
priority, the latest among equals; the stored regions are well formed. -/
theorem find_priority_routing (ts : List T) (hts : ∀ t ∈ ts, Addable t) :
    WellFormed (addAll AddrMapNoCache.mk ts).regions ∧ ∀ a n : U64,
      (((addAll AddrMapNoCache.mk ts).find a n).1 = none ↔ ∀ t ∈ ts, ¬ Holds t a) ∧
      ∀ t, ((addAll AddrMapNoCache.mk ts).find a n).1 = some t ↔ ∃ i : ℕ, ts[i]? = some t ∧ Holds t a ∧
          ∀ (j : ℕ) (u : T), ts[j]? = some u → Holds u a →
            priority t < priority u ∨ (priority t = priority u ∧ j ≤ i) := by
  obtain ⟨hw,-,hl⟩ := addAll_invariant AddrMapNoCache.mk ts hts
  refine ⟨hw,fun a n => ?_⟩
  have hf : ((addAll AddrMapNoCache.mk ts).find a n).1 = choice priority (Holds · a) ts := hl a
  rw [hf]
  exact ⟨choice_eq_none_iff priority (Holds · a) ts,
    fun t => choice_eq_some_iff priority (Holds · a) ts t⟩

/-- The router's record of a bound target, as far as the map reads it; `index` is the port. -/
structure TargetInfo where
  index : ℕ
  name : String
  address : U64
  size : U64
  priority : U32
  deriving DecidableEq

instance : TargetInfoType TargetInfo := ⟨TargetInfo.name,TargetInfo.address,TargetInfo.size,TargetInfo.priority⟩

/-- A device added after the memory around it, with the same priority, wins its addresses. -/
theorem find_nested_window : let ram : TargetInfo := ⟨0,"ram",0x1000,0x1000,1⟩
    let dev : TargetInfo := ⟨1,"dev",0x1800,0x100,1⟩
    (∀ t ∈ [ram,dev], Addable t) ∧
      ((addAll AddrMapNoCache.mk [ram,dev]).find 0x1800 4).1 = some dev := by
  intro ram dev
  have hts : ∀ t ∈ [ram,dev], Addable t := by decide
  refine ⟨hts,(((find_priority_routing [ram,dev] hts).2 0x1800 4).2 dev).mpr ⟨1,rfl,by decide,?_⟩⟩
  intro j u hj _
  rcases j with _ | _ | j
  · obtain rfl : ram = u := by simpa using hj
    exact Or.inr ⟨rfl,by omega⟩
  · obtain rfl : dev = u := by simpa using hj
    exact Or.inr ⟨rfl,by omega⟩
  · simp at hj

/-- Targets of which no two claim an address at one priority may be added in any order. -/
theorem find_order_independent {ts us : List T} (hp : ts.Perm us) (a n : U64)
    (hd : ∀ t ∈ ts, ∀ u ∈ ts, Claims t a → Claims u a → priority t = priority u → t = u) :
    ((addAll AddrMapNoCache.mk ts).find a n).1 = ((addAll AddrMapNoCache.mk us).find a n).1 := by
  calc ((addAll AddrMapNoCache.mk ts).find a n).1
    _ = choice priority (Claims · a) ts := (addAll_lookup AddrMapNoCache.mk ts).2.2 a
    _ = choice priority (Claims · a) us := choice_perm priority _ hp hd
    _ = _ := ((addAll_lookup AddrMapNoCache.mk us).2.2 a).symm

theorem find_order_independent_disjoint : let ram : TargetInfo := ⟨0,"ram",0x1000,0x1000,0⟩
    let dev : TargetInfo := ⟨1,"dev",0x2000,0x100,0⟩
    ((addAll AddrMapNoCache.mk [ram,dev]).find 0x2010 4).1 = ((addAll AddrMapNoCache.mk [dev,ram]).find 0x2010 4).1 :=
  find_order_independent (.swap ..) _ _ (by decide)

end
end AddressMap
end Qbox
