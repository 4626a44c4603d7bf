import Qbox.AddressMap

/-! What the address map says about whole regions: which added addresses have a target at all, and
how far the range of `find_region` reaches. -/
namespace Qbox.AddressMap
open TargetInfoType Option OrderedMap

section
variable {T : Type} [TargetInfoType T]

def Resolves (ts : List T) : Prop := ∀ a n, (∃ t ∈ ts, Holds t a) → ((addAll AddrMapNoCache.mk ts).find a n).1 ≠ none

/-- A range that wraps claims nothing, so a claim is one of a region that fits. -/
lemma claims_iff {t : T} {a : U64} : Claims t a ↔ Addable t ∧ Holds t a := by
  constructor
  · rintro ⟨⟨hfi,hl⟩,hp⟩
    have hf : (address t).toNat+(size t).toNat < 2^64 := by bv_omega
    exact ⟨⟨hf,hp⟩,(holds_iff ⟨hf,hp⟩ a).mpr ⟨hfi,hl⟩⟩
  · rintro ⟨ht,ha⟩
    exact (claims_iff_holds ht a).mpr ha

/-- The added addresses have targets exactly when each lies in a region that ends below `2^64`, not of the sentinel's
priority. -/
theorem mapped_addresses_resolve_iff (ts : List T) :
    Resolves ts ↔ ∀ a, (∃ t ∈ ts, Holds t a) → ∃ t ∈ ts, Addable t ∧ Holds t a := by
  have hf : ∀ a n, ((addAll AddrMapNoCache.mk ts).find a n).1 = none ↔ ∀ t ∈ ts, ¬ Claims t a := by
    intro a n
    have hl : ((addAll AddrMapNoCache.mk ts).find a n).1 = _ := (addAll_lookup AddrMapNoCache.mk ts).2.2 a
    rw [hl,PriorityChoice.choice_eq_none_iff]
  simp only [Resolves,ne_eq,hf,claims_iff]
  push Not
  exact ⟨fun h a => h a 0,fun h a _ => h a⟩

/-- The last page of the address space, and a region of the least priority. -/
theorem mapped_address_unresolved : ¬ Resolves [(⟨0,"top",0xFFFFFFFFFFFFF000,0x1000,0⟩ : TargetInfo)] ∧
      ¬ Resolves [(⟨0,"last",0x1000,0x1000,0xFFFFFFFF⟩ : TargetInfo)] :=
  ⟨fun h => h 0xFFFFFFFFFFFFF000 4 ⟨_,List.mem_singleton_self _,by decide⟩ (by decide +kernel),
    fun h => h 0x1000 4 ⟨_,List.mem_singleton_self _,by decide⟩ (by decide +kernel)⟩

end

section
/-- `[lo, hi]` is the largest interval around `a` on which `f` has the value it has at `a`. -/
structure LargestAround {α : Type} (f : U64 → α) (a lo hi : U64) : Prop where
  first : lo ≤ a
  last : a ≤ hi
  same : ∀ x, lo ≤ x → x ≤ hi → f x = f a
  largest : ∀ l h, l ≤ a → a ≤ h → (∀ x, l ≤ x → x ≤ h → f x = f a) → lo ≤ l ∧ h ≤ hi

lemma LargestAround.of_edges {α : Type} {f : U64 → α} {a lo hi : U64} (first : lo ≤ a) (last : a ≤ hi)
    (same : ∀ x, lo ≤ x → x ≤ hi → f x = f a) (below : lo = 0 ∨ f (lo-1) ≠ f a)
    (above : hi+1 = 0 ∨ f (hi+1) ≠ f a) : LargestAround f a lo hi := by
  refine ⟨first,last,same,fun l h hl hh hs => ⟨?_,?_⟩⟩
  · by_contra hlt
    have hne := below.resolve_left (by bv_omega)
    exact hne (hs _ (by bv_omega) (by bv_omega))
  · by_contra hlt
    have hne := above.resolve_left (by bv_omega)
    exact hne (hs _ (by bv_omega) (by bv_omega))

variable {T : Type} {m : Regions T} {a : U64} {e : U64 × Region T}

def Hole (m : Regions T) (a : U64) : Prop := ∀ e ∈ m, ¬ e.2.Covers a

/-- No neighbour of the segment has the same target, and a hole has a region above it. -/
structure Separate (m : Regions T) (a : U64) : Prop where
  segment : ∀ e ∈ m, e.2.Covers a → ∀ f ∈ m, f.2.target = e.2.target →
    f.2.endAddr ≠ e.2.start ∧ e.2.endAddr ≠ f.2.start
  hole : Hole m a → ∃ e ∈ m, a < e.2.start

section
variable (hm : WellFormed m)
include hm

lemma findRegion_mapped (he : e ∈ m) (hc : e.2.Covers a) :
    findRegion m a = (some e.2.target,e.2.start,e.2.endAddr-1) := by
  have hco : e.2.start ≤ a ∧ a < e.2.endAddr := hc
  simp [findRegion,beforeUpperBound_of_covers hm he hc,Option.filter,hco]

lemma findRegion_hole (ha : Hole m a) : findRegion m a =
    (none,((m.beforeUpperBound a).map (fun e => e.2.endAddr)).getD 0,
      ((m.upperBound a).map (fun e => e.2.start)).getD (BitVec.allOnes 64)-1) := by
  have hbe : ∀ e, m.beforeUpperBound a = some e → e.2.start ≤ a ∧ e.2.endAddr ≤ a := by
    intro e hb
    obtain ⟨he,hle,-⟩ := OrderedMap.beforeUpperBound_eq_some.mp hb
    rw [hm.keyed e he] at hle
    exact ⟨hle,not_lt.mp fun hlt => ha e he ⟨hle,hlt⟩⟩
  have hn : ((m.upperBound a).map (fun e => e.2.start)).getD (BitVec.allOnes 64) ≠ 0 := by
    cases hu : m.upperBound a with
    | none => exact (by decide : BitVec.allOnes 64 ≠ 0)
    | some e =>
      obtain ⟨he,hlt,-⟩ := upperBound_eq_some hu
      rw [hm.keyed e he] at hlt
      rw [map_some,getD_some]
      bv_omega
  simp only [findRegion,if_neg hn]
  cases hb : m.beforeUpperBound a with
  | none => rfl
  | some e => simp [Option.filter,hbe e hb,not_lt.mpr (hbe e hb).2]

lemma lookup_hole (ha : Hole m a) : lookup m a = none := (lookup_eq_none_iff hm a).mpr ha

lemma lookup_mapped (he : e ∈ m) (hc : e.2.Covers a) : lookup m a = some e.2.target :=
  (lookup_eq_some_iff hm a _).mpr ⟨e,he,hc,rfl⟩

lemma largestAround_mapped (hs : Separate m a) (he : e ∈ m) (hc : e.2.Covers a) :
    LargestAround (lookup m) a e.2.start (e.2.endAddr-1) := by
  obtain ⟨hfi,hla⟩ := hc
  -- a region of the same target around a point next to the segment touches the segment
  have hn : ∀ x, ¬ e.2.Covers x → (x+1 = e.2.start ∨ x = e.2.endAddr) → lookup m x ≠ lookup m a := by
    intro x hx hsi hl
    rw [lookup_mapped hm he ⟨hfi,hla⟩] at hl
    obtain ⟨f,hf,hcf,ht⟩ := (lookup_eq_some_iff hm x _).mp hl
    obtain ⟨hb,ha⟩ := hs.segment e he ⟨hfi,hla⟩ f hf ht
    have hne : e ≠ f := by
      rintro rfl
      exact hx hcf
    obtain ⟨hf1,hf2⟩ := hcf
    have hd := hm.disjoint e he f hf hne
    rcases hsi with hsi | hsi <;> bv_omega
  refine .of_edges hfi (by bv_omega) (fun x h1 h2 => ?_) ?_ ?_
  · rw [lookup_mapped hm he ⟨h1,by bv_omega⟩,lookup_mapped hm he ⟨hfi,hla⟩]
  · by_cases hz : e.2.start = 0
    · exact .inl hz
    · exact .inr (hn _ (fun hx => by obtain ⟨h1,-⟩ := hx; bv_omega) (.inl (by bv_omega)))
  · exact .inr (hn _ (fun hx => by obtain ⟨-,h2⟩ := hx; bv_omega) (.inr (by bv_omega)))

lemma largestAround_hole (hs : Separate m a) (ha : Hole m a) :
    LargestAround (lookup m) a (findRegion m a).2.1 (findRegion m a).2.2 := by
  have hr : ∀ e ∈ m, ∀ x, e.2.Covers x → lookup m x ≠ lookup m a := by
    intro e he x hc
    rw [lookup_mapped hm he hc,lookup_hole hm ha]
    exact some_ne_none _
  obtain ⟨n,hn,han⟩ : ∃ n, m.upperBound a = some n ∧ a < n.2.start := by
    obtain ⟨e,he,hlt⟩ := hs.hole ha
    cases hu : m.upperBound a with
    | none => exact absurd (OrderedMap.upperBound_eq_none.mp hu e he) (not_le.mpr (hm.keyed e he ▸ hlt))
    | some n =>
      obtain ⟨hme,hlt,-⟩ := upperBound_eq_some hu
      exact ⟨n,rfl,hm.keyed n hme ▸ hlt⟩
  obtain ⟨hnm,-,hnl⟩ := upperBound_eq_some hn
  have hnt := hm.nonempty n hnm
  rw [findRegion_hole hm ha,hn]
  simp only [map_some,getD_some]
  -- a region around a point of the range would begin at or below the address, or not below the next one
  have hbe : ∀ f ∈ m, a < f.2.start → n.2.start ≤ f.2.start := fun f hf hlt => by
    rw [← hm.keyed n hnm,← hm.keyed f hf]
    exact hnl f hf (hm.keyed f hf ▸ hlt)
  have hab : n.2.start-1+1 = 0 ∨ lookup m (n.2.start-1+1) ≠ lookup m a := by
    rw [sub_add_cancel]
    exact .inr (hr n hnm _ ⟨le_rfl,hnt⟩)
  cases hb : m.beforeUpperBound a with
  | none =>
    refine .of_edges (show (0 : U64) ≤ a by bv_omega) (by bv_omega) (fun x _ hx => ?_) (.inl rfl) hab
    rw [lookup_hole hm ha,lookup_hole hm fun f hf hc => ?_]
    have hlt := OrderedMap.beforeUpperBound_eq_none.mp hb f hf
    rw [hm.keyed f hf] at hlt
    have hle := hbe f hf hlt
    obtain ⟨h1,-⟩ := hc
    bv_omega
  | some b =>
    obtain ⟨hbm,hba,hbl⟩ := OrderedMap.beforeUpperBound_eq_some.mp hb
    have hbt := hm.nonempty b hbm
    rw [hm.keyed b hbm] at hba
    have hbn := not_lt.mp fun hlt => ha b hbm ⟨hba,hlt⟩
    refine .of_edges hbn (by bv_omega) (fun x hx1 hx2 => ?_)
      (.inr (hr b hbm _ ⟨by simp; bv_omega,by simp; bv_omega⟩)) hab
    rw [lookup_hole hm ha,lookup_hole hm fun f hf hc => ?_]
    obtain ⟨h1,h2⟩ := hc
    by_cases hfa : f.2.start ≤ a
    · have hfb := hbl f hf (hm.keyed f hf ▸ hfa)
      rw [hm.keyed f hf,hm.keyed b hbm] at hfb
      have hne : b ≠ f := by
        rintro rfl
        simp at hx1
        bv_omega
      have hd := hm.disjoint b hbm f hf hne
      simp at hx1
      bv_omega
    · have hle := hbe f hf (not_le.mp hfa)
      bv_omega

end

/-- `find_region` agrees with `find`, and its range is the largest one around the address. -/
def ReportsMaximal {C : Type} [AddrMapCacheBase C T] (m : AddressMap T C) (a n : U64) : Prop :=
  (findRegion m.regions a).1 = (m.find a n).1 ∧
    LargestAround (fun x => (m.find x n).1) a (findRegion m.regions a).2.1 (findRegion m.regions a).2.2

lemma LargestAround.separate (hm : WellFormed m)
    (h : LargestAround (lookup m) a (findRegion m a).2.1 (findRegion m a).2.2) : Separate m a := by
  refine ⟨fun e he hc f hf ht => ?_,fun ha => ?_⟩
  · rw [findRegion_mapped hm he hc] at h
    have hla := lookup_mapped hm he hc
    have hfl := hm.nonempty f hf
    obtain ⟨h1,h2⟩ := hc
    have hs : ∀ x, f.2.Covers x ∨ e.2.Covers x → lookup m x = lookup m a := by
      rintro x (hx | hx)
      · rw [hla,lookup_mapped hm hf hx,ht]
      · rw [hla,lookup_mapped hm he hx]
    constructor
    · intro hsi
      have hle := (h.largest f.2.start a (by bv_omega) le_rfl fun x hx1 hx2 => hs x ?_).1
      · simp at hle
        bv_omega
      · by_cases hx : x < f.2.endAddr
        · exact .inl ⟨hx1,hx⟩
        · exact .inr ⟨by bv_omega,by bv_omega⟩
    · intro hsi
      have hle := (h.largest a (f.2.endAddr-1) le_rfl (by bv_omega) fun x hx1 hx2 => hs x ?_).2
      · simp at hle
        bv_omega
      · by_cases hx : x < f.2.start
        · exact .inr ⟨by bv_omega,by bv_omega⟩
        · exact .inl ⟨by bv_omega,by bv_omega⟩
  · by_contra hn
    push Not at hn
    have hu := OrderedMap.upperBound_eq_none.mpr fun e he => hm.keyed e he ▸ hn e he
    rw [findRegion_hole hm ha,hu] at h
    have hto : 0xFFFFFFFFFFFFFFFF ≤ BitVec.allOnes 64-1 :=
      (h.largest a 0xFFFFFFFFFFFFFFFF le_rfl (by bv_omega) fun x hx _ => ?_).2
    · exact absurd hto (by decide)
    · rw [lookup_hole hm ha,lookup_hole hm fun e he hc => ha e he ⟨hn e he,lt_of_le_of_lt hx hc.2⟩]

variable [TargetInfoType T]

lemma ReportsMaximal.separate {ts : List T} {n : U64} (h : ReportsMaximal (addAll AddrMapNoCache.mk ts) a n) :
    Separate (addAll AddrMapNoCache.mk ts).regions a :=
  LargestAround.separate (addAll_lookup AddrMapNoCache.mk ts).1 h.2

/-- After any insertions `find_region` reports a whole range exactly when no neighbouring segment has the same target
and, in a hole, a region lies above. -/
theorem find_region_maximal_iff (ts : List T) (a n : U64) :
    ReportsMaximal (addAll AddrMapNoCache.mk ts) a n ↔ Separate (addAll AddrMapNoCache.mk ts).regions a := by
  have hm := (addAll_lookup AddrMapNoCache.mk ts).1
  refine ⟨ReportsMaximal.separate,fun hs => ⟨findRegion_target _ a,?_⟩⟩
  show LargestAround (lookup (addAll AddrMapNoCache.mk ts).regions) a _ _
  by_cases hma : ∃ e ∈ (addAll AddrMapNoCache.mk ts).regions, e.2.Covers a
  · obtain ⟨e,he,hc⟩ := hma
    rw [findRegion_mapped hm he hc]
    exact largestAround_mapped hm hs he hc
  · exact largestAround_hole hm hs fun e he hc => hma ⟨e,he,hc⟩

/-- A memory cut by a window is reported in parts, and the last hole without the last address. -/
theorem find_region_partial : let ram : TargetInfo := ⟨0,"ram",0x1000,0x1000,0⟩
    let window : TargetInfo := ⟨1,"window",0x1400,0x100,1⟩
    ((∀ t ∈ [ram,window], Addable t) ∧
      findRegion (addAll AddrMapNoCache.mk [ram,window]).regions 0x1000 = (some ram,0x1000,0x13FF) ∧
      ¬ ReportsMaximal (addAll AddrMapNoCache.mk [ram,window]) 0x1000 4) ∧
    findRegion (addAll AddrMapNoCache.mk [ram]).regions 0x2000 = (none,0x2000,0xFFFFFFFFFFFFFFFE) ∧
      ¬ ReportsMaximal (addAll AddrMapNoCache.mk [ram]) 0x2000 4 := by
  intro ram window
  refine ⟨⟨by decide,by decide +kernel,?_⟩,by decide +kernel,?_⟩
  · intro h
    have hcu := h.separate.segment (0x1000,⟨0x1000,0x1400,ram⟩)
      (OrderedMap.mem_def.mpr (by decide +kernel)) ⟨by decide,by decide⟩ (0x1400,⟨0x1400,0x1500,ram⟩)
      (OrderedMap.mem_def.mpr (by decide +kernel)) rfl
    exact hcu.2 rfl
  · intro h
    have hl : (addAll AddrMapNoCache.mk [ram]).regions.entries = [(0x1000,⟨0x1000,0x2000,ram⟩)] := by
      decide +kernel
    obtain ⟨e,he,hlt⟩ := h.separate.hole fun e he hc => by
      rw [OrderedMap.mem_def,hl,List.mem_singleton] at he
      subst he
      exact absurd hc.2 (by decide)
    rw [OrderedMap.mem_def,hl,List.mem_singleton] at he
    subst he
    exact absurd hlt (by decide)

end
end Qbox.AddressMap
