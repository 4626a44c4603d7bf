import Qbox.AddressMapRegions

/-! The warnings of the address map: which target an `add` reports as shadowed, against which one can no longer be
reached. -/
namespace Qbox.AddressMap
open TargetInfoType List
open Bool hiding not_and

section
variable {T : Type} [TargetInfoType T] [DecidableEq T]

/-- The intervals that step 6 finds shadowed. -/
def shadowed (m : Regions T) (newStart newEnd : U64) (newTarget : T) : List (Interval T) :=
  (intervals m newStart newEnd newTarget).filter fun i =>
    !(i.start == newStart && i.endAddr == newEnd && decide (i.target = newTarget)) &&
    !(splitAndResolve m newStart newEnd newTarget).entries.any fun e =>
      decide (e.2.target = i.target) && decide (e.2.start < i.endAddr) && decide (e.2.endAddr > i.start)

def Interval.warning (i : Interval T) : String :=
  "Region '" ++ name i.target ++ "' (0x" ++ hex i.start ++ "-0x" ++ hex (i.endAddr - 1) ++
    ", priority " ++ toString i.priority.toNat ++
    ") is completely shadowed by higher priority regions and will never be accessed"

lemma shadowWarnings_eq (m : Regions T) (s e : U64) (t : T) :
    shadowWarnings m s e t = (shadowed m s e t).map Interval.warning := rfl

variable {m : Regions T} {s e : U64} {t : T}

/-- Every address of a stored region has gone to another target. -/
def Lost (m : Regions T) (r : Region T) : Prop := ∀ a, r.Covers a → lookup m a ≠ some r.target

omit [TargetInfoType T] in
/-- The overlap test on the final map asks for an address that the target has kept. -/
lemma lost_iff (hm : WellFormed m) {r : Region T} (hr : r.start < r.endAddr) :
    Lost m r ↔ (m.entries.any fun x => decide (x.2.target = r.target) && decide (x.2.start < r.endAddr) &&
      decide (x.2.endAddr > r.start)) = false := by
  simp only [List.any_eq_false,and_eq_true,decide_eq_true_eq,not_and,gt_iff_lt,not_lt,and_imp]
  constructor
  · intro hlo x hx ht hs
    by_contra he
    rw [not_le] at he
    have hne := hm.nonempty x hx
    refine hlo (max x.2.start r.start) ⟨le_max_right _ _,max_lt hs hr⟩ ?_
    exact (lookup_eq_some_iff hm _ _).mpr ⟨x,hx,⟨le_max_left _ _,max_lt hne he⟩,ht⟩
  · intro hal a ha hl
    obtain ⟨x,hx,hc,ht⟩ := (lookup_eq_some_iff hm a r.target).mp hl
    exact absurd (hc.2.trans_le (hal x hx ht (hc.1.trans_lt ha.2))) (not_lt.mpr ha.1)

omit [DecidableEq T] in
/-- A region that the new range does not meet keeps its addresses. -/
lemma overlaps_of_lost (hm : WellFormed m) {x : U64 × Region T} (hx : x ∈ m)
    (hl : Lost (splitAndResolve m s e t) x.2) : x.2.overlaps s e = true := by
  by_contra hno
  rw [not_eq_true] at hno
  have hk := (mem_splitAndResolve (t := t) hm).mpr (.inl ⟨hx,hno⟩)
  have hf : x.2.Covers x.2.start := ⟨le_rfl,hm.nonempty x hx⟩
  exact hl _ hf ((lookup_eq_some_iff (splitAndResolve_wellFormed hm) _ _).mpr ⟨x,hk,hf,rfl⟩)

lemma mem_shadowed (hm : WellFormed m) (hn : ∀ x ∈ m, x.2.target ≠ t) {u : T} :
    (∃ i ∈ shadowed m s e t, i.target = u) ↔ ∃ x ∈ m, x.2.target = u ∧ Lost (splitAndResolve m s e t) x.2 := by
  have hw : WellFormed (splitAndResolve m s e t) := splitAndResolve_wellFormed hm
  constructor
  · rintro ⟨i,hi,rfl⟩
    obtain ⟨hi,hc⟩ := mem_filter.mp hi
    rw [and_eq_true,not_eq_true',not_eq_true'] at hc
    rcases mem_intervals.mp hi with rfl | ⟨x,hx,-,rfl⟩
    · simp [Region.interval] at hc
    · exact ⟨x,hx,rfl,(lost_iff hw (hm.nonempty x hx)).mpr hc.2⟩
  · rintro ⟨x,hx,rfl,hl⟩
    refine ⟨x.2.interval,mem_filter.mpr ⟨mem_intervals.mpr (.inr ⟨x,hx,overlaps_of_lost hm hx hl,rfl⟩),?_⟩,rfl⟩
    rw [and_eq_true,not_eq_true',not_eq_true']
    exact ⟨by simp [Region.interval,hn x hx],(lost_iff hw (hm.nonempty x hx)).mp hl⟩

/-- The map after some `add` calls. -/
def added (ts : List T) : Regions T := (addAll AddrMapNoCache.mk ts).regions

/-- No address resolves to the target. -/
def Unreachable (ts : List T) (u : T) : Prop := ∀ a, lookup (added ts) a ≠ some u

/-- The last `add` has a warning about the target. -/
def Warned (ts : List T) (t u : T) : Prop := ∃ i ∈ shadowed (added ts) (address t) (address t+size t) t, i.target = u

/-- A target is warned about when it has lost its last address, or is new and has none. -/
def WarnsExactly (ts : List T) (t : T) : Prop :=
  ∀ u, Warned ts t u ↔ Unreachable (ts++[t]) u ∧ (¬ Unreachable ts u ∨ u = t ∧ 0 < (size t).toNat)

omit [DecidableEq T] in
lemma mem_of_added {ts : List T} {x : U64 × Region T} (hx : x ∈ added ts) : x.2.target ∈ ts := by
  obtain ⟨hw,-,hl⟩ := addAll_lookup AddrMapNoCache.mk ts
  have hf : lookup (added ts) x.2.start = some x.2.target :=
    (lookup_eq_some_iff hw _ _).mpr ⟨x,hx,⟨le_rfl,hw.nonempty x hx⟩,rfl⟩
  obtain ⟨i,hi,-⟩ := (PriorityChoice.choice_eq_some_iff priority _ ts x.2.target).mp ((hl _).symm.trans hf)
  exact mem_of_getElem? hi

omit [DecidableEq T] in
lemma unreachable_of_entries {ts : List T} {u : T} (h : ∀ e ∈ (added ts).entries, e.2.target ≠ u) :
    Unreachable ts u := by
  intro a ha
  obtain ⟨x,hx,-,ht⟩ := (lookup_eq_some_iff (addAll_lookup AddrMapNoCache.mk ts).1 a u).mp ha
  exact h x (OrderedMap.mem_def.mp hx) ht

end

end Qbox.AddressMap
