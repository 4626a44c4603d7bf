import Mathlib
import Qbox.StringSearch

/-! `cciutils`: what a private broker keeps to itself, and parameters configured as an indexed list. -/
namespace Qbox.Cciutils
open List StringSearch

abbrev Name := List Char

/-- The presets a broker and its parents hold; one that a parameter took is no longer in the list. -/
structure Presets (T : Type) where
  value : Name → Option T
  unconsumed : List Name
  isSome_value : ∀ n ∈ unconsumed, (value n).isSome = true

variable {T : Type}

/-- `get_unconsumed_preset_values` with the predicate that both callers use. -/
def Presets.below (p : Presets T) (m : Name) : List Name :=
  p.unconsumed.filter fun n => find (m++['.']) n = some 0

lemma Presets.mem_below {p : Presets T} {m n : Name} : n ∈ p.below m ↔ n ∈ p.unconsumed ∧ m++['.'] <+: n := by
  simp [below,find_eq_some_zero]

/-- `initialized`: the modules `m_uninitialized_cb` was called for. -/
structure PrivateConfigurableBroker where
  name : Name
  parent : List Name
  uninitializedCb : Bool
  initialized : List Name

namespace PrivateConfigurableBroker
def construct (p : Presets T) (m : Name) (cb : Bool) : PrivateConfigurableBroker := ⟨m,p.below m,cb,[]⟩

variable (b : PrivateConfigurableBroker)

def sendToParent (parname : Name) : Bool × PrivateConfigurableBroker :=
  (parname ∈ b.parent || parname.take b.name.length ≠ b.name,
    if b.uninitializedCb ∧ '.' ∈ parname ∧ beforeLast '.' parname ∉ b.initialized then
      {b with initialized := beforeLast '.' parname :: b.initialized} else b)

def requests (l : List Name) : PrivateConfigurableBroker := l.foldl (fun b n => (b.sendToParent n).2) b

lemma requests_frame (l : List Name) : (b.requests l).name = b.name ∧ (b.requests l).parent = b.parent := by
  induction l generalizing b with
  | nil => exact ⟨rfl,rfl⟩
  | cons n l ih =>
    obtain ⟨hn,hp⟩ := ih (b.sendToParent n).2
    refine ⟨hn.trans ?_,hp.trans ?_⟩ <;> simp only [sendToParent] <;> split <;> rfl

lemma sendToParent_requests (p : Presets T) (m : Name) (cb : Bool) (l : List Name) (n : Name) :
    (((construct p m cb).requests l).sendToParent n).1 = false ↔
      ¬(n ∈ p.unconsumed ∧ m++['.'] <+: n) ∧ m <+: n := by
  obtain ⟨hn,hp⟩ := (construct p m cb).requests_frame l
  rw [sendToParent,hn,hp,← Presets.mem_below, prefix_iff_eq_take,eq_comm (a := m)]
  simp only [Bool.or_eq_false_iff,decide_eq_false_iff_not,ne_eq,not_not]
  rfl

/-- After any requests, a name is kept or passed on as its place below `m` tells, unless it extends `m` without a dot
or was a preset that had already been consumed. -/
theorem sendToParent_hierarchical_iff (p : Presets T) (m : Name) (cb : Bool) (l : List Name) (n : Name) :
    ((((construct p m cb).requests l).sendToParent n).1 = false ↔ m++['.'] <+: n ∧ p.value n = none) ↔
      (m <+: n → m++['.'] <+: n ∧ ((p.value n).isSome = true → n ∈ p.unconsumed)) := by
  have hd : m++['.'] <+: n → m <+: n := (prefix_append m _).trans
  have hv := p.isSome_value n
  rw [sendToParent_requests]
  cases h : p.value n with
  | none =>
    rw [h] at hv
    simp only [Option.isSome_none] at hv ⊢
    tauto
  | some v =>
    simp only [Option.isSome_some,reduceCtorEq]
    tauto

theorem sendToParent_sibling : ((construct (⟨fun _ => none,[],by simp⟩ : Presets ℕ) ['a'] false).sendToParent
    ['a','b','.','c']).1 = false := by
  decide

end PrivateConfigurableBroker

namespace Presets
variable (p : Presets T) (base : Name)

/-- `sc_cci_children`. -/
def scCciChildren : List Name :=
  ((p.below base).map fun n => (n.drop (base.length+1)).takeWhile (· ≠ '.')).insertionSort (· ≤ ·)
    |>.destutter (· ≠ ·)

/-- `cci_get_vector`, with `none` where `cci_get` reports an error. -/
def cciGetVector : List (Option T) :=
  ((p.scCciChildren base).filter (·.any Char.isDigit)).map fun s => p.value (base++ '.' :: s)

def item (i : ℕ) : Name := base++ '.' :: Nat.toDigits 10 i

variable {p base}

lemma scCciChildren_sorted : (p.scCciChildren base).Pairwise (· < ·) := by
  have h := pairwise_insertionSort (· ≤ ·) ((p.below base).map fun n =>
    (n.drop (base.length+1)).takeWhile (· ≠ '.'))
  rw [scCciChildren,h.destutter_eq_dedup]
  exact ((h.sublist (dedup_sublist _)).and (nodup_dedup _)).imp fun h => lt_of_le_of_ne h.1 h.2

lemma mem_scCciChildren {s : Name} : s ∈ p.scCciChildren base ↔
    ∃ n ∈ p.below base, (n.drop (base.length+1)).takeWhile (· ≠ '.') = s := by
  rw [scCciChildren,(pairwise_insertionSort (· ≤ ·) _).destutter_eq_dedup]
  simp

/-- The children are the first parts of what the unconsumed names have below the base, once each and in order. -/
theorem scCciChildren_exact (p : Presets T) (base : Name) : (p.scCciChildren base).Pairwise (· < ·) ∧
    ∀ s, s ∈ p.scCciChildren base ↔ ∃ r, base++ '.' :: r ∈ p.unconsumed ∧ r.takeWhile (· ≠ '.') = s := by
  refine ⟨scCciChildren_sorted,fun s => mem_scCciChildren.trans ⟨?_,?_⟩⟩
  · rintro ⟨n,hn,rfl⟩
    obtain ⟨hu,r,rfl⟩ := mem_below.mp hn
    exact ⟨r,by simpa using hu,by simp [drop_append,drop_eq_nil_of_le]⟩
  · rintro ⟨r,hu,rfl⟩
    exact ⟨_,mem_below.mpr ⟨hu,by simp⟩,by simp [drop_append,drop_eq_nil_of_le]⟩

lemma child_item (i : ℕ) : ((item base i).drop (base.length+1)).takeWhile (· ≠ '.') = Nat.toDigits 10 i := by
  have h : ∀ c ∈ Nat.toDigits 10 i, c ≠ '.' := fun c hc he =>
    absurd (Nat.isDigit_of_mem_toDigits (by decide) (by decide) hc) (by simp [he])
  simpa [item,drop_append,drop_eq_nil_of_le] using h

lemma any_isDigit (i : ℕ) : (Nat.toDigits 10 i).any Char.isDigit = true := by
  obtain ⟨c,hc⟩ := exists_mem_of_ne_nil _ (Nat.toDigits_ne_nil)
  exact any_eq_true.mpr ⟨c,hc,Nat.isDigit_of_mem_toDigits (by decide) (by decide) hc⟩

section
variable {n : ℕ} (hu : p.below base ⊆ (range n).map (item base) ∧ (range n).map (item base) ⊆ p.below base)
include hu

lemma mem_children_items {s : Name} : s ∈ p.scCciChildren base ↔ ∃ i < n, Nat.toDigits 10 i = s := by
  rw [mem_scCciChildren]
  constructor
  · rintro ⟨m,hm,rfl⟩
    obtain ⟨i,hi,rfl⟩ := mem_map.mp (hu.1 hm)
    exact ⟨i,mem_range.mp hi,(child_item i).symm⟩
  · rintro ⟨i,hi,rfl⟩
    exact ⟨_,hu.2 (mem_map_of_mem (mem_range.mpr hi)),child_item i⟩

lemma cciGetVector_items : p.cciGetVector base = (p.scCciChildren base).map fun s => p.value (base++ '.' :: s) := by
  rw [cciGetVector,filter_eq_self.mpr]
  intro s hs
  obtain ⟨i,-,rfl⟩ := (mem_children_items hu).mp hs
  exact any_isDigit i

lemma children_of_le_ten (hn : n ≤ 10) : p.scCciChildren base = (range n).map (Nat.toDigits 10) := by
  have h10 : ((range 10).map (Nat.toDigits 10)).Pairwise (· < ·) := by decide
  refine scCciChildren_sorted.eq_of_mem_iff (h10.sublist ((range_sublist.mpr hn).map _)) fun s => ?_
  simp [mem_children_items hu]

end

/-- A list configured by index comes back in index order if it has at most ten values; a longer one of different
values never does, since the names are sorted as strings. -/
theorem cciGetVector_index_order (values : List T)
    (hu : p.below base ⊆ (range values.length).map (item base) ∧
      (range values.length).map (item base) ⊆ p.below base)
    (hv : ∀ i (h : i < values.length), p.value (item base i) = some values[i]) :
    (values.length ≤ 10 → p.cciGetVector base = values.map some) ∧
      (values.Nodup → p.cciGetVector base = values.map some → values.length ≤ 10) := by
  rw [cciGetVector_items hu]
  constructor
  · intro hn
    rw [children_of_le_ten hu hn]
    refine ext_getElem (by simp) fun i h _ => ?_
    simpa [item] using hv i (by simpa using h)
  · intro hd he
    by_contra hn
    have hl := congrArg length he
    simp only [length_map] at hl
    have hk : ∀ k (h : k < values.length), (p.scCciChildren base)[k] = Nat.toDigits 10 k := by
      intro k h
      obtain ⟨i,hi,hs⟩ := (mem_children_items hu).mp (getElem_mem (l := p.scCciChildren base) (by omega : k < _))
      have hg := getElem_of_eq he (i := k) (by simp; omega)
      simp only [getElem_map,← hs] at hg
      have hi' : values[i] = values[k] := Option.some_inj.mp ((hv i hi).symm.trans hg)
      rw [← hs,hd.getElem_inj_iff.mp hi']
    have hp : (p.scCciChildren base)[2] < (p.scCciChildren base)[10] :=
      pairwise_iff_getElem.mp scCciChildren_sorted 2 10 (by omega) (by omega) (by omega)
    rw [hk 2 (by omega),hk 10 (by omega)] at hp
    exact absurd hp (by decide)

/-- Values configured as `b.0`, `b.1` and so on. -/
def indexed (values : List ℕ) : Presets ℕ where
  value n := ((values.zipIdx).find? fun v => item ['b'] v.2 = n).map (·.1)
  unconsumed := (range values.length).map (item ['b'])
  isSome_value := by simp [mem_iff_getElem]

theorem cciGetVector_index_order_two : (indexed [7,8]).cciGetVector ['b'] = [some 7,some 8] :=
  (cciGetVector_index_order [7,8] (by decide) (by decide)).1 (by decide)

theorem cciGetVector_eleven : (indexed (range 11)).cciGetVector ['b'] =
    [some 0,some 1,some 10,some 2,some 3,some 4,some 5,some 6,some 7,some 8,some 9] := by
  decide

end Presets
end Qbox.Cciutils
