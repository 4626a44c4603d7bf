import Mathlib.Data.List.Basic
import Mathlib.Data.List.Pairwise
import Mathlib.Order.Defs.LinearOrder
import Mathlib.Tactic

/-! Key-ordered associative containers. A map is the list of its nodes in
iteration order; strictly increasing keys are part of the value, so a map with
two nodes under one key cannot be built. An iterator is a split of that list. -/
namespace Qbox
open List hiding modify

structure OrderedMap (K V : Type) [LinearOrder K] where
  entries : List (K × V)
  sorted : entries.Pairwise (fun a b => a.1 < b.1)

namespace OrderedMap
variable {K V : Type} [LinearOrder K]

def empty : OrderedMap K V := ⟨[],List.Pairwise.nil⟩

instance : Membership (K × V) (OrderedMap K V) := ⟨fun m e => e ∈ m.entries⟩

variable {m : OrderedMap K V} {e : K × V}

lemma mem_def : e ∈ m ↔ e ∈ m.entries := Iff.rfl

@[simp] lemma not_mem_empty (e : K × V) : e ∉ (empty : OrderedMap K V) := not_mem_nil

instance {m : OrderedMap K V} {p : K × V → Prop} [DecidablePred p] : Decidable (∀ e ∈ m, p e) :=
  inferInstanceAs (Decidable (∀ e ∈ m.entries, p e))

instance {m : OrderedMap K V} {p : K × V → Prop} [DecidablePred p] : Decidable (∃ e ∈ m, p e) :=
  inferInstanceAs (Decidable (∃ e ∈ m.entries, p e))

def find (m : OrderedMap K V) (k : K) : Option V := (m.entries.find? (fun e => e.1 == k)).map Prod.snd

lemma eq_of_mem {a b : K × V} (ha : a ∈ m) (hb : b ∈ m) (hk : a.1 = b.1) : a = b := by
  have hn := pairwise_map.mpr (m.sorted.imp fun h => h.ne)
  exact inj_on_of_nodup_map hn ha hb hk

variable {k : K}

lemma find_eq_some {v : V} : m.find k = some v ↔ (k,v) ∈ m := by
  rw [find,Option.map_eq_some_iff]
  constructor
  · rintro ⟨e,he,rfl⟩
    have hk := find?_some he
    rw [beq_iff_eq] at hk
    subst hk
    exact mem_of_find?_eq_some he
  · intro h
    cases hf : m.entries.find? (fun e => e.1 == k) with
    | none => exact absurd (find?_eq_none.mp hf (k,v) h) (by simp)
    | some e =>
      have hk := find?_some hf
      rw [beq_iff_eq] at hk
      exact ⟨e,rfl,by rw [eq_of_mem (mem_of_find?_eq_some hf) h hk]⟩

lemma find_eq_none : m.find k = none ↔ ∀ e ∈ m, e.1 ≠ k := by
  constructor
  · intro h e he hk
    have hf := find_eq_some.mpr (show (k,e.2) ∈ m from hk ▸ he)
    rw [h] at hf
    cases hf
  · intro h
    cases hf : m.find k with
    | none => rfl
    | some v => exact absurd rfl (h (k,v) (find_eq_some.mp hf))

def modify (m : OrderedMap K V) (k : K) (f : V → V) : OrderedMap K V :=
  ⟨m.entries.map (fun e => (e.1,if e.1 = k then f e.2 else e.2)),pairwise_map.mpr m.sorted⟩

lemma mem_modify {f : V → V} : e ∈ m.modify k f ↔ ∃ a ∈ m, (a.1,if a.1 = k then f a.2 else a.2) = e := List.mem_map

/-- Remove every node that satisfies `p`. -/
def eraseIf (m : OrderedMap K V) (p : K × V → Bool) : OrderedMap K V :=
  ⟨m.entries.filter (fun e => !p e),m.sorted.filter _⟩

@[simp] lemma mem_eraseIf {p : K × V → Bool} : e ∈ m.eraseIf p ↔ e ∈ m ∧ p e = false := by
  simp [mem_def,eraseIf]

def erase (m : OrderedMap K V) (k : K) : OrderedMap K V := m.eraseIf (fun e => e.1 == k)

@[simp] lemma mem_erase : e ∈ m.erase k ↔ e ∈ m ∧ e.1 ≠ k := by
  simp [erase]

/-- Place a node; one already under the key keeps its position and gets what `hit` makes of it. -/
def place (k : K) (v : V) (hit : V → V) : List (K × V) → List (K × V)
  | [] => [(k,v)]
  | e :: es =>
    if k < e.1 then (k,v) :: e :: es
    else if e.1 = k then (k,hit e.2) :: es
    else e :: place k v hit es

variable {l : List (K × V)}

lemma key_of_mem_place {v : V} {hit : V → V} (h : e ∈ place k v hit l) : e.1 = k ∨ e ∈ l := by
  induction l with
  | nil => simp [place] at h; simp [h]
  | cons a l ih =>
    simp only [place] at h
    split_ifs at h with h1 h2
    · rcases mem_cons.mp h with rfl | h
      · exact Or.inl rfl
      · exact Or.inr h
    · rcases mem_cons.mp h with rfl | h
      · exact Or.inl rfl
      · exact Or.inr (mem_cons_of_mem _ h)
    · rcases mem_cons.mp h with rfl | h
      · exact Or.inr (mem_cons_self ..)
      · exact (ih h).imp_right (mem_cons_of_mem _)

lemma place_sorted {v : V} {hit : V → V} (h : l.Pairwise (fun a b => a.1 < b.1)) :
    (place k v hit l).Pairwise (fun a b => a.1 < b.1) := by
  induction l with
  | nil => simp [place]
  | cons a l ih =>
    have ha := (pairwise_cons.mp h).1
    simp only [place]
    split_ifs with h1 h2
    · refine pairwise_cons.mpr ⟨?_,h⟩
      intro b hb
      rcases mem_cons.mp hb with rfl | hb
      · exact h1
      · exact h1.trans (ha b hb)
    · refine pairwise_cons.mpr ⟨?_,h.of_cons⟩
      intro b hb
      exact h2 ▸ ha b hb
    · refine pairwise_cons.mpr ⟨?_,ih h.of_cons⟩
      intro b hb
      rcases key_of_mem_place hb with hk | hb
      · exact hk ▸ lt_of_le_of_ne (not_lt.mp h1) h2
      · exact ha b hb

lemma mem_place_iff {v : V} {hit : V → V} (h : l.Pairwise (fun a b => a.1 < b.1)) : e ∈ place k v hit l ↔
      (e ∈ l ∧ e.1 ≠ k) ∨ (e = (k,v) ∧ ∀ a ∈ l, a.1 ≠ k) ∨ ∃ a ∈ l, a.1 = k ∧ e = (k,hit a.2) := by
  induction l with
  | nil => simp [place]
  | cons a l ih =>
    have ha := (pairwise_cons.mp h).1
    simp only [place]
    split_ifs with h1 h2
    · have hne : ∀ b ∈ a :: l, b.1 ≠ k := by
        intro b hb
        rcases mem_cons.mp hb with rfl | hb
        · exact h1.ne'
        · exact (h1.trans (ha b hb)).ne'
      grind
    · have hne : ∀ b ∈ l, b.1 ≠ k := by
        intro b hb
        exact h2 ▸ (ha b hb).ne'
      grind
    · have hi := ih h.of_cons
      grind

def emplace (m : OrderedMap K V) (k : K) (v : V) : OrderedMap K V := ⟨place k v id m.entries,place_sorted m.sorted⟩

lemma mem_emplace {v : V} : e ∈ m.emplace k v ↔ e ∈ m ∨ (e = (k,v) ∧ ∀ a ∈ m, a.1 ≠ k) := by
  rw [mem_def,emplace,mem_place_iff m.sorted]
  have hm : ∀ a, a ∈ m ↔ a ∈ m.entries := fun _ => Iff.rfl
  simp only [hm,id]
  constructor
  · rintro (h | h | ⟨a,ha,rfl,rfl⟩)
    · exact Or.inl h.1
    · exact Or.inr h
    · exact Or.inl ha
  · rintro (h | h)
    · by_cases hk : e.1 = k
      · exact Or.inr (Or.inr ⟨e,h,hk,by rw [← hk]⟩)
      · exact Or.inl ⟨h,hk⟩
    · exact Or.inr (Or.inl h)

/-- Insertion that overwrites the value of an existing node. -/
def assign (m : OrderedMap K V) (k : K) (v : V) : OrderedMap K V :=
  ⟨place k v (fun _ => v) m.entries,place_sorted m.sorted⟩

lemma mem_assign {v : V} : e ∈ m.assign k v ↔ e = (k,v) ∨ e ∈ m ∧ e.1 ≠ k := by
  rw [mem_def,assign,mem_place_iff m.sorted]
  have hm : ∀ a, a ∈ m ↔ a ∈ m.entries := fun _ => Iff.rfl
  constructor
  · rintro (h | h | ⟨a,ha,hk,rfl⟩)
    · exact Or.inr h
    · exact Or.inl h.1
    · exact Or.inl rfl
  · rintro (rfl | h)
    · by_cases hk : ∃ a ∈ m.entries, a.1 = k
      · obtain ⟨a,ha,hk⟩ := hk
        exact Or.inr (Or.inr ⟨a,ha,hk,rfl⟩)
      · push Not at hk
        exact Or.inr (Or.inl ⟨rfl,hk⟩)
    · exact Or.inl h

lemma mem_foldl_erase {ks : List K} : e ∈ ks.foldl erase m ↔ e ∈ m ∧ e.1 ∉ ks := by
  induction ks generalizing m with
  | nil => simp
  | cons k ks ih => rw [foldl_cons,ih,mem_erase]; simp [and_assoc]

/-- The loop of an erasing iterator: it ends at `stop`, erases at `hit` and steps over others. -/
def eraseScan (stop hit : K × V → Bool) : List (K × V) → OrderedMap K V → OrderedMap K V
  | [], m => m
  | a :: l, m => if stop a then m else eraseScan stop hit l (if hit a then m.erase a.1 else m)

lemma mem_eraseScan {stop hit : K × V → Bool} (hl : l.Pairwise (fun a b => stop a = true → stop b = true)) :
    e ∈ eraseScan stop hit l m ↔
      e ∈ m ∧ ∀ a ∈ l, a.1 = e.1 → stop a = false → hit a = false := by
  induction l generalizing m with
  | nil => simp [eraseScan]
  | cons a l ih =>
    obtain ⟨ha,hl⟩ := pairwise_cons.mp hl
    rw [eraseScan]
    by_cases hs : stop a = true
    · have hst : ∀ b ∈ a :: l, stop b = true := by
        intro b hb
        rcases mem_cons.mp hb with rfl | hb
        · exact hs
        · exact ha b hb hs
      rw [if_pos hs]
      refine ⟨fun he => ⟨he,fun b hb _ hf => ?_⟩,And.left⟩
      rw [hst b hb] at hf
      exact absurd hf (by simp)
    · rw [if_neg hs,ih hl,forall_mem_cons]
      by_cases hh : hit a = true
      · simp only [hh,if_true,mem_erase,hs]
        grind
      · simp only [hh]
        grind

/-- A loop over nodes of the map erases those that it reaches and that satisfy `hit`. -/
lemma mem_eraseScan_self {stop hit : K × V → Bool}
    (hl : l.Pairwise (fun a b => stop a = true → stop b = true)) (hm : ∀ a ∈ l, a ∈ m) :
    e ∈ eraseScan stop hit l m ↔ e ∈ m ∧ ¬ (e ∈ l ∧ stop e = false ∧ hit e = true) := by
  rw [mem_eraseScan hl]
  refine and_congr_right fun he => ?_
  constructor
  · rintro h ⟨hel,hs,hh⟩
    rw [h e hel rfl hs] at hh
    exact absurd hh (by simp)
  · intro h a ha hk hs
    have hae := eq_of_mem (hm a ha) he hk
    subst hae
    by_contra hh
    exact h ⟨ha,hs,by simpa using hh⟩

section
variable {p : K → Bool} (hp : ∀ a b, a < b → p b = true → p a = true) {m : OrderedMap K V} {e : K × V}

def passed (m : OrderedMap K V) (p : K → Bool) : List (K × V) := m.entries.takeWhile (fun e => p e.1)

def ahead (m : OrderedMap K V) (p : K → Bool) : List (K × V) := m.entries.dropWhile (fun e => p e.1)

lemma sorted_ahead (m : OrderedMap K V) (p : K → Bool) : (m.ahead p).Pairwise (fun a b => a.1 < b.1) :=
  m.sorted.sublist (dropWhile_sublist _)

include hp

lemma takeWhile_eq_filter (h : l.Pairwise (fun a b => a.1 < b.1)) :
    l.takeWhile (fun e => p e.1) = l.filter (fun e => p e.1) := by
  induction l with
  | nil => rfl
  | cons a l ih =>
    by_cases ha : p a.1 = true
    · simp [ha,ih h.of_cons]
    · have hl : ∀ b ∈ l, ¬ p b.1 = true := by
        intro b hb hpb
        exact ha (hp a.1 b.1 (rel_of_pairwise_cons h hb) hpb)
      simp only [takeWhile_cons,ha,filter_cons]
      simpa using hl

lemma mem_passed : e ∈ m.passed p ↔ e ∈ m ∧ p e.1 = true := by
  rw [passed,takeWhile_eq_filter hp m.sorted]
  simp [mem_def]

lemma mem_ahead : e ∈ m.ahead p ↔ e ∈ m ∧ ¬ p e.1 = true := by
  have hs : m.passed p ++ m.ahead p = m.entries := takeWhile_append_dropWhile
  have hpa := pairwise_append.mp (hs ▸ m.sorted)
  constructor
  · intro he
    have hm : e ∈ m := by
      rw [mem_def,← hs]
      exact mem_append_right _ he
    refine ⟨hm,?_⟩
    intro hk
    have hu := (mem_passed hp).mpr ⟨hm,hk⟩
    exact lt_irrefl _ (hpa.2.2 e hu e he)
  · rintro ⟨he,hk⟩
    rw [mem_def,← hs,mem_append] at he
    rcases he with he | he
    · exact absurd ((mem_passed hp).mp he).2 hk
    · exact he

lemma getLast?_passed_eq_none : (m.passed p).getLast? = none ↔ ∀ e ∈ m, ¬ p e.1 = true := by
  rw [getLast?_eq_none_iff,eq_nil_iff_forall_not_mem]
  simp [mem_passed hp,not_and]

lemma getLast?_passed_eq_some :
    (m.passed p).getLast? = some e ↔ e ∈ m ∧ p e.1 = true ∧ ∀ a ∈ m, p a.1 = true → a.1 ≤ e.1 := by
  have hpa : (m.passed p).Pairwise (fun a b => a.1 < b.1) := m.sorted.sublist (takeWhile_sublist _)
  have hla : ∀ x, (m.passed p).getLast? = some x → x ∈ m.passed p ∧ ∀ a ∈ m.passed p, a.1 ≤ x.1 := by
    intro x hx
    obtain ⟨l,hl⟩ := getLast?_eq_some_iff.mp hx
    rw [hl] at hpa ⊢
    refine ⟨by simp,fun a ha => ?_⟩
    rcases mem_append.mp ha with ha | ha
    · exact ((pairwise_append.mp hpa).2.2 a ha x (by simp)).le
    · rw [mem_singleton.mp ha]
  constructor
  · intro he
    obtain ⟨hm,hma⟩ := hla e he
    exact ⟨((mem_passed hp).mp hm).1,((mem_passed hp).mp hm).2,fun a ha hk => hma a ((mem_passed hp).mpr ⟨ha,hk⟩)⟩
  · rintro ⟨he,hk,hma⟩
    cases hb : (m.passed p).getLast? with
    | none => exact absurd hk ((getLast?_passed_eq_none hp).mp hb e he)
    | some x =>
      obtain ⟨hx,hxm⟩ := hla x hb
      have hle := hxm e ((mem_passed hp).mpr ⟨he,hk⟩)
      have hge := hma x ((mem_passed hp).mp hx).1 ((mem_passed hp).mp hx).2
      rw [eq_of_mem he ((mem_passed hp).mp hx).1 (le_antisymm hle hge)]

def oneBefore (m : OrderedMap K V) (p : K → Bool) : List (K × V) := (m.passed p).getLast?.toList ++ m.ahead p

lemma mem_oneBefore : e ∈ m.oneBefore p ↔ e ∈ m ∧ ∀ a ∈ m, p a.1 = true → a.1 ≤ e.1 := by
  rw [oneBefore,mem_append,Option.mem_toList,getLast?_passed_eq_some hp,mem_ahead hp]
  constructor
  · rintro (⟨he,_,hm⟩ | ⟨he,hk⟩)
    · exact ⟨he,hm⟩
    · refine ⟨he,fun a _ ha => ?_⟩
      by_contra hlt
      exact hk (hp e.1 a.1 (not_le.mp hlt) ha)
  · rintro ⟨he,hm⟩
    by_cases hk : p e.1 = true
    · exact Or.inl ⟨he,hk,hm⟩
    · exact Or.inr ⟨he,hk⟩

lemma oneBefore_sorted (m : OrderedMap K V) : (m.oneBefore p).Pairwise (fun a b => a.1 < b.1) := by
  cases hl : (m.passed p).getLast? with
  | none => simpa [oneBefore,hl] using m.sorted_ahead p
  | some e =>
    have he := ((getLast?_passed_eq_some hp).mp hl).2.1
    have hc : (e :: m.ahead p).Pairwise (fun a b => a.1 < b.1) := by
      refine pairwise_cons.mpr ⟨fun b hb => ?_,m.sorted_ahead p⟩
      have hb := (mem_ahead hp).mp hb
      by_contra hlt
      rcases (not_lt.mp hlt).lt_or_eq with hbe | hbe
      · exact hb.2 (hp b.1 e.1 hbe he)
      · exact hb.2 (hbe ▸ he)
    simpa [oneBefore,hl] using hc

end

lemma le_key_down (k a b : K) (h : a < b) (hb : decide (b ≤ k) = true) : decide (a ≤ k) = true := by
  rw [decide_eq_true_eq] at hb ⊢
  exact h.le.trans hb

lemma lt_key_down (k a b : K) (h : a < b) (hb : decide (b < k) = true) : decide (a < k) = true := by
  rw [decide_eq_true_eq] at hb ⊢
  exact h.trans hb

lemma past_pairwise (h : l.Pairwise (fun a b => a.1 < b.1)) (k : K) :
    l.Pairwise (fun a b => decide (k < a.1) = true → decide (k < b.1) = true) := by
  refine h.imp fun {a b} hab ha => ?_
  rw [decide_eq_true_eq] at ha ⊢
  exact ha.trans hab

def beyond (m : OrderedMap K V) (k : K) : List (K × V) := m.ahead (fun j => decide (j ≤ k))

def upperBound (m : OrderedMap K V) (k : K) : Option (K × V) := (m.beyond k).head?

def beforeUpperBound (m : OrderedMap K V) (k : K) : Option (K × V) := (m.passed (fun j => decide (j ≤ k))).getLast?

def fromLowerBound (m : OrderedMap K V) (k : K) : List (K × V) := m.ahead (fun j => decide (j < k))

def beforeLowerBound (m : OrderedMap K V) (k : K) : Option (K × V) := (m.passed (fun j => decide (j < k))).getLast?

lemma mem_fromLowerBound : e ∈ m.fromLowerBound k ↔ e ∈ m ∧ k ≤ e.1 := by
  rw [fromLowerBound,mem_ahead (lt_key_down k),decide_eq_true_eq,not_lt]

lemma beforeUpperBound_eq_none : m.beforeUpperBound k = none ↔ ∀ e ∈ m, k < e.1 := by
  simp [beforeUpperBound,getLast?_passed_eq_none (le_key_down k),not_le]

lemma beforeUpperBound_eq_some :
    m.beforeUpperBound k = some e ↔ e ∈ m ∧ e.1 ≤ k ∧ ∀ a ∈ m, a.1 ≤ k → a.1 ≤ e.1 := by
  simp [beforeUpperBound,getLast?_passed_eq_some (le_key_down k)]

lemma upperBound_eq_some (h : m.upperBound k = some e) :
    e ∈ m ∧ k < e.1 ∧ ∀ a ∈ m, k < a.1 → e.1 ≤ a.1 := by
  obtain ⟨l,hl⟩ := head?_eq_some_iff.mp h
  have hm : ∀ a, a ∈ e :: l ↔ a ∈ m ∧ k < a.1 := by
    intro a
    rw [← hl,beyond,mem_ahead (le_key_down k),decide_eq_true_eq,not_le]
  have hs : (e :: l).Pairwise (fun a b => a.1 < b.1) := hl ▸ m.sorted_ahead _
  obtain ⟨he,hk⟩ := (hm e).mp (mem_cons_self ..)
  refine ⟨he,hk,fun a ha hka => ?_⟩
  rcases mem_cons.mp ((hm a).mpr ⟨ha,hka⟩) with rfl | hal
  · exact le_rfl
  · exact (rel_of_pairwise_cons hs hal).le

lemma upperBound_eq_none : m.upperBound k = none ↔ ∀ e ∈ m, e.1 ≤ k := by
  rw [upperBound,head?_eq_none_iff,eq_nil_iff_forall_not_mem]
  simp [beyond,mem_ahead (le_key_down k),not_and]

lemma beforeLowerBound_eq_some :
    m.beforeLowerBound k = some e ↔ e ∈ m ∧ e.1 < k ∧ ∀ a ∈ m, a.1 < k → a.1 ≤ e.1 := by
  simp [beforeLowerBound,getLast?_passed_eq_some (lt_key_down k)]

def fromBeforeUpperBound (m : OrderedMap K V) (k : K) : List (K × V) := m.oneBefore (fun j => decide (j ≤ k))

def fromBeforeLowerBound (m : OrderedMap K V) (k : K) : List (K × V) := m.oneBefore (fun j => decide (j < k))

lemma mem_fromBeforeUpperBound :
    e ∈ m.fromBeforeUpperBound k ↔ e ∈ m ∧ ∀ a ∈ m, a.1 ≤ k → a.1 ≤ e.1 := by
  simp [fromBeforeUpperBound,mem_oneBefore (le_key_down k)]

lemma mem_fromBeforeLowerBound :
    e ∈ m.fromBeforeLowerBound k ↔ e ∈ m ∧ ∀ a ∈ m, a.1 < k → a.1 ≤ e.1 := by
  simp [fromBeforeLowerBound,mem_oneBefore (lt_key_down k)]

lemma fromBeforeUpperBound_sorted (m : OrderedMap K V) (k : K) :
    (m.fromBeforeUpperBound k).Pairwise (fun a b => a.1 < b.1) := oneBefore_sorted (le_key_down k) m

lemma fromBeforeLowerBound_sorted (m : OrderedMap K V) (k : K) :
    (m.fromBeforeLowerBound k).Pairwise (fun a b => a.1 < b.1) := oneBefore_sorted (lt_key_down k) m

/-- The gaps of a list of points: each point with its successor. -/
def gaps (l : List K) : List (K × K) := l.zip l.tail

omit [LinearOrder K] in
lemma gaps_cons (a b : K) (l : List K) : gaps (a :: b :: l) = (a,b) :: gaps (b :: l) := rfl

lemma gap_spec {l : List K} (hl : l.Pairwise (· < ·)) {g : K × K} (hg : g ∈ gaps l) :
    g.1 ∈ l ∧ g.1 < g.2 ∧ ∀ x ∈ l, x ≤ g.1 ∨ g.2 ≤ x := by
  induction l with
  | nil => simp [gaps] at hg
  | cons a l ih =>
    cases l with
    | nil => simp [gaps] at hg
    | cons b l =>
      have ha := (pairwise_cons.mp hl).1
      rw [gaps_cons] at hg
      rcases mem_cons.mp hg with rfl | hg
      · refine ⟨by simp,ha b (by simp),fun x hx => ?_⟩
        rcases mem_cons.mp hx with rfl | hx
        · exact Or.inl le_rfl
        · rcases mem_cons.mp hx with rfl | hx
          · exact Or.inr le_rfl
          · exact Or.inr ((pairwise_cons.mp hl.of_cons).1 x hx).le
      · obtain ⟨hm,hlt,hx⟩ := ih hl.of_cons hg
        refine ⟨mem_cons_of_mem _ hm,hlt,fun x hxm => ?_⟩
        rcases mem_cons.mp hxm with rfl | hxm
        · exact Or.inl (ha _ hm).le
        · exact hx x hxm

lemma exists_gap {l : List K} {a b x : K} (hl : l.Pairwise (· < ·))
    (ha : a ∈ l) (hb : b ∈ l) (hax : a ≤ x) (hxb : x < b) : ∃ g ∈ gaps l, g.1 ≤ x ∧ x < g.2 := by
  induction l generalizing a with
  | nil => simp at ha
  | cons c l ih =>
    cases l with
    | nil =>
      rw [mem_singleton.mp ha,← mem_singleton.mp hb] at hax
      exact absurd hxb (not_lt.mpr hax)
    | cons d l =>
      have hc := (pairwise_cons.mp hl).1
      have hcx : c ≤ x := by
        rcases mem_cons.mp ha with rfl | ha
        · exact hax
        · exact (hc a ha).le.trans hax
      by_cases hd : x < d
      · exact ⟨(c,d),by simp [gaps_cons],hcx,hd⟩
      · have hb' : b ∈ d :: l := by
          rcases mem_cons.mp hb with rfl | hb
          · exact absurd hxb (not_lt.mpr hcx)
          · exact hb
        obtain ⟨g,hg,hx⟩ := ih hl.of_cons (mem_cons_self ..) hb' (not_lt.mp hd)
        exact ⟨g,by rw [gaps_cons]; exact mem_cons_of_mem _ hg,hx⟩

end OrderedMap
end Qbox
