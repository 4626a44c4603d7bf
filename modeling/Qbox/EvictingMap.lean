import Mathlib.Data.List.AList
import Mathlib.Tactic

/-! A bounded table with an insertion order beside it. A put into a full table
first drops the key at the back of the order. -/
namespace Qbox
open List

structure EvictingMap (K V : Type) where
  table : AList (fun _ : K => V)
  order : List K

namespace EvictingMap
variable {K V : Type}

def empty : EvictingMap K V := ⟨∅,[]⟩

variable [DecidableEq K]

def find (m : EvictingMap K V) (k : K) : Option V := m.table.lookup k

def size (m : EvictingMap K V) : ℕ := m.table.entries.length

def entries (m : EvictingMap K V) : List (K × V) := m.table.entries.map (fun e => (e.1,e.2))

/-- Drop the key at the back of the order; an empty order drops nothing. -/
def evict (m : EvictingMap K V) : EvictingMap K V := match m.order.getLast? with
  | none => m
  | some victim => ⟨m.table.erase victim,m.order.dropLast⟩

/-- An old occurrence leaves the order, and a new key may cost the last of `k`. -/
def makeRoom (cap : ℕ) (k : K) (m : EvictingMap K V) : EvictingMap K V :=
  if (m.find k).isSome then ⟨m.table,m.order.filter (fun j => decide (j ≠ k))⟩
  else if cap ≤ m.size then m.evict
  else m

def put (cap : ℕ) (k : K) (v : V) (m : EvictingMap K V) : EvictingMap K V := let r := m.makeRoom cap k
  ⟨r.table.insert k v,k :: r.order⟩

def remove (k : K) (m : EvictingMap K V) : EvictingMap K V :=
  ⟨m.table.erase k,m.order.filter (fun j => decide (j ≠ k))⟩

/-- Drop every entry whose key satisfies `p`, in the table and in the order. -/
def eraseIf (p : K → Bool) (m : EvictingMap K V) : EvictingMap K V :=
  ⟨⟨m.table.entries.filter (fun e => !p e.1),m.table.nodupKeys.sublist filter_sublist⟩,
    m.order.filter (fun k => !(p k && (m.find k).isSome))⟩

@[simp] lemma find_empty (k : K) : (empty : EvictingMap K V).find k = none := AList.lookup_empty k

variable {k j : K} {m : EvictingMap K V} {v : V} {cap : ℕ}

lemma mem_entries : (k,v) ∈ m.entries ↔ m.find k = some v := by
  rw [find,← Option.mem_def,AList.mem_lookup_iff,entries,List.mem_map]
  constructor
  · rintro ⟨e,he,heq⟩
    obtain ⟨rfl,rfl⟩ := Prod.mk.inj heq
    exact he
  · intro h
    exact ⟨⟨k,v⟩,h,rfl⟩

lemma find_makeRoom (h : (m.makeRoom cap k).find j = some v) : m.find j = some v := by
  unfold makeRoom at h
  split_ifs at h
  · exact h
  · unfold evict at h
    split at h
    · exact h
    · next victim _ =>
      by_cases hj : j = victim
      · subst hj
        simp [find] at h
      · rwa [find,AList.lookup_erase_ne hj] at h
  · exact h

@[simp] lemma find_put_self (cap : ℕ) (k : K) (v : V) (m : EvictingMap K V) :
    (m.put cap k v).find k = some v := AList.lookup_insert _

lemma find_put {e : V} (h : (m.put cap k v).find j = some e) : j = k ∧ e = v ∨ j ≠ k ∧ m.find j = some e := by
  by_cases hj : j = k
  · subst hj
    rw [find_put_self] at h
    exact Or.inl ⟨rfl,(Option.some.inj h).symm⟩
  · have hr : (m.makeRoom cap k).find j = some e := by
      rwa [put,find,AList.lookup_insert_ne hj] at h
    exact Or.inr ⟨hj,find_makeRoom hr⟩

lemma find_remove (k j : K) (m : EvictingMap K V) : (m.remove k).find j = if j = k then none else m.find j := by
  rw [remove,find]
  split_ifs with hj
  · rw [hj,AList.lookup_erase]
  · exact AList.lookup_erase_ne hj

lemma find_eraseIf (p : K → Bool) (m : EvictingMap K V) (k : K) :
    (m.eraseIf p).find k = if p k then none else m.find k := by
  apply Option.ext
  intro v
  have hm : (m.eraseIf p).find k = some v ↔
      (⟨k,v⟩ : Sigma fun _ : K => V) ∈ m.table.entries ∧ (!p k) = true := by
    rw [find,← Option.mem_def,AList.mem_lookup_iff,eraseIf,mem_filter]
  rw [hm,← AList.mem_lookup_iff]
  by_cases hp : p k
  · simp [hp]
  · simp [hp,find]

def push (k : K) (v : V) (m : EvictingMap K V) : EvictingMap K V :=
  ⟨m.table.insert k v,k :: m.order.filter (fun j => decide (j ≠ k))⟩

lemma find_push (k j : K) (v : V) (m : EvictingMap K V) : (m.push k v).find j = if j = k then some v else m.find j := by
  rw [push,find]
  split_ifs with hj
  · rw [hj,AList.lookup_insert]
  · exact AList.lookup_insert_ne hj

/-- A table reached from the empty one, with the keys put into it, newest first. -/
inductive Reached (cap : ℕ) : List K → EvictingMap K V → Prop where
  | empty : Reached cap [] .empty
  | put {hist : List K} {m : EvictingMap K V} (h : Reached cap hist m) (k : K) (v : V) :
      Reached cap (k :: hist) (m.put cap k v)
  | remove {hist : List K} {m : EvictingMap K V} (h : Reached cap hist m) (k : K) : Reached cap hist (m.remove k)
  | eraseIf {hist : List K} {m : EvictingMap K V} (h : Reached cap hist m) (p : K → Bool) :
      Reached cap hist (m.eraseIf p)
  | clear {hist : List K} {m : EvictingMap K V} (h : Reached cap hist m) : Reached cap hist .empty

/-- The order lists the keys of the table once each, the latest put first. -/
structure Ordered (hist : List K) (m : EvictingMap K V) : Prop where
  nodup : m.order.Nodup
  mem_iff : ∀ k, k ∈ m.order ↔ (m.find k).isSome
  inserted : ∀ k ∈ m.order, k ∈ hist
  recent : m.order.Pairwise (fun j k => hist.idxOf j < hist.idxOf k)

namespace Ordered
variable {hist : List K} {m m' : EvictingMap K V} {k : K}

lemma empty (hist : List K) : Ordered hist (.empty : EvictingMap K V) :=
  ⟨nodup_nil,fun k => by simp [EvictingMap.empty,find],nofun,List.Pairwise.nil⟩

lemma sublist (h : Ordered hist m) (hs : m'.order.Sublist m.order)
    (hm : ∀ k, k ∈ m'.order ↔ (m'.find k).isSome) : Ordered hist m' :=
  ⟨h.nodup.sublist hs,hm,fun k hk => h.inserted k (hs.subset hk),h.recent.sublist hs⟩

lemma size_eq (h : Ordered hist m) : m.size = m.order.length := by
  have hp : m.table.keys.Perm m.order := by
    rw [perm_ext_iff_of_nodup m.table.keys_nodup h.nodup]
    intro k
    rw [h.mem_iff,← AList.mem_keys,find,AList.lookup_isSome]
  rw [← hp.length_eq,size,AList.keys,List.keys,length_map]

lemma order_ne_nil (h : Ordered hist m) (hc : 1 ≤ cap) (hf : cap ≤ m.size) : m.order ≠ [] := by
  intro hn
  rw [h.size_eq,hn,length_nil] at hf
  omega

section
variable (h : Ordered hist m)
include h

lemma remove (k : K) : Ordered hist (m.remove k) := by
  refine h.sublist filter_sublist fun j => ?_
  rw [find_remove]
  by_cases hj : j = k
  · simp [EvictingMap.remove,hj]
  · simp [EvictingMap.remove,hj,h.mem_iff]

lemma eraseIf (p : K → Bool) : Ordered hist (m.eraseIf p) := by
  refine h.sublist filter_sublist fun j => ?_
  rw [find_eraseIf]
  cases hp : p j with
  | true => simp [EvictingMap.eraseIf,hp,h.mem_iff,Option.isSome_iff_ne_none]
  | false => simp [EvictingMap.eraseIf,hp,h.mem_iff]

/-- The key at the back is the one whose last put is the longest ago, and only it leaves. -/
lemma evict (hne : m.order ≠ []) : Ordered hist m.evict ∧ m.evict.order.length+1 = m.order.length ∧
    ∃ victim, (m.find victim).isSome ∧ (∀ j, (m.find j).isSome → hist.idxOf j ≤ hist.idxOf victim) ∧
      ∀ j, m.evict.find j = if j = victim then none else m.find j := by
  obtain ⟨l,victim,hl⟩ : ∃ l victim, m.order = l ++ [victim] := ⟨_,_,(dropLast_append_getLast hne).symm⟩
  have he : m.evict = ⟨m.table.erase victim,l⟩ := by simp [EvictingMap.evict,hl]
  have hf : ∀ j, m.evict.find j = if j = victim then none else m.find j := by
    intro j
    rw [he,find]
    split_ifs with hj
    · rw [hj,AList.lookup_erase]
    · exact AList.lookup_erase_ne hj
  have hn := h.nodup
  have hr := h.recent
  rw [hl] at hn hr
  have hvi : victim ∉ l := fun hv => (nodup_append.mp hn).2.2 _ hv _ (mem_singleton_self _) rfl
  refine ⟨h.sublist (by simp [he,hl]) fun j => ?_,by simp [he,hl],victim,?_,fun j hj => ?_,hf⟩
  · rw [hf,he]
    by_cases hj : j = victim
    · simp [hj,hvi]
    · simp [hj,← h.mem_iff,hl]
  · simp [← h.mem_iff,hl]
  · rw [← h.mem_iff,hl,mem_append,mem_singleton] at hj
    rcases hj with hj | rfl
    · exact ((pairwise_append.mp hr).2.2 j hj victim (mem_singleton_self _)).le
    · exact le_rfl

lemma push (k : K) (v : V) : Ordered (k :: hist) (m.push k v) := by
  have hr := h.remove k
  have hix : ∀ j ∈ (m.remove k).order, (k :: hist).idxOf j = hist.idxOf j+1 := fun j hj =>
    idxOf_cons_ne _ (fun heq => by simp [EvictingMap.remove,heq] at hj)
  refine ⟨nodup_cons.mpr ⟨by simp,hr.nodup⟩,fun j => ?_,?_,pairwise_cons.mpr ⟨fun j hj => ?_,?_⟩⟩
  · rw [find_push]
    by_cases hj : j = k
    · simp [EvictingMap.push,hj]
    · simp [EvictingMap.push,hj,h.mem_iff]
  · intro j hj
    rcases mem_cons.mp hj with rfl | hj
    · exact mem_cons_self
    · exact mem_cons_of_mem _ (hr.inserted j hj)
  · rw [hix j hj,idxOf_cons_self]
    exact Nat.succ_pos _
  · refine hr.recent.imp_of_mem fun hi hj hlt => ?_
    rw [hix _ hi,hix _ hj]
    exact Nat.succ_lt_succ hlt

lemma put_cases (cap : ℕ) (k : K) (v : V) :
    ((m.find k).isSome ∨ m.size < cap) ∧ m.put cap k v = m.push k v ∨
      m.find k = none ∧ cap ≤ m.size ∧ m.put cap k v = m.evict.push k v := by
  have hf : ∀ {l : List K}, k ∉ l → l.filter (fun j => decide (j ≠ k)) = l := fun hk =>
    filter_eq_self.mpr fun j hj => by simpa using fun heq : j = k => hk (heq ▸ hj)
  by_cases hk : (m.find k).isSome
  · exact .inl ⟨.inl hk,by rw [put,makeRoom,if_pos hk,EvictingMap.push]⟩
  · have hn := fun hm => hk ((h.mem_iff k).mp hm)
    by_cases hfu : cap ≤ m.size
    · refine .inr ⟨by simpa using hk,hfu,?_⟩
      have hs : m.evict.order ⊆ m.order := by
        rw [EvictingMap.evict]
        split
        · exact fun _ hj => hj
        · exact dropLast_subset _
      rw [put,makeRoom,if_neg hk,if_pos hfu,EvictingMap.push,hf (fun hm => hn (hs hm))]
    · exact .inl ⟨.inr (by omega),by rw [put,makeRoom,if_neg hk,if_neg hfu,EvictingMap.push,hf hn]⟩

end

end Ordered

/-- A put takes away only the key put the longest ago, from a full table without the new key. -/
def EvictsOldest (cap : ℕ) (hist : List K) (m : EvictingMap K V) : Prop :=
  ∀ k v j, j ≠ k → (m.put cap k v).find j ≠ m.find j → m.find k = none ∧ cap ≤ m.size ∧
    (m.put cap k v).find j = none ∧ ∀ i, (m.find i).isSome → hist.idxOf i ≤ hist.idxOf j

variable {cap : ℕ} {hist : List K} {m : EvictingMap K V}

lemma Ordered.evictsOldest (h : Ordered hist m) (hc : 1 ≤ cap) : EvictsOldest cap hist m := by
  intro k v j hj hne
  rcases h.put_cases cap k v with ⟨-,heq⟩ | ⟨hk,hfu,heq⟩
  · exact absurd (by rw [heq,find_push,if_neg hj]) hne
  · obtain ⟨-,-,victim,-,hold,hf⟩ := h.evict (h.order_ne_nil hc hfu)
    have hv : j = victim := by
      by_contra hjv
      exact hne (by rw [heq,find_push,if_neg hj,hf,if_neg hjv])
    subst hv
    exact ⟨hk,hfu,by rw [heq,find_push,if_neg hj,hf,if_pos rfl],hold⟩

lemma Reached.ordered (h : Reached cap hist m) (hc : 1 ≤ cap) : Ordered hist m ∧ m.order.length ≤ cap := by
  induction h with
  | empty | clear _ ih => exact ⟨.empty _,Nat.zero_le _⟩
  | @put hist m _ k v ih =>
    obtain ⟨ho,hle⟩ := ih
    have hp : ∀ m : EvictingMap K V, (m.push k v).order.length ≤ m.order.length+1 := fun m =>
      Nat.succ_le_succ (length_filter_le _ _)
    rcases ho.put_cases cap k v with ⟨hr,heq⟩ | ⟨-,hf,heq⟩
    · rw [heq]
      refine ⟨ho.push k v,?_⟩
      rcases hr with hk | hlt
      · have hlt : (m.order.filter (fun j => decide (j ≠ k))).length < m.order.length :=
          length_filter_lt_length_iff_exists.mpr ⟨k,(ho.mem_iff k).mpr hk,by simp⟩
        exact (Nat.succ_le_of_lt hlt).trans hle
      · rw [ho.size_eq] at hlt
        exact (hp m).trans hlt
    · rw [heq]
      obtain ⟨he,hl,-⟩ := ho.evict (ho.order_ne_nil hc hf)
      exact ⟨he.push k v,(hp _).trans (hl.le.trans hle)⟩
  | remove _ k ih => exact ⟨ih.1.remove k,(length_filter_le _ _).trans ih.2⟩
  | eraseIf _ p ih => exact ⟨ih.1.eraseIf p,(length_filter_le _ _).trans ih.2⟩

end EvictingMap
end Qbox
