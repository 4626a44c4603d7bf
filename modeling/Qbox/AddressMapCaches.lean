import Mathlib.Data.List.Perm.Basic
import Qbox.AddressMap

/-! Caches in front of the address map: one that remembers the answer of each address, and two that
remember whole regions. A sequence of calls is compared with the same sequence on the map without a cache. -/
namespace Qbox.AddressMap
open TargetInfoType List

inductive Call (T : Type) where
  | add (t : T)
  | find (addr size : U64)

def Call.added {T : Type} : Call T → Option T
  | .add t => some t
  | .find _ _ => none

section
variable {T C : Type} [AddrMapCacheBase C T] [TargetInfoType T] (m : AddressMap T C)

def call : Call T → AddressMap T C
  | .add t => m.add t
  | .find a n => (m.find a n).2

def after (l : List (Call T)) : AddressMap T C := l.foldl call m

def answers (m : AddressMap T C) : List (Call T) → List (Option T)
  | [] => []
  | .add t :: l => answers (m.add t) l
  | .find a n :: l => (m.find a n).1 :: answers (m.find a n).2 l

def regionsOf (ts : List T) : Regions T :=
  ts.foldl (fun m t => splitAndResolve m (address t) (address t + size t) t) OrderedMap.empty

def fresh (cache : C) : AddressMap T C := ⟨OrderedMap.empty,cache⟩

omit [TargetInfoType T] in
@[simp] lemma find_regions (a n : U64) : (m.find a n).2.regions = m.regions := by
  unfold find
  split <;> rfl

lemma addAll_regions (cache : C) (ts : List T) : (addAll cache ts).regions = regionsOf ts := by
  induction ts using reverseRecOn with
  | nil => rfl
  | append_singleton ts t ih =>
    rw [addAll_concat,regionsOf,foldl_concat,← regionsOf,← ih]
    rfl

lemma after_fresh_regions (cache : C) (l : List (Call T)) :
    (after (fresh cache) l).regions = regionsOf (l.filterMap Call.added) := by
  induction l using reverseRecOn with
  | nil => rfl
  | append_singleton l c ih =>
    rw [after,foldl_concat,← after,filterMap_append]
    cases c with
    | add t =>
      have ha : [Call.add t].filterMap Call.added = [t] := rfl
      rw [ha,regionsOf,foldl_concat,← regionsOf,← ih]
      rfl
    | find a n =>
      have hf : [Call.find (T := T) a n].filterMap Call.added = [] := rfl
      rw [hf,List.append_nil,← ih]
      exact find_regions ..

lemma lookup_regionsOf (ts : List T) (a : U64) :
    lookup (regionsOf ts) a = PriorityChoice.choice priority (Claims · a) ts := by
  rw [← addAll_regions AddrMapNoCache.mk ts]
  exact (addAll_lookup AddrMapNoCache.mk ts).2.2 a

/-- A cache whose contents `I` relates to the regions, and whose hits are right over the regions in `G`. -/
structure Transparent (I : Regions T → C → Prop) (G : Regions T → Prop) : Prop where
  clear : ∀ r r' c, I r c → I r' (AddrMapCacheBase.clear T c)
  hit : ∀ r c a v c', I r c → G r → AddrMapCacheBase.get c a = (some v,c') → v = lookup r a ∧ I r c'
  miss : ∀ r c a n c', I r c → AddrMapCacheBase.get (T := T) c a = (none,c') →
    I r (AddrMapCacheBase.put c' a (lookup r a) n)

variable {I : Regions T → C → Prop} {G : Regions T → Prop}

omit [TargetInfoType T] in
lemma Transparent.find (h : Transparent I G) {m : AddressMap T C} (hI : I m.regions m.cache) (hG : G m.regions)
    (a n : U64) : (m.find a n).1 = lookup m.regions a ∧ I m.regions (m.find a n).2.cache := by
  unfold AddressMap.find
  split
  · next v c hg => exact h.hit _ _ _ _ _ hI hG hg
  · next c hg => exact ⟨rfl,h.miss _ _ _ n _ hI hg⟩

/-- Over good regions the answers are those without a cache, and the cache stays related to the regions. -/
lemma Transparent.answers (h : Transparent I G) {l : List (Call T)} {m : AddressMap T C}
    {w : AddressMap T AddrMapNoCache} (hI : I m.regions m.cache) (hr : w.regions = m.regions)
    (hG : ∀ l', l' <+: l → G (after m l').regions) :
    AddressMap.answers m l = AddressMap.answers w l ∧ I (after m l).regions (after m l).cache := by
  induction l generalizing m w with
  | nil => exact ⟨rfl,hI⟩
  | cons c l ih =>
    have hre := fun l' hl' => hG (c :: l') ((cons_prefix_cons).mpr ⟨rfl,hl'⟩)
    cases c with
    | add t =>
      have ha : (w.add t).regions = (m.add t).regions := by simp only [add,hr]
      exact ih (h.clear _ _ _ hI) ha hre
    | find a n =>
      obtain ⟨hf,hc⟩ := h.find hI (hG [] nil_prefix) a n
      have hp : (w.find a n).1 = lookup w.regions a := rfl
      have hn := ih (m := (m.find a n).2) (w := (w.find a n).2) (by rwa [find_regions])
        (by rw [find_regions,find_regions,hr]) hre
      refine ⟨?_,hn.2⟩
      rw [AddressMap.answers,AddressMap.answers,hf,hp,hr,hn.1]

end

/-- A node of `m_list`. Its `id` is what an iterator points to. -/
structure LRUNode (T : Type) where
  id : ℕ
  key : U64
  value : Option T

/-- `LRUCache`: the list, most recent entry first, and the map from keys to nodes. `undefined`: the last element of an
empty list, or an iterator to a node that is gone, was asked for. -/
structure LRUCache (T : Type) where
  capacity : ℕ
  list : List (LRUNode T)
  map : List (U64 × ℕ)
  nextId : ℕ
  hits : U64
  misses : U64
  undefined : Bool

namespace LRUCache
variable {T : Type}

variable (T) in
def new (capacity : ℕ) : LRUCache T := ⟨capacity,[],[],0,0,0,false⟩

def get (c : LRUCache T) (key : U64) : Option (Option T) × LRUCache T := match c.map.lookup key with
  | none => (none,{ c with misses := c.misses+1 })
  | some it =>
    match c.list.find? (fun n => n.id == it) with
    | none => (none,{ c with undefined := true })
    | some n => (some n.value,{ c with list := n :: c.list.eraseP (fun n => n.id == it), hits := c.hits+1 })

def evict (c : LRUCache T) : LRUCache T := match c.list.getLast? with
  | none => { c with undefined := true }
  | some last => { c with map := c.map.filter (fun e => e.1 != last.key), list := c.list.dropLast }

/-- A new entry in front; the assignment to the map replaces an old one of the key. -/
def insert (c : LRUCache T) (key : U64) (value : Option T) : LRUCache T := { c with
    list := ⟨c.nextId,key,value⟩ :: c.list
    map := (key,c.nextId) :: c.map.filter (fun e => e.1 != key)
    nextId := c.nextId+1 }

def put (c : LRUCache T) (key : U64) (value : Option T) : LRUCache T :=
  (if c.capacity ≤ c.list.length then c.evict else c).insert key value

def clear (c : LRUCache T) : LRUCache T := { c with list := [], map := [] }

instance : AddrMapCacheBase (LRUCache T) T := ⟨get,fun c key value _ => c.put key value,clear⟩

/-- Every entry of the map is the key and the node of an entry of the list; keys and nodes occur once. -/
structure Sound (c : LRUCache T) : Prop where
  linked : c.map.Perm (c.list.map fun n => (n.key,n.id))
  keys : (c.list.map LRUNode.key).Nodup
  ids : (c.list.map LRUNode.id).Nodup
  older : ∀ n ∈ c.list, n.id < c.nextId
  bounded : c.list.length ≤ c.capacity
  defined : c.undefined = false

lemma Sound.new (capacity : ℕ) : Sound (LRUCache.new T capacity) :=
  ⟨.refl _,nodup_nil,nodup_nil,by simp [LRUCache.new],Nat.zero_le _,rfl⟩

variable {c c' : LRUCache T} {key : U64}

lemma Sound.clear (h : c.Sound) : c.clear.Sound :=
  ⟨.refl _,nodup_nil,nodup_nil,by simp [LRUCache.clear],Nat.zero_le _,h.defined⟩

lemma cons_eraseP_perm {α : Type} {q : α → Bool} {l : List α} {a : α} (h : l.find? q = some a) :
    (a :: l.eraseP q).Perm l := by
  induction l with
  | nil => simp at h
  | cons b l ih =>
    cases hb : q b with
    | true =>
      rw [find?_cons_of_pos hb] at h
      rw [eraseP_cons_of_pos hb,Option.some.inj h]
    | false =>
      rw [find?_cons_of_neg (by simp [hb])] at h
      rw [eraseP_cons_of_neg (by simp [hb])]
      exact (Perm.swap b a _).trans ((ih h).cons b)

section
variable (h : c.Sound)
include h

lemma Sound.reorder {l : List (LRUNode T)} (hl : l.Perm c.list) (hits : U64) :
    Sound { c with list := l, hits := hits } where
  linked := h.linked.trans (hl.symm.map _)
  keys := ((hl.map _).nodup_iff).mpr h.keys
  ids := ((hl.map _).nodup_iff).mpr h.ids
  older := fun n hn => h.older n (hl.subset hn)
  bounded := hl.length_eq.trans_le h.bounded
  defined := h.defined

lemma Sound.mem_map {it : ℕ} : (key,it) ∈ c.map ↔ ∃ n ∈ c.list, n.key = key ∧ n.id = it := by
  rw [h.linked.mem_iff,List.mem_map]
  simp

lemma Sound.of_lookup {it : ℕ} (hm : c.map.lookup key = some it) :
    ∃ n ∈ c.list, n.key = key ∧ n.id = it := by
  obtain ⟨l,l',hl,-⟩ := List.lookup_eq_some_iff.mp hm
  exact h.mem_map.mp (by simp [hl])

lemma Sound.get_hit {v : Option T} (hg : c.get key = (some v,c')) :
    ∃ n ∈ c.list, n.key = key ∧ n.value = v ∧ c'.Sound ∧ c'.capacity = c.capacity ∧ c'.list.Perm c.list := by
  unfold get at hg
  cases hm : c.map.lookup key with
  | none => simp [hm] at hg
  | some it =>
    simp only [hm] at hg
    cases hf : c.list.find? (fun n => n.id == it) with
    | none => simp [hf] at hg
    | some n =>
      simp only [hf,Prod.mk.injEq,Option.some.injEq] at hg
      obtain ⟨hv,rfl⟩ := hg
      have hme := mem_of_find?_eq_some hf
      have hid : n.id = it := by simpa using find?_some hf
      obtain ⟨k,hk,hke,hki⟩ := h.of_lookup hm
      obtain rfl : n = k := inj_on_of_nodup_map h.ids hme hk (hid.trans hki.symm)
      exact ⟨n,hme,hke,hv,h.reorder (cons_eraseP_perm hf) _,rfl,cons_eraseP_perm hf⟩

lemma Sound.get_miss (hg : c.get key = (none,c')) :
    c'.Sound ∧ c'.capacity = c.capacity ∧ c'.list = c.list ∧ ∀ n ∈ c.list, n.key ≠ key := by
  unfold get at hg
  cases hm : c.map.lookup key with
  | none =>
    simp only [hm,Prod.mk.injEq,true_and] at hg
    subst hg
    refine ⟨⟨h.linked,h.keys,h.ids,h.older,h.bounded,h.defined⟩,rfl,rfl,fun n hn hk => ?_⟩
    have hno := List.lookup_eq_none_iff.mp hm (key,n.id) (h.mem_map.mpr ⟨n,hn,hk,rfl⟩)
    simp at hno
  | some it =>
    simp only [hm] at hg
    obtain ⟨n,hn,-,hid⟩ := h.of_lookup hm
    cases hf : c.list.find? (fun n => n.id == it) with
    | none => exact absurd (find?_eq_none.mp hf n hn) (by simp [hid])
    | some k => simp [hf] at hg

lemma Sound.evict (hp : 0 < c.list.length) :
    c.evict.Sound ∧ c.evict.capacity = c.capacity ∧ c.evict.list.length < c.list.length ∧
      ∀ n ∈ c.evict.list, n ∈ c.list := by
  obtain ⟨l,last,hl⟩ : ∃ l last, c.list = l++[last] := by
    rcases eq_nil_or_concat c.list with hni | ⟨l,last,hl⟩
    · simp [hni] at hp
    · exact ⟨l,last,by simpa using hl⟩
  have hev : c.evict = { c with map := c.map.filter (fun e => e.1 != last.key), list := l } := by
    simp [LRUCache.evict,hl]
  have hk := h.keys
  have hi := h.ids
  have hli := h.linked.filter (fun e => e.1 != last.key)
  rw [hl,map_append] at hk hi
  have ho : ∀ n ∈ l, n.key ≠ last.key := fun n hn heq =>
    (nodup_append.mp hk).2.2 n.key (List.mem_map_of_mem hn) last.key (by simp) heq
  have hf : (c.list.map fun n => (n.key,n.id)).filter (fun e => e.1 != last.key) =
      l.map fun n => (n.key,n.id) := by
    rw [hl,map_append,filter_append,filter_eq_self.mpr]
    · simp
    · intro e he
      obtain ⟨n,hn,rfl⟩ := List.mem_map.mp he
      simpa using ho n hn
  rw [hf] at hli
  have hle : c.list.length = l.length+1 := by simp [hl]
  have hs : ∀ n ∈ l, n ∈ c.list := fun n hn => by simp [hl,hn]
  rw [hev]
  exact ⟨⟨hli,(nodup_append.mp hk).1,(nodup_append.mp hi).1,fun n hn => h.older n (hs n hn),
    by have := h.bounded; simp only; omega,h.defined⟩,rfl,by simp only; omega,hs⟩

lemma Sound.insert (hr : c.list.length < c.capacity) (hk : ∀ n ∈ c.list, n.key ≠ key)
    (value : Option T) : (c.insert key value).Sound := by
  have hf : c.map.filter (fun e => e.1 != key) = c.map := by
    refine filter_eq_self.mpr fun e he => ?_
    obtain ⟨n,hn,hnk,-⟩ := h.mem_map.mp he
    simpa [← hnk] using hk n hn
  refine ⟨?_,?_,?_,?_,hr,h.defined⟩
  · simp only [LRUCache.insert,hf,map_cons]
    exact h.linked.cons _
  · refine nodup_cons.mpr ⟨fun hm => ?_,h.keys⟩
    obtain ⟨n,hn,hn'⟩ := List.mem_map.mp hm
    exact hk n hn hn'
  · refine nodup_cons.mpr ⟨fun hm => ?_,h.ids⟩
    obtain ⟨n,hn,hn'⟩ := List.mem_map.mp hm
    exact absurd hn' (h.older n hn).ne
  · intro n hn
    rcases mem_cons.mp hn with rfl | hn
    · exact Nat.lt_succ_self _
    · exact Nat.lt_succ_of_lt (h.older n hn)

lemma Sound.put (hp : 0 < c.capacity) (hk : ∀ n ∈ c.list, n.key ≠ key) (value : Option T) :
    (c.put key value).Sound ∧ (c.put key value).capacity = c.capacity ∧
      ∀ n ∈ (c.put key value).list, n.key = key ∧ n.value = value ∨ n ∈ c.list := by
  unfold LRUCache.put
  split_ifs with hf
  · obtain ⟨he,hc,hl,hs⟩ := h.evict (hp.trans_le hf)
    refine ⟨he.insert ?_ (fun n hn => hk n (hs n hn)) value,hc,fun n hn => ?_⟩
    · have := h.bounded
      omega
    · rcases mem_cons.mp hn with rfl | hn
      · exact .inl ⟨rfl,rfl⟩
      · exact .inr (hs n hn)
  · refine ⟨h.insert (not_le.mp hf) hk value,rfl,fun n hn => ?_⟩
    rcases mem_cons.mp hn with rfl | hn
    · exact .inl ⟨rfl,rfl⟩
    · exact .inr hn

end

/-- Every entry, also a negative one, is what the regions say. -/
structure Coherent (capacity : ℕ) (r : Regions T) (c : LRUCache T) : Prop where
  sound : c.Sound
  capacity_eq : c.capacity = capacity
  value : ∀ n ∈ c.list, n.value = lookup r n.key

/-- Map and list hold the same keys, none twice, at most `capacity`; nothing undefined was done. -/
structure Consistent (capacity : ℕ) (c : LRUCache T) : Prop where
  mapKeys : (c.map.map Prod.fst).Nodup
  listKeys : (c.list.map LRUNode.key).Nodup
  same : ∀ k, k ∈ c.map.map Prod.fst ↔ k ∈ c.list.map LRUNode.key
  mapBounded : c.map.length ≤ capacity
  listBounded : c.list.length ≤ capacity
  defined : c.undefined = false

lemma Sound.consistent (h : c.Sound) : c.Consistent c.capacity := by
  have hk : (c.map.map Prod.fst).Perm (c.list.map LRUNode.key) := by
    have hm := h.linked.map Prod.fst
    rwa [List.map_map] at hm
  refine ⟨hk.nodup_iff.mpr h.keys,h.keys,fun k => hk.mem_iff,?_,h.bounded,h.defined⟩
  rw [h.linked.length_eq,length_map]
  exact h.bounded

lemma cache_transparent [TargetInfoType T] {capacity : ℕ} (hpo : 0 < capacity) :
    Transparent (C := LRUCache T) (Coherent capacity) fun _ => True where
  clear := fun _ _ _ h => ⟨h.sound.clear,h.capacity_eq,fun n hn => absurd hn not_mem_nil⟩
  hit := by
    intro r c a v c' h _ hg
    obtain ⟨n,hn,hke,hv,hs,hc,hp⟩ := h.sound.get_hit hg
    refine ⟨?_,hs,hc.trans h.capacity_eq,fun k hk => h.value k (hp.subset hk)⟩
    rw [← hv,← hke]
    exact h.value n hn
  miss := by
    intro r c a n c' h hg
    obtain ⟨hs,hc,hl,hke⟩ := h.sound.get_miss hg
    have hca := hc.trans h.capacity_eq
    rw [← hl] at hke
    obtain ⟨hpu,hpu',hm⟩ := hs.put (hca ▸ hpo) hke (lookup r a)
    refine ⟨hpu,hpu'.trans hca,fun k hk => ?_⟩
    rcases hm k hk with ⟨hk,hv⟩ | hk
    · rw [hv,hk]
    · exact h.value k (hl ▸ hk)

end LRUCache

/-- With the least-recently-used cache of any capacity but 0 every `find` returns what it returns without, and map and
list stay consistent. -/
theorem lruCache_invisible {T : Type} [TargetInfoType T] {capacity : ℕ} (hpos : 0 < capacity) (l : List (Call T)) :
    answers (fresh (LRUCache.new T capacity)) l = answers (fresh AddrMapNoCache.mk) l ∧
      ∀ l', l' <+: l → (after (fresh (LRUCache.new T capacity)) l').cache.Consistent capacity := by
  have hs : LRUCache.Coherent capacity (OrderedMap.empty : Regions T) (LRUCache.new T capacity) :=
    ⟨.new capacity,rfl,by simp [LRUCache.new]⟩
  have hr := fun l : List (Call T) => (LRUCache.cache_transparent hpos).answers (m := fresh (LRUCache.new T capacity))
    (w := fresh AddrMapNoCache.mk) (l := l) hs rfl fun _ _ => trivial
  refine ⟨(hr l).1,fun l' _ => ?_⟩
  have hc := (hr l').2.sound.consistent
  rwa [(hr l').2.capacity_eq] at hc

/-- A capacity of two entries under a device that is added between two calls of `find`. -/
theorem lruCache_invisible_pair : let ram : TargetInfo := ⟨0,"ram",0x1000,0x1000,1⟩
    let dev : TargetInfo := ⟨1,"dev",0x1800,0x100,0⟩
    let l : List (Call TargetInfo) := [.add ram,.find 0x1800 4,.find 0x10 4,.find 0x1000 4,.add dev,.find 0x1800 4]
    answers (fresh (LRUCache.new TargetInfo 2)) l = [some ram,none,some ram,some dev] ∧
      answers (fresh (LRUCache.new TargetInfo 2)) l = answers (fresh AddrMapNoCache.mk) l := by
  intro ram dev l
  exact ⟨by decide +kernel,(lruCache_invisible (by decide) l).1⟩

/-- With capacity 0 the first `find` asks for the last element of an empty list. -/
theorem lruCache_capacity_zero :
    let c := (after (fresh (LRUCache.new TargetInfo 0)) [(.find 0x1000 4 : Call TargetInfo)]).cache
    c.undefined = true ∧ c.list.length = 1 ∧ c.map.length = 1 := by
  decide +kernel

structure RegionEntry (T : Type) where
  start : U64
  endAddr : U64
  target : T

def RegionEntry.holds {T : Type} (e : RegionEntry T) (key : U64) : Bool := decide (key ≥ e.start) && decide (key < e.endAddr)

def regionCapacity : ℕ := 8

def entryOf {T : Type} [TargetInfoType T] (t : T) : RegionEntry T := ⟨address t,address t + size t,t⟩

@[simp] lemma entryOf_target {T : Type} [TargetInfoType T] (t : T) : (entryOf t).target = t := rfl

/-- A region at the back, in place of the first one where there is no room. -/
def putRegion {T : Type} [TargetInfoType T] (l : List (RegionEntry T)) (t : T) : List (RegionEntry T) :=
  (if l.length ≥ regionCapacity then l.drop 1 else l)++[entryOf t]

/-- `RegionFIFOCache`, the oldest entry first. -/
structure RegionFIFOCache (T : Type) where
  cache : List (RegionEntry T)
  hits : U64
  misses : U64

/-- `RegionLRUCache`, the most recent entry last. -/
structure RegionLRUCache (T : Type) where
  list : List (RegionEntry T)
  hits : U64
  misses : U64

namespace RegionFIFOCache
variable {T : Type}

variable (T) in
def new : RegionFIFOCache T := ⟨[],0,0⟩

def get (c : RegionFIFOCache T) (key : U64) : Option (Option T) × RegionFIFOCache T :=
  match c.cache.find? (·.holds key) with
  | some e => (some (some e.target),{ c with hits := c.hits+1 })
  | none => (none,{ c with misses := c.misses+1 })

def put [TargetInfoType T] (c : RegionFIFOCache T) (value : Option T) : RegionFIFOCache T := match value with
  | none => c
  | some t => { c with cache := putRegion c.cache t }

instance [TargetInfoType T] : AddrMapCacheBase (RegionFIFOCache T) T :=
  ⟨get,fun c _ value _ => c.put value,fun c => { c with cache := [] }⟩

end RegionFIFOCache

namespace RegionLRUCache
variable {T : Type}

variable (T) in
def new : RegionLRUCache T := ⟨[],0,0⟩

/-- The walk from the back; the entry found goes to the back. -/
def get (c : RegionLRUCache T) (key : U64) : Option (Option T) × RegionLRUCache T :=
  match c.list.reverse.span (fun e => !e.holds key) with
  | (later,e :: earlier) =>
    (some (some e.target),{ c with list := earlier.reverse++later.reverse++[e], hits := c.hits+1 })
  | (_,[]) => (none,{ c with misses := c.misses+1 })

def put [TargetInfoType T] (c : RegionLRUCache T) (value : Option T) : RegionLRUCache T := match value with
  | none => c
  | some t => { c with list := putRegion c.list t }

instance [TargetInfoType T] : AddrMapCacheBase (RegionLRUCache T) T :=
  ⟨get,fun c _ value _ => c.put value,fun c => { c with list := [] }⟩

end RegionLRUCache

section
variable {T : Type} [TargetInfoType T]

/-- Every entry is the whole range of a target that owns an address. -/
def Entered (r : Regions T) (l : List (RegionEntry T)) : Prop :=
  ∀ e ∈ l, e = entryOf e.target ∧ ∃ a, lookup r a = some e.target

/-- A target that owns an address owns its whole range. -/
def Whole (r : Regions T) : Prop :=
  ∀ t a b, lookup r a = some t → address t ≤ b → b < address t + size t → lookup r b = some t

variable {r : Regions T} {l : List (RegionEntry T)} {key a : U64} {t : T} {v : Option T} {ts : List T}

lemma Entered.lookup_eq (h : Entered r l) (hr : Whole r) {e : RegionEntry T} (he : e ∈ l)
    (hk : e.holds key = true) : lookup r key = some e.target := by
  obtain ⟨hen,a,ha⟩ := h e he
  rw [hen] at hk
  simp only [RegionEntry.holds,entryOf,Bool.and_eq_true] at hk
  exact hr e.target a key ha (of_decide_eq_true hk.1) (of_decide_eq_true hk.2)

lemma Entered.put (h : Entered r l) (ht : lookup r a = some t) : Entered r (putRegion l t) := by
  intro e he
  rcases mem_append.mp he with he | he
  · split_ifs at he
    · exact h e (mem_of_mem_drop he)
    · exact h e he
  · obtain rfl := mem_singleton.mp he
    exact ⟨rfl,a,ht⟩

/-- A hit holds the address, and no entry is new; a miss puts the range of the target found. -/
structure HoldsRegions {C : Type} [AddrMapCacheBase C T] (entries : C → List (RegionEntry T)) : Prop where
  hit : ∀ {c c' : C} {key : U64} {v : Option T}, AddrMapCacheBase.get c key = (some v,c') →
    ∃ e ∈ entries c, e.holds key = true ∧ v = some e.target ∧ ∀ x ∈ entries c', x ∈ entries c
  miss : ∀ {c c' : C} {key : U64}, AddrMapCacheBase.get (T := T) c key = (none,c') → entries c' = entries c
  put_none : ∀ (c : C) (key n : U64), entries (AddrMapCacheBase.put c key (none : Option T) n) = entries c
  put_some : ∀ (c : C) (key n : U64) (t : T), entries (AddrMapCacheBase.put c key (some t) n) = putRegion (entries c) t
  clear : ∀ c : C, entries (AddrMapCacheBase.clear T c) = []

lemma HoldsRegions.cache_transparent {C : Type} [AddrMapCacheBase C T] {entries : C → List (RegionEntry T)}
    (h : HoldsRegions entries) : Transparent (fun r c => Entered r (entries c)) Whole where
  clear := fun r r' c _ e he => by simp [h.clear] at he
  hit := by
    intro r c a v c' hen hr hg
    obtain ⟨e,he,hh,rfl,hs⟩ := h.hit hg
    exact ⟨(hen.lookup_eq hr he hh).symm,fun x hx => hen x (hs x hx)⟩
  miss := by
    intro r c a n c' hen hg
    rw [← h.miss hg] at hen
    cases hl : lookup r a with
    | none => rwa [h.put_none]
    | some t =>
      rw [h.put_some]
      exact hen.put hl

omit [TargetInfoType T] in
lemma RegionFIFOCache.get_hit {c c' : RegionFIFOCache T} (h : c.get key = (some v,c')) :
    ∃ e ∈ c.cache, e.holds key = true ∧ v = some e.target ∧ ∀ x ∈ c'.cache, x ∈ c.cache := by
  unfold get at h
  split at h
  · next e hf =>
    obtain ⟨hv,rfl⟩ := Prod.mk.inj h
    have hh : e.holds key = true := find?_some (p := fun x : RegionEntry T => x.holds key) hf
    exact ⟨e,mem_of_find?_eq_some hf,hh,(Option.some.inj hv).symm,fun x hx => hx⟩
  · simp at h

lemma RegionFIFOCache.holdsRegions : HoldsRegions (T := T) RegionFIFOCache.cache where
  hit := fun h => RegionFIFOCache.get_hit h
  miss := by
    intro c c' key h
    change c.get key = _ at h
    unfold RegionFIFOCache.get at h
    split at h
    · simp at h
    · obtain ⟨-,rfl⟩ := Prod.mk.inj h
      rfl
  put_none := fun _ _ _ => rfl
  put_some := fun _ _ _ _ => rfl
  clear := fun _ => rfl

omit [TargetInfoType T] in
lemma RegionLRUCache.get_hit {c c' : RegionLRUCache T} (h : c.get key = (some v,c')) :
    ∃ e ∈ c.list, e.holds key = true ∧ v = some e.target ∧ ∀ x ∈ c'.list, x ∈ c.list := by
  unfold get at h
  rw [span_eq_takeWhile_dropWhile] at h
  have hs := takeWhile_append_dropWhile (p := fun e : RegionEntry T => !e.holds key) (l := c.list.reverse)
  cases hd : c.list.reverse.dropWhile (fun e => !e.holds key) with
  | nil => simp [hd] at h
  | cons e earlier =>
    simp only [hd] at h hs
    obtain ⟨hv,rfl⟩ := Prod.mk.inj h
    have hm : ∀ x, x ∈ c.list ↔ x ∈ c.list.reverse.takeWhile (fun e => !e.holds key) ∨ x = e ∨ x ∈ earlier := by
      intro x
      rw [← mem_reverse,← hs,mem_append,mem_cons]
      simp [hs]
    have hh : e.holds key = true := by
      have hhe := head?_dropWhile_not (fun e : RegionEntry T => !e.holds key) c.list.reverse
      simpa [hd] using hhe
    refine ⟨e,(hm e).mpr (.inr (.inl rfl)),hh,(Option.some.inj hv).symm,fun x hx => (hm x).mpr ?_⟩
    simp only [mem_append,mem_reverse,mem_singleton] at hx
    tauto

lemma RegionLRUCache.holdsRegions : HoldsRegions (T := T) RegionLRUCache.list where
  hit := fun h => RegionLRUCache.get_hit h
  miss := by
    intro c c' key h
    change c.get key = _ at h
    unfold RegionLRUCache.get at h
    split at h
    · simp at h
    · obtain ⟨-,rfl⟩ := Prod.mk.inj h
      rfl
  put_none := fun _ _ _ => rfl
  put_some := fun _ _ _ _ => rfl
  clear := fun _ => rfl

/-- No other target added claims the address with a stronger priority, or with the same one later. -/
def Wins (ts : List T) (t : T) (a : U64) : Prop := PriorityChoice.Best priority (Claims · a) ts t

/-- A target that wins an address of its range wins all of them. -/
def Undivided (ts : List T) : Prop := ∀ t a b, Wins ts t a → Claims t b → Wins ts t b

lemma lookup_regionsOf_iff : lookup (regionsOf ts) a = some t ↔ Wins ts t a := by
  rw [lookup_regionsOf]
  exact PriorityChoice.choice_eq_some_iff priority (Claims · a) ts t

lemma whole_iff_undivided : Whole (regionsOf ts) ↔ Undivided ts := by
  simp only [Whole,Undivided,lookup_regionsOf_iff]
  constructor
  · intro h t a b ha hb
    exact h t a b ha hb.1.1 hb.1.2
  · intro h t a b ha hs he
    have hc : Claims t a := by
      obtain ⟨-,-,hc,-⟩ := ha
      exact hc
    exact h t a b ha ⟨⟨hs,he⟩,hc.2⟩

section
variable {C : Type} [AddrMapCacheBase C T] {cache : C}

lemma answers_append (m : AddressMap T C) (l l' : List (Call T)) :
    answers m (l++l') = answers m l++answers (after m l) l' := by
  induction l generalizing m with
  | nil => rfl
  | cons c l ih => cases c <;> simp [answers,ih,after,call]

lemma answers_adds (m : AddressMap T C) (ts : List T) : answers m (ts.map Call.add) = [] := by
  induction ts generalizing m with
  | nil => rfl
  | cons t ts ih => exact ih _

lemma after_adds (hc : AddrMapCacheBase.clear T cache = cache) (ts : List T) :
    after (fresh cache) (ts.map Call.add) = ⟨regionsOf ts,cache⟩ := by
  induction ts using reverseRecOn with
  | nil => rfl
  | append_singleton ts t ih =>
    have hl : after (fresh cache) ((ts++[t]).map Call.add) = (after (fresh cache) (ts.map Call.add)).add t := by
      simp [after,call]
    rw [hl,ih]
    simp [add,hc,regionsOf]

omit [TargetInfoType T] in
lemma filterMap_added_adds (ts : List T) : (ts.map Call.add).filterMap Call.added = ts := by
  induction ts with
  | nil => rfl
  | cons t ts ih => simp [Call.added,ih]

lemma answers_between (hc : AddrMapCacheBase.clear T cache = cache) (ts : List T) (l : List (Call T))
    (rest : List T) :
    answers (fresh cache) (ts.map Call.add++(l++rest.map Call.add)) = answers ⟨regionsOf ts,cache⟩ l := by
  rw [answers_append,answers_append,after_adds hc,answers_adds,answers_adds,nil_append,List.append_nil]

/-- A cache that answers a whole range from one address is invisible only over undivided targets. -/
lemma undivided_of_invisible (hc : AddrMapCacheBase.clear T cache = cache)
    (hh : ∀ (r : Regions T) t a b, lookup r a = some t → address t ≤ b → b < address t + size t →
      answers ⟨r,cache⟩ [.find a 0,.find b 0] = [some t,some t])
    {ts : List T} (h : ∀ l, l.filterMap Call.added = ts → answers (fresh cache) l = answers (fresh AddrMapNoCache.mk) l)
    {ts' : List T} (hts' : ts' <+: ts) : Undivided ts' := by
  obtain ⟨rest,rfl⟩ := hts'
  refine whole_iff_undivided.mp fun t a b ha hst he => ?_
  have had : (ts'.map Call.add++([Call.find a 0,Call.find b 0]++rest.map Call.add)).filterMap Call.added = ts'++rest := by
    rw [filterMap_append,filterMap_append,filterMap_added_adds,filterMap_added_adds]
    rfl
  have hs := h _ had
  rw [answers_between hc,answers_between rfl,hh _ t a b ha hst he] at hs
  have hp : answers (⟨regionsOf ts',AddrMapNoCache.mk⟩ : AddressMap T AddrMapNoCache) [.find a 0,.find b 0] =
      [lookup (regionsOf ts') a,lookup (regionsOf ts') b] := rfl
  rw [hp,ha] at hs
  simpa using hs.symm

lemma invisible_of_undivided {I : Regions T → C → Prop} (hc : Transparent I Whole)
    (hs : I OrderedMap.empty cache) {ts : List T} (h : ∀ ts', ts' <+: ts → Undivided ts') {l : List (Call T)}
    (hl : l.filterMap Call.added = ts) : answers (fresh cache) l = answers (fresh AddrMapNoCache.mk) l := by
  refine (hc.answers hs rfl fun l' hl' => ?_).1
  rw [after_fresh_regions]
  refine whole_iff_undivided.mpr (h _ ?_)
  rw [← hl]
  exact hl'.filterMap _

end

/-- With a region cache every `find` returns what it returns without, whatever calls come between the `add`s, exactly
when at each time a target that wins an address of its range wins all of it. -/
theorem regionCaches_invisible_iff (ts : List T) : ((∀ l, l.filterMap Call.added = ts →
        answers (fresh (RegionFIFOCache.new T)) l = answers (fresh AddrMapNoCache.mk) l) ↔
      ∀ ts', ts' <+: ts → Undivided ts') ∧ ((∀ l, l.filterMap Call.added = ts →
        answers (fresh (RegionLRUCache.new T)) l = answers (fresh AddrMapNoCache.mk) l) ↔
      ∀ ts', ts' <+: ts → Undivided ts') := by
  refine ⟨⟨fun h ts' => undivided_of_invisible rfl ?_ h,fun h l => invisible_of_undivided
      RegionFIFOCache.holdsRegions.cache_transparent (fun e he => absurd he not_mem_nil) h⟩,
    ⟨fun h ts' => undivided_of_invisible rfl ?_ h,fun h l => invisible_of_undivided
      RegionLRUCache.holdsRegions.cache_transparent (fun e he => absurd he not_mem_nil) h⟩⟩
  · intro r t a b ha hs hen
    have hh : (entryOf t).holds b = true := by simp [RegionEntry.holds,entryOf,hs,hen]
    simp [answers,find,AddrMapCacheBase.get,AddrMapCacheBase.put,RegionFIFOCache.get,RegionFIFOCache.put,
      RegionFIFOCache.new,putRegion,regionCapacity,ha,hh]
  · intro r t a b ha hs hen
    have hh : (entryOf t).holds b = true := by simp [RegionEntry.holds,entryOf,hs,hen]
    simp [answers,find,AddrMapCacheBase.get,AddrMapCacheBase.put,RegionLRUCache.get,RegionLRUCache.put,
      RegionLRUCache.new,putRegion,regionCapacity,ha,hh]

end

/-- Once looked up, the memory is also the answer for the stronger device inside it. -/
theorem regionCaches_return_memory : let ram : TargetInfo := ⟨0,"ram",0x1000,0x1000,1⟩
    let dev : TargetInfo := ⟨1,"dev",0x1800,0x100,0⟩
    let l : List (Call TargetInfo) := [.add ram,.add dev,.find 0x1000 4,.find 0x1800 4]
    answers (fresh (RegionFIFOCache.new TargetInfo)) l = [some ram,some ram] ∧
      answers (fresh (RegionLRUCache.new TargetInfo)) l = [some ram,some ram] ∧
      answers (fresh AddrMapNoCache.mk) l = [some ram,some dev] := by
  decide +kernel

end Qbox.AddressMap
