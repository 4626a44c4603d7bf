import Qbox.GsMemory
import Qbox.OptionSpec

/-! The memory as a flat array of bytes. Which region backs an address depends on the host
alone, so the bytes of the array are those of the region, from before it is backed. -/
namespace Qbox.GsMemory
open List BitVec Function

variable {p : Params} {host : Host} {len base addr n : ℕ}

lemma childIndex_eq_some {i : Fin 4} (h : childIndex p len base addr = some i) :
    len % 4 = 0 ∧ 0 < len/4 ∧ childBase len base i ≤ addr ∧ addr < childBase len base i+len/4 := by
  simp only [childIndex] at h
  split_ifs at h with hm hmo hz hlt
  cases h
  have hp : 0 < len/4 := by omega
  have hd := Nat.div_add_mod (addr-base) (len/4)
  have hr := Nat.mod_lt (addr-base) hp
  rw [Nat.mul_comm] at hd
  simp only [childBase]
  refine ⟨by omega,hp,by omega,by omega⟩

lemma childIndex_of_mem {i j : Fin 4} (h : childIndex p len base addr = some i) {a : ℕ}
    (ha : childBase len base j ≤ a) (ha' : a < childBase len base j+len/4) : childIndex p len base a = some j := by
  obtain ⟨hmo,hp,-,-⟩ := childIndex_eq_some h
  simp only [childBase] at ha ha'
  have hb : base ≤ a := by omega
  have hd : (a-base)/(len/4) = j := by
    rw [Nat.div_eq_iff hp]
    constructor
    · omega
    · have : (a-base) < (j+1)*(len/4) := by rw [Nat.add_mul]; omega
      omega
  simp only [childIndex] at h ⊢
  split_ifs at h with hm
  rw [if_neg hm,if_neg (by omega),if_neg (by omega)]
  simp [hd,j.isLt]

variable (len base) in
lemma childBase_within (i : Fin 4) : base ≤ childBase len base i ∧ childBase len base i+len/4 ≤ base+len := by
  have hi : (i : ℕ)+1 ≤ 4 := i.isLt
  have hm := Nat.mul_le_mul_right (len/4) hi
  rw [Nat.add_mul] at hm
  simp only [childBase]
  omega

lemma exists_child (hm : len % 4 = 0) (hp : 0 < len/4) {a : ℕ} (ha : base ≤ a) (ha' : a < base+len) :
    ∃ j : Fin 4, childBase len base j ≤ a ∧ a < childBase len base j+len/4 := by
  have hlt : (a-base)/(len/4) < 4 := by
    rw [Nat.div_lt_iff_lt_mul hp]
    omega
  have hd := Nat.div_add_mod (a-base) (len/4)
  have hr := Nat.mod_lt (a-base) hp
  rw [Nat.mul_comm] at hd
  refine ⟨⟨(a-base)/(len/4),hlt⟩,?_,?_⟩
  · simp only [childBase]
    omega
  · simp only [childBase]
    omega

def firstAnswer (p : Params) (host : Host) (r : Region) : Answer :=
  if p.maxBlockSize.toNat < r.len then .refused else ask p host r

/-- The region that is to back an address, with the bytes it starts with. -/
def place (p : Params) (host : Host) : ℕ → ℕ → ℕ → ℕ → Option (Region × Contents)
  | 0, _, _, _ => none
  | n+1, len, base, addr =>
    match firstAnswer p host ⟨base,len⟩ with
    | .backed c => some (⟨base,len⟩,c)
    | .refused =>
      match childIndex p len base addr with
      | none => none
      | some i => place p host n (len/4) (childBase len base i) addr
    | .fatal => none

def Backs (p : Params) (host : Host) : Prop := ∀ a < p.size.toNat, (place p host maxDepth p.size.toNat 0 a).isSome

namespace SubBlock
def find (p : Params) : SubBlock → ℕ → ℕ → ℕ → Option Region
  | .untouched, _, _, _ => none
  | .backed, len, base, _ => some ⟨base,len⟩
  | .split subs, len, base, addr =>
    match childIndex p len base addr with
    | none => none
    | some i => find p (subs i) (len/4) (childBase len base i) addr

/-- Blocks are backed and split as the host answers. -/
def Valid (p : Params) (host : Host) : ℕ → SubBlock → ℕ → ℕ → Prop
  | _, .untouched, _, _ => True
  | 0, .backed, _, _ | 0, .split _, _, _ => False
  | _+1, .backed, len, base => ∃ c, firstAnswer p host ⟨base,len⟩ = .backed c
  | n+1, .split subs, len, base =>
    firstAnswer p host ⟨base,len⟩ = .refused ∧ ∀ i, Valid p host n (subs i) (len/4) (childBase len base i)

/-- What an access does: it leads to the region of the address, which is backed from then on. -/
structure Accessed (p : Params) (host : Host) (n len base addr : ℕ) (b : SubBlock) (heap : Region → Contents)
    (r : Region) (b' : SubBlock) (heap' : Region → Contents) : Prop where
  has : r.Has addr
  within : base ≤ r.address ∧ r.address+r.len ≤ base+len
  valid : Valid p host n b' len base
  placed : ∃ c, (∀ a, r.Has a → place p host n len base a = some (r,c)) ∧
    (find p b len base addr = some r ∧ heap' = heap ∨
      (∀ a, r.Has a → find p b len base a = none) ∧ heap' = Function.update heap r c)
  find_eq : ∀ a, base ≤ a → a < base+len → find p b' len base a = if r.Has a then some r else find p b len base a

variable {subs : Fin 4 → SubBlock} {i : Fin 4} {heap heap' : Region → Contents} {r : Region} {b' b : SubBlock}

lemma find_split (h : childIndex p len base addr = some i) :
    find p (.split subs) len base addr = find p (subs i) (len/4) (childBase len base i) addr := by
  simp [find,h]

lemma find_split_untouched : find p (.split fun _ => .untouched) len base addr = none := by
  rw [find]
  cases childIndex p len base addr <;> rfl

lemma Accessed.split (han : firstAnswer p host ⟨base,len⟩ = .refused) (hi : childIndex p len base addr = some i)
    (hv : ∀ j, Valid p host n (subs j) (len/4) (childBase len base j))
    (h : Accessed p host n (len/4) (childBase len base i) addr (subs i) heap r b' heap') :
    Accessed p host (n+1) len base addr (.split subs) heap r (.split (Function.update subs i b')) heap' := by
  obtain ⟨hm,hp,hlo,hhi⟩ := childIndex_eq_some hi
  obtain ⟨hw,hw'⟩ := childBase_within len base i
  refine ⟨h.has,⟨by have := h.within.1; omega,by have := h.within.2; omega⟩,⟨han,fun j => ?_⟩,?_,fun a ha ha' => ?_⟩
  · by_cases hj : j = i
    · subst hj
      rw [update_self]
      exact h.valid
    · rw [update_of_ne hj]
      exact hv j
  · obtain ⟨c,hc,hh⟩ := h.placed
    have hs : ∀ a, r.Has a → childIndex p len base a = some i := fun a ha =>
      childIndex_of_mem hi (h.within.1.trans ha.1) (ha.2.trans_le h.within.2)
    refine ⟨c,fun a ha => ?_,?_⟩
    · rw [place,han]
      simp [hs a ha,hc a ha]
    · rw [find_split hi]
      refine hh.imp_right fun hn => ⟨fun a ha => ?_,hn.2⟩
      rw [find_split (hs a ha)]
      exact hn.1 a ha
  · -- The sub-block of `a` is the one accessed, or it is left as it was.
    obtain ⟨j,hj,hj'⟩ := exists_child hm hp ha ha'
    have haj := childIndex_of_mem hi hj hj'
    rw [find_split haj,find_split haj]
    by_cases hji : j = i
    · subst hji
      rw [update_self]
      exact h.find_eq a hj hj'
    · have hno : ¬ r.Has a := by
        rintro ⟨hr,hr'⟩
        have hai := childIndex_of_mem hi (h.within.1.trans hr) (hr'.trans_le h.within.2)
        exact hji (Option.some.inj (haj.symm.trans hai))
      rw [update_of_ne hji,if_neg hno]

lemma access_split_of_some (hi : childIndex p len base addr = some i)
    (heap : Region → Contents) : access p host (n+1) len base addr (.split subs) heap =
      (access p host n (len/4) (childBase len base i) addr (subs i) heap).map fun x =>
        (x.1,.split (Function.update subs i x.2.1),x.2.2) := by
  rw [access,hi]
  dsimp only
  cases access p host n (len/4) (childBase len base i) addr (subs i) heap <;> rfl

lemma access_untouched_backed {c : Contents} (h : firstAnswer p host ⟨base,len⟩ = .backed c)
    (heap : Region → Contents) : access p host (n+1) len base addr .untouched heap =
      some (⟨base,len⟩,.backed,Function.update heap ⟨base,len⟩ c) := by
  rw [firstAnswer] at h
  split_ifs at h with hm
  rw [access,if_neg hm,h]

lemma access_untouched_refused (h : firstAnswer p host ⟨base,len⟩ = .refused) (heap : Region → Contents) :
    access p host (n+1) len base addr .untouched heap =
      access p host (n+1) len base addr (.split fun _ => .untouched) heap := by
  rw [firstAnswer] at h
  conv_lhs => rw [access]
  conv_rhs => rw [access]
  split_ifs at h ⊢ with hm
  · rfl
  · rw [h]

lemma Accessed.of_split_untouched (h : Accessed p host n len base addr (.split fun _ => .untouched) heap r b' heap') :
    Accessed p host n len base addr .untouched heap r b' heap' := by
  have hn : ∀ a, find p .untouched len base a = find p (.split fun _ => .untouched) len base a :=
    fun _ => find_split_untouched.symm
  refine ⟨h.has,h.within,h.valid,?_,fun a ha ha' => ?_⟩
  · simp only [hn]
    exact h.placed
  · rw [hn]
    exact h.find_eq a ha ha'

lemma access_accessed (heap : Region → Contents) (hv : Valid p host n b len base) (hlo : base ≤ addr)
    (hhi : addr < base+len) : Gives (place p host n len base addr).isSome (access p host n len base addr b heap)
      fun x => Accessed p host n len base addr b heap x.1 x.2.1 x.2.2 := by
  induction n generalizing len base b with
  | zero => exact Bool.false_ne_true
  | succ n ih =>
    have hse : Region.Has ⟨base,len⟩ addr := ⟨hlo,hhi⟩
    have hs : ∀ {subs : Fin 4 → SubBlock}, Valid p host (n+1) (.split subs) len base →
        Gives (place p host (n+1) len base addr).isSome (access p host (n+1) len base addr (.split subs) heap)
          fun x => Accessed p host (n+1) len base addr (.split subs) heap x.1 x.2.1 x.2.2 := by
      rintro subs ⟨han,hsu⟩
      cases hi : childIndex p len base addr with
      | none =>
        simp only [access,place,han,hi]
        exact Bool.false_ne_true
      | some i =>
        obtain ⟨-,-,hlo',hhi'⟩ := childIndex_eq_some hi
        simp only [access_split_of_some hi,place,han,hi]
        exact (ih (hsu i) hlo' hhi').map fun x hx => .split han hi hsu hx
    cases b with
    | backed =>
      obtain ⟨c,hc⟩ := hv
      refine .pure ⟨hse,⟨le_rfl,le_rfl⟩,⟨c,hc⟩,⟨c,fun a _ => by rw [place,hc],.inl ⟨rfl,rfl⟩⟩,fun a ha ha' => ?_⟩
      rw [if_pos (show Region.Has ⟨base,len⟩ a from ⟨ha,ha'⟩),find]
    | split subs => exact hs hv
    | untouched =>
      cases han : firstAnswer p host ⟨base,len⟩ with
      | backed c =>
        rw [access_untouched_backed han]
        refine .pure ⟨hse,⟨le_rfl,le_rfl⟩,⟨c,han⟩,⟨c,fun a _ => by rw [place,han],.inr ⟨fun _ _ => rfl,rfl⟩⟩,
          fun a ha ha' => ?_⟩
        rw [if_pos (show Region.Has ⟨base,len⟩ a from ⟨ha,ha'⟩),find]
      | refused =>
        rw [access_untouched_refused han]
        exact (hs ⟨han,fun _ => by cases n <;> trivial⟩).mono id fun _ hx => .of_split_untouched hx
      | fatal =>
        have hn : place p host (n+1) len base addr = none := by rw [place,han]
        rw [firstAnswer] at han
        split_ifs at han with hm
        rw [access,if_neg hm,han,hn]
        exact Bool.false_ne_true

lemma find_region (hv : Valid p host n b len base) (hlo : base ≤ addr) (hhi : addr < base+len)
    (h : find p b len base addr = some r) :
    base ≤ r.address ∧ r.address+r.len ≤ base+len ∧ r.Has addr ∧ ∀ a, r.Has a → find p b len base a = some r := by
  induction n generalizing len base b with
  | zero =>
    cases b with
    | untouched => cases h
    | _ => exact hv.elim
  | succ n ih =>
    cases b with
    | untouched => cases h
    | backed =>
      obtain rfl : ⟨base,len⟩ = r := by simpa [find] using h
      exact ⟨le_rfl,le_rfl,⟨hlo,hhi⟩,fun a _ => rfl⟩
    | split subs =>
      cases hi : childIndex p len base addr with
      | none =>
        rw [find,hi] at h
        cases h
      | some i =>
        rw [find_split hi] at h
        obtain ⟨hm,hp,hlo',hhi'⟩ := childIndex_eq_some hi
        obtain ⟨hw,hw'⟩ := childBase_within len base i
        obtain ⟨hr,hr',hh,hal⟩ := ih (hv.2 i) hlo' hhi' h
        refine ⟨hw.trans hr,hr'.trans hw',hh,fun a ha => ?_⟩
        rw [find_split (childIndex_of_mem hi (hr.trans ha.1) (ha.2.trans_le hr'))]
        exact hal a ha

end SubBlock

namespace Memory
def find (p : Params) (m : Memory) (a : ℕ) : Option Region := m.root.find p p.size.toNat 0 a

def Valid (p : Params) (host : Host) (m : Memory) : Prop := m.root.Valid p host maxDepth p.size.toNat 0

/-- The byte at an address: that of the region that backs it, or the one it will start with. -/
def byteAt (p : Params) (host : Host) (m : Memory) (a : ℕ) : U8 := match m.find p a with
  | some r => m.heap r (a-r.address)
  | none => (place p host maxDepth p.size.toNat 0 a).elim 0 fun x => x.2 (a-x.1.address)

def flat (p : Params) (host : Host) (m : Memory) (a : ℕ) : U8 := if a < p.size.toNat then m.byteAt p host a else 0

def Extends (p : Params) (m m' : Memory) : Prop :=
  ∀ a r, a < p.size.toNat → m.find p a = some r → m'.find p a = some r

lemma Extends.trans {m1 m2 m3 : Memory} (h12 : Extends p m1 m2) (h23 : Extends p m2 m3) : Extends p m1 m3 :=
  fun a r ha h => h23 a r ha (h12 a r ha h)

lemma byteAt_of_find {m : Memory} {a : ℕ} {r : Region} (h : m.find p a = some r) :
    m.byteAt p host a = m.heap r (a-r.address) := by
  rw [byteAt,h]

lemma Valid.find_region {m : Memory} (hv : m.Valid p host) {a : ℕ} (ha : a < p.size.toNat) {r : Region}
    (h : m.find p a = some r) : r.address+r.len ≤ p.size.toNat ∧ r.Has a ∧ ∀ a', r.Has a' → m.find p a' = some r := by
  obtain ⟨-,hle,hh,hal⟩ := SubBlock.find_region hv (Nat.zero_le a) (by omega) h
  exact ⟨by omega,hh,hal⟩

/-- An access changes no byte, and backs the region of its address. -/
lemma access_spec {m : Memory} (hv : m.Valid p host) (had : addr < p.size.toNat) :
    Gives (Backs p host) (m.access p host addr) fun x =>
      x.2.Valid p host ∧ x.2.flat p host = m.flat p host ∧ Extends p m x.2 ∧ x.1.Has addr ∧
        x.1.address+x.1.len ≤ p.size.toNat ∧ ∀ a, x.1.Has a → x.2.find p a = some x.1 := by
  rw [access]
  refine (SubBlock.access_accessed m.heap hv (Nat.zero_le addr) (by omega)).elim
    (fun hno hb => hno (hb addr had)) fun ⟨r1,root,heap⟩ hac => .pure ?_
  dsimp only at hac
  have hle : r1.address+r1.len ≤ p.size.toNat := by
    have := hac.within.2
    omega
  have hfi : ∀ a, a < p.size.toNat → find p ⟨root,heap⟩ a = if r1.Has a then some r1 else m.find p a := fun a ha =>
    hac.find_eq a (Nat.zero_le a) (by omega)
  have hha : ∀ a, r1.Has a → find p ⟨root,heap⟩ a = some r1 := fun a ha => by
    rw [hfi a (ha.2.trans_le hle),if_pos ha]
  obtain ⟨c,hp,hhe⟩ := hac.placed
  have hs : ∀ a r0, m.find p a = some r0 → r1.Has a → r0 = r1 ∧ heap = m.heap := by
    intro a r0 h0 ha
    rcases hhe with ⟨hf,hh⟩ | ⟨hn,-⟩
    · have hr1 := (hv.find_region had hf).2.2 a ha
      exact ⟨Option.some.inj (h0.symm.trans hr1),hh⟩
    · cases (hn a ha).symm.trans h0
  refine ⟨hac.valid,?_,fun a r0 ha h0 => ?_,hac.has,hle,hha⟩
  · funext a
    by_cases ha : a < p.size.toNat
    · simp only [flat,if_pos ha]
      by_cases hr : r1.Has a
      · rw [byteAt_of_find (hha a hr)]
        cases h0 : m.find p a with
        | some r0 =>
          obtain ⟨rfl,rfl⟩ := hs a r0 h0 hr
          rw [byteAt_of_find h0]
        | none =>
          rcases hhe with ⟨hf,-⟩ | ⟨-,rfl⟩
          · cases h0.symm.trans ((hv.find_region had hf).2.2 a hr)
          · simp [byteAt,h0,hp a hr]
      · have h1 : find p ⟨root,heap⟩ a = m.find p a := by rw [hfi a ha,if_neg hr]
        cases h0 : m.find p a with
        | some r0 =>
          have hne : r0 ≠ r1 := fun heq => hr (heq ▸ (hv.find_region ha h0).2.1)
          rw [byteAt_of_find (h1.trans h0),byteAt_of_find h0]
          rcases hhe with ⟨-,rfl⟩ | ⟨-,rfl⟩
          · rfl
          · simp [update_of_ne hne]
        | none => simp only [byteAt,h1,h0]
    · simp [flat,if_neg ha]
  · rw [hfi a ha]
    split_ifs with hr
    · rw [(hs a r0 h0 hr).1]
    · exact h0

end Memory

variable (enabled : ℕ → Bool) (f : ℕ → U8) (offset : ℕ)

/-- The array with enabled bytes of the data written over it. -/
def overwrite (data : List U8) (a : ℕ) : U8 :=
  if offset ≤ a ∧ enabled (a-offset) then data[a-offset]?.getD (f a) else f a

@[simp] lemma overwrite_nil : overwrite enabled f offset [] = f := by
  funext a
  simp [overwrite]

lemma overwrite_append (xs ys : List U8) :
    overwrite (fun i => enabled (i+xs.length)) (overwrite enabled f offset xs) (offset+xs.length) ys =
      overwrite enabled f offset (xs++ys) := by
  funext a
  simp only [overwrite,getElem?_append]
  by_cases hx : a < offset+xs.length
  · rw [if_neg (by omega)]
    by_cases ho : offset ≤ a
    · rw [if_pos (show a-offset < xs.length by omega)]
    · rw [if_neg (by omega),if_neg (by omega)]
  · have hle : offset ≤ a := by omega
    have hle' : offset+xs.length ≤ a := by omega
    have hno : ¬ a-offset < xs.length := by omega
    have hn : xs[a-offset]? = none := List.getElem?_eq_none (by omega)
    have hi : a-(offset+xs.length) = a-offset-xs.length := by omega
    have hi' : a-offset-xs.length+xs.length = a-offset := by omega
    simp [hle,hle',hno,hn,hi,hi']

lemma piece_le (r : Region) (offset len : ℕ) : r.piece offset len ≤ len := min_le_left _ _

lemma piece_pos {r : Region} {offset : ℕ} (h : r.Has offset) (len : ℕ) : 0 < r.piece offset (len+1) := by
  obtain ⟨h1,h2⟩ := h
  simp only [Region.piece]
  omega

lemma has_piece {r : Region} {offset i len : ℕ} (h : r.Has offset) (hi : i < r.piece offset len) :
    r.Has (offset+i) := by
  obtain ⟨h1,h2⟩ := h
  simp only [Region.piece] at hi
  exact ⟨by omega,by omega⟩

namespace Memory
lemma flat_of_find {m : Memory} {a : ℕ} (ha : a < p.size.toNat) {r : Region} (h : m.find p a = some r) :
    m.flat p host a = m.heap r (a-r.address) := by
  rw [flat,if_pos ha,byteAt_of_find h]

variable {m : Memory} {r : Region} {offset : ℕ}

lemma readSubBlocks_eq (hle : r.address+r.len ≤ p.size.toNat) (hf : ∀ a, r.Has a → m.find p a = some r)
    (ho : r.Has offset) :
    m.readSubBlocks r offset len = (List.range (r.piece offset len)).map fun i => m.flat p host (offset+i) := by
  rw [readSubBlocks]
  refine map_congr_left fun i hi => ?_
  have hh := has_piece ho (mem_range.mp hi)
  have hlo := ho.1
  rw [flat_of_find (hh.2.trans_le hle) (hf _ hh)]
  congr 1
  omega

lemma find_writeSubBlocks (data : List U8) (a : ℕ) : (m.writeSubBlocks r offset data).find p a = m.find p a := rfl

lemma flat_writeSubBlocks (hv : m.Valid p host) (hle : r.address+r.len ≤ p.size.toNat)
    (hf : ∀ a, r.Has a → m.find p a = some r) (ho : r.Has offset) (data : List U8) :
    (m.writeSubBlocks r offset data).flat p host =
      overwrite (fun _ => true) (m.flat p host) offset (data.take (r.piece offset data.length)) := by
  funext a
  simp only [overwrite,and_true,getElem?_take]
  have hp := piece_le r offset data.length
  have hlo := ho.1
  by_cases ha : r.Has a
  · have hlo' := ha.1
    rw [flat_of_find (ha.2.trans_le hle) (hf a ha),
      flat_of_find (m := m.writeSubBlocks r offset data) (ha.2.trans_le hle) (hf a ha)]
    simp only [writeSubBlocks,update_self]
    by_cases hin : offset ≤ a ∧ a < offset+r.piece offset data.length
    · rw [if_pos (by omega),if_pos hin.1,if_pos (by omega),show a-r.address-(offset-r.address) = a-offset by omega,
        getD_eq_getElem?_getD,List.getElem?_eq_getElem (by omega)]
      rfl
    · rw [if_neg (by omega)]
      split_ifs
      · omega
      · rfl
      · rfl
  · -- Another region, or none, holds the byte.
    have hou : ¬ (offset ≤ a ∧ a-offset < r.piece offset data.length) := fun h =>
      ha (by simpa [Nat.add_sub_cancel' h.1] using has_piece ho h.2)
    have hfl : (m.writeSubBlocks r offset data).flat p host a = m.flat p host a := by
      by_cases hs : a < p.size.toNat
      · cases h0 : m.find p a with
        | some r0 =>
          have hne : r0 ≠ r := fun heq => ha (heq ▸ (hv.find_region hs h0).2.1)
          rw [flat_of_find hs h0,flat_of_find (m := m.writeSubBlocks r offset data) hs h0]
          simp [writeSubBlocks,update_of_ne hne]
        | none => simp only [flat,byteAt,find_writeSubBlocks,h0]
      · simp [flat,if_neg hs]
    rw [hfl]
    split_ifs
    · omega
    · rfl
    · rfl

end Memory

open Memory

/-- What a step of the memory leaves: the tree stays as the host has it, and what is backed stays. -/
structure Kept (p : Params) (host : Host) (m m' : Memory) : Prop where
  valid : m'.Valid p host
  extend : Extends p m m'

variable {m m' : Memory} {data : List U8}

lemma Kept.refl (h : m.Valid p host) : Kept p host m m := ⟨h,fun _ _ _ h => h⟩

lemma Kept.trans {m1 m2 m3 : Memory} (h12 : Kept p host m1 m2) (h23 : Kept p host m2 m3) : Kept p host m1 m3 :=
  ⟨h23.valid,h12.extend.trans h23.extend⟩

lemma readLoop_spec {offset : ℕ} (hv : m.Valid p host) (hn : len ≤ n) (hs : offset+len ≤ p.size.toNat) :
    Gives (Backs p host) (readLoop p host n offset len m) fun x =>
      x.1 = (List.range len).map (fun i => m.flat p host (offset+i)) ∧ x.2.flat p host = m.flat p host ∧
        Kept p host m x.2 := by
  induction n generalizing offset len m with
  | zero =>
    obtain rfl : len = 0 := by omega
    exact .pure ⟨rfl,rfl,.refl hv⟩
  | succ n ih =>
    cases len with
    | zero => exact .pure ⟨rfl,rfl,.refl hv⟩
    | succ len =>
      rw [readLoop]
      refine (access_spec hv (by omega)).elim id fun ⟨r,m1⟩ ⟨hv1,hf,he,hh,hle,hfi⟩ => ?_
      have hp := piece_le r offset (len+1)
      have hpo : 0 < r.piece offset (len+1) := piece_pos hh len
      simp only [if_pos hh]
      refine (ih hv1 (by omega) (by omega)).elim id fun ⟨rest,m2⟩ ⟨hre,hf2,hk⟩ => ?_
      refine .pure ⟨?_,hf2.trans hf,.trans ⟨hv1,he⟩ hk⟩
      have hr : List.range (len+1) = List.range (r.piece offset (len+1)) ++
          (List.range (len+1-r.piece offset (len+1))).map (r.piece offset (len+1)+·) := by
        rw [← range_add,Nat.add_sub_cancel' hp]
      obtain rfl : rest = _ := hre
      rw [readSubBlocks_eq hle hfi hh,hf,hr,map_append,List.map_map]
      dsimp only
      congr 2
      funext i
      simp only [comp_apply,Nat.add_assoc]

lemma writeLoop_spec {offset : ℕ} (hv : m.Valid p host) (hn : data.length ≤ n)
    (hs : offset+data.length ≤ p.size.toNat) : Gives (Backs p host) (writeLoop p host n offset data m) fun m' =>
      m'.flat p host = overwrite (fun _ => true) (m.flat p host) offset data ∧ Kept p host m m' := by
  induction n generalizing offset data m with
  | zero =>
    obtain rfl := length_eq_zero_iff.mp (Nat.le_zero.mp hn)
    exact .pure ⟨(overwrite_nil _ _ _).symm,.refl hv⟩
  | succ n ih =>
    cases data with
    | nil => exact .pure ⟨(overwrite_nil _ _ _).symm,.refl hv⟩
    | cons d data =>
      have hpo : 0 < (d :: data).length := Nat.succ_pos _
      rw [writeLoop]
      refine (access_spec hv (by omega)).elim id fun ⟨r,m1⟩ ⟨hv1,hfl,he,hh,hle,hf⟩ => ?_
      have hp := piece_le r offset (d :: data).length
      have hpo : 0 < r.piece offset (d :: data).length := piece_pos hh data.length
      simp only [if_pos hh]
      have hw := flat_writeSubBlocks hv1 hle hf hh (d :: data)
      refine (ih (m := m1.writeSubBlocks r offset (d :: data)) hv1 (by rw [length_drop]; omega)
        (by rw [length_drop]; omega)).mono id fun m2 ⟨hf2,hk⟩ => ?_
      refine ⟨?_,.trans ⟨hv1,he⟩ ⟨hk.valid,hk.extend⟩⟩
      have hl : ((d :: data).take (r.piece offset (d :: data).length)).length = r.piece offset (d :: data).length := by
        rw [length_take,Nat.min_eq_left hp]
      have ha := overwrite_append (fun _ => true) (m.flat p host) offset
        ((d :: data).take (r.piece offset (d :: data).length)) ((d :: data).drop (r.piece offset (d :: data).length))
      rw [hl,take_append_drop] at ha
      rw [hf2,hw,hfl,ha]

lemma toNat_add_ofNat {x : U64} {k : ℕ} (h : x.toNat+k < 2^64) : (x+BitVec.ofNat 64 k).toNat = x.toNat+k := by
  rw [toNat_add,toNat_ofNat]
  omega

lemma not_size_lt {offset : U64} (h : offset.toNat+len ≤ p.size.toNat) : ¬ p.size < offset+BitVec.ofNat 64 len := by
  rw [lt_def,toNat_add_ofNat (by omega)]
  omega

section
variable {m : Memory} {offset : U64}

lemma read_spec (hv : m.Valid p host) (hs : offset.toNat+len ≤ p.size.toNat) :
    Gives (Backs p host) (read p host offset len m) fun x =>
      x.1 = (List.range len).map (fun i => m.flat p host (offset.toNat+i)) ∧ x.2.flat p host = m.flat p host ∧
        Kept p host m x.2 := by
  rw [read,if_neg (not_size_lt hs)]
  exact readLoop_spec hv le_rfl hs

variable {data : List U8}

lemma write_spec (hv : m.Valid p host) (hs : offset.toNat+data.length ≤ p.size.toNat) :
    Gives (Backs p host) (write p host offset data m) fun m' =>
      m'.flat p host = overwrite (fun _ => true) (m.flat p host) offset.toNat data ∧ Kept p host m m' := by
  rw [write,if_neg (not_size_lt hs)]
  exact writeLoop_spec hv le_rfl hs

variable {be : ByteEnable} {i : ℕ}

lemma readByte_spec (d : U8) (hv : m.Valid p host) (hs : offset.toNat+i < p.size.toNat) :
    Gives (Backs p host) (if be.enables i then read p host (offset+BitVec.ofNat 64 i) 1 m else some ([d],m)) fun x =>
      x.1 = [if be.enables i then m.flat p host (offset.toNat+i) else d] ∧ x.2.flat p host = m.flat p host ∧
        Kept p host m x.2 := by
  have hlt := p.size.isLt
  have ha : (offset+BitVec.ofNat 64 i).toNat = offset.toNat+i := toNat_add_ofNat (by omega)
  split_ifs
  · refine (read_spec hv (by omega)).mono id fun x hx => ?_
    simpa [ha,range_succ] using hx
  · exact .pure ⟨rfl,rfl,.refl hv⟩

section
variable (hv : m.Valid p host) (hs : offset.toNat+i+data.length ≤ p.size.toNat)
include hv hs

lemma readEnabled_spec :
    Gives (Backs p host) (readEnabled p host be offset i data m) fun x =>
      x.1 = data.mapIdx (fun j d => if be.enables (i+j) then m.flat p host (offset.toNat+i+j) else d) ∧
        x.2.flat p host = m.flat p host ∧ Kept p host m x.2 := by
  induction data generalizing i m with
  | nil => exact .pure ⟨rfl,rfl,.refl hv⟩
  | cons d data ih =>
    rw [length_cons] at hs
    rw [readEnabled]
    refine (readByte_spec d hv (by omega)).elim id fun ⟨b,m1⟩ ⟨hb,hf1,hk1⟩ => ?_
    dsimp only at hb hf1 ⊢
    refine (ih hk1.valid (by omega)).elim id fun ⟨rest,m2⟩ ⟨hr,hf2,hk2⟩ => ?_
    refine .pure ⟨?_,hf2.trans hf1,hk1.trans hk2⟩
    dsimp only at hr
    simp only [hb,hr,singleton_append,mapIdx_cons,Nat.add_zero,hf1,Nat.add_assoc,Nat.add_comm 1]

omit hv hs in
lemma writeByte_spec (d : U8) (hv : m.Valid p host) (hs : offset.toNat+i < p.size.toNat) :
    Gives (Backs p host) (if be.enables i then write p host (offset+BitVec.ofNat 64 i) [d] m else some m) fun m' =>
      m'.flat p host = overwrite (fun j => be.enables (i+j)) (m.flat p host) (offset.toNat+i) [d] ∧
        Kept p host m m' := by
  have hlt := p.size.isLt
  have had : (offset+BitVec.ofNat 64 i).toNat = offset.toNat+i := toNat_add_ofNat (by omega)
  have hb : ∀ (en : ℕ → Bool) (f : ℕ → U8), overwrite en f (offset.toNat+i) [d] =
      if en 0 then overwrite (fun _ => true) f (offset.toNat+i) [d] else f := by
    intro en f
    funext a
    by_cases ha : a = offset.toNat+i
    · subst ha
      by_cases hen : en 0 <;> simp [overwrite,hen]
    · by_cases hle : offset.toNat+i ≤ a
      · have hn : [d][a-(offset.toNat+i)]? = none := List.getElem?_eq_none (by simp only [length_singleton]; omega)
        by_cases hen : en 0 <;> simp [overwrite,hn,hen]
      · by_cases hen : en 0 <;> simp [overwrite,hle,hen]
  rw [hb,Nat.add_zero]
  split_ifs
  · rw [← had]
    exact write_spec hv (by simp only [length_singleton]; omega)
  · exact .pure ⟨rfl,.refl hv⟩

lemma writeEnabled_spec :
    Gives (Backs p host) (writeEnabled p host be offset i data m) fun m' =>
      m'.flat p host = overwrite (fun j => be.enables (i+j)) (m.flat p host) (offset.toNat+i) data ∧
        Kept p host m m' := by
  induction data generalizing i m with
  | nil => exact .pure ⟨(overwrite_nil _ _ _).symm,.refl hv⟩
  | cons d data ih =>
    rw [length_cons] at hs
    rw [writeEnabled]
    refine (writeByte_spec d hv (by omega)).elim id fun m1 ⟨hf1,hk1⟩ => ?_
    refine (ih hk1.valid (by omega)).mono id fun m2 ⟨hf2,hk2⟩ => ⟨?_,hk1.trans hk2⟩
    have ha := overwrite_append (fun j => be.enables (i+j)) (m.flat p host) (offset.toNat+i) [d] data
    simp only [length_singleton,singleton_append] at ha
    rw [hf2,hf1,← ha]
    simp only [Nat.add_assoc,Nat.add_comm 1]

end

end

def flatTransport (p : Params) (txn : Txn) (f : ℕ → U8) : Option (Reply × (ℕ → U8)) :=
  if txn.streamingWidth.toNat < txn.data.length then none
  else match p.offset txn.address with
    | none => some (⟨.addressError,txn.data,false⟩,f)
    | some off =>
      if p.size.toNat < off.toNat+txn.data.length then some (⟨.addressError,txn.data,false⟩,f)
      else match txn.command with
        | .read => some (⟨.ok,txn.data.mapIdx fun i d => if byteEnabled txn.byteEnable i then f (off.toNat+i) else d,p.dmi⟩,f)
        | .write =>
          if p.rom then some (⟨.commandError,txn.data,false⟩,f)
          else some (⟨.ok,txn.data,p.dmi⟩,overwrite (byteEnabled txn.byteEnable) f off.toNat txn.data)
        | .ignore => none

def Txn.NoWrap (p : Params) (txn : Txn) : Prop :=
  ∀ off, p.offset txn.address = some off → off.toNat+txn.data.length < 2^64

instance (p : Params) (txn : Txn) : Decidable (txn.NoWrap p) :=
  decidable_of_iff ((p.offset txn.address).all (fun off => off.toNat+txn.data.length < 2^64) = true) (by
    rw [Txn.NoWrap]
    cases p.offset txn.address <;> simp)

section
variable {m : Memory} {off : U64} {be : Option ByteEnable} {data : List U8}

section
variable (hv : m.Valid p host) (hs : off.toNat+data.length ≤ p.size.toNat)
include hv hs

lemma transportRead_spec :
    Gives (Backs p host) (be.elim (read p host off data.length m) fun be => readEnabled p host be off 0 data m) fun x =>
      x.1 = data.mapIdx (fun i d => if byteEnabled be i then m.flat p host (off.toNat+i) else d) ∧
        x.2.flat p host = m.flat p host ∧ Kept p host m x.2 := by
  cases be with
  | none =>
    refine (read_spec hv hs).mono id fun x hx => ⟨hx.1.trans ?_,hx.2⟩
    refine ext_getElem (by simp) fun i h1 h2 => ?_
    simp [byteEnabled]
  | some be =>
    refine (readEnabled_spec hv hs).mono id fun x hx => ?_
    simp only [Nat.zero_add,Nat.add_zero] at hx
    exact hx

lemma transportWrite_spec :
    Gives (Backs p host) (be.elim (write p host off data m) fun be => writeEnabled p host be off 0 data m) fun m' =>
      m'.flat p host = overwrite (byteEnabled be) (m.flat p host) off.toNat data ∧ Kept p host m m' := by
  cases be with
  | none => exact write_spec hv hs
  | some be =>
    refine (writeEnabled_spec hv hs).mono id fun x hx => ?_
    simp only [Nat.zero_add,Nat.add_zero] at hx
    exact hx

end

end

lemma size_lt_iff {txn : Txn} (hw : txn.NoWrap p) {off : U64} (ho : p.offset txn.address = some off) :
    p.size < off+BitVec.ofNat 64 txn.data.length ↔ p.size.toNat < off.toNat+txn.data.length := by
  rw [lt_def,toNat_add_ofNat (hw off ho)]

def Txn.Supported (txn : Txn) : Prop := txn.data.length ≤ txn.streamingWidth.toNat ∧ txn.command ≠ .ignore

lemma bTransport_spec {txn : Txn} (hv : m.Valid p host) (hwr : txn.NoWrap p) :
    Gives (Backs p host ∧ txn.Supported) (bTransport p host txn m) fun x =>
      flatTransport p txn (m.flat p host) = some (x.1,x.2.flat p host) ∧ Kept p host m x.2 := by
  rw [bTransport]
  by_cases hw : txn.streamingWidth.toNat < txn.data.length
  · rw [if_pos hw]
    exact fun h => absurd hw (not_lt.mpr h.2.1)
  · simp only [flatTransport,if_neg hw]
    cases ho : p.offset txn.address with
    | none => exact .pure ⟨rfl,.refl hv⟩
    | some off =>
      simp only [size_lt_iff hwr ho]
      by_cases hs : p.size.toNat < off.toNat+txn.data.length
      · simp only [if_pos hs]
        exact .pure ⟨rfl,.refl hv⟩
      · simp only [if_neg hs]
        rw [not_lt] at hs
        cases hc : txn.command with
        | ignore => exact fun h => h.2.2 hc
        | read =>
          refine (transportRead_spec hv hs).elim (fun hn h => hn h.1) ?_
          rintro ⟨bytes,m1⟩ ⟨hb,hf,hk⟩
          obtain rfl : bytes = _ := hb
          exact .pure ⟨by simp only [hf],hk⟩
        | write =>
          by_cases hr : p.rom = true
          · simp only [hr,if_true]
            exact .pure ⟨rfl,.refl hv⟩
          · simp only [hr,Bool.false_eq_true,if_false]
            refine (transportWrite_spec hv hs).elim (fun hn h => hn h.1) ?_
            rintro m1 ⟨hf,hk⟩
            exact .pure ⟨by rw [hf],hk⟩

end Qbox.GsMemory
