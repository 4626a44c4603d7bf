import Qbox.Tlm

/-! The address translator `addrtr`: a window at `base` onto the addresses from `mappedBase` on. Grants and
invalidations of the downstream side are clipped to the window and moved into it. -/
namespace Qbox
open Option
open BitVec hiding not_or

structure Addrtr where
  base : U64
  mappedBase : U64
  size : U64

namespace Addrtr
/-- `range_end`: the last address of a range, unless it is empty or passes the end of the address space. -/
def rangeEnd (start size : U64) : Option U64 := if size = 0 ∨ -1-(size-1) < start then none else some (start+size-1)

lemma rangeEnd_eq_some {start size stop : U64} : rangeEnd start size = some stop ↔
    0 < size.toNat ∧ start.toNat+size.toNat ≤ 2^64 ∧ stop.toNat+1 = start.toNat+size.toNat := by
  have ho : (1 : U64).toNat = 1 := rfl
  by_cases hz : size = 0
  · simp [rangeEnd,hz]
  · have hp := Nat.pos_of_ne_zero fun h => hz (eq_of_toNat_eq h)
    have hl : (-1-(size-1) : U64).toNat = 2^64-size.toNat := by
      have hn : (-1-(size-1) : U64) = -size := by ring
      rw [hn,toNat_neg]
      omega
    have hsu : (size-1).toNat = size.toNat-1 := by
      rw [toNat_sub_of_le (le_def.mpr (by omega)),ho]
    have he : (start+size-1).toNat = (start.toNat+size.toNat-1) % 2^64 := by
      rw [add_sub_assoc,toNat_add,hsu,Nat.add_sub_assoc hp]
    rw [rangeEnd]
    simp only [hz,false_or,lt_def,hl]
    split_ifs with h
    · simp only [false_iff]
      omega
    · have hs := stop.isLt
      rw [Option.some.injEq,← toNat_inj,he]
      omega

lemma exists_rangeEnd {start size : U64} (hp : 0 < size.toNat) (hle : start.toNat+size.toNat ≤ 2^64) :
    ∃ stop, rangeEnd start size = some stop := by
  refine ⟨BitVec.ofNat 64 (start.toNat+size.toNat-1),rangeEnd_eq_some.mpr ⟨hp,hle,?_⟩⟩
  rw [toNat_ofNat]
  omega

lemma toNat_move {a b c : U64} (hle : b.toNat ≤ c.toNat) (hlt : a.toNat+(c.toNat-b.toNat) < 2^64) :
    (a+(c-b)).toNat = a.toNat+(c.toNat-b.toNat) := by
  rw [toNat_add,toNat_sub_of_le (le_def.mpr hle)]
  exact Nat.mod_eq_of_lt hlt

section
variable (t : Addrtr)

/-- `map_window`; a null pointer stays one. -/
def mapWindow (d : TlmDmi) : Option TlmDmi := do
  let mappedEnd ← rangeEnd t.mappedBase t.size
  let _ ← rangeEnd t.base t.size
  if d.endAddr < d.start ∨ d.endAddr < t.mappedBase ∨ mappedEnd < d.start then none
  else
    let clippedStart := max d.start t.mappedBase
    let clippedEnd := min d.endAddr mappedEnd
    some { d with
      start := t.base+(clippedStart-t.mappedBase)
      endAddr := t.base+(clippedEnd-t.mappedBase)
      ptr := if d.ptr = 0 then 0 else d.ptr+(clippedStart-d.start) }

def addrFw (addr : U64) : U64 := t.mappedBase+(addr-t.base)

/-- `map_txn_addr`; nothing for a transaction that ends the simulation. -/
def mapTxnAddr (addr len : U64) : Option U64 := do
  let targetEnd ← rangeEnd t.base t.size
  let _ ← rangeEnd t.mappedBase t.size
  let txnEnd ← (if len = 0 then some addr else rangeEnd addr len)
  if t.base ≤ addr ∧ txnEnd ≤ targetEnd then some (t.addrFw addr) else none

/-- `get_direct_mem_ptr`, with the answer of the downstream side to a request. -/
def getDirectMemPtr (down : U64 → Option TlmDmi) (addr len : U64) : Option (Option TlmDmi) := do
  let mapped ← t.mapTxnAddr addr len
  match down mapped with
  | none => some none
  | some d => if mapped < d.start ∨ d.endAddr < mapped then some none else some (t.mapWindow d)

/-- `invalidate_direct_mem_ptr`: the range passed on, if there is one. -/
def invalidateDirectMemPtr (start stop : U64) : Option (U64 × U64) :=
  (t.mapWindow ⟨start,stop,0,.none⟩).map fun d => (d.start,d.endAddr)

/-- The addresses of the window, and those it leads to, are below 2^64. -/
def Fits : Prop := t.base.toNat+t.size.toNat ≤ 2^64 ∧ t.mappedBase.toNat+t.size.toNat ≤ 2^64

def InWindow (x : U64) : Prop := t.Fits ∧ t.base.toNat ≤ x.toNat ∧ x.toNat < t.base.toNat+t.size.toNat

variable {t}

lemma InWindow.toNat_addrFw {x : U64} (h : t.InWindow x) :
    (t.addrFw x).toNat = t.mappedBase.toNat+(x.toNat-t.base.toNat) := by
  obtain ⟨⟨-,hm⟩,hlo,hhi⟩ := h
  exact toNat_move hlo (by omega)

lemma mapWindow_eq_some {d g : TlmDmi} : t.mapWindow d = some g ↔ ∃ mappedEnd targetEnd,
    rangeEnd t.mappedBase t.size = some mappedEnd ∧ rangeEnd t.base t.size = some targetEnd ∧
    (d.start ≤ d.endAddr ∧ t.mappedBase ≤ d.endAddr ∧ d.start ≤ mappedEnd) ∧ { d with
      start := t.base+(max d.start t.mappedBase-t.mappedBase)
      endAddr := t.base+(min d.endAddr mappedEnd-t.mappedBase)
      ptr := if d.ptr = 0 then 0 else d.ptr+(max d.start t.mappedBase-d.start) } = g := by
  simp [mapWindow,bind_eq_some_iff,not_or]

/-- The window mapped onto a range, in natural numbers. -/
lemma mapWindow_spec {d g : TlmDmi} (h : t.mapWindow d = some g) : t.Fits ∧ 0 < t.size.toNat ∧
    d.start.toNat ≤ d.endAddr.toNat ∧ t.mappedBase.toNat ≤ d.endAddr.toNat ∧
    d.start.toNat < t.mappedBase.toNat+t.size.toNat ∧
    g.start.toNat = t.base.toNat+(max d.start.toNat t.mappedBase.toNat-t.mappedBase.toNat) ∧
    g.endAddr.toNat+1 = t.base.toNat+(min (d.endAddr.toNat+1) (t.mappedBase.toNat+t.size.toNat)-t.mappedBase.toNat) := by
  obtain ⟨mappedEnd,targetEnd,hm,ht,⟨h1,h2,h3⟩,rfl⟩ := mapWindow_eq_some.mp h
  obtain ⟨hp,hma,hme⟩ := rangeEnd_eq_some.mp hm
  obtain ⟨-,hb,hte⟩ := rangeEnd_eq_some.mp ht
  have hmo : Monotone (BitVec.toNat : U64 → ℕ) := fun _ _ h => le_def.mp h
  have hmx : (max d.start t.mappedBase).toNat = max d.start.toNat t.mappedBase.toNat := hmo.map_max
  have hmi : (min d.endAddr mappedEnd).toNat = min d.endAddr.toNat mappedEnd.toNat := hmo.map_min
  rw [le_def] at h1 h2 h3
  refine ⟨⟨hb,hma⟩,hp,h1,h2,by omega,?_,?_⟩
  · rw [toNat_move (by omega) (by omega),hmx]
  · rw [toNat_move (by omega) (by omega),hmi]
    omega

lemma mapWindow_holds {d : TlmDmi} {x : U64} :
    (∃ g, t.mapWindow d = some g ∧ g.Holds x) ↔ t.InWindow x ∧ d.Holds (t.addrFw x) := by
  constructor
  · rintro ⟨g,hg,hlo,hhi⟩
    obtain ⟨hf,-,h1,h2,h3,hs,he⟩ := mapWindow_spec hg
    rw [le_def] at hlo hhi
    have hin : t.InWindow x := ⟨hf,by omega,by omega⟩
    refine ⟨hin,?_,?_⟩
    · rw [le_def,hin.toNat_addrFw]
      omega
    · rw [le_def,hin.toNat_addrFw]
      omega
  · rintro ⟨hin,hlo,hhi⟩
    obtain ⟨⟨hb,hma⟩,hx,hx'⟩ := id hin
    rw [le_def,hin.toNat_addrFw] at hlo hhi
    obtain ⟨mappedEnd,hm⟩ := exists_rangeEnd (by omega : 0 < t.size.toNat) hma
    obtain ⟨targetEnd,ht⟩ := exists_rangeEnd (by omega : 0 < t.size.toNat) hb
    obtain ⟨-,-,he⟩ := rangeEnd_eq_some.mp hm
    have hme : d.start ≤ d.endAddr ∧ t.mappedBase ≤ d.endAddr ∧ d.start ≤ mappedEnd := by
      simp only [le_def]
      omega
    have hg := (mapWindow_eq_some).mpr ⟨mappedEnd,targetEnd,hm,ht,hme,rfl⟩
    obtain ⟨-,-,-,-,-,hs,hst⟩ := mapWindow_spec hg
    refine ⟨_,hg,?_,?_⟩
    · rw [le_def]
      omega
    · rw [le_def]
      omega

lemma mapWindow_start {d g : TlmDmi} (h : t.mapWindow d = some g) : g.Holds g.start := by
  obtain ⟨-,hp,h1,h2,h3,hs,hst⟩ := mapWindow_spec h
  refine ⟨le_rfl,?_⟩
  rw [le_def]
  omega

lemma mapWindow_byte {d g : TlmDmi} (h : t.mapWindow d = some g) (hp : d.ptr ≠ 0) (x : U64) :
    g.ptr+(x-g.start) = d.ptr+(t.addrFw x-d.start) := by
  obtain ⟨mappedEnd,targetEnd,-,-,-,rfl⟩ := mapWindow_eq_some.mp h
  simp only [if_neg hp,addrFw]
  ring

lemma mapTxnAddr_eq_some {addr len mapped : U64} (h : t.mapTxnAddr addr len = some mapped) :
    mapped = t.addrFw addr ∧ t.InWindow addr := by
  simp only [mapTxnAddr,bind_eq_bind,bind_eq_some_iff] at h
  obtain ⟨targetEnd,ht,mappedEnd,hm,txnEnd,he,h⟩ := h
  split_ifs at h with hin
  obtain ⟨-,hb,hte⟩ := rangeEnd_eq_some.mp ht
  obtain ⟨-,hma,-⟩ := rangeEnd_eq_some.mp hm
  have hle : addr.toNat ≤ txnEnd.toNat := by
    split_ifs at he
    · rw [Option.some.inj he]
    · obtain ⟨hp,-,hs⟩ := rangeEnd_eq_some.mp he
      omega
  rw [le_def,le_def] at hin
  exact ⟨(Option.some.inj h).symm,⟨hb,hma⟩,hin.1,by omega⟩

/-- Grants and invalidations are the exact inverse images under the window. -/
theorem window_exact (t : Addrtr) :
    (∀ down addr len r, (∀ a d, down a = some d → d.ptr ≠ 0) → t.getDirectMemPtr down addr len = some r →
      (r.isSome ↔ ∃ d, down (t.addrFw addr) = some d ∧ d.Holds (t.addrFw addr)) ∧
        ∀ g, r = some g → ∃ d, down (t.addrFw addr) = some d ∧ ∀ x, (g.Holds x ↔ t.InWindow x ∧ d.Holds (t.addrFw x)) ∧
          g.ptr+(x-g.start) = d.ptr+(t.addrFw x-d.start)) ∧ ∀ start stop,
      (t.invalidateDirectMemPtr start stop = none ↔ ∀ x, t.InWindow x → ¬ (start ≤ t.addrFw x ∧ t.addrFw x ≤ stop)) ∧
        ∀ lo hi, t.invalidateDirectMemPtr start stop = some (lo,hi) →
          ∀ x, lo ≤ x ∧ x ≤ hi ↔ t.InWindow x ∧ start ≤ t.addrFw x ∧ t.addrFw x ≤ stop := by
  have he : ∀ {d g : TlmDmi}, t.mapWindow d = some g → ∀ x, g.Holds x ↔ t.InWindow x ∧ d.Holds (t.addrFw x) := by
    intro d g hg x
    rw [← mapWindow_holds,hg]
    simp
  refine ⟨fun down addr len r hp h => ?_,fun start stop => ⟨?_,fun lo hi h => ?_⟩⟩
  · obtain ⟨mapped,hm,h⟩ := bind_eq_some_iff.mp h
    obtain ⟨rfl,hin⟩ := mapTxnAddr_eq_some hm
    cases hd : down (t.addrFw addr) with
    | none =>
      obtain rfl : none = r := by simpa [hd] using h
      simp
    | some d =>
      simp only [hd] at h
      split_ifs at h with ho
      · cases h
        have hno : ¬ d.Holds (t.addrFw addr) := fun h => ho.elim (not_lt.mpr h.1) (not_lt.mpr h.2)
        simp [hno]
      · cases h
        have hh : d.Holds (t.addrFw addr) := by simpa [TlmDmi.Holds,not_or] using ho
        obtain ⟨g,hg,-⟩ := mapWindow_holds.mpr ⟨hin,hh⟩
        refine ⟨by simp [hg,hh],fun g' hg' => ⟨d,rfl,fun x => ⟨he hg' x,?_⟩⟩⟩
        exact mapWindow_byte hg' (hp _ d hd) x
  · rw [invalidateDirectMemPtr,map_eq_none_iff]
    constructor
    · intro hn x hx hin
      obtain ⟨g,hg,-⟩ := (mapWindow_holds (d := ⟨start,stop,0,.none⟩)).mpr ⟨hx,hin⟩
      cases hn.symm.trans hg
    · intro ha
      by_contra hs
      obtain ⟨g,hg⟩ := ne_none_iff_exists'.mp hs
      obtain ⟨hx,hin⟩ := (he hg g.start).mp (mapWindow_start hg)
      exact ha _ hx hin
  · obtain ⟨g,hg,heq⟩ := map_eq_some_iff.mp h
    obtain ⟨rfl,rfl⟩ := Prod.mk.inj heq
    exact he hg

end

end Addrtr
end Qbox
