import Qbox.GsMemoryRuns

/-! The ends of the memory: which bytes of the tree a reset reaches, and which accesses outside the
memory are rejected. -/
namespace Qbox.GsMemory
open Memory BitVec

variable {p : Params} {host : Host} {len base addr n : ℕ}

namespace SubBlock
/-- The address is in the third or the fourth sub-block of a split block. -/
def missed (p : Params) : SubBlock → ℕ → ℕ → ℕ → Bool
  | .untouched, _, _, _ => false
  | .backed, _, _, _ => false
  | .split subs, len, base, addr =>
    match childIndex p len base addr with
    | none => false
    | some i => decide (2 ≤ (i : ℕ)) || missed p (subs i) (len/4) (childBase len base i) addr

variable {b : SubBlock} {heap : Region → Contents} {r : Region}

lemma missed_split {subs : Fin 4 → SubBlock} {i : Fin 4} (h : childIndex p len base addr = some i) :
    missed p (.split subs) len base addr =
      (decide (2 ≤ (i : ℕ)) || missed p (subs i) (len/4) (childBase len base i) addr) := by
  simp [missed,h]

/-- A reset leaves what is not inside the block. -/
lemma doreset_of_not_within (h : ¬ (base ≤ r.address ∧ r.address+r.len ≤ base+len)) :
    doreset p b len base heap r = heap r := by
  induction b generalizing len base heap with
  | untouched => rfl
  | backed =>
    rw [doreset]
    split_ifs
    · rw [Function.update_of_ne]
      rintro rfl
      exact h ⟨le_rfl,le_rfl⟩
    · rfl
  | split subs ih =>
    have hs : ∀ i : Fin 4, ¬ (childBase len base i ≤ r.address ∧ r.address+r.len ≤ childBase len base i+len/4) := by
      intro i hi
      have hw := childBase_within len base i
      omega
    rw [doreset,ih 1 (hs 1),ih 0 (hs 0)]

lemma doreset_of_find (hit : p.initMem = true) (hv : Valid p host n b len base) (hlo : base ≤ addr)
    (hhi : addr < base+len) (h : find p b len base addr = some r) :
    doreset p b len base heap r = if missed p b len base addr then heap r else fun _ => p.initMemVal := by
  induction n generalizing len base b heap with
  | zero =>
    cases b with
    | untouched => cases h
    | _ => exact hv.elim
  | succ n ih =>
    cases b with
    | untouched => cases h
    | backed =>
      obtain rfl : ⟨base,len⟩ = r := Option.some.inj h
      simp [doreset,missed,hit]
    | split subs =>
      cases hi : childIndex p len base addr with
      | none =>
        rw [find,hi] at h
        cases h
      | some i =>
        obtain ⟨-,-,hlo',hhi'⟩ := childIndex_eq_some hi
        rw [find_split hi] at h
        obtain ⟨-,-,hh,-⟩ := find_region (hv.2 i) hlo' hhi' h
        -- The region is in the sub-block of the address, so the other ones do not meet it.
        have ho : ∀ j : Fin 4, j ≠ i → ∀ heap,
            doreset p (subs j) (len/4) (childBase len base j) heap r = heap r := by
          intro j hj heap
          refine doreset_of_not_within fun hin => hj ?_
          have ha := childIndex_of_mem hi (hin.1.trans hh.1) (hh.2.trans_le hin.2)
          exact Option.some.inj (ha.symm.trans hi)
        have hs : ∀ heap, doreset p (subs i) (len/4) (childBase len base i) heap r = _ :=
          fun heap => ih (hv.2 i) hlo' hhi' h
        rw [doreset,missed_split hi]
        fin_cases i
        · rw [ho 1 (by decide)]
          simpa using hs heap
        · have hb := ho 0 (by decide) heap
          simpa [hb] using hs (doreset p (subs 0) (len/4) (childBase len base 0) heap)
        · rw [ho 1 (by decide),ho 0 (by decide)]
          simp
        · rw [ho 1 (by decide),ho 0 (by decide)]
          simp

end SubBlock

def Memory.missed (p : Params) (m : Memory) (a : ℕ) : Bool := m.root.missed p p.size.toNat 0 a

/-- Memory that the host allocates starts with the initial value. -/
def Params.Initialises (p : Params) : Prop := p.initMem = true ∧ p.mapfile = false ∧ p.shmem = false

lemma place_eq_init (hp : p.Initialises) {r : Region} {c : Contents}
    (h : place p host n len base addr = some (r,c)) : c = fun _ => p.initMemVal := by
  obtain ⟨hin,hm,hs⟩ := hp
  induction n generalizing len base with
  | zero => cases h
  | succ n ih =>
    have hak : ∀ c, firstAnswer p host ⟨base,len⟩ = .backed c → c = fun _ => p.initMemVal := by
      intro c hc
      simp only [firstAnswer,ask,hm,hs,hin,if_true,Bool.false_eq_true,if_false] at hc
      split_ifs at hc
      cases hal : host.alloc ⟨base,len⟩ <;> rw [hal] at hc <;> cases hc
      rfl
    rw [place] at h
    cases ha : firstAnswer p host ⟨base,len⟩ with
    | backed c' =>
      rw [ha] at h
      obtain ⟨-,rfl⟩ := Prod.mk.inj (Option.some.inj h)
      exact hak c' ha
    | refused =>
      rw [ha] at h
      cases hi : childIndex p len base addr with
      | none => simp [hi] at h
      | some i =>
        simp only [hi] at h
        exact ih h
    | fatal => simp [ha] at h

variable {m : Memory} {a : ℕ}

lemma flat_doreset (hp : p.Initialises) (hv : m.Valid p host) (ha : a < p.size.toNat)
    (hpl : (place p host maxDepth p.size.toNat 0 a).isSome) :
    (m.doreset p).flat p host a = if m.missed p a then m.flat p host a else p.initMemVal := by
  cases hf : m.find p a with
  | some r =>
    have hf' : (m.doreset p).find p a = some r := hf
    have hh : (m.doreset p).heap r = if m.missed p a then m.heap r else fun _ => p.initMemVal :=
      SubBlock.doreset_of_find hp.1 hv (Nat.zero_le a) (by omega) hf
    rw [flat_of_find ha hf,flat_of_find ha hf',hh]
    split_ifs <;> rfl
  | none =>
    obtain ⟨⟨r,c⟩,hc⟩ := Option.isSome_iff_exists.mp hpl
    have hf' : (m.doreset p).find p a = none := hf
    have hfl : m.flat p host a = p.initMemVal := by
      simp [flat,if_pos ha,byteAt,hf,hc,place_eq_init hp hc]
    rw [hfl,ite_self]
    simp [flat,if_pos ha,byteAt,hf',hc,place_eq_init hp hc]

lemma place_of_access {x : Region × Memory} (hv : m.Valid p host) (ha : a < p.size.toNat)
    (h : m.access p host a = some x) : (place p host maxDepth p.size.toNat 0 a).isSome := by
  rw [access] at h
  cases hac : m.root.access p host maxDepth p.size.toNat 0 a m.heap with
  | none => simp [hac] at h
  | some y =>
    have hd := (SubBlock.access_accessed m.heap hv (Nat.zero_le a) (by omega)).result hac
    obtain ⟨c,hc,-⟩ := hd.placed
    rw [hc a hd.has]
    rfl

def quartered : Params := { size := 64, maxBlockSize := 16, minBlockSize := 4, initMem := true, initMemVal := 0xAA }

def freshHost : Host := ⟨fun _ => none,fun _ => none,fun _ => some fun _ => 0⟩

def filled : Memory := ⟨.split fun _ => .backed,fun _ _ => 7⟩

lemma filled_valid : filled.Valid quartered freshHost := And.intro rfl fun _ => ⟨fun _ => 0xAA,rfl⟩

def Txn.Outside (p : Params) (txn : Txn) : Prop :=
  ∀ off, p.offset txn.address = some off → p.size.toNat < off.toNat+txn.data.length

/-- The end of the access, reduced modulo 2^64, is inside the memory. -/
def Txn.WrapsInto (p : Params) (txn : Txn) : Prop :=
  ∃ off, p.offset txn.address = some off ∧ 2^64 ≤ off.toNat+txn.data.length ∧
    off.toNat+txn.data.length-2^64 ≤ p.size.toNat

lemma Txn.Outside.size_lt_iff {txn : Txn} (h : txn.Outside p) {off : U64} (ho : p.offset txn.address = some off) :
    p.size < off+BitVec.ofNat 64 txn.data.length ↔ ¬ txn.WrapsInto p := by
  have hou := h off ho
  have hl := txn.length_lt
  have hlt := off.isLt
  simp only [WrapsInto,ho,Option.some.injEq,exists_eq_left',lt_def,toNat_add,toNat_ofNat]
  omega

/-- An access outside the memory gets an address error and changes nothing, unless its end wraps around into the
memory. -/
theorem outside_rejected_iff (p : Params) (host : Host) (m : Memory) (txn : Txn)
    (hwidth : txn.data.length ≤ txn.streamingWidth.toNat) (hout : txn.Outside p) :
    (bTransport p host txn m = some (⟨.addressError,txn.data,false⟩,m) ∧
      transportDbg p host txn m = some (0,⟨.addressError,txn.data,false⟩,m)) ↔ ¬ txn.WrapsInto p := by
  have hd : bTransport p host txn m = some (⟨.addressError,txn.data,false⟩,m) →
      transportDbg p host txn m = some (0,⟨.addressError,txn.data,false⟩,m) := fun h => by simp [transportDbg,h]
  rw [and_iff_left_of_imp hd,bTransport,if_neg (not_lt.mpr hwidth)]
  cases ho : p.offset txn.address with
  | none => simp [Txn.WrapsInto,ho]
  | some off =>
    rw [← hout.size_lt_iff ho]
    dsimp only
    by_cases hs : p.size < off+BitVec.ofNat 64 txn.data.length
    · simp [hs]
    · rw [if_neg hs]
      refine iff_of_false (fun h => ?_) hs
      -- A result of an access that passed the check has another response.
      cases hc : txn.command with
      | ignore => simp [hc] at h
      | read =>
        simp only [hc] at h
        split at h <;> simp at h
      | write =>
        simp only [hc] at h
        split_ifs at h
        · simp at h
        · split at h <;> simp at h

def behindEnd : Txn := ⟨.read,12,[0,0,0,0,0,0],none,0xFFFFFFFF,by decide⟩

theorem outside_rejected_behind_end :
    bTransport { size := 16 } freshHost behindEnd filled = some (⟨.addressError,behindEnd.data,false⟩,filled) ∧
      transportDbg { size := 16 } freshHost behindEnd filled = some (0,⟨.addressError,behindEnd.data,false⟩,filled) := by
  refine (outside_rejected_iff { size := 16 } freshHost filled behindEnd (by decide) fun off ho => ?_).mpr ?_
  · cases ho
    decide
  · rintro ⟨off,ho,hw,-⟩
    cases ho
    exact absurd hw (by decide)

/-- A write of two bytes at the last address, the second enabled, changes the first byte of the memory. -/
theorem wrapped_write_accepted :
    (bTransport { size := 16 } freshHost ⟨.write,-1,[1,2],some ⟨[0,0xFF],by decide⟩,0xFFFFFFFF,by decide⟩
      ⟨.untouched,fun _ _ => 0⟩).map (fun x => (x.1.response,x.2.heap ⟨0,16⟩ 0)) = some (.ok,2) := by
  decide +kernel

end Qbox.GsMemory
