import Qbox.Tlm

/-! Copies between the data of a transaction and a memory of bytes, under byte enables, and how they are
put together from parts. -/
namespace Qbox
open List Option

/-- Copy the enabled bytes between the data and a memory, from an address on. -/
def transfer (cmd : TlmCommand) (enabled : ℕ → Bool) (addr : U64) (data : List U8) (mem : U64 → U8) :
    List U8 × (U64 → U8) :=
  match cmd with
  | .read => (data.mapIdx fun i d => if enabled i then mem (addr+BitVec.ofNat 64 i) else d,mem)
  | .write => (data,fun a => if enabled (a-addr).toNat then data[(a-addr).toNat]?.getD (mem a) else mem a)
  | .ignore => (data,mem)

variable {cmd : TlmCommand} {addr : U64} {data : List U8} {mem : U64 → U8}

@[simp] lemma transfer_nil (enabled : ℕ → Bool) : transfer cmd enabled addr [] mem = ([],mem) := by
  cases cmd <;> simp [transfer]

lemma transfer_congr {enabled enabled' : ℕ → Bool} (h : ∀ i < data.length, enabled i = enabled' i) :
    transfer cmd enabled addr data mem = transfer cmd enabled' addr data mem := by
  cases cmd with
  | ignore => rfl
  | read =>
    simp only [transfer,Prod.mk.injEq,and_true]
    refine ext_getElem (by simp) fun i hi _ => ?_
    simp only [length_mapIdx] at hi
    simp [getElem_mapIdx,h i hi]
  | write =>
    simp only [transfer,Prod.mk.injEq,true_and]
    funext a
    by_cases ha : (a-addr).toNat < data.length
    · rw [h _ ha]
    · simp only [List.getElem?_eq_none (not_lt.mp ha),getD_none,ite_self]

variable (cmd addr mem) in
lemma transfer_append (enabled : ℕ → Bool) {rest : List U8} (hl : data.length+rest.length ≤ 2^64) :
    transfer cmd enabled addr (data++rest) mem = let first := transfer cmd enabled addr data mem
      let second := transfer cmd (fun i => enabled (data.length+i)) (addr+BitVec.ofNat 64 data.length) rest first.2
      (first.1++second.1,second.2) := by
  cases cmd with
  | ignore => rfl
  | read =>
    simp only [transfer,mapIdx_append,Prod.mk.injEq,and_true,append_cancel_left_eq]
    refine ext_getElem (by simp) fun i hi _ => ?_
    have hs : addr+BitVec.ofNat 64 data.length+BitVec.ofNat 64 i = addr+BitVec.ofNat 64 (i+data.length) := by
      rw [BitVec.add_assoc,← BitVec.ofNat_add,Nat.add_comm]
    simp only [getElem_mapIdx,hs,Nat.add_comm i]
  | write =>
    simp only [transfer,Prod.mk.injEq,true_and]
    funext a
    by_cases ha : (a-addr).toNat < data.length
    · -- The address lies in the first part: seen from the second one it wraps around.
      have ho : rest.length ≤ (a-(addr+BitVec.ofNat 64 data.length)).toNat := by bv_omega
      simp only [getElem?_append_left ha,List.getElem?_eq_none ho,getD_none,ite_self]
    · have hin : (a-(addr+BitVec.ofNat 64 data.length)).toNat = (a-addr).toNat-data.length := by bv_omega
      rw [not_lt] at ha
      simp only [getElem?_append_right ha,hin,Nat.add_sub_cancel' ha,List.getElem?_eq_none ha,getD_none,ite_self]

def bytesAt (mem : U64 → U8) (addr : U64) (len : ℕ) : List U8 :=
  (List.range len).map fun k => mem (addr+BitVec.ofNat 64 k)

def writeAt (mem : U64 → U8) (addr : U64) (data : List U8) : U64 → U8 :=
  (transfer .write (fun _ => true) addr data mem).2

lemma bytesAt_add (mem : U64 → U8) (addr : U64) (m n : ℕ) :
    bytesAt mem addr (m+n) = bytesAt mem addr m++bytesAt mem (addr+BitVec.ofNat 64 m) n := by
  simp only [bytesAt,range_add,map_append,List.map_map,append_cancel_left_eq,map_inj_left,
    Function.comp_apply,BitVec.ofNat_add,BitVec.add_assoc,implies_true]

@[simp] lemma length_bytesAt (mem : U64 → U8) (addr : U64) (len : ℕ) : (bytesAt mem addr len).length = len := by
  simp [bytesAt]

lemma bytesAt_getElem? {len k : ℕ} (hk : k < len) :
    (bytesAt mem addr len)[k]? = some (mem (addr+BitVec.ofNat 64 k)) := by
  simp [bytesAt,hk]

lemma bytesAt_congr {mem mem' : U64 → U8} {len : ℕ}
    (h : ∀ k < len, mem (addr+BitVec.ofNat 64 k) = mem' (addr+BitVec.ofNat 64 k)) :
    bytesAt mem addr len = bytesAt mem' addr len :=
  map_congr_left fun k hk => h k (mem_range.mp hk)

lemma writeAt_apply (mem : U64 → U8) (addr : U64) (data : List U8) (a : U64) :
    writeAt mem addr data a = data[(a-addr).toNat]?.getD (mem a) := rfl

@[simp] lemma writeAt_nil (mem : U64 → U8) (addr : U64) : writeAt mem addr [] = mem := by
  funext a
  simp [writeAt_apply]

lemma writeAt_getElem (mem : U64 → U8) (addr : U64) {i : ℕ} (hi : i < data.length) (hs : i < 2^64) :
    writeAt mem addr data (addr+BitVec.ofNat 64 i) = data[i] := by
  have ho : (addr+BitVec.ofNat 64 i-addr).toNat = i := by bv_omega
  rw [writeAt_apply,ho,List.getElem?_eq_getElem hi,getD_some]

lemma writeAt_of_forall_ne (mem : U64 → U8) (addr : U64) {a : U64}
    (ha : ∀ k < data.length, a ≠ addr+BitVec.ofNat 64 k) : writeAt mem addr data a = mem a := by
  rw [writeAt_apply]
  rcases lt_or_ge (a-addr).toNat data.length with hin | ho
  · exact absurd (by bv_omega) (ha _ hin)
  · rw [List.getElem?_eq_none ho,getD_none]

lemma writeAt_append (mem : U64 → U8) (addr : U64) {first rest : List U8} (hl : first.length+rest.length ≤ 2^64) :
    writeAt mem addr (first++rest) = writeAt (writeAt mem addr first) (addr+BitVec.ofNat 64 first.length) rest := by
  rw [writeAt,transfer_append .write addr mem (fun _ => true) hl]
  rfl

end Qbox
