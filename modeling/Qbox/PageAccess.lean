import Qbox.MachineWord

/-! Accesses of several bytes through a map of pages: one translated address carries a whole access exactly when the
map is right at every page the access enters. -/
namespace Qbox.PageAccess
open MachineWord
open BitVec hiding add_sub_cancel eq_sub_iff_add_eq

variable {w : ℕ}

section
lemma or_self_and (x m : BitVec w) : x ||| (x &&& m) = x := by
  refine eq_of_getLsbD_eq fun i hi => ?_
  rw [getLsbD_or,getLsbD_and]
  cases x.getLsbD i <;> rfl

lemma add_sub_of_parts {m x y z z' : BitVec w} (hxy : y &&& ~~~m = x &&& ~~~m) (hz : z' &&& ~~~m = z &&& ~~~m)
    (hl : z &&& m = x &&& m) (hl' : z' &&& m = y &&& m) : z' = z+(y-x) := by
  have hs : y-x = (y &&& m)-(x &&& m) := by
    rw [← sub_and_not y m,← sub_and_not x m,hxy,sub_sub_sub_cancel_right]
  calc
    z' = (z &&& ~~~m)+(y &&& m) := by rw [← hz,← hl',and_not_add_and]
    _ = (z &&& ~~~m)+(z &&& m)+((y &&& m)-(x &&& m)) := by rw [hl,add_assoc,add_sub_cancel]
    _ = z+(y-x) := by rw [and_not_add_and,hs]

lemma or_and_lowMask_low {j k : ℕ} (hjk : j ≤ k) {base : BitVec w} (hb : base &&& lowMask j = 0) (x : BitVec w) :
    (base ||| (x &&& lowMask k)) &&& lowMask j = x &&& lowMask j := by
  refine eq_of_getLsbD_eq fun i hi => ?_
  have hbi := congrArg (fun v : BitVec w => v.getLsbD i) hb
  by_cases hj : i < j
  · simp [hi,hj] at hbi
    simp [hi,hj,hbi,show i < k by omega]
  · simp [hj]

lemma or_and_lowMask_shift {j k : ℕ} (hjk : j ≤ k) {base x y : BitVec w} (hb : base &&& lowMask j = 0)
    (h : AgreeAbove j x y) : base ||| (y &&& lowMask k) = (base ||| (x &&& lowMask k))+(y-x) :=
  add_sub_of_parts (agreeAbove_iff.mp h.symm) (agreeAbove_iff.mp (h.symm.or_and base (lowMask k)))
    (or_and_lowMask_low hjk hb x) (or_and_lowMask_low hjk hb y)

lemma agreeAbove_of_lt {k i : ℕ} {x : BitVec w} (h : i < ((x+BitVec.ofNat w i) &&& lowMask k).toNat) :
    AgreeAbove k x (x+BitVec.ofNat w i) := by
  generalize hy : x+BitVec.ofNat w i = y at h ⊢
  rw [toNat_and_lowMask] at h
  have hx : x = y-BitVec.ofNat w i := by rw [← hy,add_sub_cancel_right]
  have hle : y.toNat % 2^k ≤ y.toNat := Nat.mod_le _ _
  have hn : (BitVec.ofNat w i).toNat = i := by
    rw [toNat_ofNat,Nat.mod_eq_of_lt (by omega)]
  have hxn : x.toNat = y.toNat-i := by
    rw [hx,toNat_sub_of_le (by rw [le_def,hn]; omega),hn]
  rw [agreeAbove_iff]
  apply eq_of_toNat_eq
  rw [toNat_and_not_lowMask,toNat_and_not_lowMask,hxn]
  have hd := Nat.div_add_mod y.toNat (2^k)
  have hsp : y.toNat-i = 2^k*(y.toNat/2^k)+(y.toNat % 2^k-i) := by omega
  have hs : (y.toNat % 2^k-i)/2^k = 0 := Nat.div_eq_of_lt (by omega)
  rw [hsp,Nat.mul_add_div (Nat.two_pow_pos k),hs,Nat.add_zero]

end

variable {reach : BitVec w → Option (BitVec w)} {iova addr : BitVec w} {len : ℕ}

/-- In a page of `2^k` bytes the image of an address moves with the address. -/
def PageMap (k : ℕ) (reach : BitVec w → Option (BitVec w)) : Prop :=
  ∀ x y a, AgreeAbove k x y → reach x = some a → reach y = some (a+(y-x))

def EveryByte (reach : BitVec w → Option (BitVec w)) (iova addr : BitVec w) (len : ℕ) : Prop :=
  ∀ i < len, reach (iova+BitVec.ofNat w i) = some (addr+BitVec.ofNat w i)

/-- The same for the first byte of every page that the access enters behind its own first byte. -/
def EntersPages (k : ℕ) (reach : BitVec w → Option (BitVec w)) (iova addr : BitVec w) (len : ℕ) : Prop :=
  ∀ i < len, 0 < i → (iova+BitVec.ofNat w i) &&& lowMask k = 0 →
    reach (iova+BitVec.ofNat w i) = some (addr+BitVec.ofNat w i)

lemma PageMap.same_page {k p i : ℕ} (h : PageMap k reach)
    (hpa : AgreeAbove k (iova+BitVec.ofNat w p) (iova+BitVec.ofNat w i))
    (hp : reach (iova+BitVec.ofNat w p) = some (addr+BitVec.ofNat w p)) :
    reach (iova+BitVec.ofNat w i) = some (addr+BitVec.ofNat w i) := by
  rw [h _ _ _ hpa hp]
  abel_nf

lemma PageMap.everyByte_iff {k : ℕ} (h : PageMap k reach) :
    EveryByte reach iova addr len ↔ (0 < len → reach iova = some addr) ∧ EntersPages k reach iova addr len := by
  constructor
  · intro hb
    refine ⟨fun hl => ?_,fun i hi _ _ => hb i hi⟩
    simpa using hb 0 hl
  · rintro ⟨hf,hpa⟩ i hi
    have hz : reach (iova+BitVec.ofNat w 0) = some (addr+BitVec.ofNat w 0) := by simpa using hf (by omega)
    by_cases hlt : i < ((iova+BitVec.ofNat w i) &&& lowMask k).toNat
    · -- the page of the byte is the one the access begins in
      refine h.same_page ?_ hz
      simpa using agreeAbove_of_lt hlt
    · -- the page begins inside the access
      generalize ho : ((iova+BitVec.ofNat w i) &&& lowMask k).toNat = off at hlt
      have hs : iova+BitVec.ofNat w (i-off) = (iova+BitVec.ofNat w i) &&& ~~~lowMask k := by
        have hn : BitVec.ofNat w off = (iova+BitVec.ofNat w i) &&& lowMask k := by
          rw [← ho,BitVec.ofNat_toNat,setWidth_eq]
        rw [← sub_and,← hn,add_sub_assoc]
        congr 1
        rw [eq_sub_iff_add_eq,← ofNat_add,Nat.sub_add_cancel (Nat.not_lt.mp hlt)]
      have hpg : AgreeAbove k (iova+BitVec.ofNat w (i-off)) (iova+BitVec.ofNat w i) := by
        rw [hs,agreeAbove_iff,BitVec.and_assoc,BitVec.and_self]
      refine h.same_page hpg ?_
      rcases Nat.eq_zero_or_pos (i-off) with hp | hp
      · rw [hp]
        exact hz
      · exact hpa (i-off) (by omega) hp (by rw [hs,and_not_and])

end Qbox.PageAccess
