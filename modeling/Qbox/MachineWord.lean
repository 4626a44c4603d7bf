import Mathlib.Data.BitVec
import Mathlib.Order.Defs.LinearOrder
import Mathlib.Tactic

/-! Fixed-width unsigned words, ordered as the unsigned integers they denote:
little-endian byte strings, masks of low bits and words that agree above a bit. -/
namespace Qbox
open List
open BitVec hiding not_not

abbrev U8 := BitVec 8
abbrev U16 := BitVec 16
abbrev U32 := BitVec 32
abbrev U64 := BitVec 64

namespace MachineWord

instance wordLinearOrder (w : ℕ) : LinearOrder (BitVec w) where
  le_refl := BitVec.le_refl
  le_trans _ _ _ := BitVec.le_trans
  lt_iff_le_not_ge _ _ := by bv_omega
  le_antisymm _ _ := BitVec.le_antisymm
  le_total := BitVec.le_total
  toDecidableLE := inferInstance
  toDecidableLT := inferInstance
  toDecidableEq := inferInstance

/-- A little-endian load of the bytes, cut to the width asked for. -/
def loadLe (w : ℕ) (bytes : List U8) : BitVec w := BitVec.ofNat w (bytes.foldr (fun b n => n*256+b.toNat) 0)

/-- The `n` low bytes of a word, least significant first. -/
def storeLe {w : ℕ} (n : ℕ) (v : BitVec w) : List U8 := (List.range n).map (fun i => (v >>> (8*i)).setWidth 8)

@[simp] lemma length_storeLe {w : ℕ} (n : ℕ) (v : BitVec w) : (storeLe n v).length = n := by
  simp [storeLe]

lemma storeLe_succ {w : ℕ} (n : ℕ) (v : BitVec w) : storeLe (n+1) v = v.setWidth 8 :: storeLe n (v >>> 8) := by
  rw [storeLe,range_succ_eq_map,map_cons,List.map_map,storeLe]
  refine congrArg₂ _ (by simp) (map_congr_left fun i _ => ?_)
  rw [Function.comp_apply,← shiftRight_add,Nat.mul_succ,Nat.add_comm]

lemma loadLe_storeLe {w n : ℕ} (v : BitVec w) (hn : w ≤ 8*n) : loadLe w (storeLe n v) = v := by
  have hf : ∀ (n : ℕ) (v : BitVec w),
      (storeLe n v).foldr (fun b n => n*256+b.toNat) 0 = v.toNat % 2^(8*n) := by
    intro n
    induction n with
    | zero => intro v; simp [storeLe,Nat.mod_one]
    | succ n ih =>
      intro v
      rw [storeLe_succ,foldr_cons,ih,toNat_ushiftRight,toNat_setWidth,Nat.shiftRight_eq_div_pow,
        show 8*(n+1) = 8+8*n by omega,pow_add,Nat.mod_mul]
      omega
  have hlt := v.isLt.trans_le (Nat.pow_le_pow_right (by decide) hn)
  rw [loadLe,hf,Nat.mod_eq_of_lt hlt,BitVec.ofNat_toNat,setWidth_eq]

lemma storeLe_loadLe {w : ℕ} {bytes : List U8} (hw : 8*bytes.length ≤ w) :
    storeLe bytes.length (loadLe w bytes) = bytes := by
  have hlt : ∀ bytes : List U8, bytes.foldr (fun b n => n*256+b.toNat) 0 < 2^(8*bytes.length) := by
    intro bytes
    induction bytes with
    | nil => simp
    | cons b bytes ih =>
      rw [foldr_cons,length_cons,show 8*(bytes.length+1) = 8*bytes.length+8 by omega,pow_add]
      omega
  induction bytes with
  | nil => rfl
  | cons b bytes ih =>
    have hwo := (hlt (b::bytes)).trans_le (Nat.pow_le_pow_right (by decide) hw)
    rw [length_cons] at hw
    have hl : (loadLe w (b::bytes)).setWidth 8 = b := by
      refine eq_of_toNat_eq ?_
      rw [loadLe,toNat_setWidth,toNat_ofNat,Nat.mod_eq_of_lt hwo,foldr_cons]
      omega
    have hh : loadLe w (b::bytes) >>> 8 = loadLe w bytes := by
      refine eq_of_toNat_eq ?_
      have hr := (hlt bytes).trans_le (Nat.pow_le_pow_right (by decide) (show 8*bytes.length ≤ w by omega))
      rw [toNat_ushiftRight,loadLe,loadLe,toNat_ofNat,toNat_ofNat,Nat.mod_eq_of_lt hwo,
        Nat.mod_eq_of_lt hr,Nat.shiftRight_eq_div_pow,foldr_cons]
      omega
    rw [length_cons,storeLe_succ,hl,hh,ih (by omega)]

/-- `(1 << k) - 1`, the mask of the `k` low bits. -/
def lowMask {w : ℕ} (k : ℕ) : BitVec w := (1#w <<< k) - 1#w

variable {w : ℕ} {k : ℕ}

lemma toNat_one_shiftLeft (hk : k < w) : (1#w <<< k).toNat = 2^k := by
  rw [toNat_shiftLeft,toNat_ofNat,Nat.mod_eq_of_lt (Nat.one_lt_two_pow (by omega)),Nat.shiftLeft_eq,
    one_mul,Nat.mod_eq_of_lt (Nat.pow_lt_pow_right (by omega) hk)]

lemma lowMask_toNat (hk : k < w) : (lowMask k : BitVec w).toNat = 2^k-1 := by
  have ho : BitVec.toNat (1#w) = 1 := Nat.mod_eq_of_lt (Nat.one_lt_two_pow (by omega))
  have hs := toNat_one_shiftLeft hk
  rw [lowMask,toNat_sub_of_le (by rw [le_def,hs,ho]; exact Nat.two_pow_pos k),hs,ho]

lemma lowMask_eq_allOnes (hk : w ≤ k) : (lowMask k : BitVec w) = allOnes w := by
  rw [lowMask,shiftLeft_eq_zero hk,BitVec.zero_sub,neg_one_eq_allOnes]

lemma toNat_and_lowMask (x : BitVec w) (k : ℕ) : (x &&& lowMask k).toNat = x.toNat % 2^k := by
  by_cases hk : k < w
  · rw [toNat_and,lowMask_toNat hk,Nat.and_two_pow_sub_one_eq_mod]
  · have hle : 2^w ≤ 2^k := Nat.pow_le_pow_right two_pos (by omega)
    rw [lowMask_eq_allOnes (by omega),and_allOnes,Nat.mod_eq_of_lt (x.isLt.trans_le hle)]

lemma toNat_succ_and_lowMask (x : BitVec w) (hk : k ≤ w) : ((x+1#w) &&& lowMask k).toNat = (x.toNat+1) % 2^k := by
  rw [toNat_and_lowMask,toNat_add,Nat.mod_mod_of_dvd _ (pow_dvd_pow 2 hk),toNat_ofNat,Nat.add_mod,
    Nat.mod_mod_of_dvd _ (pow_dvd_pow 2 hk),← Nat.add_mod]

@[simp] lemma getLsbD_lowMask (k i : ℕ) :
    (lowMask k : BitVec w).getLsbD i = (decide (i < w) && decide (i < k)) := by
  by_cases hk : k < w
  · rw [getLsbD,lowMask_toNat hk,Nat.testBit_two_pow_sub_one]
    grind
  · rw [lowMask_eq_allOnes (by omega),getLsbD_allOnes]
    grind

variable {x a b base f y : BitVec w} {i j : ℕ}

@[simp] lemma getElem_lowMask (hi : i < w) : (lowMask k : BitVec w)[i] = decide (i < k) := by
  rw [← getLsbD_eq_getElem,getLsbD_lowMask]
  simp [hi]

def AgreeAbove (k : ℕ) (a b : BitVec w) : Prop := ∀ i, k ≤ i → a.getLsbD i = b.getLsbD i

lemma AgreeAbove.mono (h : AgreeAbove j a b) (hjk : j ≤ k) :
    AgreeAbove k a b := fun i hi => h i (hjk.trans hi)

lemma AgreeAbove.symm (h : AgreeAbove k a b) : AgreeAbove k b a := fun i hi => (h i hi).symm

lemma agreeAbove_iff : AgreeAbove k a b ↔ a &&& ~~~lowMask k = b &&& ~~~lowMask k := by
  constructor
  · intro h
    apply eq_of_getLsbD_eq
    intro i hi
    by_cases hk : k ≤ i
    · simp [h i hk]
    · simp [hi,show i < k by omega]
  · intro h i hi
    by_cases hw : i < w
    · have hb := congrArg (fun x : BitVec w => x.getLsbD i) h
      simpa [hw,show ¬ i < k by omega] using hb
    · rw [getLsbD_of_ge a i (by omega),getLsbD_of_ge b i (by omega)]

lemma AgreeAbove.or_and (h : AgreeAbove k a b) (c d : BitVec w) :
    AgreeAbove k (c ||| (a &&& d)) (c ||| (b &&& d)) := by
  intro i hi
  simp [h i hi]

lemma or_and_lowMask_cut (h : j ≤ k) (a b x : BitVec w) :
    a ||| ((b ||| (x &&& lowMask k)) &&& lowMask j) = (a ||| (b &&& lowMask j)) ||| (x &&& lowMask j) := by
  apply eq_of_getLsbD_eq
  intro i hi
  by_cases hj : i < j
  · simp [hi,hj,show i < k by omega,Bool.or_assoc]
  · simp [hi,hj]

/-- Base plus offset is one address's page with the other's offset for the whole page exactly when the base leaves the
offset bits clear. -/
lemma page_offset_iff (base m x : BitVec w) :
    (∀ y, y &&& ~~~m = x &&& ~~~m → base ||| (y &&& m) = ((base ||| (x &&& m)) &&& ~~~m) ||| (y &&& m)) ↔
      base &&& m = 0 := by
  constructor
  · intro h
    have h0 := h (x &&& ~~~m) (by rw [BitVec.and_assoc,BitVec.and_self])
    apply eq_of_getLsbD_eq
    intro i hi
    have hb := congrArg (fun v : BitVec w => v.getLsbD i) h0
    grind
  · intro h y _
    apply eq_of_getLsbD_eq
    intro i hi
    have hb := congrArg (fun v : BitVec w => v.getLsbD i) h
    grind

lemma and_not_lowMask_mono (hjk : j ≤ k)
    (hx : x &&& ~~~lowMask j = f &&& ~~~lowMask k) : x &&& ~~~lowMask k = f &&& ~~~lowMask k := by
  apply eq_of_getLsbD_eq
  intro i hi
  have hb := congrArg (fun v : BitVec w => v.getLsbD i) hx
  simp [hi] at hb ⊢
  grind

/-- The offset of `x` replaces that of `f` under a page's base exactly when it has all its bits. -/
lemma replace_offset_iff (hjk : j ≤ k) (hba : base &&& lowMask k = 0)
    (hx : x &&& ~~~lowMask j = f &&& ~~~lowMask k) :
    base ||| (x &&& lowMask k) = base ||| (f &&& lowMask k) ||| (x &&& lowMask j) ↔
      f &&& lowMask k &&& ~~~(x &&& lowMask j) = 0 := by
  have hba' (i : ℕ) : i < w → i < k → base.getLsbD i = false := by
    intro hi hk
    have hbi := congrArg (fun v : BitVec w => v.getLsbD i) hba
    simpa [hi,hk] using hbi
  have hx' (i : ℕ) : i < w → i < k → j ≤ i → x.getLsbD i = false := by
    intro hi hk hj
    have hbi := congrArg (fun v : BitVec w => v.getLsbD i) hx
    simpa [hi,hk,show ¬ i < j by omega] using hbi
  rw [eq_of_getLsbD_eq_iff,eq_of_getLsbD_eq_iff]
  refine forall₂_congr fun i hi => ?_
  have hb := hba' i hi
  have hz := hx' i hi
  simp [hi] at hb hz ⊢
  grind

lemma and_twoPow_ne_zero (hi : i < w) (x : BitVec w) : x &&& twoPow w i ≠ 0 ↔ x.getLsbD i = true := by
  have hne : twoPow w i ≠ 0 := fun h0 => by
    have hb := congrArg (fun v : BitVec w => v.getLsbD i) h0
    simp [hi] at hb
  rw [and_twoPow]
  split
  · rename_i h
    exact iff_of_true hne h
  · rename_i h
    exact iff_of_false (not_not.mpr rfl) h

lemma and_eq_zero_iff : x &&& y = 0 ↔ ∀ i, x.getLsbD i = true → y.getLsbD i = false := by
  constructor
  · intro h i hx
    have hi := congrArg (getLsbD · i) h
    simpa [hx] using hi
  · intro h
    refine eq_of_getLsbD_eq fun i _ => ?_
    cases hx : x.getLsbD i with
    | false => simp [hx]
    | true => simp [h i hx]

lemma and_lowMask_of_le (h : y ≤ lowMask k) : y &&& lowMask k = y := by
  by_cases hk : k < w
  · apply eq_of_toNat_eq
    have hle : y.toNat ≤ 2^k-1 := by
      rw [← lowMask_toNat hk]
      exact h
    have hp := Nat.two_pow_pos k
    rw [toNat_and,lowMask_toNat hk,Nat.and_two_pow_sub_one_eq_mod,Nat.mod_eq_of_lt (by omega)]
  · rw [lowMask_eq_allOnes (by omega),and_allOnes]

lemma and_not_add_and (x m : BitVec w) : (x &&& ~~~m)+(x &&& m) = x := by
  rw [add_eq_or_of_and_eq_zero]
  · apply eq_of_getLsbD_eq
    intro i hi
    grind
  · apply eq_of_getLsbD_eq
    intro i hi
    grind

lemma sub_and_not (x m : BitVec w) : x-(x &&& ~~~m) = x &&& m := by
  nth_rewrite 1 [← and_not_add_and x m]
  rw [add_sub_cancel_left]

lemma sub_and (x m : BitVec w) : x-(x &&& m) = x &&& ~~~m := by
  nth_rewrite 1 [← and_not_add_and x m]
  rw [add_sub_cancel_right]

lemma toNat_or_lt (hx : x.toNat < 2^k) (hy : y.toNat < 2^k) : (x ||| y).toNat < 2^k := by
  exact Nat.or_lt_two_pow hx hy

lemma toNat_and_not_lowMask (x : BitVec w) (k : ℕ) : (x &&& ~~~lowMask k).toNat = x.toNat/2^k*2^k := by
  have hle : x &&& lowMask k ≤ x := by
    exact Nat.and_le_left
  rw [← sub_and,toNat_sub_of_le hle,toNat_and_lowMask]
  have hd := Nat.div_add_mod' x.toNat (2^k)
  omega

lemma toNat_or_of_dvd (hx : 2^k ∣ x.toNat) (hy : y.toNat < 2^k) : (x ||| y).toNat = x.toNat+y.toNat := by
  obtain ⟨a,ha⟩ := hx
  rw [toNat_or,ha,Nat.two_pow_add_eq_or_of_lt hy]

lemma and_not_of_and_eq_zero {m : BitVec w} (h : x &&& m = 0) : x &&& ~~~m = x := by
  rw [← sub_and,h,sub_zero]

lemma and_not_and (x m : BitVec w) : x &&& ~~~m &&& m = 0 := by
  rw [BitVec.and_assoc,BitVec.and_comm (~~~m),BitVec.and_not_self]
  exact and_zero

lemma and_lowMask_le (x : BitVec w) (k : ℕ) : x &&& lowMask k ≤ lowMask k := by
  rw [BitVec.and_comm,le_def,toNat_and]
  exact Nat.and_le_left

section
variable (hb : base &&& lowMask k = 0) (hy : y ≤ lowMask k)
include hb hy

lemma and_of_le_lowMask : base &&& y = 0#w := by
  rw [← and_lowMask_of_le hy,BitVec.and_comm y,← BitVec.and_assoc,hb]
  exact zero_and

lemma toNat_base_add : (base+y).toNat = base.toNat+y.toNat :=
    toNat_add_of_and_eq_zero (and_of_le_lowMask hb hy)

lemma base_add_split :
    (base+y) &&& ~~~lowMask k = base ∧ (base+y) &&& lowMask k = y := by
  have hl := and_lowMask_of_le hy
  rw [add_eq_or_of_and_eq_zero _ _ (and_of_le_lowMask hb hy)]
  constructor
  all_goals
    apply eq_of_getLsbD_eq
    intro i hi
    have h1 := congrArg (fun v : BitVec w => v.getLsbD i) hb
    have h2 := congrArg (fun v : BitVec w => v.getLsbD i) hl
    grind

end

lemma base_add_le_iff {z : BitVec w} (hb : base &&& lowMask k = 0) (hy : y ≤ lowMask k)
    (hz : z ≤ lowMask k) : base+y ≤ base+z ↔ y ≤ z := by
  rw [le_def,toNat_base_add hb hy,toNat_base_add hb hz,le_def]
  omega

lemma window_iff {lo hi : BitVec w} (hb : base &&& lowMask k = 0) (hlo : lo ≤ hi)
    (hhi : hi ≤ lowMask k) : base+lo ≤ x ∧ x ≤ base+hi ↔ ∃ y, lo ≤ y ∧ y ≤ hi ∧ base+y = x := by
  constructor
  · rintro ⟨h1,h2⟩
    have hlo' := toNat_base_add hb (hlo.trans hhi)
    have hhi' := toNat_base_add hb hhi
    rw [le_def] at h1 h2
    have hle : base ≤ x := by
      rw [le_def]
      omega
    have hs := toNat_sub_of_le hle
    refine ⟨x-base,?_,?_,?_⟩
    · rw [le_def]
      omega
    · rw [le_def]
      omega
    · rw [BitVec.add_comm,BitVec.sub_add_cancel]
  · rintro ⟨y,h1,h2,rfl⟩
    exact ⟨(base_add_le_iff hb (hlo.trans hhi) (h2.trans hhi)).mpr h1,(base_add_le_iff hb (h2.trans hhi) hhi).mpr h2⟩

lemma same_page_iff : x &&& ~~~lowMask k = a &&& ~~~lowMask k ↔
      a &&& ~~~lowMask k ≤ x ∧ x ≤ (a &&& ~~~lowMask k)+lowMask k := by
  have hb := and_not_and a (lowMask k)
  have hw : (a &&& ~~~lowMask k)+0#w ≤ x ∧ x ≤ (a &&& ~~~lowMask k)+lowMask k ↔
      ∃ y, 0#w ≤ y ∧ y ≤ lowMask k ∧ (a &&& ~~~lowMask k)+y = x :=
    window_iff hb (Nat.zero_le _) (le_refl _)
  rw [BitVec.add_zero] at hw
  rw [hw]
  constructor
  · intro h
    exact ⟨x &&& lowMask k,Nat.zero_le _,and_lowMask_le x k,by rw [← h,and_not_add_and]⟩
  · rintro ⟨y,-,hy,rfl⟩
    exact (base_add_split hb hy).1

end MachineWord
end Qbox
