import Qbox.Tlm

/-! Translation tables in the long-descriptor format: granules and levels, the
start of a walk, the entry a level selects and the fields of a leaf. -/
namespace Qbox
open MachineWord BitVec

inductive Stage where
  | one | two
  deriving DecidableEq

def extract32 (val : U32) (start length : ℕ) : U32 := (val >>> start) &&& MachineWord.lowMask length

def extract64 (val : U64) (start length : ℕ) : U64 := (val >>> start) &&& MachineWord.lowMask length

def bit32 (val : U32) (i : ℕ) : Bool := val.getLsbD i

def outputSizeMap (ips : BitVec 3) : ℕ := match ips.toNat with
  | 0 => 32
  | 1 => 36
  | 2 => 40
  | 3 => 42
  | 4 => 44
  | _ => 48

def paBits : ℕ := 48

def checkOutAddr (addr : U64) (outputsize : ℕ) : Bool :=
  decide (paBits ≤ outputsize) || extract64 addr outputsize (paBits-outputsize) == 0

inductive Granule where
  | g4k | g16k | g64k
  deriving DecidableEq

namespace Granule
def grainsize : Granule → ℕ
  | g4k => 12
  | g16k => 14
  | g64k => 16

def stride (g : Granule) : ℕ := g.grainsize-3

def initialLevel : Granule → ℕ
  | g4k => 2
  | _ => 3

def firstblocklevel : Granule → ℕ
  | g4k => 1
  | _ => 2

def descmask (g : Granule) : U64 := lowMask g.grainsize

/-- The lowest address bit that selects an entry of a table of this level. -/
def addrselectbottom (g : Granule) (level : ℕ) : ℕ := (3-level)*g.stride+g.grainsize

def levelCoverage (g : Granule) (level : ℕ) : ℕ := g.grainsize+(3-level+1)*g.stride

end Granule

def granuleOfTg (tg : BitVec 2) : Option Granule := match tg.toNat with
  | 0 => some .g4k
  | 1 => some .g64k
  | 2 => some .g16k
  | _ => none

def granuleOfTg1 (tg : BitVec 2) : Option Granule := match tg.toNat with
  | 1 => some .g16k
  | 2 => some .g4k
  | 3 => some .g64k
  | _ => none

def inputSizeMin : ℕ := 25

def inputSizeMax : ℕ := 48

def checkS2Startlevel (pamaxVal : ℕ) (level : ℤ) (g : Granule) : Bool := if level < 0 then false
  else match g with
    | .g64k => !(level == 0 || (level == 1 && decide (pamaxVal ≤ 42)))
    | .g16k => !(level == 0 || (level == 1 && decide (pamaxVal ≤ 40)))
    | .g4k => !(level == 0 && decide (pamaxVal ≤ 42))

def stage1Level (g : Granule) (inputsize : ℕ) : ℕ := if g.grainsize < 16 ∧ inputsize > g.grainsize+3*g.stride then 0
  else if inputsize > g.grainsize+2*g.stride then 1
  else if inputsize > g.grainsize+g.stride then 2
  else g.initialLevel

/-- The start level of a walk, or nothing on an address-size fault; stage 2 takes it from `sl0`. -/
def startLevel (stage : Stage) (addr : U64) (sl0 : BitVec 2) (g : Granule) (inputsize outputsize : ℕ) : Option ℕ :=
  match stage with
  | .one =>
    if inputsize < inputSizeMin ∨ inputSizeMax < inputsize ∨ extract64 addr inputsize (64-inputsize) ≠ 0 then none
    else some (stage1Level g inputsize)
  | .two =>
    let level : ℤ := (if g = .g4k then 2 else 3)-sl0.toNat
    if checkS2Startlevel outputsize level g then some level.toNat else none

/-- The alignment of the start table, an unsigned difference in the source. -/
def baselowerbound (g : Granule) (level inputsize : ℕ) : ℕ :=
  (((3+inputsize : ℤ)-g.addrselectbottom level) % 2^32).toNat

structure WalkStart where
  granule : Granule
  outputsize : ℕ
  level : ℕ
  ttbr : U64

def descIndex (iova : U64) (g : Granule) (level : ℕ) : U64 :=
  ((iova >>> (g.addrselectbottom level-3)) &&& g.descmask) &&& ~~~lowMask 3

def leafPageSize (g : Granule) (level : ℕ) : ℕ := g.stride*(4-level)+3

variable (desc : U64)

def leafAttrs : U32 := (extract64 desc 2 10 ||| (extract64 desc 52 12 <<< 10)).setWidth 32

def checkedAttrs (stage : Stage) (desc : U64) (tableattrs : U32) : U32 := match stage with
  | .one => leafAttrs desc ||| (extract32 tableattrs 0 2 <<< 11) ||| (extract32 tableattrs 3 1 <<< 5)
  | .two => leafAttrs desc

/-- The stage-2 permission check on `S2AP`. -/
def stage2Prot (access : IOMMUAccessFlags) (s2attrs : U32) : Option IOMMUAccessFlags :=
  match ((s2attrs >>> 4) &&& 3).toNat with
  | 0 => none
  | 1 => if access = .wo then none else some (.rw &&& ~~~.wo)
  | 2 => if access = .ro then none else some (.rw &&& ~~~.ro)
  | _ => some .rw

/-- The output address of a leaf descriptor, masked with the granule whatever the leaf's size. -/
def outputBase (g : Granule) (desc : U64) : U64 := extract64 desc 0 paBits &&& ~~~g.descmask

namespace Granule
lemma grainsize_eq (g : Granule) : g.grainsize = g.stride+3 := by cases g <;> rfl

lemma addrselectbottom_anti (g : Granule) {i j : ℕ} (h : i ≤ j) : g.addrselectbottom j ≤ g.addrselectbottom i := by
  have hm : (3-j)*g.stride ≤ (3-i)*g.stride := Nat.mul_le_mul_right _ (by omega)
  simp only [addrselectbottom]
  omega

section
variable (g : Granule) (level : ℕ)
include g level

lemma three_le_addrselectbottom : 3 ≤ g.addrselectbottom level := by
  rw [addrselectbottom,grainsize_eq]
  omega

lemma addrselectbottom_lt : g.addrselectbottom level < 63 := by
  have h := g.addrselectbottom_anti (Nat.zero_le level)
  have h0 : g.addrselectbottom 0 < 63 := by cases g <;> decide
  omega

lemma twelve_le_addrselectbottom : 12 ≤ g.addrselectbottom level := by
  have hg : 12 ≤ g.grainsize := by cases g <;> decide
  rw [addrselectbottom]
  omega

lemma addrselectbottom_lt_coverage :
    g.addrselectbottom level < g.levelCoverage level := by
  have hs : 0 < g.stride := by cases g <;> decide
  rw [addrselectbottom,levelCoverage,Nat.add_mul,one_mul]
  omega

end

end Granule

variable {g : Granule} {level inputsize outputsize : ℕ} {stage : Stage} {addr : U64} {sl0 : BitVec 2}

lemma leafPageSize_eq (g : Granule) (h : level ≤ 3) : leafPageSize g level = g.addrselectbottom level := by
  rw [leafPageSize,Granule.addrselectbottom,g.grainsize_eq,show 4-level = (3-level)+1 by omega]
  ring

/-- Two addresses that agree above the bits a level selects by read the same
entry of its table. -/
lemma descIndex_agree {iova iova' : U64}
    (h : AgreeAbove (g.addrselectbottom level) iova iova') : descIndex iova' g level = descIndex iova g level := by
  apply eq_of_getLsbD_eq
  intro i hi
  by_cases hl : i < 3
  · simp [descIndex,hi,hl]
  · have hb := h (g.addrselectbottom level-3+i) (by omega)
    simp [descIndex,hb,hi]

lemma addrselectbottom_stage1Level_lt (g : Granule) (h : inputSizeMin ≤ inputsize) :
    g.addrselectbottom (stage1Level g inputsize) < inputsize := by
  simp only [inputSizeMin] at h
  rw [stage1Level]
  split_ifs with h0 h1 h2
  · simp only [Granule.addrselectbottom]
    omega
  · simp only [Granule.addrselectbottom]
    omega
  · simp only [Granule.addrselectbottom]
    omega
  · cases g <;> simp only [Granule.addrselectbottom,Granule.grainsize,Granule.stride,Granule.initialLevel] at h2 ⊢ <;>
      omega

lemma extract64_top_agree {a b : U64} {k n : ℕ} (h : AgreeAbove k a b) (hn : k ≤ n) (len : ℕ) :
    extract64 a n len = extract64 b n len := by
  apply eq_of_getLsbD_eq
  intro i hi
  simp [extract64,h (n+i) (by omega),hi]

lemma startLevel_agree {addr' : U64} (h : startLevel stage addr sl0 g inputsize outputsize = some level)
    (ha : AgreeAbove (g.addrselectbottom level) addr addr') :
    startLevel stage addr' sl0 g inputsize outputsize = some level := by
  cases stage with
  | one =>
    simp only [startLevel] at h ⊢
    split_ifs at h with hb
    push Not at hb
    cases h
    have hlt := addrselectbottom_stage1Level_lt g hb.1
    rw [if_neg]
    push Not
    exact ⟨hb.1,hb.2.1,by rw [← extract64_top_agree ha hlt.le]; exact hb.2.2⟩
  | two => simpa only [startLevel] using h

lemma startLevel_le (h : startLevel stage addr sl0 g inputsize outputsize = some level) : level ≤ 3 := by
  cases stage with
  | one =>
    simp only [startLevel] at h
    split_ifs at h
    cases h
    rw [stage1Level]
    split_ifs
    · omega
    · omega
    · omega
    · cases g <;> decide
  | two =>
    simp only [startLevel] at h
    split_ifs at h <;> cases h <;> omega

lemma startLevel_one_of_lt (hmi : 25 ≤ inputsize) (hm : inputsize ≤ 48)
    (h : addr.toNat < 2^inputsize) (sl0 : BitVec 2) (g : Granule) (outputsize : ℕ) :
    startLevel .one addr sl0 g inputsize outputsize = some (stage1Level g inputsize) := by
  have hz : extract64 addr inputsize (64-inputsize) = 0 := by
    refine eq_of_toNat_eq ?_
    rw [extract64,toNat_and_lowMask,toNat_ushiftRight,Nat.shiftRight_eq_div_pow,Nat.div_eq_of_lt h,Nat.zero_mod]
    rfl
  refine if_neg ?_
  rintro (hl | hh | hne)
  · rw [inputSizeMin] at hl
    omega
  · rw [inputSizeMax] at hh
    omega
  · exact hne hz

lemma startLevel_one_of_bit {i : ℕ} (hi : inputsize ≤ i) (hb : addr.getLsbD i = true)
    (sl0 : BitVec 2) (g : Granule) (outputsize : ℕ) : startLevel .one addr sl0 g inputsize outputsize = none := by
  refine if_pos (Or.inr (Or.inr fun hz => ?_))
  have hlt := lt_of_getLsbD hb
  have hc := congrArg (fun x => x.getLsbD (i-inputsize)) hz
  simp [extract64,Nat.add_sub_cancel' hi,hb] at hc
  omega

lemma baselowerbound_eq (hle : inputsize ≤ 64) (h : g.addrselectbottom level ≤ 3+inputsize) :
    baselowerbound g level inputsize = 3+inputsize-g.addrselectbottom level := by
  rw [baselowerbound,Int.emod_eq_of_lt (by omega) (by omega)]
  omega

lemma toNat_extract64 (v : U64) (start length : ℕ) :
    (extract64 v start length).toNat = v.toNat/2^start % 2^length := by
  rw [extract64,toNat_and_lowMask,toNat_ushiftRight,Nat.shiftRight_eq_div_pow]

lemma checkOutAddr_iff (h : addr.toNat < 2^paBits) (outputsize : ℕ) :
    checkOutAddr addr outputsize = true ↔ addr.toNat < 2^outputsize := by
  rw [checkOutAddr,Bool.or_eq_true,decide_eq_true_eq,beq_iff_eq]
  by_cases ho : paBits ≤ outputsize
  · simp only [ho,true_or,true_iff]
    exact h.trans_le (Nat.pow_le_pow_right two_pos ho)
  · have hz : extract64 addr outputsize (paBits-outputsize) = 0 ↔ addr.toNat/2^outputsize = 0 := by
      rw [← toNat_inj,toNat_extract64,Nat.mod_eq_of_lt]
      · rfl
      · rw [Nat.div_lt_iff_lt_mul (Nat.two_pow_pos _),← pow_add]
        exact h.trans_le (Nat.pow_le_pow_right two_pos (by omega))
    rw [hz,Nat.div_eq_zero_iff_lt (Nat.two_pow_pos _)]
    simp [ho]

lemma toNat_descIndex (iova : U64) (g : Granule) (level : ℕ) :
    (descIndex iova g level).toNat = iova.toNat/2^g.addrselectbottom level % 2^g.stride*8 := by
  have ha : 2^g.addrselectbottom level = 2^(g.addrselectbottom level-3)*2^3 := by
    rw [← pow_add,Nat.sub_add_cancel (g.three_le_addrselectbottom level)]
  rw [descIndex,toNat_and_not_lowMask,Granule.descmask,toNat_and_lowMask,toNat_ushiftRight,
    Nat.shiftRight_eq_div_pow,g.grainsize_eq,pow_add,Nat.mul_comm (2^g.stride),Nat.mod_mul_right_div_self,
    Nat.div_div_eq_div_mul,← ha]
  norm_num

lemma toNat_outputBase (g : Granule) (desc : U64) :
    (outputBase g desc).toNat = desc.toNat % 2^paBits/2^g.grainsize*2^g.grainsize := by
  rw [outputBase,Granule.descmask,toNat_and_not_lowMask,toNat_extract64,pow_zero,Nat.div_one]

lemma outputBase_lt (g : Granule) (desc : U64) : (outputBase g desc).toNat < 2^paBits := by
  rw [toNat_outputBase]
  exact (Nat.div_mul_le_self _ _).trans_lt (Nat.mod_lt _ (Nat.two_pow_pos _))

lemma descIndex_lt (iova : U64) (g : Granule) (level : ℕ) : (descIndex iova g level).toNat < 2^g.grainsize := by
  rw [toNat_descIndex,g.grainsize_eq,pow_add]
  omega

lemma toNat_and_three : (desc &&& 3).toNat = (desc.getLsbD 0).toNat+2*(desc.getLsbD 1).toNat := by
  have h3 : (3 : U64) = lowMask 2 := by decide
  rw [h3,toNat_and_lowMask,getLsbD,getLsbD,Nat.toNat_testBit,Nat.toNat_testBit]
  omega

@[simp] lemma bit32_checkedAttrs_af (attrs : U32) : bit32 (checkedAttrs .one desc attrs) 8 = desc.getLsbD 10 := by
  simp [bit32,checkedAttrs,leafAttrs,extract64,extract32]

@[simp] lemma bit32_checkedAttrs_ap1 (attrs : U32) : bit32 (checkedAttrs .one desc attrs) 4 = desc.getLsbD 6 := by
  simp [bit32,checkedAttrs,leafAttrs,extract64,extract32]

@[simp] lemma bit32_checkedAttrs_ap2 (attrs : U32) :
    bit32 (checkedAttrs .one desc attrs) 5 = (desc.getLsbD 7 || attrs.getLsbD 3) := by
  simp [bit32,checkedAttrs,leafAttrs,extract64,extract32]

end Qbox
