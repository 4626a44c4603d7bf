import Qbox.Smmuv3Pages
import Qbox.Smmu500Walk

/-! The upper half of the address space. Both walkers choose `TTBR1` by the sign bit and then compare the whole
address with the input size, which no address of the upper range passes. -/
namespace Qbox
open MachineWord DmaSocket
open BitVec hiding not_or
open Bool hiding decide_eq_true decide_true not_or

def tgOf : Granule → BitVec 2
  | .g4k => 0
  | .g64k => 1
  | .g16k => 2

@[simp] lemma granuleOfTg_tgOf (g : Granule) : granuleOfTg (tgOf g) = some g := by
  cases g <;> rfl

def UpperAddress (inputsize : ℕ) (iova : U64) : Prop := ∀ i, inputsize ≤ i → i < 64 → iova.getLsbD i = true

lemma allOnes_upper (inputsize : ℕ) : UpperAddress inputsize (allOnes 64) := by
  intro i _ hi
  rw [getLsbD_allOnes]
  exact decide_eq_true hi

lemma toNat_and_lowMask_lt (x : U64) (k : ℕ) : (x &&& lowMask k).toNat < 2^k := by
  rw [toNat_and_lowMask]
  exact Nat.mod_lt _ (Nat.two_pow_pos _)

lemma getLsbD_low (x : U64) {k : ℕ} (hk : k ≤ 48) : (x &&& lowMask k).getLsbD 63 = false := by
  have hlt := toNat_and_lowMask_lt x k
  exact Nat.testBit_lt_two_pow (hlt.trans_le (Nat.pow_le_pow_right two_pos (hk.trans (by decide))))

/-- Where a stage-1 walk from a table begins, for the addresses of the input range. -/
def tableBase (g : Granule) (ttbr : U64) (inputsize : ℕ) : U64 :=
  Smmu500.startBase g ttbr (stage1Level g inputsize) inputsize

namespace Smmuv3
/-- The fields of the second table are valid. -/
structure CD.UpperValid (cd : CD) (g : Granule) : Prop where
  enabled : cd.epd1 = false
  granule : granuleOfTg1 cd.tg1 = some g
  sizeMin : 25 ≤ 64-cd.tsz1.toNat
  sizeMax : 64-cd.tsz1.toNat ≤ 48

def CD.lowered (cd : CD) (g : Granule) : CD :=
  { cd with ttb0 := cd.ttb1, tsz0 := cd.tsz1, tg0 := tgOf g, epd0 := false }

/-- The upper range is translated through the second table as the low bits are through the first. -/
def UpperAsLower (pamax : ℕ) (ste : STE) (cd : CD) (g : Granule) (nested : Bool) : Prop :=
  ∀ (M : Type) [DmaSocket M] (m : M) (iova : U64) (access : IOMMUAccessFlags), UpperAddress (64-cd.tsz1.toNat) iova →
    smmuv3Ptw64 pamax (stage1Ctx ste cd nested iova access) m =
      smmuv3Ptw64 pamax (stage1Ctx ste (cd.lowered g) nested (iova &&& lowMask (64-cd.tsz1.toNat)) access) m

section
variable {pamax : ℕ} {ste : STE} {cd : CD} {g : Granule} {nested : Bool} {iova : U64} {access : IOMMUAccessFlags}

lemma walkStart_upper (h : cd.UpperValid g) (hi : UpperAddress (64-cd.tsz1.toNat) iova) :
    walkStart pamax (stage1Ctx ste cd nested iova access) = .error evtFAddrSize := by
  have hm := h.sizeMax
  have hs := hi 63 (by omega) (by decide)
  have hse : selectTable (stage1Ctx ste cd nested iova access) = ⟨cd.ttb1,cd.tsz1,some g,false⟩ := by
    simp only [selectTable,stage1Ctx,hs,h.granule,h.enabled]
    rfl
  have hl : startLevel (stage1Ctx ste cd nested iova access).stage (stage1Ctx ste cd nested iova access).iova
      (stage1Ctx ste cd nested iova access).sl0 g (64-cd.tsz1.toNat)
      (min (outputSizeMap (stage1Ctx ste cd nested iova access).ips) pamax) = none :=
    startLevel_one_of_bit (by omega : 64-cd.tsz1.toNat ≤ 63) hs _ g _
  simp [walkStart,hse,hl,false_eq_true]

lemma walkStart_lowered (h : cd.UpperValid g) (hi : iova.toNat < 2^(64-cd.tsz1.toNat)) (pamax : ℕ) (ste : STE)
    (nested : Bool) (access : IOMMUAccessFlags) : walkStart pamax (stage1Ctx ste (cd.lowered g) nested iova access) =
      if checkOutAddr (tableBase g cd.ttb1 (64-cd.tsz1.toNat)) (min (outputSizeMap cd.ips) pamax) then
        .ok ⟨g,min (outputSizeMap cd.ips) pamax,stage1Level g (64-cd.tsz1.toNat),
          tableBase g cd.ttb1 (64-cd.tsz1.toNat)⟩
      else .error evtFAddrSize := by
  have hsi : iova.getLsbD 63 = false :=
    Nat.testBit_lt_two_pow (hi.trans_le (Nat.pow_le_pow_right two_pos (h.sizeMax.trans (by decide))))
  have hs : selectTable (stage1Ctx ste (cd.lowered g) nested iova access) = ⟨cd.ttb1,cd.tsz1,some g,false⟩ := by
    simp only [selectTable,stage1Ctx,CD.lowered,hsi,if_true,granuleOfTg_tgOf]
  have hl : startLevel (stage1Ctx ste (cd.lowered g) nested iova access).stage
      (stage1Ctx ste (cd.lowered g) nested iova access).iova (stage1Ctx ste (cd.lowered g) nested iova access).sl0 g
      (64-cd.tsz1.toNat) (min (outputSizeMap (stage1Ctx ste (cd.lowered g) nested iova access).ips) pamax) =
        some (stage1Level g (64-cd.tsz1.toNat)) :=
    startLevel_one_of_lt h.sizeMin h.sizeMax hi _ g _
  simp only [walkStart,hs,hl,false_eq_true,if_false]
  rfl

/-- Where nothing can be read, a walk that starts ends with another fault than the size of an address. -/
lemma started_walk_fails {ctx : PtwCtx} {w : WalkStart} (hw : walkStart pamax ctx = .ok w) (m : NoTarget) :
    ∃ f m', smmuv3Ptw64 pamax ctx m = (.error f,m') ∧ f.eventType ≠ evtFAddrSize := by
  have hs : ∀ level ttbr, ∃ f m', walkStep (fetchOf pamax ctx) ctx.iova w.granule w.outputsize level ttbr 0 none m =
      (.fault f,m') ∧ f.eventType ≠ evtFAddrSize := by
    intro level ttbr
    rw [walkStep]
    rcases fetchOf pamax ctx (ttbr ||| descIndex ctx.iova w.granule level) m with ⟨_ | d,m1⟩
    · exact ⟨_,_,rfl,(by decide : evtFTranslation ≠ evtFAddrSize)⟩
    · exact ⟨_,_,rfl,(by decide : evtFWalkEabt ≠ evtFAddrSize)⟩
  simp only [smmuv3Ptw64,walkWith,hw,descend]
  cases 3-w.level with
  | zero =>
    obtain ⟨f,m',hf,hev⟩ := hs 3 w.ttbr
    exact ⟨f,m',by simp only [walkLoop,hf],hev⟩
  | succ n =>
    obtain ⟨f,m',hf,hev⟩ := hs (2-n) w.ttbr
    exact ⟨f,m',by simp only [walkLoop,hf],hev⟩

lemma upperAsLower_iff (h : cd.UpperValid g) : UpperAsLower pamax ste cd g nested ↔
    checkOutAddr (tableBase g cd.ttb1 (64-cd.tsz1.toNat)) (min (outputSizeMap cd.ips) pamax) = false := by
  constructor
  · intro hl
    refine eq_false_iff.mpr fun hok => ?_
    have heq := hl NoTarget ⟨0⟩ (allOnes 64) .ro (allOnes_upper _)
    have hs := walkStart_lowered h (toNat_and_lowMask_lt (allOnes 64) _) pamax ste nested .ro
    rw [if_pos hok] at hs
    obtain ⟨f,m,hf,hev⟩ := started_walk_fails hs ⟨0⟩
    rw [hf,smmuv3Ptw64,walkWith,walkStart_upper h (allOnes_upper _)] at heq
    cases heq
    exact hev rfl
  · intro hb M _ m iova access hi
    have hs := walkStart_lowered h (toNat_and_lowMask_lt iova _) pamax ste nested access
    rw [hb,if_neg Bool.false_ne_true] at hs
    rw [smmuv3Ptw64,smmuv3Ptw64,walkWith,walkWith,walkStart_upper h hi,hs]

end

end Smmuv3

namespace Smmu500
variable (req : WalkReq)

def WalkReq.t1sz : ℕ := (extract32 ((req.tcr .one).setWidth 32) 16 6).toNat

/-- The fields of the second table are valid, for a stage-1 walk. -/
structure WalkReq.UpperValid (req : WalkReq) (g : Granule) : Prop where
  stage : req.stage = .one
  /-- `EPD1` -/
  enabled : (req.tcr .one).getLsbD 23 = false
  granule : granuleOfTg1 ((extract32 ((req.tcr .one).setWidth 32) 30 2).setWidth 2) = some g
  sizeMin : 25 ≤ 64-req.t1sz
  sizeMax : 64-req.t1sz ≤ 48

/-- The control register with `T0SZ` and `TG0` taken from the second table, and `EPD0` clear. -/
def loweredTcr (tcr : U64) (g : Granule) : U64 :=
  (tcr &&& ~~~lowMask 6 &&& ~~~(1#64 <<< 7) &&& ~~~(lowMask 2 <<< 14)) ||| extract64 tcr 16 6 |||
    ((tgOf g).setWidth 64 <<< 14)

/-- The request for the low bits, with the second table as the first. -/
def WalkReq.lowered (g : Granule) : WalkReq := { req with
    va := req.va &&& lowMask (64-req.t1sz)
    tcr := Function.update req.tcr .one (loweredTcr (req.tcr .one) g)
    ttbr0 := Function.update req.ttbr0 .one req.ttbr1 }

def WalkReq.withVa (va : U64) : WalkReq := { req with va := va }

/-- The upper range is translated through the second table as the low bits are through the first. -/
def UpperAsLower (pamax : ℕ) (banks : ℕ → ContextBank) (cb : ℕ) (req : WalkReq) (g : Granule) : Prop :=
  ∀ (M : Type) [DmaSocket M] (m : M) (va : U64), UpperAddress (64-req.t1sz) va →
    walk pamax banks cb (req.withVa va) m = walk pamax banks cb ((req.withVa va).lowered g) m

section
variable (tcr : U64) (g : Granule)

lemma getLsbD_loweredTcr {i : ℕ} (hi : i < 64) : (loweredTcr tcr g).getLsbD i =
      if i < 6 then tcr.getLsbD (16+i) else if i = 7 then false
      else if 14 ≤ i ∧ i < 16 then (tgOf g).getLsbD (i-14) else tcr.getLsbD i := by
  have ho : (1#64 <<< 7).getLsbD i = decide (i = 7) := by
    rw [← twoPow_eq,getLsbD_twoPow]
    simp [eq_comm]
  have htg : ∀ j, 2 ≤ j → (tgOf g).getLsbD j = false := fun j hj => getLsbD_of_ge _ _ hj
  simp only [loweredTcr,extract64,getLsbD_or,getLsbD_and,getLsbD_not,ho,getLsbD_lowMask,
    getLsbD_shiftLeft,getLsbD_ushiftRight,getLsbD_setWidth,hi,decide_true,Bool.true_and]
  by_cases h6 : i < 6
  · simp [h6,show i < 14 by omega,show i ≠ 7 by omega]
  · by_cases h7 : i = 7
    · simp [h7]
    · by_cases h14 : i < 14
      · simp [h6,h7,h14,show ¬ 14 ≤ i by omega]
      · by_cases h16 : i < 16
        · simp [h6,h7,h14,h16,show 14 ≤ i by omega,show i-14 < 2 by omega,show i-14 < 64 by omega]
        · simp [h6,h7,h14,h16,show ¬ i-14 < 2 by omega,htg (i-14) (by omega)]

lemma loweredTcr_t0sz : extract32 ((loweredTcr tcr g).setWidth 32) 0 6 = extract32 (tcr.setWidth 32) 16 6 := by
  apply eq_of_getLsbD_eq
  intro i hi
  by_cases h6 : i < 6
  · simp [extract32,h6,hi,getLsbD_loweredTcr tcr g (by omega : i < 64),show 16+i < 32 by omega]
  · simp [extract32,h6]

lemma loweredTcr_tg0 : (extract32 ((loweredTcr tcr g).setWidth 32) 14 2).setWidth 2 = tgOf g := by
  apply eq_of_getLsbD_eq
  intro i hi
  simp [extract32,hi,getLsbD_loweredTcr tcr g (by omega : 14+i < 64),show 14+i < 32 by omega,show i < 32 by omega,
    show ¬ 14+i < 6 by omega,show 14+i ≠ 7 by omega,show 14+i < 16 by omega]

lemma loweredTcr_epd0 : bit32 ((loweredTcr tcr g).setWidth 32) 7 = false := by
  rw [bit32,getLsbD_setWidth,getLsbD_loweredTcr tcr g (by decide)]
  rfl

lemma loweredTcr_high {i : ℕ} (hi : 16 ≤ i) : (loweredTcr tcr g).getLsbD i = tcr.getLsbD i := by
  by_cases h64 : i < 64
  · rw [getLsbD_loweredTcr tcr g h64,if_neg (by omega),if_neg (by omega),if_neg (by omega)]
  · rw [getLsbD_of_ge _ _ (by omega),getLsbD_of_ge _ _ (by omega)]

end

/-- The assertion on the descriptor format holds. -/
def WalkReq.longFormat (va64 : Bool) : Bool := va64 || bit32 ((req.tcr .one).setWidth 32) 31

section
variable {req : WalkReq} {g : Granule}

section
variable (h : req.UpperValid g)
include h

lemma WalkReq.UpperValid.withVa (va : U64) : (req.withVa va).UpperValid g :=
  ⟨h.stage,h.enabled,h.granule,h.sizeMin,h.sizeMax⟩

lemma walkStart_upper (hva : UpperAddress (64-req.t1sz) req.va) (pamax : ℕ) (va64 : Bool) :
    walkStart pamax va64 req = .error (if req.longFormat va64 then .fault {} else .stop) := by
  have hm := h.sizeMax
  have hs := hva 63 (by omega) (by decide)
  simp only [walkStart,selectTable,h.stage,hs]
  cases hf : req.longFormat va64 with
  | false =>
    rw [WalkReq.longFormat] at hf
    simp [hf,false_eq_true]
  | true =>
    rw [WalkReq.longFormat] at hf
    simp only [hf,Bool.not_true,false_eq_true,if_false,true_eq_false,if_true]
    cases va64 with
    | true =>
      -- with three bits the size field gives too large an input size
      have hfi : (extract32 ((req.tcr .one).setWidth 32) 16 3).toNat < 2^3 := by
        rw [extract32,toNat_and_lowMask]
        exact Nat.mod_lt _ (by decide)
      have hl : startLevel .one req.va (startlevelField req) .g4k
          (64-(extract32 ((req.tcr .one).setWidth 32) 16 3).toNat) (min (outputSizeMap (physicalSize req)) pamax) = none := by
        exact if_pos (Or.inr (Or.inl (by rw [inputSizeMax]; omega)))
      simp [hl]
    | false =>
      have hl := startLevel_one_of_bit (by omega : 64-req.t1sz ≤ 63) hs (startlevelField req) g
      rw [WalkReq.t1sz] at hl
      simp [false_eq_true,h.granule,hl]

lemma physicalSize_lowered : physicalSize (req.lowered g) = physicalSize req := by
  have he : extract64 (loweredTcr (req.tcr .one) g) 32 3 = extract64 (req.tcr .one) 32 3 := by
    apply eq_of_getLsbD_eq
    intro i hi
    simp [extract64,loweredTcr_high (req.tcr .one) g (by omega : 16 ≤ 32+i)]
  simp [physicalSize,WalkReq.lowered,h.stage,he]

lemma walkStart_lowered (pamax : ℕ) (va64 : Bool) : walkStart pamax va64 (req.lowered g) =
      if req.longFormat va64 then
        if checkOutAddr (tableBase g req.ttbr1 (64-req.t1sz)) (min (outputSizeMap (physicalSize req)) pamax) then
          .ok ⟨g,min (outputSizeMap (physicalSize req)) pamax,stage1Level g (64-req.t1sz),
            tableBase g req.ttbr1 (64-req.t1sz)⟩
        else .error (.fault {})
      else .error .stop := by
  have hlo := toNat_and_lowMask_lt req.va (64-req.t1sz)
  have hsi := getLsbD_low req.va h.sizeMax
  have hf : bit32 ((loweredTcr (req.tcr .one) g).setWidth 32) 31 = bit32 ((req.tcr .one).setWidth 32) 31 := by
    rw [bit32,bit32,getLsbD_setWidth,getLsbD_setWidth,loweredTcr_high (req.tcr .one) g (by decide)]
  have hs : selectTable va64 (req.lowered g) =
      if req.longFormat va64 then some ⟨req.ttbr1,req.t1sz,some g,false⟩ else none := by
    simp only [selectTable,WalkReq.lowered,h.stage,Function.update_self,hf,hsi,if_true,loweredTcr_t0sz,
      loweredTcr_tg0,loweredTcr_epd0,granuleOfTg_tgOf,WalkReq.longFormat]
    rcases eq_false_or_eq_true (va64 || bit32 ((req.tcr .one).setWidth 32) 31) with ht | hfa
    · simp only [ht,Bool.not_true,false_eq_true,if_false,if_true]
      rfl
    · simp [hfa,false_eq_true]
  have hl := startLevel_one_of_lt h.sizeMin h.sizeMax hlo (startlevelField (req.lowered g)) g
  have hst : (req.lowered g).stage = .one := h.stage
  have hva : (req.lowered g).va = req.va &&& lowMask (64-req.t1sz) := rfl
  rw [walkStart,hs]
  cases req.longFormat va64 with
  | false => rfl
  | true =>
    simp only [if_true,false_eq_true,if_false,physicalSize_lowered h,hst,hva,hl]
    rfl

end

end

lemma started_walk_fails {pamax cb : ℕ} {banks : ℕ → ContextBank} {req : WalkReq} {w : WalkStart}
    (hon : bit32 (banks cb).sctlr 0 = true) (hw : walkStart pamax (bit32 (banks cb).cba2r 0) req = .ok w) :
    walk pamax banks cb req (⟨0⟩ : NoTarget) ≠ (.error (.fault {}),⟨0⟩) := by
  have hfe : ∀ addr, (fetchOf pamax banks req addr (⟨0⟩ : NoTarget)).1 ≠ .error (.fault {}) := by
    intro addr
    have hn : (nestedFetch pamax banks req addr (⟨0⟩ : NoTarget)).1 ≠ .error (.fault {}) := by
      rw [nestedFetch]
      rcases walkWith plainFetch pamax (banks req.s2Cb) (req.atStage2 addr) (⟨0⟩ : NoTarget) with ⟨(f | _) | l,m⟩
      all_goals simp
    rw [fetchOf]
    cases req.stage <;> cases req.s2Enabled <;> first | exact hn | simp [plainFetch]
  have hst : ∀ level ttbr, ∃ h m, walkStep (fetchOf pamax banks req) req.va w.granule w.outputsize level ttbr 0
      (⟨0⟩ : NoTarget) = (.error h,m) ∧ (h,m) ≠ (.fault {},⟨0⟩) := by
    intro level ttbr
    have he := hfe (ttbr ||| descIndex req.va w.granule level)
    rw [walkStep]
    rcases hf : fetchOf pamax banks req (ttbr ||| descIndex req.va w.granule level) (⟨0⟩ : NoTarget) with ⟨h | d,m⟩
    · rw [hf] at he
      exact ⟨h,m,rfl,fun heq => he (congrArg Except.error (congrArg Prod.fst heq))⟩
    · exact ⟨_,_,rfl,fun heq => Nat.succ_ne_zero _ (congrArg (fun x => x.2.reads) heq)⟩
  simp only [walk,walkWith,hon,Bool.not_true,false_eq_true,if_false,hw]
  cases 3-w.level with
  | zero =>
    obtain ⟨h,m,hs,hne⟩ := hst 3 w.ttbr
    simp only [walkLoop,hs]
    exact fun heq => hne (by cases heq; rfl)
  | succ n =>
    obtain ⟨h,m,hs,hne⟩ := hst (2-n) w.ttbr
    simp only [walkLoop,hs]
    exact fun heq => hne (by cases heq; rfl)

lemma upperAsLower_iff {pamax cb : ℕ} {banks : ℕ → ContextBank} {req : WalkReq} {g : Granule}
    (hon : bit32 (banks cb).sctlr 0 = true) (h : req.UpperValid g) :
    UpperAsLower pamax banks cb req g ↔ req.longFormat (bit32 (banks cb).cba2r 0) = false ∨
      checkOutAddr (tableBase g req.ttbr1 (64-req.t1sz)) (min (outputSizeMap (physicalSize req)) pamax) = false := by
  have hu : ∀ {M : Type} [DmaSocket M] (m : M) {va : U64}, UpperAddress (64-req.t1sz) va →
      walk pamax banks cb (req.withVa va) m =
        (.error (if req.longFormat (bit32 (banks cb).cba2r 0) then .fault {} else .stop),m) := by
    intro M _ m va hva
    simp only [walk,walkWith,hon,Bool.not_true,false_eq_true,if_false,walkStart_upper (h.withVa va) hva]
    rfl
  have hl : ∀ va, walkStart pamax (bit32 (banks cb).cba2r 0) ((req.withVa va).lowered g) =
      if req.longFormat (bit32 (banks cb).cba2r 0) then
        if checkOutAddr (tableBase g req.ttbr1 (64-req.t1sz)) (min (outputSizeMap (physicalSize req)) pamax) then
          .ok ⟨g,min (outputSizeMap (physicalSize req)) pamax,stage1Level g (64-req.t1sz),
            tableBase g req.ttbr1 (64-req.t1sz)⟩
        else .error (.fault {})
      else .error .stop :=
    fun va => walkStart_lowered (h.withVa va) pamax _
  constructor
  · intro hla
    by_contra hc
    obtain ⟨hf,hok⟩ := not_or.mp hc
    rw [not_eq_false] at hf hok
    have heq := hla NoTarget ⟨0⟩ (allOnes 64) (allOnes_upper _)
    have hs := hl (allOnes 64)
    rw [if_pos hf,if_pos hok] at hs
    rw [hu (⟨0⟩ : NoTarget) (allOnes_upper _),if_pos hf] at heq
    exact started_walk_fails hon hs heq.symm
  · intro hb M _ m va hva
    have hsa : walkStart pamax (bit32 (banks cb).cba2r 0) ((req.withVa va).lowered g) =
        .error (if req.longFormat (bit32 (banks cb).cba2r 0) then .fault {} else .stop) := by
      rw [hl va]
      cases hf : req.longFormat (bit32 (banks cb).cba2r 0) with
      | false => rfl
      | true =>
        have ho := hb.resolve_left (by rw [hf]; decide)
        rw [if_pos rfl,if_pos rfl,ho]
        rfl
    rw [hu m hva]
    simp [walk,walkWith,hon,false_eq_true,hsa]

end Smmu500

/-- An upper address is translated through `TTBR1` as its low bits through `TTBR0` exactly when neither walk gets to
its tables: the start table is beyond the output size, or the SMMU-500 stops. -/
theorem upper_range_iff (pamax : ℕ) (ste : Smmuv3.STE) (cd : Smmuv3.CD) (g : Granule) (nested : Bool)
    (hcd : cd.UpperValid g) (banks : ℕ → Smmu500.ContextBank) (cb : ℕ) (req : Smmu500.WalkReq) (g' : Granule)
    (hon : bit32 (banks cb).sctlr 0 = true) (hreq : req.UpperValid g') : (Smmuv3.UpperAsLower pamax ste cd g nested ↔
      checkOutAddr (tableBase g cd.ttb1 (64-cd.tsz1.toNat)) (min (outputSizeMap cd.ips) pamax) = false) ∧
    (Smmu500.UpperAsLower pamax banks cb req g' ↔ req.longFormat (bit32 (banks cb).cba2r 0) = false ∨
      checkOutAddr (tableBase g' req.ttbr1 (64-req.t1sz)) (min (outputSizeMap (Smmu500.physicalSize req)) pamax) =
        false) :=
  ⟨Smmuv3.upperAsLower_iff hcd,Smmu500.upperAsLower_iff hon hreq⟩

section
def upperCd : Smmuv3.CD := { ttb1 := 0x20000, tsz1 := 25, tg1 := 2 }

def upperBank : Smmu500.ContextBank := { sctlr := 1, tcrLpae := 0x80190000, ttbr1Low := 0x20000, cbar := 0x10000 }

def upperReq (va : U64) : Smmu500.WalkReq := Smmu500.walkReq (fun _ => upperBank) 0 va false

def upperRam : Ram := ⟨[(0x20000,0x21003),(0x21000,0x22003),(0x22008,0x5443)],[]⟩

lemma upperCd_valid : upperCd.UpperValid .g4k := ⟨rfl,rfl,by decide,by decide⟩

lemma upperReq_valid : (upperReq 0).UpperValid .g4k := ⟨by decide,by decide,by decide,by decide,by decide⟩

theorem upper_range_sample :
    ¬ Smmuv3.UpperAsLower 48 {} upperCd .g4k false ∧ ¬ Smmu500.UpperAsLower 48 (fun _ => upperBank) 0 (upperReq 0) .g4k := by
  have h := upper_range_iff 48 {} upperCd .g4k false upperCd_valid (fun _ => upperBank) 0 (upperReq 0) .g4k
    (by decide) upperReq_valid
  rw [h.1,h.2]
  exact ⟨by decide,by decide⟩

/-- The upper page at `0x1234` is mapped, as the lower one that the same tables map. -/
theorem upper_page_refused :
    (Smmuv3.smmuv3Ptw64 48 (Smmuv3.stage1Ctx {} upperCd false 0xFFFFFF8000001234 .ro) upperRam).1 =
        .error { eventType := Smmuv3.evtFAddrSize } ∧
      (Smmuv3.smmuv3Ptw64 48 (Smmuv3.stage1Ctx {} (upperCd.lowered .g4k) false 0x1234 .ro) upperRam).1 =
        .ok ⟨0x5234,12,0x5443,0,0x22008,.rw⟩ ∧
      (Smmu500.walk 48 (fun _ => upperBank) 0 (upperReq 0xFFFFFF8000001234) upperRam).1 = .error (.fault {}) ∧
      (Smmu500.walk 48 (fun _ => upperBank) 0 ((upperReq 0xFFFFFF8000001234).lowered .g4k) upperRam).1 =
        .ok ⟨0x5234,some 12,.rw⟩ := by
  refine ⟨by decide +kernel,by decide +kernel,by decide +kernel,by decide +kernel⟩

end

end Qbox
