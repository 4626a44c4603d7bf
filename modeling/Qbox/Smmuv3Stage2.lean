import Qbox.Smmuv3WalkLog

/-! The input range of stage 2. The walker compares an address with the input size for stage 1 only, and it spaces
concatenated start tables by more than their size. -/
namespace Qbox.Smmuv3
open MachineWord DmaSocket BitVec

section
/-- A table above the last level and a page at it, accessed and without restrictions of stage 2. -/
def anyDesc : U64 := 0x4C3

def filled : SameWord := ⟨anyDesc⟩

lemma outputBase_anyDesc (g : Granule) : outputBase g anyDesc = 0 := by
  cases g <;> decide

lemma checkOutAddr_zero (outputsize : ℕ) : checkOutAddr 0 outputsize = true := by
  refine (checkOutAddr_iff (by decide) outputsize).mpr ?_
  exact Nat.two_pow_pos outputsize

lemma classify_anyDesc (g : Granule) (outputsize level : ℕ) (attrs : U32) (d : U64) :
    classify g outputsize level attrs d anyDesc =
      if level = 3 then .leaf ⟨0,anyDesc,3,attrs,d⟩ else .table 0 attrs d := by
  have ht : (anyDesc &&& 3).toNat = 3 := by decide
  have ha : (extract64 anyDesc 59 5).setWidth 32 = 0#32 := by decide
  have hb : extract64 anyDesc 0 paBits &&& ~~~g.descmask = 0 := outputBase_anyDesc g
  simp only [classify,ht,ha,hb,checkOutAddr_zero,if_true,or_zero]
  by_cases h3 : level = 3
  · rw [if_pos h3,if_pos h3,h3]
  · rw [if_neg h3,if_neg h3]

lemma walkLoop_filled (iova : U64) (g : Granule) (outputsize n : ℕ) (ttbr : U64) (attrs : U32) (last : Option U64) :
    ∃ d, walkLoop plainFetch iova g outputsize n ttbr attrs last filled = (.ok ⟨0,anyDesc,3,attrs,d⟩,filled) := by
  have hs : ∀ level ttbr last, walkStep plainFetch iova g outputsize level ttbr attrs last filled =
      (classify g outputsize level attrs (ttbr ||| descIndex iova g level) anyDesc,filled) := by
    intro level ttbr last
    rfl
  induction n generalizing ttbr last with
  | zero =>
    rw [walkLoop,hs,classify_anyDesc]
    exact ⟨_,rfl⟩
  | succ n ih =>
    rw [walkLoop,hs,classify_anyDesc,if_neg (by omega)]
    exact ih 0 _

/-- On the filled memory a walk of stage 2 that starts succeeds. -/
lemma stage2_walk_filled {pamax : ℕ} {ste : STE} {ipa : U64} {access : IOMMUAccessFlags} {w : WalkStart}
    (hw : walkStart pamax (stage2Ctx ste ipa access) = .ok w) :
    ∃ leaf, walkWith plainFetch pamax (stage2Ctx ste ipa access) filled = (.ok leaf,filled) := by
  have hf : bit32 (leafAttrs anyDesc) 8 = true := by decide
  have hp : stage2Prot access (leafAttrs anyDesc) = some .rw := rfl
  obtain ⟨d,hd⟩ := walkLoop_filled ipa w.granule w.outputsize (3-w.level) w.ttbr 0 none
  refine ⟨_,walkWith_eq_ok.mpr ⟨w,_,_,hw,hd,walkResult_eq_ok.mpr ⟨checkOutAddr_zero _,.rw,?_,rfl⟩⟩⟩
  simp [checkLeaf,accessFlag,permission,stage2Ctx,checkedAttrs,hf,hp]

end

section
variable {pamax : ℕ} {ste : STE} {ipa : U64} {access : IOMMUAccessFlags} {w : WalkStart}

lemma stage2_inputsize_lt {sl0 : BitVec 2} {g : Granule} {inputsize outputsize level : ℕ}
    (hl : startLevel .two ipa sl0 g inputsize outputsize = some level)
    (hco : concatBits .two inputsize (g.levelCoverage level) ≤ 4) : inputsize < 64 := by
  have hcv : g.levelCoverage level ≤ 55 := by
    simp only [startLevel] at hl
    split_ifs at hl with h4k hc hc
    · cases hl
      have hz : g.levelCoverage (((2 : ℤ)-sl0.toNat).toNat) ≤ g.levelCoverage 0 :=
        Nat.add_le_add_left (Nat.mul_le_mul_right _ (by omega)) _
      rw [h4k] at hz ⊢
      exact hz.trans (by decide)
    · have hne : ((3 : ℤ)-sl0.toNat) ≠ 0 := by
        intro h0
        rw [h0] at hc
        cases g
        · exact h4k rfl
        · simp [checkS2Startlevel] at hc
        · simp [checkS2Startlevel] at hc
      cases hl
      have ho : g.levelCoverage (((3 : ℤ)-sl0.toNat).toNat) ≤ g.levelCoverage 1 :=
        Nat.add_le_add_left (Nat.mul_le_mul_right _ (by omega)) _
      refine ho.trans ?_
      cases g <;> decide
  rw [concatBits] at hco
  omega

lemma checkOutAddr_of_or {a b : U64} {outputsize : ℕ} (h : checkOutAddr (a ||| b) outputsize = true) :
    checkOutAddr a outputsize = true := by
  rw [checkOutAddr,Bool.or_eq_true,decide_eq_true_eq,beq_iff_eq] at h ⊢
  refine h.imp_right fun hz => ?_
  apply eq_of_getLsbD_eq
  intro i hi
  have hb := congrArg (fun x => x.getLsbD i) hz
  simp only [extract64,getLsbD_and,getLsbD_ushiftRight,getLsbD_or] at hb ⊢
  revert hb
  cases a.getLsbD (outputsize+i) <;> simp

/-- Where the start table of an address lies behind the base of the tables. -/
def concatOffset (g : Granule) (level inputsize : ℕ) (ipa : U64) : U64 :=
  ((ipa >>> g.levelCoverage level) &&& lowMask (concatBits .two inputsize (g.levelCoverage level)))*
    (1#64 <<< (g.grainsize+g.stride))

lemma startBase_stage2 (ste : STE) (ipa : U64) (access : IOMMUAccessFlags) (g : Granule) (ttbr : U64)
    (level inputsize : ℕ) : startBase (stage2Ctx ste ipa access) g ttbr level inputsize =
      extract64 ttbr 0 paBits &&& ~~~lowMask (baselowerbound g level inputsize % 64) |||
        concatOffset g level inputsize ipa := by
  simp only [startBase,concatOffset]
  by_cases hp : 0 < concatBits .two inputsize (g.levelCoverage level)
  · exact if_pos hp
  · have hz := Nat.eq_zero_of_not_pos hp
    refine (if_neg hp).trans ?_
    rw [hz]
    simp [lowMask]

lemma concatOffset_zero (g : Granule) (level inputsize : ℕ) : concatOffset g level inputsize 0 = 0#64 := by
  simp [concatOffset]

/-- The first address beyond the range uses the first table. -/
lemma concatOffset_beyond {g : Granule} {level inputsize : ℕ} (h : inputsize < 64) :
    concatOffset g level inputsize (1#64 <<< inputsize) = 0#64 := by
  have hi : (1#64 <<< inputsize) >>> g.levelCoverage level &&&
      lowMask (concatBits .two inputsize (g.levelCoverage level)) = 0#64 := by
    refine eq_of_toNat_eq ?_
    rw [toNat_and_lowMask,toNat_ushiftRight,toNat_one_shiftLeft h,Nat.shiftRight_eq_div_pow,concatBits]
    by_cases hc : g.levelCoverage level ≤ inputsize
    · rw [Nat.pow_div hc two_pos,Nat.mod_self]
      rfl
    · rw [Nat.sub_eq_zero_of_le (le_of_not_ge hc),pow_zero,Nat.mod_one]
      rfl
  rw [concatOffset,hi,zero_mul]

lemma walkStart_stage2_zero (hw : walkStart pamax (stage2Ctx ste ipa access) = .ok w) :
    ∃ w0, walkStart pamax (stage2Ctx ste 0 .ro) = .ok w0 := by
  obtain ⟨-,g,hg,level,hl,hc,ho,-⟩ := walkStart_eq_ok.mp hw
  refine ⟨_,walkStart_eq_ok.mpr ⟨rfl,g,hg,level,hl,hc,?_,rfl⟩⟩
  rw [startBase_stage2] at ho ⊢
  rw [concatOffset_zero,or_zero]
  exact checkOutAddr_of_or ho

lemma walkStart_stage2_beyond (hw : walkStart pamax (stage2Ctx ste 0 .ro) = .ok w) (access : IOMMUAccessFlags) :
    ∃ ipa : U64, 2^(64-ste.s2t0sz.toNat) ≤ ipa.toNat ∧ walkStart pamax (stage2Ctx ste ipa access) = .ok w := by
  obtain ⟨-,g,hg,level,hl,hc,ho,rfl⟩ := walkStart_eq_ok.mp hw
  have hlt : 64-ste.s2t0sz.toNat < 64 := stage2_inputsize_lt hl hc
  have hb : startBase (stage2Ctx ste (1#64 <<< (64-ste.s2t0sz.toNat)) access) g ste.s2ttb level
      (64-ste.s2t0sz.toNat) = startBase (stage2Ctx ste 0 .ro) g ste.s2ttb level (64-ste.s2t0sz.toNat) := by
    rw [startBase_stage2,startBase_stage2,concatOffset_beyond hlt,concatOffset_zero]
  refine ⟨1#64 <<< (64-ste.s2t0sz.toNat),(toNat_one_shiftLeft hlt).ge,
    walkStart_eq_ok.mpr ⟨rfl,g,hg,level,hl,hc,?_,?_⟩⟩
  · exact (congrArg (checkOutAddr · _) hb).trans ho
  · exact congrArg (WalkStart.mk g _ level) hb.symm

/-- Stage 2 answers no address beyond its input range: for stage 2 alone, for stage 1's output, nor for its
descriptors. -/
structure STE.Stage2Bounded (pamax : ℕ) (ste : STE) : Prop where
  stream : ∀ (M : Type) [DmaSocket M] (m : M) (req : TransReq), req.ste = ste →
    2^(64-ste.s2t0sz.toNat) ≤ req.iova.toNat → (walkTables pamax .s2 req m).1.err = true
  output : ∀ (M : Type) [DmaSocket M] (m m1 : M) (req : TransReq) (leaf : PtwLeaf), req.ste = ste →
    smmuv3Ptw64 pamax (stage1Ctx ste req.cd true req.iova req.access) m = (.ok leaf,m1) →
    2^(64-ste.s2t0sz.toNat) ≤ leaf.pa.toNat → (walkTables pamax .nested req m).1.err = true
  fetch : ∀ (M : Type) [DmaSocket M] (m : M) (descaddr : U64), 2^(64-ste.s2t0sz.toNat) ≤ descaddr.toNat →
    (nestedFetch pamax ste descaddr m).1 = none

/-- No walk of the stream's stage 2 starts: its granule, start level or table base is refused. -/
def STE.Stage2Refused (pamax : ℕ) (ste : STE) : Prop := ∀ w, walkStart pamax (stage2Ctx ste 0 .ro) ≠ .ok w

lemma STE.Stage2Refused.walk_error {M : Type} [DmaSocket M] (h : ste.Stage2Refused pamax)
    (fetch : U64 → M → Option U64 × M) (ipa : U64) (access : IOMMUAccessFlags) (m : M) :
    ∃ f, walkWith fetch pamax (stage2Ctx ste ipa access) m = (.error f,m) := by
  cases hw : walkStart pamax (stage2Ctx ste ipa access) with
  | error ev => exact ⟨{ eventType := ev },by rw [walkWith,hw]⟩
  | ok w =>
    obtain ⟨w0,hw0⟩ := walkStart_stage2_zero hw
    exact absurd hw0 (h w0)

/-- Stage 2 rejects the addresses outside its input range exactly for the streams for which it rejects all. -/
theorem stage2_bounded_iff (pamax : ℕ) (ste : STE) : ste.Stage2Bounded pamax ↔ ste.Stage2Refused pamax := by
  constructor
  · intro h w hw
    obtain ⟨ipa,hi,hs⟩ := walkStart_stage2_beyond hw .ro
    obtain ⟨leaf,hl⟩ := stage2_walk_filled hs
    have hn := h.fetch SameWord filled ipa hi
    rw [nestedFetch,hl] at hn
    cases hn
  · intro h
    refine ⟨fun M _ m req hst _ => ?_,fun M _ m m1 req leaf hst hfi _ => ?_,fun M _ m descaddr _ => ?_⟩
    · subst hst
      obtain ⟨f,hf⟩ := h.walk_error (fetchOf pamax (stage2Ctx req.ste req.iova req.access)) req.iova req.access m
      simp [walkTables,smmuv3Ptw64,hf,TransReq.store_error_err]
    · subst hst
      obtain ⟨f,hf⟩ := h.walk_error (fetchOf pamax (stage2Ctx req.ste leaf.pa req.access)) leaf.pa req.access m1
      simp only [walkTables,hfi,TransReq.store_ok_err,Bool.false_eq_true,if_false,TransReq.store_ste,
        TransReq.store_ok_pa,TransReq.store_access]
      rw [smmuv3Ptw64,hf]
      rfl
    · obtain ⟨f,hf⟩ := h.walk_error plainFetch descaddr .ro m
      rw [nestedFetch,hf]

/-- With 32 input bits the start table has four entries; `2 ^ 32 + 0x1234` is answered from behind them. -/
theorem stage2_beyond_range : let ste : STE := { s2t0sz := 32, s2sl0 := 1, s2ps := 5, s2ttb := 0x20000 }
    let m : Ram := ⟨[(0x20020,0x4C1)],[]⟩
    (smmuv3Ptw64 48 (stage2Ctx ste 0x100001234 .ro) m).1 = .ok ⟨0x1234,30,0x4C1,0,0x20020,.rw⟩ ∧
      (walkTables 48 .s2 { iova := 0x100001234, access := .ro, ste := ste } m).1.err = false ∧ ¬ ste.Stage2Bounded 48 := by
  intro ste m
  have he : (walkTables 48 .s2 { iova := 0x100001234, access := .ro, ste := ste } m).1.err = false := by decide +kernel
  refine ⟨by decide +kernel,he,fun h => ?_⟩
  have hr := h.stream Ram m { iova := 0x100001234, access := .ro, ste := ste } rfl (by decide)
  rw [he] at hr
  cases hr

end

section
variable {ste : STE} {g : Granule} {level : ℕ}

/-- The address of the descriptor that a stage-2 walk of `ipa` reads first. -/
def startDesc (ste : STE) (g : Granule) (level : ℕ) (ipa : U64) : U64 :=
  startBase (stage2Ctx ste ipa .ro) g ste.s2ttb level (64-ste.s2t0sz.toNat) ||| descIndex ipa g level

/-- Bits of the address that select a descriptor of the start tables. -/
def selectBits (g : Granule) (level : ℕ) (ipa : U64) : ℕ := ipa.toNat/2^g.addrselectbottom level

/-- A stream's start tables lie in the space their base's alignment leaves, with a descriptor for every value of the
bits. -/
structure StartTablesConsistent (ste : STE) (g : Granule) (level : ℕ) : Prop where
  contained : ∀ ipa : U64, ipa.toNat < 2^(64-ste.s2t0sz.toNat) →
    (extract64 ste.s2ttb 0 paBits).toNat ≤ (startDesc ste g level ipa).toNat ∧ (startDesc ste g level ipa).toNat <
        (extract64 ste.s2ttb 0 paBits).toNat+2^baselowerbound g level (64-ste.s2t0sz.toNat)
  distinct : ∀ ipa ipa' : U64, ipa.toNat < 2^(64-ste.s2t0sz.toNat) → ipa'.toNat < 2^(64-ste.s2t0sz.toNat) →
    selectBits g level ipa ≠ selectBits g level ipa' → startDesc ste g level ipa ≠ startDesc ste g level ipa'

lemma coverage_eq (g : Granule) (level : ℕ) : g.levelCoverage level = g.addrselectbottom level+g.stride := by
  rw [Granule.levelCoverage,Granule.addrselectbottom]
  ring

section
variable (hbits : g.addrselectbottom level ≤ 3+(64-ste.s2t0sz.toNat))
  (haligned : 2^baselowerbound g level (64-ste.s2t0sz.toNat) ∣ (extract64 ste.s2ttb 0 paBits).toNat)

include hbits haligned

lemma startDesc_of_aligned (ipa : U64) : startDesc ste g level ipa =
      extract64 ste.s2ttb 0 paBits ||| concatOffset g level (64-ste.s2t0sz.toNat) ipa ||| descIndex ipa g level := by
  have h12 := g.twelve_le_addrselectbottom level
  have hlt : baselowerbound g level (64-ste.s2t0sz.toNat) < 64 := by
    rw [baselowerbound_eq (by omega) hbits]
    omega
  have hb : extract64 ste.s2ttb 0 paBits &&&
      ~~~lowMask (baselowerbound g level (64-ste.s2t0sz.toNat) % 64) = extract64 ste.s2ttb 0 paBits := by
    refine eq_of_toNat_eq ?_
    rw [Nat.mod_eq_of_lt hlt,toNat_and_not_lowMask,Nat.div_mul_cancel haligned]
  rw [startDesc,startBase_stage2,hb]

/-- One table is contained and has a descriptor for each entry. -/
lemma consistent_of_single (hsi : 64-ste.s2t0sz.toNat ≤ g.levelCoverage level) :
    StartTablesConsistent ste g level := by
  have hb := baselowerbound_eq (by omega : 64-ste.s2t0sz.toNat ≤ 64) hbits
  have ho : ∀ ipa, concatOffset g level (64-ste.s2t0sz.toNat) ipa = 0#64 := by
    intro ipa
    rw [concatOffset,concatBits,Nat.sub_eq_zero_of_le hsi]
    simp [lowMask]
  have hs : ∀ ipa : U64, ipa.toNat < 2^(64-ste.s2t0sz.toNat) →
      (descIndex ipa g level).toNat = selectBits g level ipa*8 ∧
        selectBits g level ipa*8 < 2^baselowerbound g level (64-ste.s2t0sz.toNat) := by
    intro ipa hip
    have hlt : selectBits g level ipa < 2^(64-ste.s2t0sz.toNat-g.addrselectbottom level) := by
      rw [selectBits,Nat.div_lt_iff_lt_mul (Nat.two_pow_pos _),← pow_add]
      exact hip.trans_le (Nat.pow_le_pow_right two_pos (by omega))
    constructor
    · rw [toNat_descIndex,← selectBits,Nat.mod_eq_of_lt]
      refine hlt.trans_le (Nat.pow_le_pow_right two_pos ?_)
      rw [coverage_eq] at hsi
      omega
    · by_cases hr : g.addrselectbottom level ≤ 64-ste.s2t0sz.toNat
      · rw [hb,show 3+(64-ste.s2t0sz.toNat)-g.addrselectbottom level =
          64-ste.s2t0sz.toNat-g.addrselectbottom level+3 by omega,pow_add]
        exact Nat.mul_lt_mul_of_pos_right hlt (by decide)
      · rw [Nat.sub_eq_zero_of_le (le_of_not_ge hr),pow_zero,Nat.lt_one_iff] at hlt
        rw [hlt,Nat.zero_mul]
        exact Nat.two_pow_pos _
  have hd : ∀ ipa : U64, ipa.toNat < 2^(64-ste.s2t0sz.toNat) →
      (startDesc ste g level ipa).toNat = (extract64 ste.s2ttb 0 paBits).toNat+selectBits g level ipa*8 := by
    intro ipa hip
    obtain ⟨hi,hlt⟩ := hs ipa hip
    rw [startDesc_of_aligned hbits haligned,ho,or_zero,toNat_or_of_dvd haligned (by rw [hi]; exact hlt),hi]
  refine ⟨fun ipa hip => ?_,fun ipa ipa' hip hip' hne heq => hne ?_⟩
  · rw [hd ipa hip]
    exact ⟨Nat.le_add_right _ _,Nat.add_lt_add_left (hs ipa hip).2 _⟩
  · have hn := congrArg BitVec.toNat heq
    rw [hd ipa hip,hd ipa' hip'] at hn
    omega

section
variable (hc : g.levelCoverage level < 64-ste.s2t0sz.toNat)
include hc

/-- The second table lies at the distance of a whole table of tables, and takes no bit of the alignment. -/
lemma startDesc_second :
    startDesc ste g level (1#64 <<< g.levelCoverage level) =
      extract64 ste.s2ttb 0 paBits ||| twoPow 64 (g.grainsize+g.stride) := by
  have ho : (1#64 <<< g.levelCoverage level).toNat = 2^g.levelCoverage level := toNat_one_shiftLeft (by omega)
  have hix : (1#64 <<< g.levelCoverage level) >>> g.levelCoverage level &&&
      lowMask (concatBits .two (64-ste.s2t0sz.toNat) (g.levelCoverage level)) = 1#64 := by
    refine eq_of_toNat_eq ?_
    rw [toNat_and_lowMask,toNat_ushiftRight,ho,Nat.shiftRight_eq_div_pow,Nat.div_self (Nat.two_pow_pos _),concatBits]
    exact Nat.mod_eq_of_lt (Nat.one_lt_two_pow (by omega))
  have hi : descIndex (1#64 <<< g.levelCoverage level) g level = 0#64 := by
    refine eq_of_toNat_eq ?_
    rw [toNat_descIndex,ho,coverage_eq,Nat.pow_div (Nat.le_add_right _ _) two_pos,Nat.add_sub_cancel_left,Nat.mod_self]
    rfl
  rw [startDesc_of_aligned hbits haligned,hi,concatOffset,hix,BitVec.one_mul,or_zero,twoPow_eq]

/-- The second table collides with the first, or lies outside, as the base has the bit of the distance or not. -/
lemma not_consistent_of_concat
    (hfo : concatBits .two (64-ste.s2t0sz.toNat) (g.levelCoverage level) ≤ 4) :
    ¬ StartTablesConsistent ste g level := by
  intro h
  have hco := coverage_eq g level
  have hst : 9 ≤ g.stride ∧ g.stride ≤ 13 := by cases g <;> decide
  have ho : (1#64 <<< g.levelCoverage level).toNat = 2^g.levelCoverage level := toNat_one_shiftLeft (by omega)
  have hin : (1#64 <<< g.levelCoverage level).toNat < 2^(64-ste.s2t0sz.toNat) := by
    rw [ho]
    exact Nat.pow_lt_pow_right (by decide) hc
  have hs := startDesc_second hbits haligned hc
  by_cases hbi : extract64 ste.s2ttb 0 paBits &&& twoPow 64 (g.grainsize+g.stride) = 0
  · -- outside: the distance is added to the base
    have hb : (extract64 ste.s2ttb 0 paBits).toNat < 2^48 := by
      rw [toNat_extract64]
      exact Nat.mod_lt _ (Nat.two_pow_pos _)
    have hd : (twoPow 64 (g.grainsize+g.stride)).toNat = 2^(g.grainsize+g.stride) := by
      exact toNat_one_shiftLeft (by cases g <;> decide)
    have hsm : 2^(g.grainsize+g.stride) ≤ 2^48 := Nat.pow_le_pow_right two_pos (by cases g <;> decide)
    have hlt := (h.contained _ hin).2
    rw [hs,← add_eq_or_of_and_eq_zero _ _ hbi,toNat_add,hd,Nat.mod_eq_of_lt (by omega)] at hlt
    have hle : baselowerbound g level (64-ste.s2t0sz.toNat) ≤ g.grainsize+g.stride := by
      rw [baselowerbound_eq (by omega) hbits,g.grainsize_eq]
      rw [concatBits] at hfo
      omega
    have hp := Nat.pow_le_pow_right two_pos hle
    omega
  · -- the bit is there already: both tables are the first one
    have hse := (and_twoPow_ne_zero (by cases g <;> decide) _).mp hbi
    have hsa : extract64 ste.s2ttb 0 paBits ||| twoPow 64 (g.grainsize+g.stride) =
        extract64 ste.s2ttb 0 paBits := by
      apply eq_of_getLsbD_eq
      intro i hi
      rw [getLsbD_or,getLsbD_twoPow]
      by_cases heq : g.grainsize+g.stride = i
      · rw [← heq,hse]
        rfl
      · simp [heq]
    have hf : startDesc ste g level 0 = extract64 ste.s2ttb 0 paBits := by
      rw [startDesc_of_aligned hbits haligned,concatOffset_zero]
      simp [descIndex]
    refine h.distinct _ 0 hin (Nat.two_pow_pos _) ?_ (hs.trans (hsa.trans hf.symm))
    rw [selectBits,ho,hco,Nat.pow_div (Nat.le_add_right _ _) two_pos]
    simp [selectBits]

end

end

/-- Start tables with an aligned base are addressed consistently exactly when not concatenated. -/
theorem start_tables_consistent_iff (ste : STE) (g : Granule) (level : ℕ)
    (hbits : g.addrselectbottom level ≤ 3+(64-ste.s2t0sz.toNat))
    (hfour : concatBits .two (64-ste.s2t0sz.toNat) (g.levelCoverage level) ≤ 4)
    (haligned : 2^baselowerbound g level (64-ste.s2t0sz.toNat) ∣ (extract64 ste.s2ttb 0 paBits).toNat) :
    StartTablesConsistent ste g level ↔ concatBits .two (64-ste.s2t0sz.toNat) (g.levelCoverage level) = 0 := by
  rw [concatBits,Nat.sub_eq_zero_iff_le]
  constructor
  · intro h
    by_contra hlt
    exact not_consistent_of_concat hbits haligned (not_le.mp hlt) hfour h
  · exact consistent_of_single hbits haligned

/-- One concatenation bit with the 16K granule. -/
theorem two_tables_inconsistent :
    let ste : STE := { s2t0sz := 27, s2sl0 := 1, s2tg := 2, s2ps := 5, s2ttb := 0x10000000 }
    concatBits .two 37 (Granule.g16k.levelCoverage 2) = 1 ∧ ¬ StartTablesConsistent ste .g16k 2 := by
  intro ste
  refine ⟨by decide,fun h => ?_⟩
  have hz := (start_tables_consistent_iff ste .g16k 2 (by decide) (by decide) (by decide)).mp h
  revert hz
  decide

/-- The second of two tables at `0x10000000` is looked up 32 MiB behind the first. At `0x12000000` the first is looked
up twice. -/
theorem second_table_misplaced :
    let ste (base : U64) : STE := { s2t0sz := 27, s2sl0 := 1, s2tg := 2, s2ps := 5, s2ttb := base }
    let first (base ipa : U64) : List U64 := descAddrs 48 (stage2Ctx (ste base) ipa .ro) (⟨[],[]⟩ : Ram)
    baselowerbound .g16k 2 37 = 15 ∧ first 0x10000000 0 = [0x10000000] ∧ first 0x10000000 0x1000000000 = [0x12000000] ∧
      first 0x12000000 0 = [0x12000000] ∧ first 0x12000000 0x1000000000 = [0x12000000] ∧
      ¬ StartTablesConsistent (ste 0x10000000) .g16k 2 := by
  intro ste first
  refine ⟨by decide,by decide +kernel,by decide +kernel,by decide +kernel,by decide +kernel,fun h => ?_⟩
  have hlt := (h.contained 0x1000000000 (by decide)).2
  revert hlt
  decide +kernel

end

end Qbox.Smmuv3
