import Qbox.Smmuv3WalkLog
import Qbox.Vmsa

/-! The stage-1 walk is the architectural one: for a stream without stage 2 and without hardware updates, the walker
answers through `TTBR0` what the tables of VMSAv8-64 mean. -/
namespace Qbox.Smmuv3
open MachineWord DmaSocket

/-- A walk of stage 1 alone through `TTBR0`, without updates, of an address in range. -/
structure Stage1Only (ctx : PtwCtx) (g : Granule) : Prop where
  stage : ctx.stage = .one
  alone : ctx.s2Enabled = false
  enabled : ctx.epd0 = false
  granule : granuleOfTg ctx.tg0 = some g
  noHa : ctx.ha = false
  noHd : ctx.hd = false
  access : ctx.access = .ro ∨ ctx.access = .wo
  sizeMin : 25 ≤ 64-ctx.tsz0.toNat
  sizeMax : 64-ctx.tsz0.toNat ≤ 48
  input : ctx.iova.toNat < 2^(64-ctx.tsz0.toNat)

def regimeOf (pamax : ℕ) (ctx : PtwCtx) (g : Granule) : Vmsa.Regime where
  pageBits := g.grainsize
  blockLevel := if g = .g4k then 1 else 2
  inputBits := 64-ctx.tsz0.toNat
  outputBits := min (outputSizeMap ctx.ips) pamax
  ignoreAccessFlag := ctx.affd

def eventOf : Vmsa.Fault → U32
  | .externalAbort => evtFWalkEabt
  | .translation => evtFTranslation
  | .addressSize => evtFAddrSize
  | .accessFlag => evtFAccess
  | .permission => evtFPermission

/-- Address, page size and rights of a walk, or the event of its fault. -/
def outcome : Except PtwFault PtwLeaf → Except U32 (ℕ × ℕ × IOMMUAccessFlags)
  | .ok l => .ok (l.pa.toNat,l.pageSize,l.prot)
  | .error f => .error f.eventType

def expected : Except Vmsa.Fault Vmsa.Mapping → Except U32 (ℕ × ℕ × IOMMUAccessFlags)
  | .ok mapping => .ok (mapping.pa,mapping.sizeBits,if mapping.writable then .rw else .ro)
  | .error f => .error (eventOf f)

section
variable (pamax : ℕ) (ctx : PtwCtx) (g : Granule)

lemma regimeOf_bottom (level : ℕ) : (regimeOf pamax ctx g).bottom level = g.addrselectbottom level :=
  Nat.add_comm _ _

lemma regimeOf_slice (level : ℕ) (iova : U64) :
    (regimeOf pamax ctx g).slice level iova.toNat*8 = (descIndex iova g level).toNat := by
  rw [toNat_descIndex,Vmsa.Regime.slice,regimeOf_bottom]
  rfl

lemma regimeOf_blockLevel : (regimeOf pamax ctx g).blockLevel = g.firstblocklevel := by
  cases g <;> rfl

lemma stage1Level_eq (hmi : 25 ≤ 64-ctx.tsz0.toNat) (hm : 64-ctx.tsz0.toNat ≤ 48) :
    stage1Level g (64-ctx.tsz0.toNat) = (regimeOf pamax ctx g).startLevel := by
  simp only [Vmsa.Regime.startLevel,Vmsa.Regime.stride,regimeOf]
  generalize 64-ctx.tsz0.toNat = inputsize at hmi hm
  cases g
  all_goals
    interval_cases inputsize <;> decide

end

section
variable {M : Type} [DmaSocket M] {pamax : ℕ} {ctx : PtwCtx} {g : Granule}

lemma checkLeaf_eq (h : Stage1Only ctx g) (l : Leaf) (m : M) : checkLeaf ctx l m =
      (if !l.desc.getLsbD 10 && !ctx.affd then .error evtFAccess
        else if !l.desc.getLsbD 6 then .error evtFPermission
        else if (l.desc.getLsbD 7 || l.tableattrs.getLsbD 3) && decide (ctx.access = .wo) then .error evtFPermission
        else .ok (if l.desc.getLsbD 7 || l.tableattrs.getLsbD 3 then .ro else .rw),m) := by
  have hro : (IOMMUAccessFlags.rw &&& ~~~IOMMUAccessFlags.wo) = .ro := by decide
  simp only [checkLeaf,accessFlag,permission,stage1Prot,h.stage,h.noHa,h.noHd,bit32_checkedAttrs_af,
    bit32_checkedAttrs_ap1,bit32_checkedAttrs_ap2,hro]
  cases l.desc.getLsbD 10 <;> cases ctx.affd <;> cases l.desc.getLsbD 6 <;>
    cases l.desc.getLsbD 7 || l.tableattrs.getLsbD 3 <;> by_cases hw : ctx.access = .wo <;> simp [hw]

lemma checkOutAddr_outputBase {outputsize : ℕ} (ho : outputsize = min (outputSizeMap ctx.ips) pamax) (desc : U64) :
    checkOutAddr (outputBase g desc) outputsize = true ↔
      ¬ 2^(regimeOf pamax ctx g).outputBits ≤ Vmsa.Regime.field g.grainsize desc.toNat := by
  rw [checkOutAddr_iff (outputBase_lt g desc),toNat_outputBase,ho,not_le]
  rfl

variable (ctx) in
lemma outcome_leafResult {l : Leaf} (hl : l.level ≤ 3)
    (hb : l.ttbr.toNat = Vmsa.Regime.field (g.addrselectbottom l.level) l.desc.toNat) (prot : IOMMUAccessFlags) :
    outcome (.ok (leafResult ctx g l prot)) =
      .ok (Vmsa.Regime.field (g.addrselectbottom l.level) l.desc.toNat+ctx.iova.toNat % 2^g.addrselectbottom l.level,
        g.addrselectbottom l.level,prot) := by
  have hd : 2^g.addrselectbottom l.level ∣ l.ttbr.toNat := by
    rw [hb]
    exact Nat.dvd_mul_left _ _
  simp only [outcome,leafResult,leafPageSize_eq g hl]
  rw [toNat_or_of_dvd hd (by rw [toNat_and_lowMask]; exact Nat.mod_lt _ (Nat.two_pow_pos _)),toNat_and_lowMask,hb]

lemma walkResult_mapped (h : Stage1Only ctx g) {w : WalkStart} (hg : w.granule = g)
    (ho : w.outputsize = min (outputSizeMap ctx.ips) pamax) {l : Leaf} (hl : l.level ≤ 3)
    (ht : l.ttbr = outputBase g l.desc) (ha : Vmsa.Regime.field g.grainsize l.desc.toNat =
      Vmsa.Regime.field (g.addrselectbottom l.level) l.desc.toNat) (m : M) : outcome (walkResult ctx w l m).1 =
      expected ((regimeOf pamax ctx g).mapped (decide (ctx.access = .wo)) ctx.iova.toNat l.level
        ⟨false,l.tableattrs.getLsbD 3⟩ l.desc) := by
  subst hg
  have hch : checkOutAddr l.ttbr w.outputsize = true ↔ ¬ 2^(regimeOf pamax ctx w.granule).outputBits ≤
      Vmsa.Regime.field (w.granule.addrselectbottom l.level) l.desc.toNat := by
    rw [ht,checkOutAddr_outputBase ho,ha]
  have hok := outcome_leafResult ctx hl (by rw [ht,toNat_outputBase,← ha,Vmsa.Regime.field,paBits])
  have had : (regimeOf pamax ctx w.granule).ignoreAccessFlag = ctx.affd := rfl
  simp only [walkResult,Vmsa.Regime.mapped,regimeOf_bottom,Bool.or_false,had]
  by_cases hr : 2^(regimeOf pamax ctx w.granule).outputBits ≤
      Vmsa.Regime.field (w.granule.addrselectbottom l.level) l.desc.toNat
  · rw [if_neg (fun hc => hch.mp hc hr),if_pos hr]
    rfl
  · rw [if_pos (hch.mpr hr),if_neg hr,checkLeaf_eq h]
    generalize (l.desc.getLsbD 7 || l.tableattrs.getLsbD 3) = ro
    by_cases haf : (!l.desc.getLsbD 10 && !ctx.affd) = true
    · simp only [haf,if_true]
      rfl
    · by_cases hap : (!l.desc.getLsbD 6) = true
      · simp only [haf,hap,if_true,Bool.false_eq_true,if_false]
        rfl
      · simp only [haf,hap,Bool.false_eq_true,if_false]
        cases ro with
        | false => exact hok .rw
        | true =>
          by_cases hw : ctx.access = .wo
          · simp only [hw,decide_true,Bool.and_self,if_true]
            rfl
          · simp only [hw,decide_false,Bool.and_false,Bool.false_eq_true,if_false]
            exact hok .ro

end

section
variable {M : Type} [DmaSocket M] {pamax : ℕ} {ctx : PtwCtx} {g : Granule}

lemma classify_cases (pamax : ℕ) (ctx : PtwCtx) (g : Granule) (outputsize level : ℕ) (attrs : U32) (d desc : U64) :
    ((regimeOf pamax ctx g).entry level desc = .invalid ∧
      classify g outputsize level attrs d desc = .fault ⟨evtFTranslation,level,attrs,some d,none⟩) ∨
    ((regimeOf pamax ctx g).entry level desc = .leaf ∧
      classify g outputsize level attrs d desc = .leaf ⟨outputBase g desc,desc,level,attrs,d⟩) ∨
    ((regimeOf pamax ctx g).entry level desc = .table ∧ level ≠ 3 ∧ classify g outputsize level attrs d desc =
      if checkOutAddr (outputBase g desc) outputsize then
        .table (outputBase g desc) (attrs ||| (extract64 desc 59 5).setWidth 32) d
      else .fault ⟨evtFAddrSize,level,attrs ||| (extract64 desc 59 5).setWidth 32,some d,none⟩) := by
  have ht := toNat_and_three desc
  rw [Vmsa.Regime.entry,regimeOf_blockLevel]
  cases h0 : desc.getLsbD 0 with
  | false =>
    refine Or.inl ⟨rfl,?_⟩
    cases h1 : desc.getLsbD 1 with
    | false =>
      have hz : (desc &&& 3).toNat = 0 := by rw [ht,h0,h1]; rfl
      simp only [classify,hz]
    | true =>
      have htw : (desc &&& 3).toNat = 2 := by rw [ht,h0,h1]; rfl
      simp only [classify,htw]
  | true =>
    cases h1 : desc.getLsbD 1 with
    | false =>
      have ho : (desc &&& 3).toNat = 1 := by rw [ht,h0,h1]; rfl
      by_cases hb : level ≠ 3 ∧ g.firstblocklevel ≤ level
      · refine Or.inr (Or.inl ⟨if_pos hb,?_⟩)
        simp only [classify,ho,show ¬ (level = 3 ∨ level < g.firstblocklevel) by omega,if_false]
        rfl
      · refine Or.inl ⟨if_neg hb,?_⟩
        simp only [classify,ho,show level = 3 ∨ level < g.firstblocklevel by omega,if_true]
    | true =>
      have hth : (desc &&& 3).toNat = 3 := by rw [ht,h0,h1]; rfl
      by_cases hl : level = 3
      · refine Or.inr (Or.inl ⟨if_pos hl,?_⟩)
        simp only [classify,hth,hl,if_true]
        rfl
      · refine Or.inr (Or.inr ⟨if_neg hl,hl,?_⟩)
        simp only [classify,hth,hl,if_false]
        rfl

def contents (m : M) (addr : ℕ) : Option U64 := (dmaRead64 (BitVec.ofNat 64 addr) m).1

lemma dmaRead64_contents (hp : PureReads M) (addr : U64) (m : M) :
    dmaRead64 addr m = (contents m addr.toNat,m) := by
  have hm := hp.dmaRead64 addr m
  refine Prod.ext ?_ hm
  rw [contents,BitVec.ofNat_toNat,BitVec.setWidth_eq]

lemma walkStep_contents (hp : PureReads M) (iova : U64) (outputsize level : ℕ) (ttbr : U64) (attrs : U32)
    (last : Option U64) (m : M) : walkStep plainFetch iova g outputsize level ttbr attrs last m =
      (match contents m (ttbr ||| descIndex iova g level).toNat with
        | none => .fault ⟨evtFWalkEabt,level,attrs,last,none⟩
        | some desc => classify g outputsize level attrs (ttbr ||| descIndex iova g level) desc,m) := by
  simp only [walkStep,plainFetch,dmaRead64_contents hp]
  cases contents m (ttbr ||| descIndex iova g level).toNat with
  | none | some desc => rfl

def afterDescent (ctx : PtwCtx) (w : WalkStart) : Except PtwFault Leaf × M → Except PtwFault PtwLeaf × M
  | (.error f,m) => (.error f,m)
  | (.ok l,m) => walkResult ctx w l m

lemma addrselectbottom_three (g : Granule) : g.addrselectbottom 3 = g.grainsize := by
  rw [Granule.addrselectbottom,Nat.sub_self,Nat.zero_mul,Nat.zero_add]

/-- The descent, by induction on the levels. The next table is aligned, so its entries lie behind its base. -/
lemma walkLoop_vmsa (h : Stage1Only ctx g) (hpu : PureReads M) {w : WalkStart} (hg : w.granule = g)
    (ho : w.outputsize = min (outputSizeMap ctx.ips) pamax) (m : M) {n : ℕ} (hn : n ≤ 3) {ttbr : U64} (attrs : U32)
    (last : Option U64) (ha : (ttbr ||| descIndex ctx.iova g (3-n)).toNat =
      ttbr.toNat+(descIndex ctx.iova g (3-n)).toNat)
    (hpl : (regimeOf pamax ctx g).PlainFrom (contents m) ctx.iova.toNat n ttbr.toNat) :
    outcome (afterDescent ctx w (walkLoop plainFetch ctx.iova g w.outputsize n ttbr attrs last m)).1 =
      expected ((regimeOf pamax ctx g).walkFrom (contents m) (decide (ctx.access = .wo)) ctx.iova.toNat n ttbr.toNat
        ⟨false,attrs.getLsbD 3⟩) := by
  induction n generalizing ttbr attrs last with
  | zero =>
    rw [walkLoop,walkStep_contents hpu,Vmsa.Regime.walkFrom,regimeOf_slice,← ha]
    cases contents m (ttbr ||| descIndex ctx.iova g (3-0)).toNat with
    | none => rfl
    | some desc =>
      rcases classify_cases pamax ctx g w.outputsize 3 attrs
        (ttbr ||| descIndex ctx.iova g 3) desc with ⟨he,hcl⟩ | ⟨he,hcl⟩ | ⟨-,h3,-⟩
      · simp only [he,hcl]
        rfl
      · simp only [he,hcl]
        refine walkResult_mapped h hg ho le_rfl rfl ?_ m
        rw [addrselectbottom_three]
      · exact absurd rfl h3
  | succ n ih =>
    have hl : 3-(n+1) = 2-n := by omega
    rw [hl] at ha
    rw [Vmsa.Regime.PlainFrom,regimeOf_slice,← ha] at hpl
    rw [walkLoop,walkStep_contents hpu,Vmsa.Regime.walkFrom,regimeOf_slice,← ha]
    cases hd : contents m (ttbr ||| descIndex ctx.iova g (2-n)).toNat with
    | none => rfl
    | some desc =>
      have hp := hpl desc hd
      rcases classify_cases pamax ctx g w.outputsize (2-n) attrs
        (ttbr ||| descIndex ctx.iova g (2-n)) desc with ⟨he,hcl⟩ | ⟨he,hcl⟩ | ⟨he,-,hcl⟩
      · simp only [he,hcl]
        rfl
      · rw [he] at hp
        simp only [he,hcl]
        refine walkResult_mapped h hg ho (by show 2-n ≤ 3; omega) rfl ?_ m
        rw [← regimeOf_bottom pamax ctx]
        exact hp
      · rw [he] at hp
        simp only [he,hcl]
        have hne : (outputBase g desc).toNat = Vmsa.Regime.field g.grainsize desc.toNat := toNat_outputBase g desc
        have hr := checkOutAddr_outputBase (g := g) ho desc
        by_cases hf : 2^(regimeOf pamax ctx g).outputBits ≤ Vmsa.Regime.field g.grainsize desc.toNat
        · rw [if_neg (fun hc => hr.mp hc hf)]
          simp only [show (regimeOf pamax ctx g).pageBits = g.grainsize from rfl,hf,if_true]
          rfl
        · rw [if_pos (hr.mpr hf)]
          simp only [show (regimeOf pamax ctx g).pageBits = g.grainsize from rfl,hf,if_false]
          have hs : (Vmsa.Restriction.mk false (attrs.getLsbD 3)).under desc =
              ⟨false,(attrs ||| (extract64 desc 59 5).setWidth 32).getLsbD 3⟩ := by
            rw [Vmsa.Restriction.under,hp.1]
            simp [extract64]
          rw [hs,← hne]
          refine ih (by omega) _ _ ?_ ?_
          · refine toNat_or_of_dvd ?_ (descIndex_lt ctx.iova g _)
            rw [hne]
            exact Nat.dvd_mul_left _ _
          · rw [hne]
            exact hp.2 (not_le.mp hf)

end

section
variable {M : Type} [DmaSocket M] {pamax : ℕ} {ctx : PtwCtx} {g : Granule}

section
variable (h : Stage1Only ctx g)
include h

lemma Stage1Only.selectTable_eq : selectTable ctx = ⟨ctx.ttb0,ctx.tsz0,some g,false⟩ := by
  have h63 : ctx.iova.getLsbD 63 = false :=
    Nat.testBit_lt_two_pow (h.input.trans_le (Nat.pow_le_pow_right two_pos (h.sizeMax.trans (by decide))))
  simp only [selectTable,h.stage,h63,if_true,h.granule,h.enabled]

lemma Stage1Only.startLevel_eq (pamax outputsize : ℕ) :
    startLevel ctx.stage ctx.iova ctx.sl0 g (64-ctx.tsz0.toNat) outputsize =
      some (regimeOf pamax ctx g).startLevel := by
  rw [h.stage,← stage1Level_eq pamax ctx g h.sizeMin h.sizeMax]
  exact startLevel_one_of_lt h.sizeMin h.sizeMax h.input ctx.sl0 g outputsize

lemma Stage1Only.bottom_lt (pamax : ℕ) :
    g.addrselectbottom (regimeOf pamax ctx g).startLevel < 64-ctx.tsz0.toNat := by
  rw [← stage1Level_eq pamax ctx g h.sizeMin h.sizeMax]
  exact addrselectbottom_stage1Level_lt g h.sizeMin

lemma Stage1Only.toNat_startBase :
    (startBase ctx g ctx.ttb0 (regimeOf pamax ctx g).startLevel (64-ctx.tsz0.toNat)).toNat =
      (regimeOf pamax ctx g).startBase ctx.ttb0.toNat := by
  have hlt := h.bottom_lt pamax
  have hm := h.sizeMax
  have hc : ¬ 0 < concatBits ctx.stage (64-ctx.tsz0.toNat)
      (g.levelCoverage (regimeOf pamax ctx g).startLevel) := by
    rw [h.stage]
    exact lt_irrefl 0
  have hb : baselowerbound g (regimeOf pamax ctx g).startLevel (64-ctx.tsz0.toNat) % 64 =
      3+(64-ctx.tsz0.toNat)-g.addrselectbottom (regimeOf pamax ctx g).startLevel := by
    rw [baselowerbound_eq (by omega) (by omega),Nat.mod_eq_of_lt (by omega)]
  simp only [startBase,hc,if_false]
  rw [toNat_and_not_lowMask,hb,toNat_extract64,pow_zero,Nat.div_one,Vmsa.Regime.startBase,regimeOf_bottom]
  rfl

lemma Stage1Only.start_entry :
    (startBase ctx g ctx.ttb0 (regimeOf pamax ctx g).startLevel (64-ctx.tsz0.toNat) |||
        descIndex ctx.iova g (regimeOf pamax ctx g).startLevel).toNat =
      (startBase ctx g ctx.ttb0 (regimeOf pamax ctx g).startLevel (64-ctx.tsz0.toNat)).toNat+
        (descIndex ctx.iova g (regimeOf pamax ctx g).startLevel).toNat := by
  have hlt := h.bottom_lt pamax
  refine toNat_or_of_dvd
    (k := 3+(64-ctx.tsz0.toNat)-g.addrselectbottom (regimeOf pamax ctx g).startLevel) ?_ ?_
  · rw [h.toNat_startBase,Vmsa.Regime.startBase,regimeOf_bottom]
    exact Nat.dvd_mul_left _ _
  · have hs : ctx.iova.toNat/2^g.addrselectbottom (regimeOf pamax ctx g).startLevel <
        2^(64-ctx.tsz0.toNat-g.addrselectbottom (regimeOf pamax ctx g).startLevel) := by
      rw [Nat.div_lt_iff_lt_mul (Nat.two_pow_pos _),← pow_add,Nat.sub_add_cancel hlt.le]
      exact h.input
    have hsi : 3+(64-ctx.tsz0.toNat)-g.addrselectbottom (regimeOf pamax ctx g).startLevel =
        64-ctx.tsz0.toNat-g.addrselectbottom (regimeOf pamax ctx g).startLevel+3 := by omega
    rw [toNat_descIndex,hsi,pow_add]
    exact Nat.mul_lt_mul_of_pos_right ((Nat.mod_le _ _).trans_lt hs) (by decide)

end

/-- The stage-1 walk is the architectural walk. -/
theorem stage1_walk_vmsa (h : Stage1Only ctx g) (hpure : PureReads M) (m : M)
    (hplain : (regimeOf pamax ctx g).Plain (contents m) ctx.ttb0.toNat ctx.iova.toNat) :
    outcome (smmuv3Ptw64 pamax ctx m).1 =
      expected ((regimeOf pamax ctx g).translate (contents m) ctx.ttb0.toNat ctx.iova.toNat
        (decide (ctx.access = .wo))) := by
  have hf : fetchOf (M := M) pamax ctx = plainFetch := by
    rcases fetchOf_cases (M := M) pamax ctx with ⟨ste,-,hs2,-⟩ | heq
    · rw [h.alone] at hs2
      cases hs2
    · exact heq
  have hle := startLevel_le (h.startLevel_eq pamax 0)
  have hco : concatBits ctx.stage (64-ctx.tsz0.toNat) (g.levelCoverage (regimeOf pamax ctx g).startLevel) = 0 := by
    rw [h.stage]
    rfl
  have hs : walkStart pamax ctx =
      if checkOutAddr (startBase ctx g ctx.ttb0 (regimeOf pamax ctx g).startLevel (64-ctx.tsz0.toNat))
          (min (outputSizeMap ctx.ips) pamax) then
        .ok ⟨g,min (outputSizeMap ctx.ips) pamax,(regimeOf pamax ctx g).startLevel,
          startBase ctx g ctx.ttb0 (regimeOf pamax ctx g).startLevel (64-ctx.tsz0.toNat)⟩
      else .error evtFAddrSize := by
    simp [walkStart,h.selectTable_eq,h.startLevel_eq pamax,hco]
  have hr : checkOutAddr (startBase ctx g ctx.ttb0 (regimeOf pamax ctx g).startLevel (64-ctx.tsz0.toNat))
      (min (outputSizeMap ctx.ips) pamax) = true ↔
        ¬ 2^(regimeOf pamax ctx g).outputBits ≤ (regimeOf pamax ctx g).startBase ctx.ttb0.toNat := by
    rw [checkOutAddr_iff (startBase_lt ctx _ (by rw [hco]; decide)),h.toNat_startBase,not_le]
    rfl
  rw [smmuv3Ptw64,hf,walkWith,hs,Vmsa.Regime.translate]
  by_cases hfa : 2^(regimeOf pamax ctx g).outputBits ≤ (regimeOf pamax ctx g).startBase ctx.ttb0.toNat
  · rw [if_neg (fun hc => hr.mp hc hfa),if_pos hfa]
    rfl
  · rw [if_pos (hr.mpr hfa),if_neg hfa]
    have hl := walkLoop_vmsa h hpure
      (w := ⟨g,min (outputSizeMap ctx.ips) pamax,(regimeOf pamax ctx g).startLevel,
        startBase ctx g ctx.ttb0 (regimeOf pamax ctx g).startLevel (64-ctx.tsz0.toNat)⟩) rfl rfl m
      (Nat.sub_le 3 (regimeOf pamax ctx g).startLevel) 0 none
      (by rw [Nat.sub_sub_self hle]; exact h.start_entry)
      (by rw [h.toNat_startBase]; exact hplain)
    rw [h.toNat_startBase] at hl
    exact hl

/-- A page under a read-only second table: a read is answered without the right to write. -/
theorem page_walk_vmsa : let ctx := stage1Ctx {} { ttb0 := 0x20000, tsz0 := 25 } false 0x1234 .ro
    let m : Ram := ⟨[(0x20000,0x21003),(0x21000,0x4000000000022003),(0x22008,0x5443)],[]⟩
    Stage1Only ctx .g4k ∧ (regimeOf 48 ctx .g4k).Plain (contents m) 0x20000 0x1234 ∧
      outcome (smmuv3Ptw64 48 ctx m).1 =
        expected ((regimeOf 48 ctx .g4k).translate (contents m) 0x20000 0x1234 false) ∧
      (regimeOf 48 ctx .g4k).translate (contents m) 0x20000 0x1234 false = .ok ⟨0x5234,12,false⟩ := by
  intro ctx m
  have h : Stage1Only ctx .g4k := ⟨rfl,rfl,rfl,rfl,rfl,rfl,Or.inl rfl,by decide,by decide,by decide⟩
  have hp : (regimeOf 48 ctx .g4k).Plain (contents m) 0x20000 0x1234 := by
    have hst : (regimeOf 48 ctx .g4k).startLevel = 1 := by decide
    have hb : (regimeOf 48 ctx .g4k).startBase 0x20000 = 0x20000 := by decide
    rw [Vmsa.Regime.Plain,hst,hb,Vmsa.Regime.PlainFrom]
    have ho : contents m (0x20000+(regimeOf 48 ctx .g4k).slice (2-1) 0x1234*8) = some 0x21003 := by decide +kernel
    have ht : contents m (0x21000+(regimeOf 48 ctx .g4k).slice (2-0) 0x1234*8) = some 0x4000000000022003 := by
      decide +kernel
    intro first hf
    rw [ho] at hf
    cases hf
    refine ⟨by decide,fun _ second hs => ?_⟩
    have hn : Vmsa.Regime.field (regimeOf 48 ctx .g4k).pageBits (0x21003 : U64).toNat = 0x21000 := by decide
    rw [hn,ht] at hs
    cases hs
    exact ⟨by decide,fun _ => trivial⟩
  exact ⟨h,hp,stage1_walk_vmsa h Ram.pureReads m hp,by decide +kernel⟩

end

end Qbox.Smmuv3
