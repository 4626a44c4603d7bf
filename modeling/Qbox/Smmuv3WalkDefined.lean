import Qbox.Smmuv3WalkLog

/-! Whether a walk is well defined: its accesses, the alignment of its start table, and the amounts of its shifts, listed
in the order of the source for the branches taken; constant ones are left out. -/
namespace Qbox.Smmuv3
open MachineWord DmaSocket List

def extractAmounts (start length : ℕ) : List ℕ := [start,length]

def checkOutAddrAmounts (outputsize : ℕ) : List ℕ :=
  if paBits ≤ outputsize then [] else extractAmounts outputsize (paBits-outputsize)

/-- The range check of stage 1 comes after the check on the input size. -/
def startLevelAmounts (stage : Stage) (inputsize : ℕ) : List ℕ := match stage with
  | .one => if inputsize < inputSizeMin ∨ inputSizeMax < inputsize then [] else extractAmounts inputsize (64-inputsize)
  | .two => []

def startBaseAmounts (stage : Stage) (g : Granule) (level inputsize : ℕ) : List ℕ :=
  baselowerbound g level inputsize ::
    if 0 < concatBits stage inputsize (g.levelCoverage level) then
      [g.levelCoverage level,concatBits stage inputsize (g.levelCoverage level),g.grainsize+g.stride]
    else []

variable (pamax : ℕ)

def startAmounts (ctx : PtwCtx) : List ℕ := let t := selectTable ctx
  if t.epd then []
  else match t.granule with
    | none => []
    | some g =>
      let inputsize := 64-t.tsz.toNat
      let outputsize := min (outputSizeMap ctx.ips) pamax
      startLevelAmounts ctx.stage inputsize ++ match startLevel ctx.stage ctx.iova ctx.sl0 g inputsize outputsize with
        | none => []
        | some level =>
          if 4 < concatBits ctx.stage inputsize (g.levelCoverage level) then []
          else startBaseAmounts ctx.stage g level inputsize ++ checkOutAddrAmounts outputsize

def descAmounts (outputsize level : ℕ) (desc : U64) : List ℕ :=
  if level ≠ 3 ∧ (desc &&& 3).toNat = 3 then checkOutAddrAmounts outputsize else []

def resultAmounts (w : WalkStart) (l : Leaf) : List ℕ := checkOutAddrAmounts w.outputsize ++
    if checkOutAddr l.ttbr w.outputsize then [leafPageSize w.granule l.level] else []

section
variable {M : Type} [DmaSocket M]

/-- One turn of the loop, with the amounts that reaching a descriptor address takes. -/
def turnAmounts (fetch : U64 → M → Option U64 × M) (fetchAmounts : U64 → M → List ℕ) (iova : U64) (g : Granule)
    (outputsize level : ℕ) (ttbr : U64) (m : M) : List ℕ :=
  (g.addrselectbottom level-3) :: fetchAmounts (ttbr ||| descIndex iova g level) m ++
    match fetch (ttbr ||| descIndex iova g level) m with
    | (none,_) => []
    | (some descaddr,m) =>
      match dmaRead64 descaddr m with
      | (none,_) => []
      | (some desc,_) => descAmounts outputsize level desc

def loopAmounts (fetch : U64 → M → Option U64 × M) (fetchAmounts : U64 → M → List ℕ) (iova : U64) (g : Granule)
    (outputsize : ℕ) : ℕ → U64 → U32 → Option U64 → M → List ℕ
  | 0, ttbr, _, _, m => turnAmounts fetch fetchAmounts iova g outputsize 3 ttbr m
  | n+1, ttbr, attrs, last, m =>
    turnAmounts fetch fetchAmounts iova g outputsize (2-n) ttbr m ++
      match walkStep fetch iova g outputsize (2-n) ttbr attrs last m with
      | (.table next attrs d,m) => loopAmounts fetch fetchAmounts iova g outputsize n next attrs (some d) m
      | _ => []

def walkAmounts (fetch : U64 → M → Option U64 × M) (fetchAmounts : U64 → M → List ℕ) (pamax : ℕ) (ctx : PtwCtx)
    (m : M) : List ℕ :=
  startAmounts pamax ctx ++ match walkStart pamax ctx with
    | .error _ => []
    | .ok w =>
      w.granule.grainsize ::
        loopAmounts fetch fetchAmounts ctx.iova w.granule w.outputsize (3-w.level) w.ttbr 0 none m ++
        match descend fetch ctx w m with
        | (.ok l,_) => resultAmounts w l
        | (.error _,_) => []

def nestedAmounts (pamax : ℕ) (ste : STE) (descaddr : U64) (m : M) : List ℕ :=
  walkAmounts plainFetch (fun _ _ => []) pamax (stage2Ctx ste descaddr .ro) m

def fetchAmountsOf (pamax : ℕ) (ctx : PtwCtx) (descaddr : U64) (m : M) : List ℕ :=
  match ctx.stage, ctx.s2Enabled, ctx.ste with
  | .one, true, some ste => nestedAmounts pamax ste descaddr m
  | _, _, _ => []

/-- The amounts of all shifts that `smmuv3_ptw64` evaluates. -/
def ptwAmounts (pamax : ℕ) (ctx : PtwCtx) (m : M) : List ℕ :=
  walkAmounts (fetchOf pamax ctx) (fetchAmountsOf pamax ctx) pamax ctx m

end

/-- A walk that comes to the base of its start table finds `baselowerbound` not negative. -/
def BaseNonneg (ctx : PtwCtx) : Prop :=
  ∀ g level, (selectTable ctx).epd = false → (selectTable ctx).granule = some g →
    startLevel ctx.stage ctx.iova ctx.sl0 g (64-(selectTable ctx).tsz.toNat) (min (outputSizeMap ctx.ips) pamax) =
      some level →
    concatBits ctx.stage (64-(selectTable ctx).tsz.toNat) (g.levelCoverage level) ≤ 4 →
    (0 : ℤ) ≤ 3+(64-(selectTable ctx).tsz.toNat : ℕ)-g.addrselectbottom level

/-- Few accesses, a start table that has an alignment, and shifts by less than the width. -/
structure WellDefined {M : Type} [DmaSocket M] (pamax : ℕ) (ctx : PtwCtx) (m : M) : Prop where
  descriptors : (descAddrs pamax ctx m).length ≤ 4
  reads : (loggedWalk pamax ctx m).2.reads.length ≤ 4*(fetchCost ctx+1)
  base : BaseNonneg pamax ctx
  shifts : ∀ k ∈ ptwAmounts pamax ctx m, k < 64

/-- Every walk for a stream is well defined: of stage 1 alone, of stage 2, and of stage 1 over stage 2. -/
def WalksDefined (ste : STE) (cd : CD) : Prop :=
  ∀ (M : Type) [DmaSocket M] (m : M) (iova : U64) (access : IOMMUAccessFlags),
    WellDefined pamax (stage1Ctx ste cd false iova access) m ∧ WellDefined pamax (stage2Ctx ste iova access) m ∧
      WellDefined pamax (stage1Ctx ste cd true iova access) m

/-- The stage-2 input size reaches down to three bits below the bits that select at the start level. -/
def STE.Stage2Aligned (ste : STE) : Prop := ∀ g level, granuleOfTg ste.s2tg = some g →
    startLevel .two 0 ste.s2sl0 g (64-ste.s2t0sz.toNat) (min (outputSizeMap ste.s2ps) pamax) = some level →
    g.addrselectbottom level ≤ 3+(64-ste.s2t0sz.toNat)

section
variable {M : Type} [DmaSocket M] {fetch : U64 → M → Option U64 × M} {fetchAmounts : U64 → M → List ℕ} {pamax : ℕ}
  {ctx : PtwCtx}

lemma checkOutAddrAmounts_lt (outputsize : ℕ) : ∀ k ∈ checkOutAddrAmounts outputsize, k < 64 := by
  intro k hk
  rw [checkOutAddrAmounts,paBits] at hk
  split_ifs at hk with h
  · cases hk
  · simp only [extractAmounts,mem_cons,not_mem_nil,or_false] at hk
    omega

lemma startLevelAmounts_lt (stage : Stage) (inputsize : ℕ) : ∀ k ∈ startLevelAmounts stage inputsize, k < 64 := by
  intro k hk
  cases stage with
  | two => cases hk
  | one =>
    rw [startLevelAmounts,inputSizeMin,inputSizeMax] at hk
    split_ifs at hk with h
    · cases hk
    · simp only [extractAmounts,mem_cons,not_mem_nil,or_false] at hk
      omega

lemma startBaseAmounts_lt {stage : Stage} {g : Granule} {level inputsize : ℕ} (hle : inputsize ≤ 64)
    (hb : g.addrselectbottom level ≤ 3+inputsize) (hc : concatBits stage inputsize (g.levelCoverage level) ≤ 4) :
    ∀ k ∈ startBaseAmounts stage g level inputsize, k < 64 := by
  have h12 := g.twelve_le_addrselectbottom level
  have hs : g.grainsize+g.stride ≤ 29 := by cases g <;> decide
  intro k hk
  rw [startBaseAmounts,baselowerbound_eq hle hb,mem_cons] at hk
  rcases hk with rfl | hk
  · omega
  · split_ifs at hk with hp
    · -- a stage that concatenates tables covers less than its input
      have hco : g.levelCoverage level < inputsize := by
        cases stage with
        | one => cases hp
        | two => exact Nat.sub_pos_iff_lt.mp hp
      simp only [mem_cons,not_mem_nil,or_false] at hk
      omega
    · cases hk

lemma startAmounts_lt (hb : BaseNonneg pamax ctx) : ∀ k ∈ startAmounts pamax ctx, k < 64 := by
  intro k hk
  simp only [startAmounts] at hk
  split_ifs at hk with he
  · cases hk
  · cases hg : (selectTable ctx).granule with
    | none =>
      rw [hg] at hk
      cases hk
    | some g =>
      simp only [hg,mem_append] at hk
      rcases hk with hk | hk
      · exact startLevelAmounts_lt _ _ k hk
      · cases hl : startLevel ctx.stage ctx.iova ctx.sl0 g (64-(selectTable ctx).tsz.toNat)
            (min (outputSizeMap ctx.ips) pamax) with
        | none =>
          rw [hl] at hk
          cases hk
        | some level =>
          simp only [hl] at hk
          split_ifs at hk with hc
          · cases hk
          · have hn := hb g level (Bool.eq_false_iff.mpr he) hg hl (not_lt.mp hc)
            rcases mem_append.mp hk with hk | hk
            · exact startBaseAmounts_lt (by omega) (by omega) (not_lt.mp hc) k hk
            · exact checkOutAddrAmounts_lt _ k hk

lemma turnAmounts_lt (hfe : ∀ addr m, ∀ k ∈ fetchAmounts addr m, k < 64) (iova : U64) (g : Granule)
    (outputsize level : ℕ) (ttbr : U64) (m : M) :
    ∀ k ∈ turnAmounts fetch fetchAmounts iova g outputsize level ttbr m, k < 64 := by
  have ha := g.addrselectbottom_lt level
  have hde : ∀ desc, ∀ k ∈ descAmounts outputsize level desc, k < 64 := by
    intro desc k hk
    rw [descAmounts] at hk
    split_ifs at hk
    · exact checkOutAddrAmounts_lt _ k hk
    · cases hk
  intro k hk
  rw [turnAmounts,List.cons_append,mem_cons,mem_append] at hk
  rcases hk with rfl | hk | hk
  · omega
  · exact hfe _ m k hk
  · rcases hf : fetch (ttbr ||| descIndex iova g level) m with ⟨_ | descaddr,m1⟩
    · rw [hf] at hk
      cases hk
    · simp only [hf] at hk
      rcases hd : dmaRead64 descaddr m1 with ⟨_ | desc,m2⟩
      · rw [hd] at hk
        cases hk
      · rw [hd] at hk
        exact hde desc k hk

section
variable (hf : ∀ addr m, ∀ k ∈ fetchAmounts addr m, k < 64)
include hf

lemma loopAmounts_lt (iova : U64) (g : Granule)
    (outputsize n : ℕ) (ttbr : U64) (attrs : U32) (last : Option U64) (m : M) :
    ∀ k ∈ loopAmounts fetch fetchAmounts iova g outputsize n ttbr attrs last m, k < 64 := by
  induction n generalizing ttbr attrs last m with
  | zero => exact turnAmounts_lt hf iova g outputsize 3 ttbr m
  | succ n ih =>
    intro k hk
    rcases mem_append.mp hk with hk | hk
    · exact turnAmounts_lt hf iova g outputsize (2-n) ttbr m k hk
    · rcases hs : walkStep fetch iova g outputsize (2-n) ttbr attrs last m with ⟨_ | _ | ⟨next,attrs',d⟩,m1⟩
      · rw [hs] at hk
        cases hk
      · rw [hs] at hk
        cases hk
      · rw [hs] at hk
        exact ih next attrs' (some d) m1 k hk

lemma walkAmounts_lt (hb : BaseNonneg pamax ctx) (m : M) :
    ∀ k ∈ walkAmounts fetch fetchAmounts pamax ctx m, k < 64 := by
  intro k hk
  rcases mem_append.mp hk with hk | hk
  · exact startAmounts_lt hb k hk
  · cases hw : walkStart pamax ctx with
    | error ev =>
      rw [hw] at hk
      cases hk
    | ok w =>
      simp only [hw,List.cons_append,mem_cons,mem_append] at hk
      rcases hk with rfl | hk | hk
      · cases w.granule <;> decide
      · exact loopAmounts_lt hf _ _ _ _ _ _ _ m k hk
      · rcases hd : descend fetch ctx w m with ⟨f | l,m1⟩
        · rw [hd] at hk
          cases hk
        · rw [hd] at hk
          rcases mem_append.mp hk with hk | hk
          · exact checkOutAddrAmounts_lt _ k hk
          · split_ifs at hk
            · rw [mem_singleton.mp hk]
              obtain ⟨-,-,-,hl⟩ := walkLoop_leaf (Nat.sub_le 3 w.level) hd
              have hs := leafPageSize_le hl
              omega
            · cases hk

end

lemma baseNonneg_stage1 (h : ctx.stage = .one) : BaseNonneg pamax ctx := by
  intro g level _ _ hl _
  rw [h] at hl
  simp only [startLevel] at hl
  split_ifs at hl with hb
  cases hl
  push Not at hb
  have hlt := addrselectbottom_stage1Level_lt g hb.1
  omega

lemma baseNonneg_stage2_iff {ste : STE} {ipa : U64} {access : IOMMUAccessFlags} :
    BaseNonneg pamax (stage2Ctx ste ipa access) ↔ ste.Stage2Aligned pamax := by
  constructor
  · intro h g level hg hl
    by_cases hc : concatBits .two (64-ste.s2t0sz.toNat) (g.levelCoverage level) ≤ 4
    · have hn : (0 : ℤ) ≤ 3+(64-ste.s2t0sz.toNat : ℕ)-g.addrselectbottom level := h g level rfl hg hl hc
      omega
    · have hlt := g.addrselectbottom_lt_coverage level
      rw [concatBits] at hc
      omega
  · intro h g level _ hg hl _
    have hle := h g level hg hl
    show (0 : ℤ) ≤ 3+(64-ste.s2t0sz.toNat : ℕ)-g.addrselectbottom level
    omega

lemma wellDefined_of_base (hb : BaseNonneg pamax ctx)
    (hn : ∀ ste, ctx.stage = .one → ctx.s2Enabled = true → ctx.ste = some ste → ste.Stage2Aligned pamax) (m : M) :
    WellDefined pamax ctx m := by
  obtain ⟨hd,-,hr⟩ := loggedWalk_asks pamax ctx (by decide : 16 ≤ 64) (checks_sixtyfour _) m
  refine ⟨hd,hr,hb,walkAmounts_lt (fun addr m => ?_) hb m⟩
  rw [fetchAmountsOf]
  split
  · rename_i ste hs hs2 hst
    exact walkAmounts_lt (fun _ _ _ hk => by cases hk)
      (baseNonneg_stage2_iff.mpr (hn ste hs hs2 hst)) m
  · intro k hk
    cases hk

end

/-- A stream's walks are well defined exactly when the stage-2 sizes leave the start table an alignment. -/
theorem walks_defined_iff (pamax : ℕ) (ste : STE) (cd : CD) : WalksDefined pamax ste cd ↔ ste.Stage2Aligned pamax := by
  constructor
  · intro h
    exact baseNonneg_stage2_iff.mp (h Ram ⟨[],[]⟩ 0 .ro).2.1.base
  · intro h M _ m iova access
    refine ⟨wellDefined_of_base (baseNonneg_stage1 rfl) ?_ m,wellDefined_of_base (baseNonneg_stage2_iff.mpr h) ?_ m,
      wellDefined_of_base (baseNonneg_stage1 rfl) ?_ m⟩
    · intro ste' _ hs2
      cases hs2
    · intro ste' hs
      cases hs
    · intro ste' _ _ hst
      cases hst
      exact h

/-- Stage 2 with 25 input bits from level 1, 4K granule: the alignment is -2, an unsigned amount of a shift. -/
theorem stage2_shift_undefined : let ste : STE := { s2t0sz := 39, s2sl0 := 1, s2ps := 5 }
    ptwAmounts 48 (stage2Ctx ste 0 .ro) (⟨[],[]⟩ : Ram) = [4294967294,12,27] ∧
      ¬ WellDefined 48 (stage2Ctx ste 0 .ro) (⟨[],[]⟩ : Ram) ∧ ¬ WalksDefined 48 ste {} := by
  intro ste
  have ha : ptwAmounts 48 (stage2Ctx ste 0 .ro) (⟨[],[]⟩ : Ram) = [4294967294,12,27] := by decide +kernel
  have hn : ¬ WellDefined 48 (stage2Ctx ste 0 .ro) (⟨[],[]⟩ : Ram) := by
    intro h
    have hlt := h.shifts 4294967294 (by rw [ha]; decide)
    omega
  exact ⟨ha,hn,fun h => hn (h Ram ⟨[],[]⟩ 0 .ro).2.1⟩

end Qbox.Smmuv3
