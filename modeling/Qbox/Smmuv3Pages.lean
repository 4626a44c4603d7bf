import Qbox.Smmuv3Translate

/-! The page a walk reports: which input bits a walk reads, and when the whole page
is mapped alike. -/
namespace Qbox.Smmuv3
open MachineWord DmaSocket

section
variable {M : Type} [DmaSocket M] {fetch : U64 → M → Option U64 × M} {g : Granule} {outputsize : ℕ}

lemma classify_leaf {level : ℕ} {attrs : U32} {d desc : U64} {l : Leaf}
    (h : classify g outputsize level attrs d desc = .leaf l) :
    l.level = level ∧ l.ttbr = extract64 l.desc 0 paBits &&& ~~~g.descmask ∧ l.tableattrs = attrs ∧
      (level = 3 ∨ g.firstblocklevel ≤ level) := by
  simp only [classify] at h
  split at h
  · split_ifs at h with h3
    cases h
    exact ⟨rfl,rfl,rfl,.inl h3⟩
  · split_ifs at h with hb
    cases h
    exact ⟨rfl,rfl,rfl,.inr (by omega)⟩
  · cases h

lemma walkStep_read {iova : U64} {level : ℕ} {ttbr : U64} {attrs : U32} {last : Option U64} {m m' : M} {r : Descent}
    (h : walkStep fetch iova g outputsize level ttbr attrs last m = (r,m')) (hr : ∀ f, r ≠ .fault f) :
    ∃ d m1 desc, fetch (ttbr ||| descIndex iova g level) m = (some d,m1) ∧ dmaRead64 d m1 = (some desc,m') ∧
      classify g outputsize level attrs d desc = r := by
  rw [walkStep] at h
  rcases hf : fetch (ttbr ||| descIndex iova g level) m with ⟨_ | d,m1⟩
  · rw [hf] at h
    exact absurd (congrArg Prod.fst h).symm (hr _)
  · simp only [hf] at h
    rcases hd : dmaRead64 d m1 with ⟨_ | desc,m2⟩
    · rw [hd] at h
      exact absurd (congrArg Prod.fst h).symm (hr _)
    · rw [hd] at h
      obtain ⟨hc,rfl⟩ := Prod.mk.inj h
      exact ⟨d,m1,desc,rfl,hd,hc⟩

lemma walkStep_agree {iova iova' : U64} {level : ℕ} (h : AgreeAbove (g.addrselectbottom level) iova iova')
    (ttbr : U64) (attrs : U32) (last : Option U64) (m : M) :
    walkStep fetch iova' g outputsize level ttbr attrs last m =
      walkStep fetch iova g outputsize level ttbr attrs last m := by
  simp [walkStep,descIndex_agree h]

variable {iova : U64} {n : ℕ} {ttbr : U64} {attrs : U32} {last : Option U64} {m m' : M} {l : Leaf}

/-- A descent that ends at a leaf has found it in its first turn, or has followed a table to it. -/
lemma walkLoop_induct {motive : ℕ → U64 → U32 → Option U64 → M → Prop}
    (leaf : ∀ {n ttbr attrs last m}, walkStep fetch iova g outputsize (3-n) ttbr attrs last m = (.leaf l,m') →
      motive n ttbr attrs last m) (table : ∀ {n ttbr attrs last m next attrs' d m1},
      walkStep fetch iova g outputsize (2-n) ttbr attrs last m = (.table next attrs' d,m1) →
      walkLoop fetch iova g outputsize n next attrs' (some d) m1 = (.ok l,m') →
      motive n next attrs' (some d) m1 → motive (n+1) ttbr attrs last m)
    (h : walkLoop fetch iova g outputsize n ttbr attrs last m = (.ok l,m')) : motive n ttbr attrs last m := by
  induction n generalizing ttbr attrs last m with
  | zero =>
    rw [walkLoop] at h
    rcases hs : walkStep fetch iova g outputsize 3 ttbr attrs last m with ⟨_ | l' | _,m1⟩ <;> rw [hs] at h <;> cases h
    exact leaf hs
  | succ n ih =>
    rw [walkLoop] at h
    rcases hs : walkStep fetch iova g outputsize (2-n) ttbr attrs last m with ⟨_ | l' | _,m1⟩ <;> rw [hs] at h
    · cases h
    · cases h
      exact leaf (by rwa [Nat.add_comm,Nat.sub_add_eq])
    · exact table hs h (ih h)

lemma walkLoop_leaf (hn : n ≤ 3) (h : walkLoop fetch iova g outputsize n ttbr attrs last m = (.ok l,m')) :
    3-n ≤ l.level ∧ l.level ≤ 3 ∧ l.ttbr = extract64 l.desc 0 paBits &&& ~~~g.descmask ∧
      (l.level = 3 ∨ g.firstblocklevel ≤ l.level) := by
  revert hn
  refine walkLoop_induct (motive := fun n _ _ _ _ => n ≤ 3 → 3-n ≤ l.level ∧ l.level ≤ 3 ∧
    l.ttbr = extract64 l.desc 0 paBits &&& ~~~g.descmask ∧ (l.level = 3 ∨ g.firstblocklevel ≤ l.level)) ?_ ?_ h
  · intro n ttbr attrs last m hs hn
    obtain ⟨d,m1,desc,-,-,hc⟩ := walkStep_read hs (by simp)
    obtain ⟨hl,ht,-,hb⟩ := classify_leaf hc
    rw [hl]
    exact ⟨le_rfl,Nat.sub_le 3 n,ht,hb⟩
  · intro n ttbr attrs last m next attrs' d m1 _ _ ih hn
    obtain ⟨hl,hr⟩ := ih (by omega)
    exact ⟨by omega,hr⟩

/-- The descent reads the input address only above the leaf's own offset bits. -/
lemma walkLoop_agree {iova' : U64} (hn : n ≤ 3) (h : walkLoop fetch iova g outputsize n ttbr attrs last m = (.ok l,m'))
    (ha : AgreeAbove (g.addrselectbottom l.level) iova iova') :
    walkLoop fetch iova' g outputsize n ttbr attrs last m = (.ok l,m') := by
  have hl := (walkLoop_leaf hn h).1
  induction n generalizing ttbr attrs last m with
  | zero =>
    rw [walkLoop,walkStep_agree (ha.mono (g.addrselectbottom_anti (by omega))),← walkLoop]
    exact h
  | succ n ih =>
    rw [walkLoop,walkStep_agree (ha.mono (g.addrselectbottom_anti (by omega)))]
    rw [walkLoop] at h
    split at h
    · cases h
    · exact h
    · exact ih (by omega) h (walkLoop_leaf (by omega) h).1

end

variable {ctx : PtwCtx} {iova' : U64} {k pamax : ℕ} {w : WalkStart}

section
variable (h : AgreeAbove k ctx.iova iova') (hk : k ≤ 63)
include h hk

lemma selectTable_agree :
    selectTable (ctx.withIova iova') = selectTable ctx := by
  cases hs : ctx.stage with
  | one => simp only [selectTable,PtwCtx.withIova,hs,h 63 hk]
  | two => simp only [selectTable,PtwCtx.withIova,hs]

lemma walkGranule_agree :
    walkGranule (ctx.withIova iova') = walkGranule ctx := by
  rw [walkGranule,selectTable_agree h hk,walkGranule]

end

lemma startBase_agree {g : Granule} {ttbr : U64} {level inputsize : ℕ}
    (ha : AgreeAbove (g.addrselectbottom level) ctx.iova iova') :
    startBase (ctx.withIova iova') g ttbr level inputsize = startBase ctx g ttbr level inputsize := by
  have hc := (g.addrselectbottom_lt_coverage level).le
  have hi (n : ℕ) : (iova' >>> g.levelCoverage level) &&& lowMask n =
      (ctx.iova >>> g.levelCoverage level) &&& lowMask n := (extract64_top_agree ha hc n).symm
  simp [startBase,PtwCtx.withIova,hi]

section
variable (h : walkStart pamax ctx = .ok w)
include h

lemma walkStart_agree (ha : AgreeAbove (w.granule.addrselectbottom w.level) ctx.iova iova') :
    walkStart pamax (ctx.withIova iova') = .ok w := by
  obtain ⟨he,g,hg,level,hl,hc,ho,rfl⟩ := walkStart_eq_ok.mp h
  have hs := selectTable_agree ha (g.addrselectbottom_lt level).le
  rw [walkStart_eq_ok,hs]
  refine ⟨he,g,hg,level,startLevel_agree hl ha,hc,?_⟩
  rw [startBase_agree ha]
  exact ⟨ho,rfl⟩

lemma walkStart_granule : w.granule = walkGranule ctx := by
  obtain ⟨-,g,hg,level,-,-,-,rfl⟩ := walkStart_eq_ok.mp h
  rw [walkGranule,hg,Option.getD_some]

lemma walkStart_level_le : w.level ≤ 3 := by
  obtain ⟨-,g,-,level,hl,-,-,rfl⟩ := walkStart_eq_ok.mp h
  exact startLevel_le hl

end

section
variable {M : Type} [DmaSocket M] {fetch : U64 → M → Option U64 × M} {pamax : ℕ} {ctx : PtwCtx} {m m' : M}
  {leaf : PtwLeaf} {prot : IOMMUAccessFlags} {attrs : U32}

/-- A successful walk maps every address that agrees above the reported page to the same leaf, with the same updates.
-/
lemma walkWith_page (h : walkWith fetch pamax ctx m = (.ok leaf,m')) : 12 ≤ leaf.pageSize ∧ leaf.pageSize < 63 ∧
      leaf.pa = outputBase (walkGranule ctx) leaf.descriptor ||| (ctx.iova &&& lowMask leaf.pageSize) ∧
      ∀ iova', AgreeAbove leaf.pageSize ctx.iova iova' → walkWith fetch pamax (ctx.withIova iova') m =
          (.ok (leaf.withPa
            (outputBase (walkGranule ctx) leaf.descriptor ||| (iova' &&& lowMask leaf.pageSize))),m') := by
  obtain ⟨w,l,m1,hw,hl,hr⟩ := walkWith_eq_ok.mp h
  obtain ⟨ho,prot,hp,rfl⟩ := walkResult_eq_ok.mp hr
  have hle := walkStart_level_le hw
  obtain ⟨hlo,hhi,ht,-⟩ := walkLoop_leaf (by omega) hl
  have hb : outputBase (walkGranule ctx) l.desc = l.ttbr := by
    rw [ht,outputBase,walkStart_granule hw]
  have hs : leafPageSize w.granule l.level = w.granule.addrselectbottom l.level := leafPageSize_eq _ hhi
  refine ⟨(w.granule.twelve_le_addrselectbottom l.level).trans hs.ge,
    hs.trans_lt (w.granule.addrselectbottom_lt l.level),by rw [leafResult,hb],fun iova' ha => ?_⟩
  have ha' : AgreeAbove (w.granule.addrselectbottom l.level) ctx.iova iova' := by rwa [← hs]
  refine walkWith_eq_ok.mpr ⟨w,l,m1,walkStart_agree hw (ha'.mono (w.granule.addrselectbottom_anti (by omega))),
    walkLoop_agree (by omega) hl ha',walkResult_eq_ok.mpr ⟨ho,prot,hp,?_⟩⟩
  simp [leafResult,PtwLeaf.withPa,PtwCtx.withIova,hb]

section
variable (h : smmuv3Ptw64 pamax ctx m = (.ok leaf,m'))
include h

lemma smmuv3Ptw64_page : 12 ≤ leaf.pageSize ∧ leaf.pageSize < 63 ∧
      leaf.pa = outputBase (walkGranule ctx) leaf.descriptor ||| (ctx.iova &&& lowMask leaf.pageSize) ∧
      ∀ iova', AgreeAbove leaf.pageSize ctx.iova iova' → smmuv3Ptw64 pamax (ctx.withIova iova') m = (.ok (leaf.withPa
            (outputBase (walkGranule ctx) leaf.descriptor ||| (iova' &&& lowMask leaf.pageSize))),m') :=
  walkWith_page h

omit h in
lemma checkLeaf_eq_ok {l : Leaf} : checkLeaf ctx l m = (.ok prot,m') ↔ ∃ desc m1,
      accessFlag ctx l.desc (checkedAttrs ctx.stage l.desc l.tableattrs) l.descAddr m = (true,desc,m1) ∧
        permission ctx (l.desc.getLsbD 51) desc (checkedAttrs ctx.stage l.desc l.tableattrs) (leafAttrs l.desc)
          l.descAddr m1 = (some prot,m') := by
  simp only [checkLeaf]
  generalize checkedAttrs ctx.stage l.desc l.tableattrs = attrs
  generalize l.desc.getLsbD 51 = dbm
  rcases accessFlag ctx l.desc attrs l.descAddr m with ⟨_ | _,desc,m1⟩
  · simp
  · rcases hp : permission ctx dbm desc attrs (leafAttrs l.desc) l.descAddr m1 with ⟨_ | p,m2⟩ <;> simp [hp]

omit h in
lemma stage1Prot_eq {dbm : Bool} {desc d : U64} (h : stage1Prot ctx dbm desc attrs d m = (some prot,m')) :
    prot = if bit32 attrs 5 ∧ ctx.access ≠ .wo then .ro else .rw := by
  simp only [stage1Prot] at h
  split_ifs at h with h1 h2 h3 h4
  · cases h
  · split at h
    · cases h
      simp [h3]
    · cases h
  · cases h
  · rw [if_pos ⟨h2,h3⟩]
    exact (Option.some.inj (congrArg Prod.fst h)).symm.trans (by decide)
  · cases h
    simp [h2]

omit h in
lemma stage2Prot_ne_none {access : IOMMUAccessFlags} : stage2Prot access attrs ≠ some .none := by
  simp only [stage2Prot]
  split
  · simp
  · split_ifs <;> decide
  · split_ifs <;> decide
  · decide

lemma smmuv3Ptw64_permission :
    ∃ desc m1, permission ctx (leaf.descriptor.getLsbD 51) desc
      (checkedAttrs ctx.stage leaf.descriptor leaf.tableattrs) (leafAttrs leaf.descriptor) leaf.leafDescAddr m1 =
        (some leaf.prot,m') := by
  obtain ⟨w,l,m1,-,-,hr⟩ := walkWith_eq_ok.mp h
  obtain ⟨-,prot,hpr,rfl⟩ := walkResult_eq_ok.mp hr
  obtain ⟨desc,m2,-,hp⟩ := checkLeaf_eq_ok.mp hpr
  exact ⟨desc,m2,hp⟩

lemma smmuv3Ptw64_prot : leaf.prot ≠ .none := by
  obtain ⟨desc,m1,hp⟩ := smmuv3Ptw64_permission h
  intro hn
  rw [hn,permission] at hp
  split at hp
  · have hpr := stage1Prot_eq hp
    split_ifs at hpr
  · exact stage2Prot_ne_none (congrArg Prod.fst hp)

end

end

section
variable {M : Type} [DmaSocket M] {pamax : ℕ} {bus bus' : M}

lemma walkedLeaf_eq_some {w : WalkedLeaf} : walkedLeaf pamax ctx bus = (some w,bus') ↔
      smmuv3Ptw64 pamax ctx bus = (.ok w.leaf,bus') ∧ w.granule = walkGranule ctx := by
  rw [walkedLeaf]
  rcases smmuv3Ptw64 pamax ctx bus with ⟨f | l,bus1⟩
  · simp
  · simp only [Prod.mk.injEq,Option.some.injEq,Except.ok.injEq]
    constructor
    · rintro ⟨rfl,rfl⟩
      exact ⟨⟨rfl,rfl⟩,rfl⟩
    · rintro ⟨⟨rfl,rfl⟩,hg⟩
      exact ⟨by rw [← hg],rfl⟩

def WalkedLeaf.withPa (w : WalkedLeaf) (pa : U64) : WalkedLeaf := ⟨w.granule,w.leaf.withPa pa⟩

lemma walkedLeaf_page {w : WalkedLeaf} (h : walkedLeaf pamax ctx bus = (some w,bus')) :
    12 ≤ w.leaf.pageSize ∧ w.leaf.pa = w.base ||| (ctx.iova &&& lowMask w.leaf.pageSize) ∧
      ∀ iova', AgreeAbove w.leaf.pageSize ctx.iova iova' → walkedLeaf pamax (ctx.withIova iova') bus =
          (some (w.withPa (w.base ||| (iova' &&& lowMask w.leaf.pageSize))),bus') := by
  obtain ⟨hpt,hg⟩ := walkedLeaf_eq_some.mp h
  obtain ⟨h12,hk,hpa,hp⟩ := smmuv3Ptw64_page hpt
  have hb : w.base = outputBase (walkGranule ctx) w.leaf.descriptor := by rw [WalkedLeaf.base,hg]
  rw [hb]
  refine ⟨h12,hpa,fun iova' ha => walkedLeaf_eq_some.mpr ⟨hp iova' ha,?_⟩⟩
  rw [walkGranule_agree ha hk.le]
  exact hg

/-- What the last walk adds to the page offset: the leaf's output address and, nested, low bits of the first one's. -/
def Walked.offsetBase (w : Walked) : U64 := match w.before with
  | none => w.last.base
  | some w1 => w.last.base ||| (w1.base &&& lowMask w.last.leaf.pageSize)

/-- The reported page is no larger than the stage-1 leaf it lies in. -/
def Walked.Fits (w : Walked) : Prop := ∀ w1 ∈ w.before, w.last.leaf.pageSize ≤ w1.leaf.pageSize

lemma Tables.firstCtx_iova (t : Tables) (iova : U64) (access : IOMMUAccessFlags) :
    (t.firstCtx iova access).iova = iova := by
  rw [firstCtx]
  split <;> rfl

lemma Tables.firstCtx_withIova (t : Tables) (iova : U64) (access : IOMMUAccessFlags) (iova' : U64) :
    (t.firstCtx iova access).withIova iova' = t.firstCtx iova' access := by
  rw [firstCtx,firstCtx]
  split <;> rfl

variable {access : IOMMUAccessFlags} {t : Tables} {iova : U64} {i : ℕ}

/-- All addresses of the reported page take the same leaves, and the answers differ in the offset alone. -/
lemma walkLeaves_page {w : Walked} (h : walkLeaves pamax t iova access bus = (some w,bus')) (hf : w.Fits) :
    w.last.leaf.pa = w.offsetBase ||| (iova &&& lowMask w.last.leaf.pageSize) ∧
      ∀ iova', AgreeAbove w.last.leaf.pageSize iova iova' → ∃ w',
        walkLeaves pamax t iova' access bus = (some w',bus') ∧
        w'.last.leaf = w.last.leaf.withPa (w.offsetBase ||| (iova' &&& lowMask w.last.leaf.pageSize)) := by
  rcases walkLeaves_eq_some.mp h with ⟨hn,hb,hw⟩ | ⟨hn,w1,bus1,hb,hw1,hw2⟩
  · obtain ⟨-,hpa,hp⟩ := walkedLeaf_page hw
    simp only [Walked.offsetBase,hb]
    refine ⟨by rw [hpa,t.firstCtx_iova],fun iova' ha => ?_⟩
    refine ⟨⟨w.last.withPa (w.last.base ||| (iova' &&& lowMask w.last.leaf.pageSize)),none⟩,?_,rfl⟩
    refine walkLeaves_eq_some.mpr (Or.inl ⟨hn,rfl,?_⟩)
    rw [← t.firstCtx_withIova iova]
    exact hp iova' (by rwa [t.firstCtx_iova])
  · obtain ⟨-,hpa1,hp1⟩ := walkedLeaf_page hw1
    obtain ⟨-,hpa2,hp2⟩ := walkedLeaf_page hw2
    have hle := hf w1 hb
    rw [t.firstCtx_iova] at hpa1 hp1
    simp only [Walked.offsetBase,hb]
    have hc := or_and_lowMask_cut hle w.last.base w1.base
    refine ⟨by rw [hpa2,← hc iova,← hpa1]; rfl,fun iova' ha => ?_⟩
    have hag : AgreeAbove w.last.leaf.pageSize w1.leaf.pa
        (w1.base ||| (iova' &&& lowMask w1.leaf.pageSize)) := by
      rw [hpa1]
      exact ha.or_and w1.base (lowMask w1.leaf.pageSize)
    have h1 := hp1 iova' (ha.mono hle)
    rw [t.firstCtx_withIova] at h1
    exact ⟨⟨w.last.withPa _,some (w1.withPa _)⟩,walkLeaves_eq_some.mpr (Or.inr ⟨hn,_,bus1,rfl,h1,hp2 _ hag⟩),
      congrArg w.last.leaf.withPa (hc iova')⟩

lemma walkLeaves_pageSize
    {w : Walked} (h : walkLeaves pamax t iova access bus = (some w,bus')) : 12 ≤ w.last.leaf.pageSize := by
  rcases walkLeaves_eq_some.mp h with ⟨-,-,hw⟩ | ⟨-,w1,bus1,-,-,hw⟩
  · exact (walkedLeaf_page hw).1
  · exact (walkedLeaf_page hw).1

lemma walkedLeaf_offset {w : WalkedLeaf}
    (h : walkedLeaf pamax ctx bus = (some w,bus')) (hi : i < 12) (hb : ctx.iova.getLsbD i = true) :
    w.leaf.pa.getLsbD i = true := by
  obtain ⟨h12,hpa,-⟩ := walkedLeaf_page h
  rw [hpa]
  simp [hb,show i < 64 by omega,show i < w.leaf.pageSize by omega]

lemma walkLeaves_offset {w : Walked} (h : walkLeaves pamax t iova access bus = (some w,bus')) (hi : i < 12)
    (hb : iova.getLsbD i = true) : w.last.leaf.pa.getLsbD i = true := by
  have hf : (t.firstCtx iova access).iova.getLsbD i = true := by rwa [t.firstCtx_iova]
  rcases walkLeaves_eq_some.mp h with ⟨-,-,hw⟩ | ⟨-,w1,bus1,-,hw1,hw2⟩
  · exact walkedLeaf_offset hw hi hf
  · exact walkedLeaf_offset hw2 hi (walkedLeaf_offset hw1 hi hf)

lemma walkLeaves_prot {w : Walked}
    (h : walkLeaves pamax t iova access bus = (some w,bus')) : w.last.leaf.prot ≠ .none := by
  rcases walkLeaves_eq_some.mp h with ⟨-,-,hw⟩ | ⟨-,w1,bus1,-,-,hw⟩
  · exact smmuv3Ptw64_prot (walkedLeaf_eq_some.mp hw).1
  · exact smmuv3Ptw64_prot (walkedLeaf_eq_some.mp hw).1

/-- Every address of the reported page is translated to the same page and its own offset. -/
def PageUniform (txn : Txn) (sid ssid : U32) (isSecure : Bool) (s : Smmuv3 M) : Prop :=
  let te := freshTranslate txn sid ssid isSecure s
  ∀ iova', iova' &&& ~~~te.addrMask = txn.address &&& ~~~te.addrMask →
    let te' := freshTranslate (txn.withAddress iova') sid ssid isSecure s
    te'.perm ≠ .none ∧ te'.translatedAddr = (te.translatedAddr &&& ~~~te.addrMask) ||| (iova' &&& te.addrMask)

/-- The output addresses of the leaves are aligned to the reported page. -/
def Walked.Aligned (w : Walked) : Prop := w.last.base &&& lowMask w.last.leaf.pageSize = 0 ∧
    ∀ w1 ∈ w.before, w1.base &&& lowMask w.last.leaf.pageSize = 0

lemma Walked.aligned_iff (w : Walked) : w.Aligned ↔ w.offsetBase &&& lowMask w.last.leaf.pageSize = 0 := by
  rcases w with ⟨last,_ | w1⟩
  · simp [Aligned,offsetBase]
  · simp only [Aligned,offsetBase,Option.mem_def,Option.some.injEq,forall_eq']
    rw [BitVec.and_or_distrib_right,BitVec.and_assoc,BitVec.and_self]
    exact BitVec.or_eq_zero_iff.symm

/-- The reported page is mapped alike exactly when its leaves' addresses are aligned to it, provided it is not beyond
the stage-1 leaf. -/
theorem reported_page_uniform_iff {txn : Txn} {sid ssid : U32} {s : Smmuv3 M} {w : Walked}
    (hwalk : freshWalk txn sid ssid s = some w) (hfit : w.Fits) (isSecure : Bool) :
    PageUniform txn sid ssid isSecure s ↔ w.Aligned := by
  obtain ⟨t,st,bus,hr,hl⟩ := freshWalk_eq_some.mp hwalk
  obtain ⟨hpa,hp⟩ := walkLeaves_page hl hfit
  have ho (iova' : U64) (ha : AgreeAbove w.last.leaf.pageSize txn.address iova') :
      (freshTranslate (txn.withAddress iova') sid ssid isSecure s).perm ≠ .none ∧
      (freshTranslate (txn.withAddress iova') sid ssid isSecure s).translatedAddr =
        w.offsetBase ||| (iova' &&& lowMask w.last.leaf.pageSize) := by
    obtain ⟨w',hw',hle⟩ := hp iova' ha
    rw [freshTranslate_walk (resolve_tables hr (txn.withAddress iova')) hw']
    refine ⟨walkLeaves_prot hw',?_⟩
    show w'.last.leaf.pa = _
    rw [hle]
    rfl
  rw [w.aligned_iff,PageUniform,freshTranslate_of_freshWalk hwalk]
  show (∀ iova', iova' &&& ~~~lowMask w.last.leaf.pageSize = txn.address &&& ~~~lowMask w.last.leaf.pageSize →
    _ ∧ _ = (w.last.leaf.pa &&& ~~~lowMask w.last.leaf.pageSize) ||| (iova' &&& lowMask w.last.leaf.pageSize)) ↔ _
  rw [hpa,← page_offset_iff w.offsetBase (lowMask w.last.leaf.pageSize) txn.address]
  constructor
  · intro h iova' hm
    rw [← (h iova' hm).2]
    exact ((ho iova' (agreeAbove_iff.mpr hm.symm)).2).symm
  · intro h iova' hm
    obtain ⟨hpe,had⟩ := ho iova' (agreeAbove_iff.mpr hm.symm)
    exact ⟨hpe,had.trans (h iova' hm)⟩

/-- A stage-1 page of 4K whose output is at `0x5000`: the whole page is mapped alike. -/
theorem page_uniform_stage1_page : PageUniform (readTxn 0x1234) 0 0 false
      (sampleSmmu 5 [(0x20000,0x21003),(0x21000,0x22003),(0x22008,0x5443)]) := by
  have hw : freshWalk (readTxn 0x1234) 0 0
      (sampleSmmu 5 [(0x20000,0x21003),(0x21000,0x22003),(0x22008,0x5443)]) =
      some ⟨⟨.g4k,⟨0x5234,12,0x5443,0,0x22008,.rw⟩⟩,none⟩ := by decide +kernel
  exact (reported_page_uniform_iff hw (by simp [Walked.Fits]) false).mpr
    ⟨by decide +kernel,by simp⟩

/-- A page of 4K under a stage-2 block of 1G is reported as the block, but the next page is not mapped. -/
theorem nested_page_reported_too_large :
    let s := sampleSmmu 7 [(0x10000,0x4C1),(0x20000,0x21003),(0x21000,0x22003),(0x22008,0x5443)]
    (freshTranslate (readTxn 0x1234) 0 0 false s).perm = .rw ∧
      (freshTranslate (readTxn 0x1234) 0 0 false s).addrMask = 0x3FFFFFFF ∧
      (freshTranslate (readTxn 0x2234) 0 0 false s).perm = .none ∧
      ¬ PageUniform (readTxn 0x1234) 0 0 false s := by
  intro s
  refine ⟨by decide +kernel,by decide +kernel,by decide +kernel,fun h => ?_⟩
  have h2 := (h 0x2234 (by decide +kernel)).1
  exact h2 (by decide +kernel)

end

end Qbox.Smmuv3
