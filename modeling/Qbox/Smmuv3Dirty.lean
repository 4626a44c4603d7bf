import Qbox.Smmuv3WalkLog

/-! The hardware update of the dirty state. A table descriptor can forbid writes below it; the walker folds that into the
attributes of the leaf before it looks whether the leaf may be made writable. -/
namespace Qbox.Smmuv3
open MachineWord DmaSocket Bool

section
variable {M : Type} [DmaSocket M] {fetch : U64 → M → Option U64 × M} {g : Granule} {outputsize : ℕ}

def loopTables (fetch : U64 → M → Option U64 × M) (iova : U64) (g : Granule) (outputsize : ℕ) :
    ℕ → U64 → U32 → M → List U64
  | 0, _, _, _ => []
  | n+1, ttbr, tableattrs, m =>
    match fetch (ttbr ||| descIndex iova g (2-n)) m with
    | (none,_) => []
    | (some descaddr,m) =>
      match dmaRead64 descaddr m with
      | (none,_) => []
      | (some desc,m) =>
        match classify g outputsize (2-n) tableattrs descaddr desc with
        | .table next attrs _ => desc :: loopTables fetch iova g outputsize n next attrs m
        | _ => []

def pathTables (pamax : ℕ) (ctx : PtwCtx) (m : M) : List U64 := match walkStart pamax ctx with
  | .error _ => []
  | .ok w => loopTables (fetchOf pamax ctx) ctx.iova w.granule w.outputsize (3-w.level) w.ttbr 0 m

/-- The leaf carries the restriction of every table above it. -/
lemma walkLoop_tables {iova : U64} {n : ℕ} {ttbr : U64} {attrs : U32} {last : Option U64} {m m' : M} {l : Leaf}
    (h : walkLoop fetch iova g outputsize n ttbr attrs last m = (.ok l,m')) : l.tableattrs.getLsbD 3 =
      (attrs.getLsbD 3 || (loopTables fetch iova g outputsize n ttbr attrs m).any (·.getLsbD 62)) := by
  refine walkLoop_induct (motive := fun n ttbr attrs _ m => l.tableattrs.getLsbD 3 =
    (attrs.getLsbD 3 || (loopTables fetch iova g outputsize n ttbr attrs m).any (·.getLsbD 62))) ?_ ?_ h
  · intro n ttbr attrs last m hs
    obtain ⟨d,m1,desc,hf,hr,hc⟩ := walkStep_read hs (by simp)
    rw [(classify_leaf hc).2.2.1]
    cases n with
    | zero => simp [loopTables]
    | succ n =>
      rw [Nat.add_comm,Nat.sub_add_eq] at hf hc
      simp [loopTables,hf,hr,hc]
  · intro n ttbr attrs last m next attrs' d' m2 hs _ ih
    obtain ⟨d,m1,desc,hf,hr,hc⟩ := walkStep_read hs (by simp)
    rw [ih,(classify_table hc).2.2]
    simp [loopTables,hf,hr,hc,Bool.or_assoc]

/-- The descent of a walk ends at a leaf. -/
def Reached (pamax : ℕ) (ctx : PtwCtx) (m : M) (w : WalkStart) (l : Leaf) (m1 : M) : Prop :=
  walkStart pamax ctx = .ok w ∧ descend (fetchOf pamax ctx) ctx w m = (.ok l,m1)

lemma Reached.restricted {pamax : ℕ} {ctx : PtwCtx} {m m1 : M} {w : WalkStart} {l : Leaf}
    (h : Reached pamax ctx m w l m1) (hp : ∃ t ∈ pathTables pamax ctx m, t.getLsbD 62 = true) :
    l.tableattrs.getLsbD 3 = true := by
  obtain ⟨t,ht,hb⟩ := hp
  rw [pathTables,h.1] at ht
  rw [walkLoop_tables h.2]
  simp only [BitVec.ofNat_eq_ofNat,BitVec.getLsbD_zero,Bool.false_or]
  exact List.any_eq_true.mpr ⟨t,ht,hb⟩

end

section
variable {M : Type} [DmaSocket M] {ctx : PtwCtx} {l : Leaf}

def cleared (desc : U64) : U64 := desc &&& ~~~(1#64 <<< 7)

/-- A write makes the leaf writable: dirty management is on, the leaf takes part and passes its checks, and the memory
accepts. -/
def DirtyUpdate (ctx : PtwCtx) (l : Leaf) (m : M) : Prop :=
  ctx.access = .wo ∧ ctx.hd = true ∧ l.desc.getLsbD 51 = true ∧ l.desc.getLsbD 6 = true ∧
    ∃ desc m1, accessFlag ctx l.desc (checkedAttrs .one l.desc l.tableattrs) l.descAddr m = (true,desc,m1) ∧
      (dmaWrite64 l.descAddr (cleared desc) m1).1 = true

section
variable (hs : ctx.stage = .one) (hro : l.tableattrs.getLsbD 3 = true)
include hs hro

lemma checkLeaf_restricted {m m' : M}
    {prot : IOMMUAccessFlags} (h : checkLeaf ctx l m = (.ok prot,m')) :
    (ctx.access ≠ .wo ∧ prot = .ro) ∨ DirtyUpdate ctx l m := by
  have hr : (IOMMUAccessFlags.rw &&& ~~~IOMMUAccessFlags.wo) = .ro := by decide
  simp only [checkLeaf,hs] at h
  rcases haf : accessFlag ctx l.desc (checkedAttrs .one l.desc l.tableattrs) l.descAddr m with ⟨_ | _,desc,m1⟩
  · simp [haf] at h
  · simp only [haf,permission,hs,stage1Prot,bit32_checkedAttrs_ap1,bit32_checkedAttrs_ap2,hro,Bool.or_true,if_true,
      hr] at h
    cases hap : l.desc.getLsbD 6 with
    | false =>
      simp only [hap,Bool.not_false,if_true] at h
      cases h
    | true =>
      simp only [hap,Bool.not_true,false_eq_true,if_false] at h
      by_cases hwo : ctx.access = .wo
      · by_cases hdb : (ctx.hd && l.desc.getLsbD 51) = true
        · rcases hw : dmaWrite64 l.descAddr (desc &&& ~~~(1#64 <<< 7)) m1 with ⟨_ | _,m2⟩
          · simp only [hwo,hdb,hw,if_true] at h
            cases h
          · obtain ⟨hhd,hb⟩ := and_eq_true_iff.mp hdb
            exact Or.inr ⟨hwo,hhd,hb,hap,desc,m1,haf,by rw [cleared,hw]⟩
        · simp only [hwo,hdb,if_true,false_eq_true,if_false] at h
          cases h
      · simp only [hwo,if_false,Prod.mk.injEq,Except.ok.injEq] at h
        exact Or.inl ⟨hwo,h.1.symm⟩

lemma checkLeaf_dirty {m : M}
    (h : DirtyUpdate ctx l m) : ∃ m', checkLeaf ctx l m = (.ok .rw,m') := by
  obtain ⟨hwo,hhd,hd,hap,desc,m1,haf,hwr⟩ := h
  rcases hw : dmaWrite64 l.descAddr (cleared desc) m1 with ⟨_ | _,m2⟩
  · rw [hw] at hwr
    cases hwr
  · rw [cleared] at hw
    refine ⟨m2,?_⟩
    simp only [checkLeaf,hs,haf,permission,stage1Prot,bit32_checkedAttrs_ap1,bit32_checkedAttrs_ap2,hro,
      Bool.or_true,if_true,hap,Bool.not_true,false_eq_true,if_false,hwo,hhd,hd,Bool.and_self,hw]

end

lemma accessFlag_writes (ctx : PtwCtx) (desc : U64) (attrs : U32) (d : U64) (x : Logged M) :
    ∀ p ∈ (accessFlag ctx desc attrs d x).2.2.writes, p ∈ x.writes ∨ p = (d,storeLe 8 (desc ||| (1#64 <<< 10))) := by
  have hwr := Logged.dmaWrite64_writes d (desc ||| (1#64 <<< 10)) x
  have hs : ∀ p ∈ (dmaWrite64 d (desc ||| (1#64 <<< 10)) x).2.writes,
      p ∈ x.writes ∨ p = (d,storeLe 8 (desc ||| (1#64 <<< 10))) := by
    intro p hp
    rw [hwr] at hp
    split_ifs at hp
    · exact (List.mem_cons.mp hp).symm
    · exact Or.inl hp
  simp only [accessFlag]
  split_ifs
  · exact fun p hp => Or.inl hp
  · rcases hw : dmaWrite64 d (desc ||| (1#64 <<< 10)) x with ⟨_ | _,x1⟩
    all_goals
      rw [hw] at hs
      exact hs
  · exact fun p hp => Or.inl hp

/-- Without a dirty update the only descriptor that is stored is the one with the access flag. -/
lemma checkLeaf_writes (hs : ctx.stage = .one) {x : Logged M} (hc : ¬ DirtyUpdate ctx l x) :
    ∀ p ∈ (checkLeaf ctx l x).2.writes, p ∈ x.writes ∨ p = (l.descAddr,storeLe 8 (l.desc ||| (1#64 <<< 10))) := by
  have hf := accessFlag_writes ctx l.desc (checkedAttrs .one l.desc l.tableattrs) l.descAddr x
  simp only [checkLeaf,hs]
  rcases haf : accessFlag ctx l.desc (checkedAttrs .one l.desc l.tableattrs) l.descAddr x with ⟨_ | _,desc,x1⟩
  · rw [haf] at hf
    exact hf
  · rw [haf] at hf
    have hsa : (permission ctx (l.desc.getLsbD 51) desc (checkedAttrs .one l.desc l.tableattrs) (leafAttrs l.desc)
        l.descAddr x1).2.writes = x1.writes := by
      simp only [permission,hs,stage1Prot,bit32_checkedAttrs_ap1]
      split_ifs with hap _ hwo hd
      · rfl
      · have hl := Logged.dmaWrite64_writes l.descAddr (desc &&& ~~~(1#64 <<< 7)) x1
        rcases hw : dmaWrite64 l.descAddr (desc &&& ~~~(1#64 <<< 7)) x1 with ⟨_ | _,x2⟩
        · rw [hw] at hl
          exact hl
        · obtain ⟨hhd,hb⟩ := and_eq_true_iff.mp hd
          exact absurd ⟨hwo,hhd,hb,by simpa using hap,desc,x1,haf,by rw [cleared,hw]⟩ hc
      · rfl
      · rfl
      · rfl
    rcases hp : permission ctx (l.desc.getLsbD 51) desc (checkedAttrs .one l.desc l.tableattrs) (leafAttrs l.desc)
      l.descAddr x1 with ⟨_ | prot,x2⟩
    all_goals
      rw [hp] at hsa
      simp only [hp]
      intro p hm
      exact hf p (hsa ▸ hm)

lemma DirtyUpdate.of_logged {x : Logged M} (h : DirtyUpdate ctx l x) : DirtyUpdate ctx l x.mem := by
  obtain ⟨hwo,hhd,hd,hap,desc,x1,haf,hw⟩ := h
  refine ⟨hwo,hhd,hd,hap,desc,x1.mem,?_,?_⟩
  · rw [accessFlag_hom Logged.mem_hom,haf]
    rfl
  · rw [Logged.mem_hom.write64]
    exact hw

end

section
variable {M : Type} [DmaSocket M] {pamax : ℕ} {ctx : PtwCtx} {m : M}

/-- Under a table that forbids writes none succeeds, the leaf keeps its read-only bit, and no right to write is
returned. -/
structure TableRightsKept (pamax : ℕ) (ctx : PtwCtx) (m : M) : Prop where
  write : ctx.access = .wo → ∀ leaf, (smmuv3Ptw64 pamax ctx m).1 ≠ .ok leaf
  leaf : ∀ w l m1, Reached pamax ctx m w l m1 → ∀ p ∈ (walkResult ctx w l (Logged.start m1)).2.writes,
    l.desc.getLsbD 7 = true → (loadLe 64 p.2).getLsbD 7 = true
  rights : ∀ leaf, (smmuv3Ptw64 pamax ctx m).1 = .ok leaf → leaf.prot &&& .wo = .none

/-- A dirty update at the end of a walk. -/
def Overridden (pamax : ℕ) (ctx : PtwCtx) (m : M) : Prop :=
  ∃ w l m1, Reached pamax ctx m w l m1 ∧ checkOutAddr l.ttbr w.outputsize = true ∧ DirtyUpdate ctx l m1

section
variable (hs : ctx.stage = .one) (hp : ∃ t ∈ pathTables pamax ctx m, t.getLsbD 62 = true)
include hs hp

lemma ok_of_overridden
    (h : Overridden pamax ctx m) : ctx.access = .wo ∧ ∃ leaf, (smmuv3Ptw64 pamax ctx m).1 = .ok leaf := by
  obtain ⟨w,l,m1,hr,ho,hd⟩ := h
  obtain ⟨m2,hl⟩ := checkLeaf_dirty hs (hr.restricted hp) hd
  refine ⟨hd.1,leafResult ctx w.granule l .rw,?_⟩
  have hw : smmuv3Ptw64 pamax ctx m = (.ok (leafResult ctx w.granule l .rw),m2) :=
    walkWith_eq_ok.mpr ⟨w,l,m1,hr.1,hr.2,walkResult_eq_ok.mpr ⟨ho,.rw,hl,rfl⟩⟩
  rw [hw]

lemma restricted_ok
    (hcl : ¬ Overridden pamax ctx m) {leaf : PtwLeaf} (h : (smmuv3Ptw64 pamax ctx m).1 = .ok leaf) :
    ctx.access ≠ .wo ∧ leaf.prot = .ro := by
  obtain ⟨w,l,m1,hw,hl,hr⟩ := walkWith_eq_ok.mp (Prod.ext h rfl : smmuv3Ptw64 pamax ctx m = (.ok leaf,_))
  obtain ⟨ho,prot,hc,rfl⟩ := walkResult_eq_ok.mp hr
  have hre : Reached pamax ctx m w l m1 := ⟨hw,hl⟩
  rcases checkLeaf_restricted hs (hre.restricted hp) hc with hrd | hd
  · exact hrd
  · exact absurd ⟨w,l,m1,hre,ho,hd⟩ hcl

end

/-- A walk below a table that forbids writes respects it exactly when it makes no dirty update. -/
theorem table_rights_kept_iff (pamax : ℕ) (ctx : PtwCtx) (m : M) (hstage : ctx.stage = .one)
    (hpath : ∃ t ∈ pathTables pamax ctx m, t.getLsbD 62 = true) :
    TableRightsKept pamax ctx m ↔ ¬ Overridden pamax ctx m := by
  constructor
  · intro h ho
    obtain ⟨hwo,leaf,hok⟩ := ok_of_overridden hstage hpath ho
    exact h.write hwo leaf hok
  · intro hcl
    refine ⟨fun hwo leaf hok => (restricted_ok hstage hpath hcl hok).1 hwo,?_,fun leaf hok => ?_⟩
    · intro w l m1 hr p hp hro
      simp only [walkResult] at hp
      by_cases hou : checkOutAddr l.ttbr w.outputsize = true
      · have hl : ¬ DirtyUpdate ctx l (Logged.start m1) := fun hd => hcl ⟨w,l,m1,hr,hou,hd.of_logged⟩
        have hw := checkLeaf_writes hstage hl p
        have hp' : p ∈ (checkLeaf ctx l (Logged.start m1)).2.writes := by
          rw [if_pos hou] at hp
          rcases hc : checkLeaf ctx l (Logged.start m1) with ⟨_ | _,x⟩
          all_goals
            rw [hc] at hp
            exact hp
        rcases hw hp' with hn | rfl
        · cases hn
        · rw [loadLe_storeLe _ (by decide),BitVec.getLsbD_or,hro]
          rfl
      · rw [if_neg hou] at hp
        cases hp
    · rw [(restricted_ok hstage hpath hcl hok).2]
      decide

/-- A page below a table that forbids writes, with the dirty bit modifier set. -/
def dirtyRam : Ram := ⟨[(0x20000,0x21003),(0x21000,0x4000000000022003),(0x22008,0x00080000000054C3)],[]⟩

def dirtyCtx (hd : Bool) (access : IOMMUAccessFlags) : PtwCtx :=
  stage1Ctx {} { ttb0 := 0x20000, tsz0 := 25, ha := true, hd := hd } false 0x1234 access

/-- Without hardware management of the dirty state the table is respected. -/
theorem table_rights_kept_sample : TableRightsKept 48 (dirtyCtx false .wo) dirtyRam := by
  refine (table_rights_kept_iff 48 (dirtyCtx false .wo) dirtyRam rfl
    ⟨0x4000000000022003,by decide +kernel,by decide⟩).mpr ?_
  rintro ⟨w,l,m1,-,-,-,hhd,-⟩
  cases hhd

/-- The write succeeds, and the leaf is made writable, although the table above it forbids writes. -/
theorem dirty_update_overrides_table : (0x4000000000022003 : U64) ∈ pathTables 48 (dirtyCtx true .wo) dirtyRam ∧
      (smmuv3Ptw64 48 (dirtyCtx true .wo) dirtyRam).1 = .ok ⟨0x5234,12,0x00080000000054C3,8,0x22008,.rw⟩ ∧
      (dmaRead64 0x22008 (smmuv3Ptw64 48 (dirtyCtx true .wo) dirtyRam).2).1 = some 0x0008000000005443 ∧
      ¬ TableRightsKept 48 (dirtyCtx true .wo) dirtyRam := by
  have hok : (smmuv3Ptw64 48 (dirtyCtx true .wo) dirtyRam).1 = .ok ⟨0x5234,12,0x00080000000054C3,8,0x22008,.rw⟩ := by
    decide +kernel
  exact ⟨by decide +kernel,hok,by decide +kernel,fun h => h.write rfl _ hok⟩

end

end Qbox.Smmuv3
