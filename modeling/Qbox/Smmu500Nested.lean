import Qbox.Smmu500Walk

/-! Nested translation by the SMMU-500: what becomes of a stage-1 fault. -/
namespace Qbox.Smmu500
open DmaSocket
open Option hiding Rel

section
variable {M : Type} [DmaSocket M] {fetch : U64 → M → Except Halt U64 × M}

def KeepsMemory (fetch : U64 → M → Except Halt U64 × M) : Prop := ∀ addr m, (fetch addr m).2 = m

lemma fetchOf_cases (pamax : ℕ) (banks : ℕ → ContextBank) (req : WalkReq) :
    fetchOf (M := M) pamax banks req = nestedFetch pamax banks req ∨ fetchOf (M := M) pamax banks req = plainFetch := by
  rw [fetchOf]
  split
  · exact .inl rfl
  · exact .inr rfl

section
variable {R : M → M → Prop} (hrefl : ∀ m, R m m) (htrans : ∀ a b c, R a b → R b c → R a c)
  (hread : ∀ addr m, R m (dmaRead64 addr m).2)

include htrans hread

lemma walkStep_rel (hft : ∀ addr m, R m (fetch addr m).2) (va : U64) (g : Granule) (outputsize level : ℕ)
    (ttbr : U64) (tableattrs : U32) (m : M) : R m (walkStep fetch va g outputsize level ttbr tableattrs m).2 := by
  have hf := hft (ttbr ||| descIndex va g level) m
  rw [walkStep]
  rcases hfe : fetch (ttbr ||| descIndex va g level) m with ⟨h | descaddr,m1⟩
  · rw [hfe] at hf
    exact hf
  · rw [hfe] at hf
    have hr := htrans _ _ _ hf (hread descaddr m1)
    rcases hre : dmaRead64 descaddr m1 with ⟨_ | desc,m2⟩
    · simpa only [hre] using hr
    · simpa only [hre] using hr

lemma walkLoop_rel (hf : ∀ addr m, R m (fetch addr m).2) (va : U64) (g : Granule) (outputsize n : ℕ) (ttbr : U64)
    (tableattrs : U32) (m : M) : R m (walkLoop fetch va g outputsize n ttbr tableattrs m).2 := by
  induction n generalizing ttbr tableattrs m with
  | zero =>
    have hs := walkStep_rel htrans hread hf va g outputsize 3 ttbr tableattrs m
    rw [walkLoop]
    rcases hst : walkStep fetch va g outputsize 3 ttbr tableattrs m with ⟨h | l | ⟨next,attrs⟩,m1⟩
    all_goals
      rw [hst] at hs
      exact hs
  | succ n ih =>
    have hs := walkStep_rel htrans hread hf va g outputsize (2-n) ttbr tableattrs m
    rw [walkLoop]
    rcases hst : walkStep fetch va g outputsize (2-n) ttbr tableattrs m with ⟨h | l | ⟨next,attrs⟩,m1⟩
    · rw [hst] at hs
      exact hs
    · rw [hst] at hs
      exact hs
    · rw [hst] at hs
      exact htrans _ _ _ hs (ih next attrs m1)

include hrefl

lemma walkWith_rel (hf : ∀ addr m, R m (fetch addr m).2) (pamax : ℕ) (bank : ContextBank) (req : WalkReq)
    (m : M) : R m (walkWith fetch pamax bank req m).2 := by
  rw [walkWith]
  split_ifs
  · exact hrefl m
  · cases walkStart pamax (bit32 bank.cba2r 0) req with
    | error h => exact hrefl m
    | ok w =>
      have hl := walkLoop_rel htrans hread hf req.va w.granule w.outputsize (3-w.level) w.ttbr 0 m
      rcases hlo : walkLoop fetch req.va w.granule w.outputsize (3-w.level) w.ttbr 0 m with ⟨h | l,m1⟩
      · rw [hlo] at hl
        simpa only [hlo] using hl
      · rw [hlo] at hl
        simpa only [hlo] using hl

lemma fetchOf_rel (pamax : ℕ) (banks : ℕ → ContextBank) (req : WalkReq) (addr : U64) (m : M) :
    R m (fetchOf pamax banks req addr m).2 := by
  rcases fetchOf_cases (M := M) pamax banks req with heq | heq
  · have hp : ∀ addr m, R m (plainFetch addr m).2 := fun _ m => hrefl m
    have hw := walkWith_rel hrefl htrans hread hp pamax (banks req.s2Cb) (req.atStage2 addr) m
    rw [heq,nestedFetch]
    rcases hwa : walkWith plainFetch pamax (banks req.s2Cb) (req.atStage2 addr) m with ⟨(f | _) | l,m1⟩
    all_goals
      rw [hwa] at hw
      exact hw
  · rw [heq]
    exact hrefl m

lemma walk_rel (pamax : ℕ) (banks : ℕ → ContextBank) (cb : ℕ) (req : WalkReq) (m : M) :
    R m (walk pamax banks cb req m).2 :=
  walkWith_rel hrefl htrans hread (fetchOf_rel hrefl htrans hread pamax banks req) pamax (banks cb) req m

end

section
variable (hp : PureReads M) (pamax : ℕ) (banks : ℕ → ContextBank)
include hp pamax banks

lemma fetchOf_keeps (req : WalkReq) :
    KeepsMemory (fetchOf (M := M) pamax banks req) :=
  fetchOf_rel (R := fun m m' => m' = m) (fun _ => rfl) (fun _ _ _ h1 h2 => h2.trans h1) hp.dmaRead64 pamax banks req

lemma walk_dma (cb : ℕ) (req : WalkReq) (m : M) :
    (walk pamax banks cb req m).2 = m :=
  walkWith_rel (R := fun m m' => m' = m) (fun _ => rfl) (fun _ _ _ h1 h2 => h2.trans h1) hp.dmaRead64
    (fetchOf_keeps hp pamax banks req) pamax (banks cb) req m

end

end

section
variable {M : Type}

section
variable (cb : ℕ) (req : WalkReq) (f : PtwFault) (s : Smmu500 M)
include cb req f s

@[simp] lemma raise_pamax :
    (raise cb req f s).pamax = s.pamax := by
  rw [raise]
  cases f.nested <;> rfl

@[simp] lemma raise_banks :
    (raise cb req f s).banks = s.banks := by
  rw [raise]
  cases f.nested <;> rfl

@[simp] lemma raise_dma :
    (raise cb req f s).dma = s.dma := by
  rw [raise]
  cases f.nested <;> rfl

end

variable [DmaSocket M]

def stage1Walk (s : Smmu500 M) (cb : ℕ) (va : U64) (wr : Bool) : Except Halt PtwLeaf :=
  (walk s.pamax s.banks cb (walkReq s.banks cb va wr) s.dma).1

def stage2Walk (s : Smmu500 M) (cb : ℕ) (ipa : U64) (wr : Bool) : Except Halt PtwLeaf :=
  (walk s.pamax s.banks cb ((walkReq s.banks cb ipa wr).atStage2 ipa) s.dma).1

def Stage1Faults (s : Smmu500 M) (cb : ℕ) (va : U64) (wr : Bool) : Prop :=
  ∃ f, stage1Walk s cb va wr = .error (.fault f)

def Stage2Maps (s : Smmu500 M) (cb : ℕ) (ipa : U64) (wr : Bool) : Prop := ∃ l, stage2Walk s cb ipa wr = .ok l

/-- The error flag and the output address in a request after a walk of `va`. -/
def walkAnswer (va : U64) : Except Halt PtwLeaf → Option (Bool × U64)
  | .ok l => some (false,l.pa)
  | .error (.fault _) => some (true,va)
  | .error .stop => none

def Routed (s : Smmu500 M) (addr : U64) (cmd : TlmCommand) (sid : U64) (cb : ℕ) (va : U64) (wr : Bool) : Prop :=
  bit32 s.scr0 0 = false ∧ smmu500StreamIdMatch (masterId addr sid) s = some cb ∧ lookupAddress addr = va ∧
    (cmd == .write) = wr

/-- A nested translation does not get past stage 1: a stage-1 fault refuses the access, and without error it composes
both walks. -/
structure Stage1Enforced (s : Smmu500 M) (cb : ℕ) (va : U64) (wr : Bool) : Prop where
  fault : Stage1Faults s cb va wr → ∀ pageSize r s', smmu500At64 cb va wr true pageSize s = some (r,s') → r.err = true
  refused : Stage1Faults s cb va wr → ∀ addr cmd sid te s', Routed s addr cmd sid cb va wr →
    smmu500Translate addr cmd sid s = some (te,s') → te.perm = .none
  composed : ∀ pageSize r s', smmu500At64 cb va wr true pageSize s = some (r,s') → r.err = false →
    ∃ l1 l2, stage1Walk s cb va wr = .ok l1 ∧ stage2Walk s cb l1.pa wr = .ok l2 ∧ r.pa = l2.pa

variable {s : Smmu500 M} {cb : ℕ} {va : U64} {wr : Bool}

lemma walkAnswer_eq_true {w : Except Halt PtwLeaf} {pa : U64} :
    walkAnswer va w = some (true,pa) ↔ (∃ f, w = .error (.fault f)) ∧ va = pa := by
  rcases w with (f | _) | l <;> simp [walkAnswer]

lemma walkAnswer_eq_false {w : Except Halt PtwLeaf} {pa : U64} :
    walkAnswer va w = some (false,pa) ↔ ∃ l, w = .ok l ∧ l.pa = pa := by
  rcases w with (f | _) | l <;> simp [walkAnswer]

lemma smmu500Ptw64_answer (cb : ℕ) (req : TransReq) (s : Smmu500 M) :
    (smmu500Ptw64 cb req s).map (fun r => (r.1.err,r.1.pa)) =
      walkAnswer req.va (walk s.pamax s.banks cb req.toWalkReq s.dma).1 := by
  rw [smmu500Ptw64]
  rcases walk s.pamax s.banks cb req.toWalkReq s.dma with ⟨(f | _) | l,m⟩
  · rfl
  · rfl
  · rfl

lemma smmu500Ptw64_frame (hp : PureReads M) {req req' : TransReq} {s s' : Smmu500 M}
    (h : smmu500Ptw64 cb req s = some (req',s')) :
    req'.toWalkReq = req.toWalkReq ∧ s'.pamax = s.pamax ∧ s'.banks = s.banks ∧ s'.dma = s.dma := by
  have hd := walk_dma hp s.pamax s.banks cb req.toWalkReq s.dma
  rw [smmu500Ptw64] at h
  rcases hw : walk s.pamax s.banks cb req.toWalkReq s.dma with ⟨(f | _) | l,m⟩
  · rw [hw] at h hd
    cases h
    exact ⟨rfl,by simp,by simp,by simpa using hd⟩
  · rw [hw] at h
    cases h
  · rw [hw] at h hd
    cases h
    exact ⟨rfl,rfl,rfl,hd⟩

/-- The second walk starts from what the first one left, after a fault the input, and its answer replaces the first's.
-/
lemma smmu500At64_nested (hpu : PureReads M) (ht : (s.banks cb).type = 3) (va : U64) (wr : Bool) (pageSize : ℕ) :
    (smmu500At64 cb va wr true pageSize s).map (fun r => (r.1.err,r.1.pa)) =
      (walkAnswer va (stage1Walk s cb va wr)).bind fun a => walkAnswer a.2 (stage2Walk s cb a.2 wr) := by
  let req : TransReq := { walkReq s.banks cb va wr with pageSize := pageSize }
  have hst : req.stage = .one := by simp [req,walkReq,ht]
  have hs2 : req.s2Enabled = true := by simp [req,walkReq,ht]
  have hf : walkAnswer va (stage1Walk s cb va wr) =
      (smmu500Ptw64 cb req s).map (fun r => (r.1.err,r.1.pa)) := (smmu500Ptw64_answer cb req s).symm
  cases h : smmu500Ptw64 cb req s with
  | none =>
    have hat : smmu500At64 cb va wr true pageSize s = none := by
      simp only [smmu500At64]
      rw [if_pos hst]
      exact congrArg (Option.bind · _) h
    rw [hf,hat,h]
    rfl
  | some r =>
    obtain ⟨hr,hp,hb,hd⟩ := smmu500Ptw64_frame hpu h
    have hs2' : r.1.s2Enabled = true := by rw [hr]; exact hs2
    have hat : smmu500At64 cb va wr true pageSize s =
        (smmu500Ptw64 cb { r.1 with stage := .two, va := r.1.pa } r.2).map fun r' =>
          (⟨r'.1.err,r'.1.pa,r'.1.prot,r'.1.pageSize⟩,r'.2) := by
      simp only [smmu500At64]
      rw [if_pos hst]
      refine (congrArg (Option.bind · _) h).trans ?_
      simp [hs2',map_eq_bind]
    have hwa : { r.1 with stage := .two, va := r.1.pa }.toWalkReq =
        (walkReq s.banks cb r.1.pa wr).atStage2 r.1.pa := by
      have hw : r.1.toWalkReq.atStage2 r.1.pa = req.toWalkReq.atStage2 r.1.pa := by rw [hr]
      exact hw
    have hs := smmu500Ptw64_answer cb { r.1 with stage := .two, va := r.1.pa } r.2
    rw [hp,hb,hd,hwa] at hs
    rw [hf,hat,h]
    simp only [map_some,bind_some,Option.map_map]
    exact hs

lemma smmu500At64_eq_some (hp : PureReads M) (ht : (s.banks cb).type = 3) {pageSize : ℕ} {r : AtResult}
    {s' : Smmu500 M} (h : smmu500At64 cb va wr true pageSize s = some (r,s')) :
    ∃ a, walkAnswer va (stage1Walk s cb va wr) = some a ∧
      walkAnswer a.2 (stage2Walk s cb a.2 wr) = some (r.err,r.pa) := by
  have hn := smmu500At64_nested hp ht va wr pageSize
  rw [h] at hn
  exact bind_eq_some_iff.mp hn.symm

lemma smmu500Translate_eq_some {addr : U64} {cmd : TlmCommand} {sid : U64} {te : IOMMUTLBEntry} {s' : Smmu500 M}
    (hro : Routed s addr cmd sid cb va wr) (h : smmu500Translate addr cmd sid s = some (te,s')) :
    ∃ r, smmu500At64 cb va wr true 12 s = some (r,s') ∧ (r.err = true → te.perm = .none) := by
  obtain ⟨hc,hm,rfl,rfl⟩ := hro
  simp only [smmu500Translate,hc,hm,Bool.false_eq_true,if_false] at h
  split_ifs at h
  obtain ⟨⟨r,s1⟩,hr,hte⟩ := bind_eq_some_iff.mp h
  cases hte
  refine ⟨r,hr,fun he => ?_⟩
  rw [if_pos he]

/-- Nested translation keeps to stage 1 exactly when stage 2 does not map an address on which
stage 1 faults. -/
theorem stage1_enforced_iff (hpure : PureReads M) (htype : (s.banks cb).type = 3) :
    Stage1Enforced s cb va wr ↔ (Stage1Faults s cb va wr → ¬ Stage2Maps s cb va wr) := by
  constructor
  · rintro he hfa ⟨l,hl⟩
    have hfi : walkAnswer va (stage1Walk s cb va wr) = some (true,va) := walkAnswer_eq_true.mpr ⟨hfa,rfl⟩
    have hs : walkAnswer va (stage2Walk s cb va wr) = some (false,l.pa) := walkAnswer_eq_false.mpr ⟨l,hl,rfl⟩
    have hat := smmu500At64_nested hpure htype va wr 0
    rw [hfi,bind_some,hs] at hat
    obtain ⟨⟨r,s'⟩,hr,heq⟩ := map_eq_some_iff.mp hat
    have her := he.fault hfa 0 r s' hr
    rw [(Prod.mk.inj heq).1] at her
    cases her
  · intro hu
    have hfa : Stage1Faults s cb va wr →
        ∀ pageSize r s', smmu500At64 cb va wr true pageSize s = some (r,s') → r.err = true := by
      intro hf pageSize r s' hr
      obtain ⟨a,hfi,hs⟩ := smmu500At64_eq_some hpure htype hr
      have ha := Option.some.inj ((walkAnswer_eq_true.mpr ⟨hf,rfl⟩).symm.trans hfi)
      subst ha
      cases her : r.err with
      | true => rfl
      | false =>
        rw [her] at hs
        obtain ⟨l,hl,_⟩ := walkAnswer_eq_false.mp hs
        exact absurd ⟨l,hl⟩ (hu hf)
    refine ⟨hfa,?_,?_⟩
    · intro hf addr cmd sid te s' hro hte
      obtain ⟨r,hr,hp⟩ := smmu500Translate_eq_some hro hte
      exact hp (hfa hf 12 r s' hr)
    · intro pageSize r s' hr her
      obtain ⟨a,hfi,hs⟩ := smmu500At64_eq_some hpure htype hr
      rw [her] at hs
      obtain ⟨l2,hl2,hpa⟩ := walkAnswer_eq_false.mp hs
      obtain ⟨_ | _,ipa⟩ := a
      · obtain ⟨l1,hl1,rfl⟩ := walkAnswer_eq_false.mp hfi
        exact ⟨l1,l2,hl1,hl2,hpa.symm⟩
      · obtain ⟨hf,rfl⟩ := walkAnswer_eq_true.mp hfi
        exact absurd ⟨l2,hl2⟩ (hu hf)

end

/-- Bank 0 translates in both stages, with bank 1 for stage 2: 4K granules, 39 bits, tables at `0x20000` and
`0x30000`. -/
def sampleSmmu500 (words : List (U64 × U64)) : Smmu500 Ram where
  smr := fun _ => 0xFFFF0000
  banks := fun
    | 0 => { cbar := 0x30100, cba2r := 1, sctlr := 1, tcr2 := 5, tcrLpae := 25, ttbr0Low := 0x20000 }
    | _ => { sctlr := 1, tcrLpae := 0x50059, ttbr0Low := 0x30000 }
  dma := ⟨words,[]⟩

/-- Stage 1 maps the page at `0x1000` and stage 2 maps the first gigabyte. -/
theorem stage1_enforced_page :
    Stage1Enforced (sampleSmmu500 [(0x20000,0x21003),(0x21000,0x22003),(0x22008,0x5443),(0x30000,0x4C1)])
      0 0x1000 false := by
  refine (stage1_enforced_iff Ram.pureReads (by decide +kernel)).mpr ?_
  rintro ⟨f,hf⟩
  have hok : stage1Walk (sampleSmmu500
      [(0x20000,0x21003),(0x21000,0x22003),(0x22008,0x5443),(0x30000,0x4C1)]) 0 0x1000 false =
      .ok ⟨0x5000,some 12,.rw⟩ := by decide +kernel
  cases hf

/-- Stage 1 maps nothing, stage 2 the first gigabyte: the walk of `0x1000` faults, and the access goes there. -/
theorem stage1_fault_forgotten : Stage1Faults (sampleSmmu500 [(0x30000,0x4C1)]) 0 0x1000 false ∧
      (smmu500At64 0 0x1000 false true 12 (sampleSmmu500 [(0x30000,0x4C1)])).map Prod.fst =
        some ⟨false,0x1000,.rw,30⟩ ∧
      (smmu500Translate 0x1000 .read 0 (sampleSmmu500 [(0x30000,0x4C1)])).map Prod.fst = some ⟨0,0x1000,0xFFF,.rw⟩ ∧
      ¬ Stage1Enforced (sampleSmmu500 [(0x30000,0x4C1)]) 0 0x1000 false := by
  have hf : Stage1Faults (sampleSmmu500 [(0x30000,0x4C1)]) 0 0x1000 false := ⟨{},by decide +kernel⟩
  have hat : (smmu500At64 0 0x1000 false true 12 (sampleSmmu500 [(0x30000,0x4C1)])).map Prod.fst =
      some ⟨false,0x1000,.rw,30⟩ := by decide +kernel
  refine ⟨hf,hat,by decide +kernel,fun he => ?_⟩
  obtain ⟨⟨r,s'⟩,hr,hfs⟩ := map_eq_some_iff.mp hat
  have her := he.fault hf 12 r s' hr
  rw [show r = ⟨false,0x1000,.rw,30⟩ from hfs] at her
  cases her

end Qbox.Smmu500
