import Qbox.Smmu500Tbu
import Qbox.SocketLog

/-! The descriptors that a walk of the SMMU-500 reads, at both stages, and what the walk checks of them. -/
namespace Qbox.Smmu500
open MachineWord DmaSocket

/-- A descriptor that a walk has read, and whether the walk went on to the table it names. -/
structure DescRead where
  granule : Granule
  level : ℕ
  table : Bool
  desc : U64
  deriving DecidableEq

/-- A valid descriptor of the kind the walk takes it for. -/
structure DescRead.Valid (r : DescRead) : Prop where
  bit0 : r.desc.getLsbD 0 = true
  table : r.table = true → r.level < 3 ∧ (r.desc &&& 3).toNat = 3
  leaf : r.table = false → (r.level = 3 ∧ (r.desc &&& 3).toNat = 3) ∨
      (r.granule.firstblocklevel ≤ r.level ∧ r.level < 3 ∧ (r.desc &&& 3).toNat = 1)

def Descent.isTable : Descent → Bool
  | leaf _ => false
  | table _ _ => true

/-- Every descriptor that is accepted is valid, up to bit 0 of one at level 3. -/
lemma valid_of_classify {g : Granule} {outputsize level : ℕ} {tableattrs : U32} {desc : U64} {d : Descent}
    (h : classify g outputsize level tableattrs desc = .ok d) (hle : level ≤ 3)
    (h3 : level = 3 → desc.getLsbD 0 = true) : DescRead.Valid ⟨g,level,d.isTable,desc⟩ := by
  have ht := toNat_and_three desc
  rw [classify] at h
  split at h
  · next hl =>
    split_ifs at h with h1
    cases h
    rw [h3 hl,h1] at ht
    exact ⟨h3 hl,nofun,fun _ => .inl ⟨hl,ht⟩⟩
  · next hl =>
    have hlt : level < 3 := by omega
    have hbi : (desc &&& 3).toNat % 2 = 1 → desc.getLsbD 0 = true := by
      cases h0 : desc.getLsbD 0 with
      | true => exact fun _ => rfl
      | false =>
        rw [ht,h0]
        simp
    split at h
    · next ho =>
      split_ifs at h with hb
      cases h
      exact ⟨hbi (by omega),nofun,fun _ => .inr ⟨by simpa using hb,hlt,ho⟩⟩
    · next hth =>
      split_ifs at h
      cases h
      exact ⟨hbi (by omega),fun _ => ⟨hlt,hth⟩,nofun⟩
    · cases h

variable {M : Type} [DmaSocket M]

/-- The descriptors read for one level: on the way to it, by `below`, and the one itself. -/
def stepReads (below : U64 → M → List DescRead) (fetch : U64 → M → Except Halt U64 × M) (va : U64) (g : Granule)
    (outputsize level : ℕ) (ttbr : U64) (tableattrs : U32) (m : M) : List DescRead :=
  below (ttbr ||| descIndex va g level) m ++ match fetch (ttbr ||| descIndex va g level) m with
    | (.error _,_) => []
    | (.ok descaddr,m) =>
      match dmaRead64 descaddr m with
      | (none,_) => []
      | (some desc,_) =>
        match classify g outputsize level tableattrs desc with
        | .error _ => [⟨g,level,false,desc⟩]
        | .ok d => [⟨g,level,d.isTable,desc⟩]

def loopReads (below : U64 → M → List DescRead) (fetch : U64 → M → Except Halt U64 × M) (va : U64) (g : Granule)
    (outputsize : ℕ) : ℕ → U64 → U32 → M → List DescRead
  | 0, ttbr, tableattrs, m => stepReads below fetch va g outputsize 3 ttbr tableattrs m
  | n+1, ttbr, tableattrs, m =>
    stepReads below fetch va g outputsize (2-n) ttbr tableattrs m ++
      match walkStep fetch va g outputsize (2-n) ttbr tableattrs m with
      | (.ok (.table next attrs),m) => loopReads below fetch va g outputsize n next attrs m
      | _ => []

def walkReadsWith (below : U64 → M → List DescRead) (fetch : U64 → M → Except Halt U64 × M) (pamax : ℕ)
    (bank : ContextBank) (req : WalkReq) (m : M) : List DescRead :=
  if !bit32 bank.sctlr 0 then []
  else match walkStart pamax (bit32 bank.cba2r 0) req with
    | .error _ => []
    | .ok w => loopReads below fetch req.va w.granule w.outputsize (3-w.level) w.ttbr 0 m

/-- The descriptors of the stage-2 walk for a descriptor address of stage 1. -/
def nestedReads (pamax : ℕ) (banks : ℕ → ContextBank) (req : WalkReq) (descaddr : U64) (m : M) : List DescRead :=
  walkReadsWith (fun _ _ => []) plainFetch pamax (banks req.s2Cb) (req.atStage2 descaddr) m

def readsOf (pamax : ℕ) (banks : ℕ → ContextBank) (req : WalkReq) : U64 → M → List DescRead :=
  match req.stage, req.s2Enabled with
  | .one, true => nestedReads pamax banks req
  | _, _ => fun _ _ => []

/-- The descriptors that `smmu500_ptw64` reads. -/
def walkReads (pamax : ℕ) (banks : ℕ → ContextBank) (cb : ℕ) (req : WalkReq) (m : M) : List DescRead :=
  walkReadsWith (readsOf pamax banks req) (fetchOf pamax banks req) pamax (banks cb) req m

section

/- `R` relates the descriptors read to the memory before and after: what holds of a single read and of a sequence
of reads holds of every walk that succeeds. -/
variable {R : List DescRead → M → M → Prop} (hnil : ∀ m, R [] m m)
  (happend : ∀ rs rs' a b c, R rs a b → R rs' b c → R (rs ++ rs') a c)
  (hread : ∀ {addr m m' g outputsize level tableattrs desc d}, dmaRead64 addr m = (some desc,m') →
    classify g outputsize level tableattrs desc = .ok d → level ≤ 3 → R [⟨g,level,d.isTable,desc⟩] m m')
  {below : U64 → M → List DescRead} {fetch : U64 → M → Except Halt U64 × M}

include happend hread

variable {va ttbr : U64} {g : Granule} {outputsize pamax : ℕ} {tableattrs : U32} {m m' : M} {req : WalkReq}

section
variable (hf : ∀ {addr m pa m'}, fetch addr m = (.ok pa,m') → R (below addr m) m m')
include hf

lemma stepReads_rel
    {level : ℕ} {d : Descent}
    (h : walkStep fetch va g outputsize level ttbr tableattrs m = (.ok d,m')) (hl : level ≤ 3) :
    R (stepReads below fetch va g outputsize level ttbr tableattrs m) m m' := by
  rw [walkStep] at h
  rw [stepReads]
  rcases hfe : fetch (ttbr ||| descIndex va g level) m with ⟨_ | descaddr,m1⟩
  · simp [hfe] at h
  · rcases hre : dmaRead64 descaddr m1 with ⟨_ | desc,m2⟩
    · simp [hfe,hre] at h
    · simp only [hfe,hre,Prod.mk.injEq] at h ⊢
      obtain ⟨hc,rfl⟩ := h
      simp only [hc]
      exact happend _ _ _ _ _ (hf hfe) (hread hre hc hl)

lemma loopReads_rel {n : ℕ} {l : Leaf}
    (h : walkLoop fetch va g outputsize n ttbr tableattrs m = (.ok l,m')) :
    R (loopReads below fetch va g outputsize n ttbr tableattrs m) m m' := by
  induction n generalizing ttbr tableattrs m with
  | zero =>
    rw [walkLoop] at h
    rcases hs : walkStep fetch va g outputsize 3 ttbr tableattrs m with ⟨_ | _ | _,m1⟩
    · simp [hs] at h
    · simp only [hs,Prod.mk.injEq] at h
      exact h.2 ▸ stepReads_rel happend hread hf hs le_rfl
    · simp [hs] at h
  | succ n ih =>
    rw [walkLoop] at h
    rw [loopReads]
    rcases hs : walkStep fetch va g outputsize (2-n) ttbr tableattrs m with ⟨_ | _ | ⟨next,attrs⟩,m1⟩
    · simp [hs] at h
    · simp only [hs,Prod.mk.injEq,List.append_nil] at h ⊢
      exact h.2 ▸ stepReads_rel happend hread hf hs (by omega)
    · rw [hs] at h
      exact happend _ _ _ _ _ (stepReads_rel happend hread hf hs (by omega)) (ih h)

end

include hnil

lemma walkReadsWith_rel (hf : ∀ {addr m pa m'}, fetch addr m = (.ok pa,m') → R (below addr m) m m')
    {bank : ContextBank} {l : PtwLeaf}
    (h : walkWith fetch pamax bank req m = (.ok l,m')) : R (walkReadsWith below fetch pamax bank req m) m m' := by
  rw [walkWith] at h
  rw [walkReadsWith]
  split_ifs at h ⊢
  · cases h
    exact hnil m
  · cases hs : walkStart pamax (bit32 bank.cba2r 0) req with
    | error e => simp [hs] at h
    | ok w =>
      simp only [hs] at h ⊢
      rcases hl : walkLoop fetch req.va w.granule w.outputsize (3-w.level) w.ttbr 0 m with ⟨_ | leaf,m1⟩
      · rw [hl] at h
        cases h
      · simp only [hl,Prod.mk.injEq] at h
        exact h.2 ▸ loopReads_rel happend hread hf hl

lemma walkReads_rel {banks : ℕ → ContextBank} {cb : ℕ} {l : PtwLeaf}
    (h : walk pamax banks cb req m = (.ok l,m')) : R (walkReads pamax banks cb req m) m m' := by
  refine walkReadsWith_rel hnil happend hread ?_ h
  intro addr m pa m' hf
  have hp : ∀ {addr m pa m'}, plainFetch addr m = (.ok pa,m') → R [] m m' := by
    rintro _ m _ _ ⟨⟩
    exact hnil m
  rcases hs : req.stage with _ | _
  · rcases hs2 : req.s2Enabled with _ | _
    · simp only [fetchOf,readsOf,hs,hs2] at hf ⊢
      exact hp hf
    · simp only [fetchOf,readsOf,hs,hs2,nestedFetch] at hf ⊢
      rcases hw : walkWith plainFetch pamax (banks req.s2Cb) (req.atStage2 addr) m with ⟨(_ | _) | l,m1⟩
      · simp [hw] at hf
      · simp [hw] at hf
      · simp only [hw,Prod.mk.injEq] at hf
        exact hf.2 ▸ walkReadsWith_rel hnil happend hread hp hw
  · simp only [fetchOf,readsOf,hs] at hf ⊢
    exact hp hf

end

/-- A walk that succeeds has read valid descriptors only, exactly when bit 0 of those at level 3 is set. -/
theorem followed_descriptors_valid_iff {cb : ℕ} {req req' : TransReq} {s s' : Smmu500 M}
    (h : smmu500Ptw64 cb req s = some (req',s')) (herr : req'.err = false) :
    (∀ r ∈ walkReads s.pamax s.banks cb req.toWalkReq s.dma, r.Valid) ↔
      ∀ r ∈ walkReads s.pamax s.banks cb req.toWalkReq s.dma, r.level = 3 → r.desc.getLsbD 0 = true := by
  refine ⟨fun hv r hr _ => (hv r hr).bit0,?_⟩
  rw [smmu500Ptw64] at h
  rcases hw : walk s.pamax s.banks cb req.toWalkReq s.dma with ⟨(_ | _) | l,m⟩
  · simp only [hw,Option.some.injEq,Prod.mk.injEq] at h
    cases h.1
    cases herr
  · simp [hw] at h
  · refine walkReads_rel (R := fun rs (_ _ : M) => (∀ r ∈ rs, r.level = 3 → r.desc.getLsbD 0 = true) →
      ∀ r ∈ rs, r.Valid) (fun _ _ _ hr => absurd hr List.not_mem_nil) ?_ ?_ hw
    · intro rs rs' _ _ _ h1 h2 hm
      rw [List.forall_mem_append] at hm ⊢
      exact ⟨h1 hm.1,h2 hm.2⟩
    · intro _ _ _ _ _ _ _ _ _ _ hc hl hm
      rw [List.forall_mem_singleton] at hm ⊢
      exact valid_of_classify hc hl hm

def pageTables (desc : U64) : List (U64 × U64) := [(0x20000,0x21003),(0x21000,0x22003),(0x22008,desc)]

def pageReq (desc : U64) : TransReq :=
  { walkReq (Tbu.tbuSmmu 0x10000 (pageTables desc)).banks 0 0x1000 false with pageSize := 12 }

theorem followed_descriptors_valid_page :
    (smmu500Ptw64 0 (pageReq 0x5443) (Tbu.tbuSmmu 0x10000 (pageTables 0x5443))).map (·.1.err) = some false ∧
      ∀ r ∈ walkReads 48 (Tbu.tbuSmmu 0x10000 (pageTables 0x5443)).banks 0 (pageReq 0x5443).toWalkReq
        (Tbu.tbuSmmu 0x10000 (pageTables 0x5443)).dma, r.Valid := by
  have hm : (smmu500Ptw64 0 (pageReq 0x5443) (Tbu.tbuSmmu 0x10000 (pageTables 0x5443))).map (·.1.err) =
      some false := by
    decide +kernel
  obtain ⟨⟨req',s'⟩,h,he⟩ := Option.map_eq_some_iff.mp hm
  exact ⟨hm,(followed_descriptors_valid_iff h he).mpr (by decide +kernel)⟩

/-- A level-3 descriptor without its valid bit is followed to the page it names. -/
theorem invalid_page_followed :
    (smmu500Ptw64 0 (pageReq 0x5442) (Tbu.tbuSmmu 0x10000 (pageTables 0x5442))).map (fun r => (r.1.err,r.1.pa)) =
        some (false,0x5000) ∧
      ⟨.g4k,3,false,0x5442⟩ ∈ walkReads 48 (Tbu.tbuSmmu 0x10000 (pageTables 0x5442)).banks 0
        (pageReq 0x5442).toWalkReq (Tbu.tbuSmmu 0x10000 (pageTables 0x5442)).dma ∧
      ¬ DescRead.Valid ⟨.g4k,3,false,0x5442⟩ :=
  ⟨by decide +kernel,by decide +kernel,fun h => absurd h.bit0 (by decide)⟩

end Qbox.Smmu500
