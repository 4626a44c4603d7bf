import Qbox.SocketLog
import Qbox.Smmuv3Pages

/-! What a walk asks of the memory behind the SMMU: the walk on a logged socket is the walk, the descriptor
addresses it asks for and the address it answers with stay below the output size, and it makes few accesses. -/
namespace Qbox.Smmuv3
open MachineWord DmaSocket

section
variable {M N : Type} [DmaSocket M] [DmaSocket N] {f : N → M} {fetchM : U64 → M → Option U64 × M}
  {fetchN : U64 → N → Option U64 × N}

/-- Two ways of reaching descriptors answer alike under `f`. -/
def FetchHom (f : N → M) (fetchM : U64 → M → Option U64 × M) (fetchN : U64 → N → Option U64 × N) : Prop :=
  ∀ addr x, fetchM addr (f x) = Prod.map id f (fetchN addr x)

section
variable (h : SocketHom f)
include h

lemma walkStep_hom (hf : FetchHom f fetchM fetchN) (iova : U64) (g : Granule)
    (outputsize level : ℕ) (ttbr : U64) (attrs : U32) (last : Option U64) (x : N) :
    walkStep fetchM iova g outputsize level ttbr attrs last (f x) =
      Prod.map id f (walkStep fetchN iova g outputsize level ttbr attrs last x) := by
  rw [walkStep,hf,walkStep]
  rcases fetchN (ttbr ||| descIndex iova g level) x with ⟨_ | descaddr,x1⟩
  · rfl
  · simp only [Prod.map_apply,id_eq,h.read64]
    rcases dmaRead64 descaddr x1 with ⟨_ | desc,x2⟩
    · rfl
    · rfl

lemma walkLoop_hom (hf : FetchHom f fetchM fetchN) (iova : U64) (g : Granule)
    (outputsize n : ℕ) (ttbr : U64) (attrs : U32) (last : Option U64) (x : N) :
    walkLoop fetchM iova g outputsize n ttbr attrs last (f x) =
      Prod.map id f (walkLoop fetchN iova g outputsize n ttbr attrs last x) := by
  induction n generalizing ttbr attrs last x with
  | zero =>
    rw [walkLoop,walkStep_hom h hf,walkLoop]
    rcases walkStep fetchN iova g outputsize 3 ttbr attrs last x with ⟨_ | _ | _,x1⟩
    · rfl
    · rfl
    · rfl
  | succ n ih =>
    rw [walkLoop,walkStep_hom h hf,walkLoop]
    rcases walkStep fetchN iova g outputsize (2-n) ttbr attrs last x with ⟨_ | _ | ⟨next,attrs',d⟩,x1⟩
    · rfl
    · rfl
    · exact ih next attrs' (some d) x1

lemma accessFlag_hom (ctx : PtwCtx) (desc : U64) (attrs : U32) (descAddr : U64) (x : N) :
    accessFlag ctx desc attrs descAddr (f x) =
      Prod.map id (Prod.map id f) (accessFlag ctx desc attrs descAddr x) := by
  simp only [accessFlag,h.write64]
  split_ifs
  · rfl
  · rcases dmaWrite64 descAddr (desc ||| (1#64 <<< 10)) x with ⟨_ | _,x1⟩
    · rfl
    · rfl
  · rfl

lemma stage1Prot_hom (ctx : PtwCtx) (dbm : Bool) (desc : U64) (attrs : U32) (descAddr : U64)
    (x : N) : stage1Prot ctx dbm desc attrs descAddr (f x) =
      Prod.map id f (stage1Prot ctx dbm desc attrs descAddr x) := by
  simp only [stage1Prot,h.write64]
  split_ifs
  · rfl
  · rcases dmaWrite64 descAddr (desc &&& ~~~(1#64 <<< 7)) x with ⟨_ | _,x1⟩
    · rfl
    · rfl
  · rfl
  · rfl
  · rfl

lemma checkLeaf_hom (ctx : PtwCtx) (l : Leaf) (x : N) :
    checkLeaf ctx l (f x) = Prod.map id f (checkLeaf ctx l x) := by
  simp only [checkLeaf,accessFlag_hom h]
  rcases accessFlag ctx l.desc (checkedAttrs ctx.stage l.desc l.tableattrs) l.descAddr x with ⟨_ | _,desc,x1⟩
  · rfl
  · have hp : ∀ dbm desc attrs s2attrs descAddr, permission ctx dbm desc attrs s2attrs descAddr (f x1) =
        Prod.map id f (permission ctx dbm desc attrs s2attrs descAddr x1) := by
      intro dbm desc attrs s2attrs descAddr
      rw [permission,permission]
      cases ctx.stage with
      | one => exact stage1Prot_hom h ctx dbm desc attrs descAddr x1
      | two => rfl
    simp only [Prod.map_apply,id_eq,hp]
    rcases permission ctx (l.desc.getLsbD 51) desc (checkedAttrs ctx.stage l.desc l.tableattrs) (leafAttrs l.desc)
      l.descAddr x1 with ⟨_ | prot,x2⟩
    · rfl
    · rfl

lemma walkWith_hom (hf : FetchHom f fetchM fetchN) (pamax : ℕ) (ctx : PtwCtx) (x : N) :
    walkWith fetchM pamax ctx (f x) = Prod.map id f (walkWith fetchN pamax ctx x) := by
  rw [walkWith,walkWith]
  cases walkStart pamax ctx with
  | error ev => rfl
  | ok w =>
    simp only [descend,walkLoop_hom h hf]
    rcases walkLoop fetchN ctx.iova w.granule w.outputsize (3-w.level) w.ttbr 0 none x with ⟨_ | l,x1⟩
    · rfl
    · simp only [Prod.map_apply,id_eq,walkResult,checkLeaf_hom h]
      split_ifs
      · rcases checkLeaf ctx l x1 with ⟨_ | prot,x2⟩
        · rfl
        · rfl
      · rfl

lemma fetchOf_hom (pamax : ℕ) (ctx : PtwCtx) :
    FetchHom f (fetchOf pamax ctx) (fetchOf pamax ctx) := by
  have hp : FetchHom f plainFetch plainFetch := fun _ _ => rfl
  rw [fetchOf,fetchOf]
  split
  · intro addr x
    rw [nestedFetch,walkWith_hom h hp,nestedFetch]
    rcases walkWith plainFetch pamax (stage2Ctx _ addr .ro) x with ⟨_ | l,x1⟩
    · rfl
    · rfl
  · exact hp

end

end

section
variable {M : Type} [DmaSocket M] {fetch : U64 → M → Option U64 × M} {k : ℕ} {R : ℕ → M → M → Prop}

/-- `R n` allows `n` turns of the descent, each below `2 ^ k`; updates of a leaf come free. -/
structure TurnBound (fetch : U64 → M → Option U64 × M) (k : ℕ) (R : ℕ → M → M → Prop) : Prop where
  refl : ∀ n m, R n m m
  trans : ∀ {a b : ℕ} {x y z : M}, R a x y → R b y z → R (a+b) x z
  asked : ∀ addr m, addr.toNat < 2^k → R 1 m (fetch addr m).2
  read : ∀ addr descaddr m, addr.toNat < 2^k → R 1 m (dmaRead64 descaddr (fetch addr m).2).2
  write : ∀ addr v m, R 0 m (dmaWrite64 addr v m).2

/-- Addresses that the walk has checked are below `2 ^ k`. -/
def Checks (outputsize k : ℕ) : Prop :=
  ∀ t : U64, t.toNat < 2^paBits → checkOutAddr t outputsize = true → t.toNat < 2^k

variable {g : Granule} {outputsize level : ℕ} {ttbr : U64}

lemma classify_table {attrs attrs' : U32} {d desc next d' : U64}
    (h : classify g outputsize level attrs d desc = .table next attrs' d') :
    next = outputBase g desc ∧ checkOutAddr next outputsize = true ∧
      attrs'.getLsbD 3 = (attrs.getLsbD 3 || desc.getLsbD 62) := by
  simp only [classify] at h
  split at h
  · split_ifs at h with h3 ho
    cases h
    exact ⟨rfl,ho,by simp [extract64]⟩
  · split_ifs at h
  · cases h

lemma walkStep_turn (hb : TurnBound fetch k R) (hg : g.grainsize ≤ k)
    (ht : ttbr.toNat < 2^k) (iova : U64) (outputsize level : ℕ) (attrs : U32) (last : Option U64) (m : M) :
    R 1 m (walkStep fetch iova g outputsize level ttbr attrs last m).2 := by
  have ha := toNat_or_lt ht ((descIndex_lt iova g level).trans_le (Nat.pow_le_pow_right two_pos hg))
  have hfe := hb.asked _ m ha
  have hre := hb.read (ttbr ||| descIndex iova g level)
  rw [walkStep]
  rcases hf : fetch (ttbr ||| descIndex iova g level) m with ⟨_ | descaddr,m1⟩
  · rw [hf] at hfe
    exact hfe
  · have hr := hre descaddr m ha
    rw [hf] at hr
    rcases hd : dmaRead64 descaddr m1 with ⟨_ | desc,m2⟩
    · simpa only [hd] using hr
    · simpa only [hd] using hr

lemma walkLoop_turns (hb : TurnBound fetch k R)
    (hg : g.grainsize ≤ k) (hch : Checks outputsize k) (ht : ttbr.toNat < 2^k) (iova : U64) (n : ℕ) (attrs : U32)
    (last : Option U64) (m : M) : R (n+1) m (walkLoop fetch iova g outputsize n ttbr attrs last m).2 := by
  induction n generalizing ttbr attrs last m with
  | zero =>
    have htu := walkStep_turn hb hg ht iova outputsize 3 attrs last m
    rw [walkLoop]
    rcases hs : walkStep fetch iova g outputsize 3 ttbr attrs last m with ⟨_ | _ | _,m1⟩
    all_goals
      rw [hs] at htu
      exact htu
  | succ n ih =>
    have htu := walkStep_turn hb hg ht iova outputsize (2-n) attrs last m
    rw [walkLoop]
    rcases hs : walkStep fetch iova g outputsize (2-n) ttbr attrs last m with ⟨_ | _ | ⟨next,attrs',d⟩,m1⟩
    · rw [hs] at htu
      exact hb.trans (hb.refl (n+1) m) htu
    · rw [hs] at htu
      exact hb.trans (hb.refl (n+1) m) htu
    · rw [hs] at htu
      obtain ⟨_,_,desc,-,-,hc⟩ := walkStep_read hs (by simp)
      obtain ⟨rfl,ho,-⟩ := classify_table hc
      have hr := ih (hch _ (outputBase_lt g desc) ho) attrs' (some d) m1
      rw [Nat.add_comm]
      exact hb.trans htu hr

lemma checkLeaf_turns (hb : TurnBound fetch k R) (ctx : PtwCtx) (l : Leaf) (m : M) :
    R 0 m (checkLeaf ctx l m).2 := by
  have hfl : ∀ desc attrs d (m : M), R 0 m (accessFlag ctx desc attrs d m).2.2 := by
    intro desc attrs d m
    have hwr := hb.write d (desc ||| (1#64 <<< 10)) m
    simp only [accessFlag]
    split_ifs
    · exact hb.refl 0 m
    · rcases hw : dmaWrite64 d (desc ||| (1#64 <<< 10)) m with ⟨_ | _,m1⟩
      all_goals
        rw [hw] at hwr
        exact hwr
    · exact hb.refl 0 m
  have hpr : ∀ dbm desc attrs s2attrs d (m : M), R 0 m (permission ctx dbm desc attrs s2attrs d m).2 := by
    intro dbm desc attrs s2attrs d m
    have hwr := hb.write d (desc &&& ~~~(1#64 <<< 7)) m
    rw [permission]
    cases ctx.stage with
    | two => exact hb.refl 0 m
    | one =>
      simp only [stage1Prot]
      split_ifs
      · exact hb.refl 0 m
      · rcases hw : dmaWrite64 d (desc &&& ~~~(1#64 <<< 7)) m with ⟨_ | _,m1⟩
        all_goals
          rw [hw] at hwr
          exact hwr
      · exact hb.refl 0 m
      · exact hb.refl 0 m
      · exact hb.refl 0 m
  have hf := hfl l.desc (checkedAttrs ctx.stage l.desc l.tableattrs) l.descAddr m
  simp only [checkLeaf]
  rcases haf : accessFlag ctx l.desc (checkedAttrs ctx.stage l.desc l.tableattrs) l.descAddr m with ⟨_ | _,desc,m1⟩
  · rw [haf] at hf
    exact hf
  · rw [haf] at hf
    have hs := hpr (l.desc.getLsbD 51) desc (checkedAttrs ctx.stage l.desc l.tableattrs) (leafAttrs l.desc)
      l.descAddr m1
    rcases hp : permission ctx (l.desc.getLsbD 51) desc (checkedAttrs ctx.stage l.desc l.tableattrs)
      (leafAttrs l.desc) l.descAddr m1 with ⟨_ | prot,m2⟩
    all_goals
      simpa only [hp] using hb.trans hf hs

lemma startBase_lt (ctx : PtwCtx) {inputsize : ℕ} (ttbr : U64)
    (hc : concatBits ctx.stage inputsize (g.levelCoverage level) ≤ 4) :
    (startBase ctx g ttbr level inputsize).toNat < 2^paBits := by
  have hb : (extract64 ttbr 0 paBits &&& ~~~lowMask (baselowerbound g level inputsize % 64)).toNat < 2^paBits := by
    rw [toNat_and_not_lowMask,toNat_extract64]
    exact (Nat.div_mul_le_self _ _).trans_lt (Nat.mod_lt _ (Nat.two_pow_pos _))
  simp only [startBase]
  split_ifs
  · refine toNat_or_lt hb ?_
    -- four bits above the table they choose
    have hs : g.grainsize+g.stride ≤ 29 := by cases g <;> decide
    have ho : (1#64 <<< (g.grainsize+g.stride)).toNat = 2^(g.grainsize+g.stride) := toNat_one_shiftLeft (by omega)
    have hi := toNat_and_lowMask (ctx.iova >>> g.levelCoverage level)
    rw [BitVec.toNat_mul,ho,hi]
    refine (Nat.mod_le _ _).trans_lt ?_
    calc _ < 2^concatBits ctx.stage inputsize (g.levelCoverage level)*2^(g.grainsize+g.stride) :=
          Nat.mul_lt_mul_of_pos_right (Nat.mod_lt _ (Nat.two_pow_pos _)) (Nat.two_pow_pos _)
      _ ≤ 2^paBits := by
          rw [← pow_add]
          exact Nat.pow_le_pow_right two_pos (by rw [paBits]; omega)
  · exact hb

lemma walkWith_turns (hb : TurnBound fetch k R) (pamax : ℕ) (ctx : PtwCtx) (hk : 16 ≤ k)
    (hch : Checks (min (outputSizeMap ctx.ips) pamax) k) (m : M) : R 4 m (walkWith fetch pamax ctx m).2 := by
  rw [walkWith]
  cases hw : walkStart pamax ctx with
  | error ev => exact hb.refl 4 m
  | ok w =>
    obtain ⟨-,g,-,level,hl,hco,ho,rfl⟩ := walkStart_eq_ok.mp hw
    have hlv := startLevel_le hl
    have hg : g.grainsize ≤ k := by
      have h16 : g.grainsize ≤ 16 := by cases g <;> decide
      omega
    have hlo := walkLoop_turns hb hg hch (hch _ (startBase_lt ctx _ hco) ho) ctx.iova (3-level) 0
      none m
    have hf : ∀ m', R (3-level+1) m m' → R 4 m m' := by
      intro m' h
      have h' := hb.trans (hb.refl level m) h
      rwa [show level+(3-level+1) = 4 by omega] at h'
    simp only [descend]
    rcases hd : walkLoop fetch ctx.iova g (min (outputSizeMap ctx.ips) pamax) (3-level)
      (startBase ctx g (selectTable ctx).ttbr level (64-(selectTable ctx).tsz.toNat)) 0 none m with ⟨_ | l,m1⟩
    · rw [hd] at hlo
      exact hf m1 hlo
    · rw [hd] at hlo
      have hle := checkLeaf_turns hb ctx l m1
      simp only [walkResult]
      split_ifs
      · rcases hc : checkLeaf ctx l m1 with ⟨_ | prot,m2⟩
        all_goals
          rw [hc] at hle
          exact hf m2 (hb.trans (b := 0) hlo hle)
      · exact hf m1 hlo

end

section
variable {M : Type} [DmaSocket M]

/-- A descriptor address is noted when it is asked for, before its own translation. -/
def noting (fetch : U64 → Logged M → Option U64 × Logged M) (addr : U64) (l : Logged M) : Option U64 × Logged M :=
  fetch addr (l.note addr)

variable (pamax : ℕ) (ctx : PtwCtx)

def loggedWalk (m : M) : Except PtwFault PtwLeaf × Logged M :=
  walkWith (noting (fetchOf pamax ctx)) pamax ctx (Logged.start m)

lemma loggedWalk_eq (m : M) : Prod.map id Logged.mem (loggedWalk pamax ctx m) = smmuv3Ptw64 pamax ctx m := by
  have hf : FetchHom Logged.mem (fetchOf pamax ctx) (noting (fetchOf (M := Logged M) pamax ctx)) := by
    intro addr l
    have h := fetchOf_hom Logged.mem_hom pamax ctx addr (l.note addr)
    exact h
  exact (walkWith_hom Logged.mem_hom hf pamax ctx (Logged.start m)).symm

/-- The descriptor addresses a walk asks for in its own stage. -/
def descAddrs (m : M) : List U64 := (loggedWalk pamax ctx m).2.notes

def ReadsAtMost (n : ℕ) (l l' : Logged M) : Prop := l'.notes = l.notes ∧ l'.reads.length ≤ l.reads.length+n

lemma plainFetch_reads : TurnBound (plainFetch (M := Logged M)) 64 ReadsAtMost where
  refl n l := ⟨rfl,by omega⟩
  trans h1 h2 := ⟨h2.1.trans h1.1,by have := h1.2; have := h2.2; omega⟩
  asked addr l _ := ⟨rfl,by simp [plainFetch]⟩
  read addr d l _ := ⟨by simp [plainFetch],by simp [plainFetch]⟩
  write addr v l := ⟨rfl,by simp⟩

lemma checks_sixtyfour (outputsize : ℕ) : Checks outputsize 64 := fun t _ _ => t.isLt

/-- The reads that one descriptor address of a walk can cost before its own. -/
def fetchCost : ℕ := if ctx.stage = .one ∧ ctx.s2Enabled = true then 4 else 0

lemma fetchOf_reads (addr : U64) (l : Logged M) : ReadsAtMost (fetchCost ctx) l (fetchOf pamax ctx addr l).2 := by
  rcases fetchOf_cases (M := Logged M) pamax ctx with ⟨ste,hs,hs2,-,heq⟩ | heq
  · have hwa := walkWith_turns plainFetch_reads pamax (stage2Ctx ste addr .ro) (by decide) (checks_sixtyfour _) l
    rw [heq,fetchCost,if_pos ⟨hs,hs2⟩,nestedFetch]
    rcases hw : walkWith plainFetch pamax (stage2Ctx ste addr .ro) l with ⟨_ | leaf,l1⟩
    all_goals
      rw [hw] at hwa
      exact hwa
  · rw [heq]
    exact ⟨rfl,Nat.le_add_right _ _⟩

/-- At most `n` descriptor addresses, all below `2 ^ k`, each at the cost of a read and of its fetch. -/
def AsksAtMost (cost k n : ℕ) (l l' : Logged M) : Prop :=
  (∃ asked : List U64, l'.notes = asked ++ l.notes ∧ asked.length ≤ n ∧ ∀ a ∈ asked, a.toNat < 2^k) ∧
    l'.reads.length ≤ l.reads.length+n*(cost+1)

lemma noting_asks (pamax : ℕ) (ctx : PtwCtx) (k : ℕ) :
    TurnBound (noting (fetchOf (M := Logged M) pamax ctx)) k (AsksAtMost (fetchCost ctx) k) where
  refl n l := ⟨⟨[],rfl,by simp,by simp⟩,by omega⟩
  trans := by
    rintro a b x y z ⟨⟨as,has,hla,hba⟩,hra⟩ ⟨⟨bs,hbs,hlb,hbb⟩,hrb⟩
    refine ⟨⟨bs ++ as,by rw [hbs,has,List.append_assoc],by rw [List.length_append]; omega,?_⟩,by rw [Nat.add_mul]; omega⟩
    intro t ht
    exact (List.mem_append.mp ht).elim (hbb t) (hba t)
  asked addr l ha := by
    obtain ⟨hn,hr⟩ := fetchOf_reads pamax ctx addr (l.note addr)
    exact ⟨⟨[addr],hn,le_rfl,by simpa using ha⟩,
      hr.trans (by rw [one_mul]; exact Nat.add_le_add_left (Nat.le_succ _) _)⟩
  read addr d l ha := by
    obtain ⟨hn,hr⟩ := fetchOf_reads pamax ctx addr (l.note addr)
    refine ⟨⟨[addr],?_,le_rfl,by simpa using ha⟩,?_⟩
    · rw [Logged.dmaRead64_notes]
      exact hn
    · rw [Logged.dmaRead64_reads,List.length_cons,one_mul]
      exact Nat.succ_le_succ hr
  write addr v l := ⟨⟨[],rfl,by simp,by simp⟩,by simp⟩

lemma checks_outputsize {outputsize : ℕ} : Checks outputsize outputsize :=
  fun _ ht hc => (checkOutAddr_iff ht outputsize).mp hc

lemma loggedWalk_asks {k : ℕ} (hk : 16 ≤ k) (hc : Checks (min (outputSizeMap ctx.ips) pamax) k) (m : M) :
    (descAddrs pamax ctx m).length ≤ 4 ∧ (∀ a ∈ descAddrs pamax ctx m, a.toNat < 2^k) ∧
      (loggedWalk pamax ctx m).2.reads.length ≤ 4*(fetchCost ctx+1) := by
  obtain ⟨⟨asked,hn,hl,hb⟩,hr⟩ := walkWith_turns (noting_asks pamax ctx k) pamax ctx hk hc (Logged.start m)
  have ha : descAddrs pamax ctx m = asked := hn.trans (List.append_nil _)
  rw [ha]
  exact ⟨hl,hb,hr.trans_eq (Nat.zero_add _)⟩

end

section
variable {M : Type} [DmaSocket M]

lemma leafPageSize_le {g : Granule} {level : ℕ} (h : level = 3 ∨ g.firstblocklevel ≤ level) :
    leafPageSize g level ≤ 30 := by
  have hm : 4-level ≤ 4-min 3 g.firstblocklevel := by omega
  have hle : leafPageSize g level ≤ leafPageSize g (min 3 g.firstblocklevel) :=
    Nat.add_le_add_right (Nat.mul_le_mul_left _ hm) 3
  refine hle.trans ?_
  cases g <;> decide

/-- Every descriptor address of a walk, and its answer, lie below the output size. -/
theorem walk_below_outputsize {pamax : ℕ} (h : 32 ≤ pamax) (ctx : PtwCtx) (m : M) :
    (∀ a ∈ descAddrs pamax ctx m, a.toNat < 2^min (outputSizeMap ctx.ips) pamax) ∧
      ∀ leaf m', smmuv3Ptw64 pamax ctx m = (.ok leaf,m') →
        leaf.pa.toNat < 2^min (outputSizeMap ctx.ips) pamax := by
  have hi : 32 ≤ outputSizeMap ctx.ips := by
    rw [outputSizeMap]
    split <;> decide
  refine ⟨(loggedWalk_asks pamax ctx (by omega) checks_outputsize m).2.1,fun leaf m' hwa => ?_⟩
  obtain ⟨w,l,m1,hw,hl,hr⟩ := walkWith_eq_ok.mp hwa
  obtain ⟨ho,prot,-,rfl⟩ := walkResult_eq_ok.mp hr
  obtain ⟨-,-,(ht : l.ttbr = outputBase w.granule l.desc),hle⟩ := walkLoop_leaf (Nat.sub_le 3 w.level) hl
  have hs := leafPageSize_le hle
  obtain ⟨-,g,-,level,-,-,-,rfl⟩ := walkStart_eq_ok.mp hw
  rw [ht] at ho
  refine toNat_or_lt ?_ ?_
  · rw [ht]
    exact (checkOutAddr_iff (outputBase_lt _ _) _).mp ho
  · rw [toNat_and_lowMask]
    exact (Nat.mod_lt _ (Nat.two_pow_pos _)).trans_le (Nat.pow_le_pow_right two_pos (by omega))

/-- Stage 1 with the 4K granule and 39 input bits maps a page, with 32 bits of output. -/
theorem page_walk_below_outputsize : let ctx := stage1Ctx {} { ttb0 := 0x20000, tsz0 := 25 } false 0x1234 .ro
    let m : Ram := ⟨[(0x20000,0x21003),(0x21000,0x22003),(0x22008,0xFFFFF443)],[]⟩
    32 ≤ 48 ∧ descAddrs 48 ctx m = [0x22008,0x21000,0x20000] ∧
      (smmuv3Ptw64 48 ctx m).1 = .ok ⟨0xFFFFF234,12,0xFFFFF443,0,0x22008,.rw⟩ ∧
      (∀ a ∈ descAddrs 48 ctx m, a.toNat < 2^32) ∧
      ∀ leaf m', smmuv3Ptw64 48 ctx m = (.ok leaf,m') → leaf.pa.toNat < 2^32 := by
  intro ctx m
  have h := walk_below_outputsize (by decide : 32 ≤ 48) ctx m
  exact ⟨by decide,by decide +kernel,by decide +kernel,h.1,h.2⟩

end

end Qbox.Smmuv3
