import Qbox.Smmuv3Pages
import Qbox.Smmuv3Tbu

/-! Access rights: what a leaf grants to an access, what changes when the access
does, and what the two stages of a nested translation grant together. -/
namespace Qbox.Smmuv3
open MachineWord DmaSocket

/-- A stage-1 leaf is read-only by its own attributes or by those of a table above. -/
def PtwLeaf.readOnly (l : PtwLeaf) : Bool := bit32 (checkedAttrs .one l.descriptor l.tableattrs) 5

def PtwLeaf.s2ap (l : PtwLeaf) : ℕ := ((leafAttrs l.descriptor >>> 4) &&& 3).toNat

lemma refuses_read (perm : IOMMUAccessFlags) : refuses perm .read = false ↔ .ro ≤ perm := by
  cases perm <;> decide

lemma refuses_write (perm : IOMMUAccessFlags) : refuses perm .write = false ↔ .wo ≤ perm := by
  cases perm <;> decide

section
variable {M : Type} [DmaSocket M] {pamax : ℕ} {ctx : PtwCtx} {m m' : M} {leaf : PtwLeaf}

/-- A stage-1 walk for writing grants all it succeeds on; another loses writing on a read-only leaf. -/
lemma smmuv3Ptw64_stage1 (hs : ctx.stage = .one) (h : smmuv3Ptw64 pamax ctx m = (.ok leaf,m')) :
    leaf.prot = if leaf.readOnly ∧ ctx.access ≠ .wo then .ro else .rw := by
  obtain ⟨desc,m1,hp⟩ := smmuv3Ptw64_permission h
  simp only [permission,hs] at hp
  exact stage1Prot_eq hp

lemma smmuv3Ptw64_stage2 (hs : ctx.stage = .two) (h : smmuv3Ptw64 pamax ctx m = (.ok leaf,m')) :
    stage2Prot ctx.access (leafAttrs leaf.descriptor) = some leaf.prot := by
  obtain ⟨desc,m1,hp⟩ := smmuv3Ptw64_permission h
  simp only [permission,hs] at hp
  exact congrArg Prod.fst hp

lemma stage2Prot_read {attrs : U32} {prot : IOMMUAccessFlags} (h : stage2Prot .ro attrs = some prot) :
    prot = if ((attrs >>> 4) &&& 3).toNat = 1 then .ro else .rw := by
  simp only [stage2Prot] at h
  split at h
  · cases h
  · next h1 =>
    rw [if_pos h1]
    exact (Option.some.inj h).symm.trans (by decide)
  · simp at h
  · next h0 h1 h2 =>
    rw [if_neg h1]
    exact (Option.some.inj h).symm

def PtwCtx.withAccess (ctx : PtwCtx) (access : IOMMUAccessFlags) : PtwCtx := { ctx with access := access }

def PtwLeaf.withProt (l : PtwLeaf) (prot : IOMMUAccessFlags) : PtwLeaf := { l with prot := prot }

section
variable {b : IOMMUAccessFlags} (hb : b = .ro ∨ b = .wo)
include hb

lemma stage1Prot_access {dbm : Bool} {desc d : U64} {attrs : U32} {prot : IOMMUAccessFlags}
    (h : stage1Prot ctx dbm desc attrs d m = (some prot,m')) (hle : b ≤ prot) :
    ∃ prot' m'', stage1Prot (ctx.withAccess b) dbm desc attrs d m = (some prot',m'') ∧
      (bit32 attrs 5 = false → m'' = m') := by
  simp only [stage1Prot] at h
  split_ifs at h with h1 h2 h3 h4
  · cases h
  · rcases hb with rfl | rfl
    · refine ⟨.rw &&& ~~~.wo,m,?_,by simp [h2]⟩
      simp [stage1Prot,PtwCtx.withAccess,h1,h2]
    · refine ⟨prot,m',?_,fun _ => rfl⟩
      simpa [stage1Prot,PtwCtx.withAccess,h1,h2,h4] using h
  · cases h
  · have hp : prot = .ro := (Option.some.inj (congrArg Prod.fst h)).symm.trans (by decide)
    subst hp
    rcases hb with rfl | rfl
    · refine ⟨.rw &&& ~~~.wo,m,?_,by simp [h2]⟩
      simp [stage1Prot,PtwCtx.withAccess,h1,h2]
    · exact absurd hle (by decide)
  · cases h
    refine ⟨.rw,m,?_,fun _ => rfl⟩
    simp [stage1Prot,h1,h2]

lemma stage2Prot_access {access : IOMMUAccessFlags} {attrs : U32} {prot : IOMMUAccessFlags}
    (h : stage2Prot access attrs = some prot) (hle : b ≤ prot) : ∃ prot', stage2Prot b attrs = some prot' := by
  simp only [stage2Prot] at h ⊢
  split at h
  · cases h
  · split_ifs at h
    cases h
    rcases hb with rfl | rfl
    · exact ⟨_,rfl⟩
    · exact absurd hle (by decide)
  · split_ifs at h
    cases h
    rcases hb with rfl | rfl
    · exact absurd hle (by decide)
    · exact ⟨_,rfl⟩
  · exact ⟨_,rfl⟩

lemma checkLeaf_access {l : Leaf} {prot : IOMMUAccessFlags} (h : checkLeaf ctx l m = (.ok prot,m'))
    (hle : b ≤ prot) : ∃ prot' m'', checkLeaf (ctx.withAccess b) l m = (.ok prot',m'') ∧
      (ctx.stage = .two ∨ bit32 (checkedAttrs .one l.desc l.tableattrs) 5 = false → m'' = m') := by
  obtain ⟨desc,m1,hf,hpe⟩ := checkLeaf_eq_ok.mp h
  suffices hp : ∃ prot' m'', permission (ctx.withAccess b) (l.desc.getLsbD 51) desc
      (checkedAttrs ctx.stage l.desc l.tableattrs) (leafAttrs l.desc) l.descAddr m1 = (some prot',m'') ∧
        (ctx.stage = .two ∨ bit32 (checkedAttrs .one l.desc l.tableattrs) 5 = false → m'' = m') by
    obtain ⟨prot',m'',hp,hm⟩ := hp
    exact ⟨prot',m'',checkLeaf_eq_ok.mpr ⟨desc,m1,hf,hp⟩,hm⟩
  have hst : (ctx.withAccess b).stage = ctx.stage := rfl
  cases hs : ctx.stage with
  | one =>
    simp only [permission,hs] at hpe
    obtain ⟨prot',m'',hp,hm⟩ := stage1Prot_access hb hpe hle
    simp only [permission,hst,hs]
    exact ⟨prot',m'',hp,by simpa using hm⟩
  | two =>
    simp only [permission,hs,Prod.mk.injEq] at hpe
    obtain ⟨prot',hp⟩ := stage2Prot_access hb hpe.1 hle
    simp only [permission,hst,hs]
    exact ⟨prot',_,by rw [show (ctx.withAccess b).access = b from rfl,hp],fun _ => hpe.2⟩

/-- A walk succeeds with the rights for another access through the same leaf. Only a write to a read-only stage-1 leaf
changes it. -/
lemma smmuv3Ptw64_access (h : smmuv3Ptw64 pamax ctx m = (.ok leaf,m')) (hle : b ≤ leaf.prot) :
    ∃ prot m'', smmuv3Ptw64 pamax (ctx.withAccess b) m = (.ok (leaf.withProt prot),m'') ∧
      (ctx.stage = .two ∨ leaf.readOnly = false → m'' = m') := by
  obtain ⟨w,l,m1,hw,hl,hr⟩ := walkWith_eq_ok.mp h
  obtain ⟨ho,prot,hp,rfl⟩ := walkResult_eq_ok.mp hr
  obtain ⟨prot',m'',hc,hm⟩ := checkLeaf_access hb hp hle
  exact ⟨prot',m'',walkWith_eq_ok.mpr ⟨w,l,m1,hw,hl,walkResult_eq_ok.mpr ⟨ho,prot',hc,rfl⟩⟩,hm⟩

end

end

section
variable {M : Type} [DmaSocket M]
  {pamax : ℕ} {t : Tables} {iova : U64} {access b : IOMMUAccessFlags} {bus bus' : M} {attrs : U32}

lemma walkLeaves_nested {w : Walked} {w1 : WalkedLeaf} (h : walkLeaves pamax t iova access bus = (some w,bus'))
    (hb : w.before = some w1) : w1.leaf.prot = (if w1.leaf.readOnly ∧ access ≠ .wo then .ro else .rw) ∧
      stage2Prot access (leafAttrs w.last.leaf.descriptor) = some w.last.leaf.prot := by
  rcases walkLeaves_eq_some.mp h with ⟨-,hb',-⟩ | ⟨hn,w1',bus1,hb',h1,h2⟩
  · cases hb.symm.trans hb'
  · cases hb.symm.trans hb'
    have hc : t.firstCtx iova access = stage1Ctx t.ste t.cd true iova access := by
      rw [Tables.firstCtx,hn]
    rw [hc] at h1
    exact ⟨smmuv3Ptw64_stage1 rfl (walkedLeaf_eq_some.mp h1).1,smmuv3Ptw64_stage2 rfl (walkedLeaf_eq_some.mp h2).1⟩

def WalkedLeaf.withProt (w : WalkedLeaf) (prot : IOMMUAccessFlags) : WalkedLeaf := ⟨w.granule,w.leaf.withProt prot⟩

lemma walkedLeaf_access {ctx : PtwCtx} {w : WalkedLeaf}
    (hb : b = .ro ∨ b = .wo) (h : walkedLeaf pamax ctx bus = (some w,bus')) (hle : b ≤ w.leaf.prot) :
    ∃ prot bus'', walkedLeaf pamax (ctx.withAccess b) bus = (some (w.withProt prot),bus'') ∧
      (ctx.stage = .two ∨ w.leaf.readOnly = false → bus'' = bus') := by
  obtain ⟨hp,hg⟩ := walkedLeaf_eq_some.mp h
  obtain ⟨prot,bus'',hp',hbu⟩ := smmuv3Ptw64_access hb hp hle
  exact ⟨prot,bus'',walkedLeaf_eq_some.mpr ⟨hp',hg⟩,hbu⟩

/-- The stage-1 leaf may be written, or the stage-2 leaf is read-only as well. -/
def Walked.SameRights (w : Walked) : Prop := ∀ w1 ∈ w.before, w1.leaf.readOnly = false ∨ w.last.leaf.s2ap = 1

lemma Tables.firstCtx_withAccess (t : Tables) (iova : U64) (access b : IOMMUAccessFlags) :
    (t.firstCtx iova access).withAccess b = t.firstCtx iova b := by
  rw [firstCtx,firstCtx]
  split <;> rfl

lemma stage2Prot_of_readOnly {prot : IOMMUAccessFlags}
    (hs : ((attrs >>> 4) &&& 3).toNat = 1) (h : stage2Prot access attrs = some prot) : access ≠ .wo ∧ prot = .ro := by
  simp only [stage2Prot,hs] at h
  split_ifs at h with ha
  exact ⟨ha,(Option.some.inj h).symm.trans (by decide)⟩

lemma walkLeaves_access {w : Walked} (h : walkLeaves pamax t iova access bus = (some w,bus')) (hr : w.SameRights)
    (ha : access = .ro ∨ access = .wo) (hb : b = .ro ∨ b = .wo) (hle : b ≤ w.last.leaf.prot) :
    ∃ w' bus'', walkLeaves pamax t iova b bus = (some w',bus'') ∧
      w'.last.leaf.pageSize = w.last.leaf.pageSize ∧ w'.offsetBase = w.offsetBase ∧ (w.Fits → w'.Fits) := by
  rcases walkLeaves_eq_some.mp h with ⟨hn,hbe,hw⟩ | ⟨hn,w1,bus1,hbe,hw1,hw2⟩
  · obtain ⟨prot,bus'',hw',-⟩ := walkedLeaf_access hb hw hle
    rw [t.firstCtx_withAccess] at hw'
    refine ⟨⟨w.last.withProt prot,none⟩,bus'',walkLeaves_eq_some.mpr (Or.inl ⟨hn,rfl,hw'⟩),rfl,?_,?_⟩
    · simp only [Walked.offsetBase,hbe]
      rfl
    · simp [Walked.Fits]
  · obtain ⟨hp1,hp2⟩ := walkLeaves_nested h hbe
    rcases hr w1 hbe with hro | hro
    · have hl1 : b ≤ w1.leaf.prot := by
        rw [hp1]
        rcases hb with rfl | rfl <;> simp [hro] <;> decide
      obtain ⟨prot1,bus1',hw1',hbu⟩ := walkedLeaf_access hb hw1 hl1
      obtain ⟨prot2,bus2,hw2',-⟩ := walkedLeaf_access hb hw2 hle
      rw [t.firstCtx_withAccess,hbu (Or.inr hro)] at hw1'
      refine ⟨⟨w.last.withProt prot2,some (w1.withProt prot1)⟩,bus2,
        walkLeaves_eq_some.mpr (Or.inr ⟨hn,w1.withProt prot1,bus1,rfl,hw1',hw2'⟩),rfl,?_,?_⟩
      · simp only [Walked.offsetBase,hbe]
        rfl
      · simp only [Walked.Fits,hbe,Option.mem_def,Option.some.injEq,forall_eq']
        exact id
    · obtain ⟨hac,hp⟩ := stage2Prot_of_readOnly hro hp2
      have heq : b = access := by
        rw [hp] at hle
        rcases ha with rfl | rfl
        · rcases hb with rfl | rfl
          · rfl
          · exact absurd hle (by decide)
        · exact absurd rfl hac
      subst heq
      exact ⟨w,bus',h,rfl,rfl,id⟩

/-- Every address of the reported page is translated alike, for every access that the answer
grants. -/
lemma walkLeaves_serves {w : Walked} (h : walkLeaves pamax t iova access bus = (some w,bus')) (hf : w.Fits)
    (hr : w.SameRights) (ha : access = .ro ∨ access = .wo) {iova' : U64}
    (hag : AgreeAbove w.last.leaf.pageSize iova iova') (hb : b = .ro ∨ b = .wo) (hle : b ≤ w.last.leaf.prot) :
    ∃ w' bus'', walkLeaves pamax t iova' b bus = (some w',bus'') ∧
      w'.last.leaf.pa = w.offsetBase ||| (iova' &&& lowMask w.last.leaf.pageSize) := by
  obtain ⟨w1,bus1,hw1,hs,hba,hf1⟩ := walkLeaves_access h hr ha hb hle
  obtain ⟨-,hp⟩ := walkLeaves_page hw1 (hf1 hf)
  obtain ⟨w2,hw2,hl⟩ := hp iova' (by rwa [hs])
  refine ⟨w2,bus1,hw2,?_⟩
  rw [hl,hs,hba]
  rfl

/-- A nested translation grants no more than both leaves: its answer, which is the entry kept, and a write sent on by
that entry. -/
structure GrantsBoth (txn : Txn) (sid ssid : U32) (isSecure : Bool) (s : Smmuv3 M) (w1 w2 : PtwLeaf) : Prop where
  contained : (smmuv3Translate txn sid ssid isSecure s).1.perm ≤ w1.prot &&& w2.prot
  kept : ∃ k, (smmuv3Translate txn sid ssid isSecure s).2.iotlb =
    s.iotlb.put s.iotlbSize k (smmuv3Translate txn sid ssid isSecure s).1
  writes : ∀ (topologyId : U32) (txn' : Txn) (s' : Smmuv3 M) (addr desc : U64) (attrs : U32), txn'.command = .write →
    (tbuTranslate topologyId txn' s').1 = (smmuv3Translate txn sid ssid isSecure s).1 →
    (bTransport topologyId txn' s').1 = .forwarded addr desc attrs → .wo ≤ w1.prot

/-- The rights of both leaves are the second one's, unless only the first is read-only to the access. -/
lemma nested_prot_iff {p1 p2 : IOMMUAccessFlags} {readOnly : Bool}
    (ha : access = .ro ∨ access = .wo) (h1 : p1 = if readOnly ∧ access ≠ .wo then .ro else .rw)
    (h2 : stage2Prot access attrs = some p2) :
    p2 ≤ p1 &&& p2 ↔ access = .wo ∨ readOnly = false ∨ ((attrs >>> 4) &&& 3).toNat = 1 := by
  rcases ha with rfl | rfl
  · rw [h1,stage2Prot_read h2]
    generalize ((attrs >>> 4) &&& 3).toNat = n
    by_cases hs : n = 1
    · subst hs
      cases readOnly <;> decide
    · simp only [hs,if_false]
      cases readOnly <;> decide
  · rw [h1]
    cases p2 <;> simp <;> decide

/-- The rights are those of the stage-2 leaf alone. They stay within both stages exactly when the access is a write,
or the stage-1 leaf may be written, or the stage-2 leaf is read-only too. -/
theorem nested_rights_iff {txn : Txn} {sid ssid : U32} {isSecure : Bool} {s : Smmuv3 M} {w : Walked}
    {w1 : WalkedLeaf} (hmiss : cachedEntry txn sid ssid isSecure s = none) (hwalk : freshWalk txn sid ssid s = some w)
    (hb : w.before = some w1) : GrantsBoth txn sid ssid isSecure s w1.leaf w.last.leaf ↔
      txn.command = .write ∨ w1.leaf.readOnly = false ∨ w.last.leaf.s2ap = 1 := by
  obtain ⟨t,st,bus,hr,hl⟩ := freshWalk_eq_some.mp hwalk
  obtain ⟨hp1,hp2⟩ := walkLeaves_nested hl hb
  obtain ⟨he,hk⟩ := smmuv3Translate_fill hmiss hwalk
  have ha : accessOf txn.command = .ro ∨ accessOf txn.command = .wo := by
    cases txn.command <;> simp [accessOf]
  have hwr : accessOf txn.command = .wo ↔ txn.command = .write := by
    cases txn.command <;> simp [accessOf]
  have hp : (smmuv3Translate txn sid ssid isSecure s).1.perm = w.last.leaf.prot := by
    rw [he]
    rfl
  have hi := nested_prot_iff ha hp1 hp2
  rw [hwr] at hi
  constructor
  · intro h
    exact hi.mp (hp ▸ h.contained)
  · intro h
    have hle := hi.mpr h
    refine ⟨by rwa [hp],hk,fun topologyId txn' s' addr desc attrs hw hte hf => ?_⟩
    have hok := (bTransport_forwarded hf).1
    rw [hw,refuses_write,hte,hp] at hok
    exact IOMMUAccessFlags.le_trans hok (IOMMUAccessFlags.le_trans hle (IOMMUAccessFlags.and_le_left _ _))

/-- A stage-1 page that may be written under a stage-2 block that may be written. -/
theorem nested_rights_writable_page : GrantsBoth (readTxn 0x0) 0 0 false
      (sampleSmmu 7 [(0x10000,0x4C1),(0x20000,0x21003),(0x21000,0x22003),(0x22000,0x5443)])
      ⟨0x5000,12,0x5443,0,0x22000,.rw⟩ ⟨0x5000,30,0x4C1,0,0x10000,.rw⟩ := by
  have hw : freshWalk (readTxn 0x0) 0 0
      (sampleSmmu 7 [(0x10000,0x4C1),(0x20000,0x21003),(0x21000,0x22003),(0x22000,0x5443)]) =
      some ⟨⟨.g4k,⟨0x5000,30,0x4C1,0,0x10000,.rw⟩⟩,some ⟨.g4k,⟨0x5000,12,0x5443,0,0x22000,.rw⟩⟩⟩ := by
    decide +kernel
  exact (nested_rights_iff (by decide +kernel) hw rfl).mpr (Or.inr (Or.inl (by decide +kernel)))

/-- A read-only page under a writable stage-2 block: a read gets both rights, and a write is sent on although its walk
faults. -/
theorem nested_read_grants_write :
    let s := sampleSmmu 7 [(0x10000,0x4C1),(0x20000,0x21003),(0x21000,0x22003),(0x22000,0x54C3)]
    (freshWalk (readTxn 0x0) 0 0 s).bind (fun w => w.before.map (fun w1 => w1.leaf.prot)) = some .ro ∧
      (tbuTranslate 0 (readTxn 0x0) s).1.perm = .rw ∧
      (freshTranslate (writeTxn 0x0) 0 0 false s).perm = .none ∧
      (bTransport 0 (writeTxn 0x0) (tbuTranslate 0 (readTxn 0x0) s).2).1 = .forwarded 0x5000 0x4C1 0 := by
  decide +kernel

end
end Qbox.Smmuv3
