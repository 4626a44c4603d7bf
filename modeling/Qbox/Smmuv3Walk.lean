import Qbox.DmaSocket
import Qbox.Smmuv3Records

/-! The page-table walker `smmuv3_ptw64`, cut at its phases: choice of the table and the start level, the descent, and the
checks on the leaf. A walk does not read what a request held before. -/
namespace Qbox.Smmuv3
open MachineWord DmaSocket

structure TableSelect where
  ttbr : U64
  tsz : BitVec 6
  granule : Option Granule
  epd : Bool

def selectTable (ctx : PtwCtx) : TableSelect := match ctx.stage with
  | .one =>
    if ctx.iova.getLsbD 63 = false then ⟨ctx.ttb0,ctx.tsz0,granuleOfTg ctx.tg0,ctx.epd0⟩
    else ⟨ctx.ttb1,ctx.tsz1,granuleOfTg1 ctx.tg1,ctx.epd1⟩
  | .two => ⟨ctx.ttb0,ctx.tsz0,granuleOfTg ctx.tg0,ctx.epd0⟩

/-- Bits of a stage-2 input address above the start level, which choose among
concatenated tables. -/
def concatBits (stage : Stage) (inputsize coverage : ℕ) : ℕ := match stage with
  | .one => 0
  | .two => inputsize-coverage

/-- The base of the start table. A shift count is taken modulo 64, as the host
takes it. -/
def startBase (ctx : PtwCtx) (g : Granule) (ttbr : U64) (level inputsize : ℕ) : U64 :=
  let base := extract64 ttbr 0 paBits &&& ~~~lowMask (baselowerbound g level inputsize % 64)
  let concat := concatBits ctx.stage inputsize (g.levelCoverage level)
  if 0 < concat then
    base ||| ((ctx.iova >>> g.levelCoverage level) &&& lowMask concat)*(1#64 <<< (g.grainsize+g.stride))
  else base

def walkStart (pamax : ℕ) (ctx : PtwCtx) : Except U32 WalkStart := let t := selectTable ctx
  if t.epd then .error evtFTranslation
  else match t.granule with
    | none => .error evtFAddrSize
    | some g =>
      let inputsize := 64-t.tsz.toNat
      let outputsize := min (outputSizeMap ctx.ips) pamax
      match startLevel ctx.stage ctx.iova ctx.sl0 g inputsize outputsize with
      | none => .error evtFAddrSize
      | some level =>
        let base := startBase ctx g t.ttbr level inputsize
        if 4 < concatBits ctx.stage inputsize (g.levelCoverage level) then .error evtFAddrSize
        else if checkOutAddr base outputsize then .ok ⟨g,outputsize,level,base⟩
        else .error evtFAddrSize

structure PtwLeaf where
  pa : U64
  pageSize : ℕ
  descriptor : U64
  tableattrs : U32
  leafDescAddr : U64
  prot : IOMMUAccessFlags
  deriving DecidableEq

/-- What a walk stores on a fault. The leaf is present when the fault comes from a
check on it. -/
structure PtwFault where
  eventType : U32
  faultLevel : ℕ := 0
  tableattrs : U32 := 0
  leafDescAddr : Option U64 := none
  leaf : Option PtwLeaf := none
  deriving DecidableEq

def TransReq.store (req : TransReq) : Except PtwFault PtwLeaf → TransReq
  | .ok l =>
    { req with
      pa := l.pa, prot := l.prot, pageSize := l.pageSize, err := false, tableattrs := l.tableattrs,
      faultLevel := 0, descriptor := l.descriptor, leafDescAddr := l.leafDescAddr }
  | .error f =>
    { req with
      pa := (f.leaf.map PtwLeaf.pa).getD req.pa, prot := (f.leaf.map PtwLeaf.prot).getD req.prot,
      pageSize := (f.leaf.map PtwLeaf.pageSize).getD req.pageSize,
      descriptor := (f.leaf.map PtwLeaf.descriptor).getD req.descriptor, err := true,
      eventType := f.eventType, faultLevel := f.faultLevel, tableattrs := f.tableattrs,
      leafDescAddr := f.leafDescAddr.getD req.leafDescAddr }

section
variable (req : TransReq) (r : Except PtwFault PtwLeaf)
include req r

@[simp] lemma TransReq.store_iova :
    (req.store r).iova = req.iova := by cases r <;> rfl

@[simp] lemma TransReq.store_access :
    (req.store r).access = req.access := by cases r <;> rfl

@[simp] lemma TransReq.store_ste :
    (req.store r).ste = req.ste := by cases r <;> rfl

end

@[simp] lemma TransReq.store_ok_err (req : TransReq) (l : PtwLeaf) : (req.store (.ok l)).err = false := rfl
@[simp] lemma TransReq.store_error_err (req : TransReq) (f : PtwFault) : (req.store (.error f)).err = true := rfl
@[simp] lemma TransReq.store_ok_pa (req : TransReq) (l : PtwLeaf) : (req.store (.ok l)).pa = l.pa := rfl

structure Leaf where
  ttbr : U64
  desc : U64
  level : ℕ
  tableattrs : U32
  descAddr : U64
  deriving DecidableEq

inductive Descent where
  | fault (f : PtwFault)
  | leaf (l : Leaf)
  | table (ttbr : U64) (tableattrs : U32) (descAddr : U64)

variable {M : Type} [DmaSocket M]

def classify (g : Granule) (outputsize level : ℕ) (tableattrs : U32) (descAddr desc : U64) : Descent :=
  let ttbr := extract64 desc 0 paBits &&& ~~~g.descmask
  let fault (ev : U32) (attrs : U32) : Descent :=
    .fault { eventType := ev, faultLevel := level, tableattrs := attrs, leafDescAddr := some descAddr }
  match (desc &&& 3).toNat with
  | 3 =>
    if level = 3 then .leaf ⟨ttbr,desc,level,tableattrs,descAddr⟩
    else
      let attrs := tableattrs ||| (extract64 desc 59 5).setWidth 32
      if checkOutAddr ttbr outputsize then .table ttbr attrs descAddr else fault evtFAddrSize attrs
  | 1 =>
    if level = 3 ∨ level < g.firstblocklevel then fault evtFTranslation tableattrs
    else .leaf ⟨ttbr,desc,level,tableattrs,descAddr⟩
  | _ => fault evtFTranslation tableattrs

/-- Fetch the descriptor of a level, at an address that `fetch` may translate
first. -/
def walkStep (fetch : U64 → M → Option U64 × M) (iova : U64) (g : Granule) (outputsize level : ℕ)
    (ttbr : U64) (tableattrs : U32) (last : Option U64) (m : M) : Descent × M :=
  let fault (ev : U32) : Descent :=
    .fault { eventType := ev, faultLevel := level, tableattrs := tableattrs, leafDescAddr := last }
  match fetch (ttbr ||| descIndex iova g level) m with
  | (none,m) => (fault evtFTranslation,m)
  | (some descaddr,m) =>
    match dmaRead64 descaddr m with
    | (none,m) => (fault evtFWalkEabt,m)
    | (some desc,m) => (classify g outputsize level tableattrs descaddr desc,m)

/-- The descent with `n` levels below the current one, which is level `3 - n`. -/
def walkLoop (fetch : U64 → M → Option U64 × M) (iova : U64) (g : Granule) (outputsize : ℕ) :
    ℕ → U64 → U32 → Option U64 → M → Except PtwFault Leaf × M
  | 0, ttbr, tableattrs, last, m =>
    match walkStep fetch iova g outputsize 3 ttbr tableattrs last m with
    | (.fault f,m) => (.error f,m)
    | (.leaf l,m) => (.ok l,m)
    -- level 3 has no table descriptors
    | (.table _ attrs d,m) => (.error ⟨evtFTranslation,3,attrs,some d,none⟩,m)
  | n+1, ttbr, tableattrs, last, m =>
    match walkStep fetch iova g outputsize (2-n) ttbr tableattrs last m with
    | (.fault f,m) => (.error f,m)
    | (.leaf l,m) => (.ok l,m)
    | (.table next attrs d,m) => walkLoop fetch iova g outputsize n next attrs (some d) m

def steFlag (ctx : PtwCtx) (f : STE → Bool) : Bool := match ctx.ste with
  | some ste => f ste
  | none => false

/-- The access-flag check and update: whether the walk goes on, and with which descriptor. -/
def accessFlag (ctx : PtwCtx) (desc : U64) (attrs : U32) (descAddr : U64) (m : M) : Bool × U64 × M :=
  let httu := match ctx.stage with
    | .one => ctx.ha
    | .two => steFlag ctx STE.s2hd
  let affd := match ctx.stage with
    | .one => ctx.affd
    | .two => steFlag ctx STE.s2affd
  if bit32 attrs 8 then (true,desc,m)
  else if httu then
    let newDesc := desc ||| (1#64 <<< 10)
    match dmaWrite64 descAddr newDesc m with
    | (true,m) => (true,newDesc,m)
    | (false,m) => (affd,desc,m)
  else (affd,desc,m)

/-- The stage-1 permission check; nothing stands for a permission fault. -/
def stage1Prot (ctx : PtwCtx) (dbm : Bool) (desc : U64) (attrs : U32) (descAddr : U64) (m : M) :
    Option IOMMUAccessFlags × M :=
  if !bit32 attrs 4 then (none,m)
  else if bit32 attrs 5 then
    if ctx.access = .wo then
      if ctx.hd && dbm then
        match dmaWrite64 descAddr (desc &&& ~~~(1#64 <<< 7)) m with
        | (true,m) => (some .rw,m)
        | (false,m) => (none,m)
      else (none,m)
    else (some (.rw &&& ~~~.wo),m)
  else (some .rw,m)

def permission (ctx : PtwCtx) (dbm : Bool) (desc : U64) (attrs s2attrs : U32) (descAddr : U64) (m : M) :
    Option IOMMUAccessFlags × M :=
  match ctx.stage with
  | .one => stage1Prot ctx dbm desc attrs descAddr m
  | .two => (stage2Prot ctx.access s2attrs,m)

/-- The checks on the leaf: its rights, or the event of the fault. -/
def checkLeaf (ctx : PtwCtx) (l : Leaf) (m : M) : Except U32 IOMMUAccessFlags × M :=
  let attrs := checkedAttrs ctx.stage l.desc l.tableattrs
  match accessFlag ctx l.desc attrs l.descAddr m with
  | (false,_,m) => (.error evtFAccess,m)
  | (true,desc,m) =>
    match permission ctx (l.desc.getLsbD 51) desc attrs (leafAttrs l.desc) l.descAddr m with
    | (none,m) => (.error evtFPermission,m)
    | (some prot,m) => (.ok prot,m)

/-- What the walk has stored once it has computed the output address. -/
def leafResult (ctx : PtwCtx) (g : Granule) (l : Leaf) (prot : IOMMUAccessFlags) : PtwLeaf where
  pa := l.ttbr ||| (ctx.iova &&& lowMask (leafPageSize g l.level))
  pageSize := leafPageSize g l.level
  descriptor := l.desc
  tableattrs := l.tableattrs
  leafDescAddr := l.descAddr
  prot := prot

def walkResult (ctx : PtwCtx) (w : WalkStart) (l : Leaf) (m : M) : Except PtwFault PtwLeaf × M :=
  let fault (ev : U32) (leaf : Option PtwLeaf) : Except PtwFault PtwLeaf :=
    .error ⟨ev,l.level,l.tableattrs,some l.descAddr,leaf⟩
  if checkOutAddr l.ttbr w.outputsize then
    match checkLeaf ctx l m with
    | (.error ev,m) => (fault ev (some (leafResult ctx w.granule l .rw)),m)
    | (.ok prot,m) => (.ok (leafResult ctx w.granule l prot),m)
  else (fault evtFAddrSize none,m)

def descend (fetch : U64 → M → Option U64 × M) (ctx : PtwCtx) (w : WalkStart) (m : M) : Except PtwFault Leaf × M :=
  walkLoop fetch ctx.iova w.granule w.outputsize (3-w.level) w.ttbr 0 none m

/-- A whole walk with descriptor addresses taken through `fetch`. -/
def walkWith (fetch : U64 → M → Option U64 × M) (pamax : ℕ) (ctx : PtwCtx) (m : M) : Except PtwFault PtwLeaf × M :=
  match walkStart pamax ctx with
  | .error ev => (.error { eventType := ev },m)
  | .ok w =>
    match descend fetch ctx w m with
    | (.error f,m) => (.error f,m)
    | (.ok l,m) => walkResult ctx w l m

variable {ctx : PtwCtx} {w : WalkStart} {m m' : M} {leaf : PtwLeaf} {pamax : ℕ}

lemma walkResult_eq_ok {l : Leaf} : walkResult ctx w l m = (.ok leaf,m') ↔ checkOutAddr l.ttbr w.outputsize = true ∧
      ∃ prot, checkLeaf ctx l m = (.ok prot,m') ∧ leafResult ctx w.granule l prot = leaf := by
  rw [walkResult]
  by_cases ho : checkOutAddr l.ttbr w.outputsize = true
  · rcases hc : checkLeaf ctx l m with ⟨ev | prot,m1⟩
    · simp [ho]
    · simp only [ho,if_true,Prod.mk.injEq,Except.ok.injEq,true_and]
      constructor
      · intro h
        exact ⟨prot,⟨rfl,h.2⟩,h.1⟩
      · rintro ⟨prot,⟨rfl,hm⟩,hl⟩
        exact ⟨hl,hm⟩
  · simp [ho]

lemma walkWith_eq_ok {fetch : U64 → M → Option U64 × M} : walkWith fetch pamax ctx m = (.ok leaf,m') ↔
      ∃ w l m1, walkStart pamax ctx = .ok w ∧ descend fetch ctx w m = (.ok l,m1) ∧
        walkResult ctx w l m1 = (.ok leaf,m') := by
  rw [walkWith]
  cases walkStart pamax ctx with
  | error ev => simp
  | ok w =>
    rcases hl : descend fetch ctx w m with ⟨f | l,m1⟩
    · simp [hl]
    · simp [hl]

lemma walkStart_eq_ok :
    walkStart pamax ctx = .ok w ↔ (selectTable ctx).epd = false ∧ ∃ g, (selectTable ctx).granule = some g ∧
      ∃ level, startLevel ctx.stage ctx.iova ctx.sl0 g (64-(selectTable ctx).tsz.toNat)
          (min (outputSizeMap ctx.ips) pamax) = some level ∧
        concatBits ctx.stage (64-(selectTable ctx).tsz.toNat) (g.levelCoverage level) ≤ 4 ∧
        checkOutAddr (startBase ctx g (selectTable ctx).ttbr level (64-(selectTable ctx).tsz.toNat))
          (min (outputSizeMap ctx.ips) pamax) = true ∧
        w = ⟨g,min (outputSizeMap ctx.ips) pamax,level,
          startBase ctx g (selectTable ctx).ttbr level (64-(selectTable ctx).tsz.toNat)⟩ := by
  simp only [walkStart]
  constructor
  · intro h
    split_ifs at h with he
    cases hg : (selectTable ctx).granule with
    | none =>
      rw [hg] at h
      cases h
    | some g =>
      simp only [hg] at h
      cases hl : startLevel ctx.stage ctx.iova ctx.sl0 g (64-(selectTable ctx).tsz.toNat)
          (min (outputSizeMap ctx.ips) pamax) with
      | none =>
        rw [hl] at h
        cases h
      | some level =>
        simp only [hl] at h
        split_ifs at h with hc ho
        cases h
        exact ⟨Bool.eq_false_iff.mpr he,g,rfl,level,hl,not_lt.mp hc,ho,rfl⟩
  · rintro ⟨he,g,hg,level,hl,hc,ho,rfl⟩
    simp [he,hg,hl,ho,not_lt.mpr hc]

def walkGranule (ctx : PtwCtx) : Granule := ((selectTable ctx).granule).getD .g4k

@[simps stage iova sl0 ips] def PtwCtx.withIova (ctx : PtwCtx) (iova : U64) : PtwCtx := { ctx with iova := iova }

def PtwLeaf.withPa (l : PtwLeaf) (pa : U64) : PtwLeaf := { l with pa := pa }

/-- The context of a stage-2 walk of `ipa` for a stream. -/
def stage2Ctx (ste : STE) (ipa : U64) (access : IOMMUAccessFlags) : PtwCtx where
  ttb0 := ste.s2ttb
  tsz0 := ste.s2t0sz
  tg0 := ste.s2tg
  ips := ste.s2ps
  sl0 := ste.s2sl0
  epd0 := false
  stage := .two
  iova := ipa
  access := access
  s2Enabled := false
  ste := some ste
  affd := ste.s2affd
  ha := false
  hd := ste.s2hd

def plainFetch (descaddr : U64) (m : M) : Option U64 × M := (some descaddr,m)

/-- A descriptor address of a nested walk goes through a stage-2 walk, whose fault becomes a translation fault. -/
def nestedFetch (pamax : ℕ) (ste : STE) (descaddr : U64) (m : M) : Option U64 × M :=
  match walkWith plainFetch pamax (stage2Ctx ste descaddr .ro) m with
  | (.ok l,m) => (some l.pa,m)
  | (.error _,m) => (none,m)

/-- How `ctx` reaches its descriptors. -/
def fetchOf (pamax : ℕ) (ctx : PtwCtx) : U64 → M → Option U64 × M := match ctx.stage, ctx.s2Enabled, ctx.ste with
  | .one, true, some ste => nestedFetch pamax ste
  | _, _, _ => plainFetch

lemma fetchOf_cases (pamax : ℕ) (ctx : PtwCtx) :
    (∃ ste, ctx.stage = .one ∧ ctx.s2Enabled = true ∧ ctx.ste = some ste ∧
      fetchOf (M := M) pamax ctx = nestedFetch pamax ste) ∨ fetchOf (M := M) pamax ctx = plainFetch := by
  rw [fetchOf]
  split
  · rename_i ste hs hs2 hst
    exact Or.inl ⟨ste,hs,hs2,hst,rfl⟩
  · exact Or.inr rfl

def smmuv3Ptw64 (pamax : ℕ) (ctx : PtwCtx) (m : M) : Except PtwFault PtwLeaf × M :=
  walkWith (fetchOf pamax ctx) pamax ctx m

end Qbox.Smmuv3
