import Qbox.DmaSocket
import Qbox.PageTables

/-! The SMMU-500: its page-table walker `smmu500_ptw64`, the two-stage translation `smmu500_at64` and that of a
transaction. A walk reads no fault register; the fault it ends with is written afterwards. -/
namespace Qbox
open MachineWord DmaSocket

namespace Smmu500
structure ContextBank where
  cbar : U32 := 0
  cba2r : U32 := 0
  sctlr : U32 := 0
  tcr2 : U32 := 0
  tcrLpae : U32 := 0
  ttbr0Low : U32 := 0
  ttbr0High : U32 := 0
  ttbr1Low : U32 := 0
  ttbr1High : U32 := 0

/-- The part of `TransReq` that a walk reads. -/
structure WalkReq where
  va : U64
  tcr : Stage → U64
  ttbr0 : Stage → U64
  ttbr1 : U64
  access : IOMMUAccessFlags
  stage : Stage
  s2Enabled : Bool
  s2Cb : ℕ

/-- What a walk stores on success. A bank that is switched off leaves the page size alone. -/
structure PtwLeaf where
  pa : U64
  pageSize : Option ℕ
  prot : IOMMUAccessFlags
  deriving DecidableEq

/-- What is left of a faulting walk: the descriptor address whose stage 2 faulted, and a leaf's page size. -/
structure PtwFault where
  nested : Option U64 := none
  pageSize : Option ℕ := none
  deriving DecidableEq

/-- A walk ends in a fault, or the simulator stops at an assertion or a reserved granule. -/
inductive Halt where
  | fault (f : PtwFault)
  | stop
  deriving DecidableEq

structure TableSelect where
  ttbr : U64
  tsz : ℕ
  granule : Option Granule
  epd : Bool

/-- The table a walk starts from; nothing if the assertion on the descriptor format fails. -/
def selectTable (va64 : Bool) (req : WalkReq) : Option TableSelect :=
  let tcr : U32 := (req.tcr req.stage).setWidth 32
  let t0sz := (extract32 tcr 0 6).toNat
  let tg := granuleOfTg ((extract32 tcr 14 2).setWidth 2)
  match req.stage with
  | .one =>
    let epd := bit32 tcr 7
    if !(va64 || bit32 tcr 31) then none
    else if req.va.getLsbD 63 = false then some ⟨req.ttbr0 .one,t0sz,tg,epd⟩
    else if va64 then some ⟨req.ttbr1,(extract32 tcr 16 3).toNat,some .g4k,epd⟩
    else some ⟨req.ttbr1,(extract32 tcr 16 6).toNat,granuleOfTg1 ((extract32 tcr 30 2).setWidth 2),epd⟩
  | .two => some ⟨req.ttbr0 .two,t0sz,tg,false⟩

variable (pamax : ℕ) (banks : ℕ → ContextBank) (req : WalkReq)

def physicalSize : BitVec 3 :=
  match req.stage with
  | .one => (extract64 (req.tcr .one) 32 3).setWidth 3
  | .two => (extract64 (req.tcr .two) 16 3).setWidth 3

def startlevelField : BitVec 2 := (extract64 (req.tcr req.stage) 6 2).setWidth 2

/-- The base of the start table. A shift count is taken modulo 64, as the host takes it. -/
def startBase (g : Granule) (ttbr : U64) (level inputsize : ℕ) : U64 :=
  extract64 ttbr 0 paBits &&& ~~~lowMask (baselowerbound g level inputsize % 64)

def walkStart (va64 : Bool) (req : WalkReq) : Except Halt WalkStart :=
  match selectTable va64 req with
  | none => .error .stop
  | some t =>
    if t.epd then .error (.fault {})
    else match t.granule with
      | none => .error .stop
      | some g =>
        let inputsize := 64-t.tsz
        let outputsize := min (outputSizeMap (physicalSize req)) pamax
        match startLevel req.stage req.va (startlevelField req) g inputsize outputsize with
        | none => .error (.fault {})
        | some level =>
          let base := startBase g t.ttbr level inputsize
          if checkOutAddr base outputsize then .ok ⟨g,outputsize,level,base⟩ else .error (.fault {})

structure Leaf where
  desc : U64
  level : ℕ
  tableattrs : U32

inductive Descent where
  | leaf (l : Leaf)
  | table (ttbr : U64) (tableattrs : U32)

/-- How the loop goes on from a descriptor. At level 3 only bit 1 of the type is looked at. -/
def classify (g : Granule) (outputsize level : ℕ) (tableattrs : U32) (desc : U64) : Except Halt Descent :=
  if level = 3 then
    if desc.getLsbD 1 then .ok (.leaf ⟨desc,level,tableattrs⟩) else .error (.fault {})
  else
    match (desc &&& 3).toNat with
    | 1 => if level < g.firstblocklevel then .error (.fault {}) else .ok (.leaf ⟨desc,level,tableattrs⟩)
    | 3 =>
      if checkOutAddr (outputBase g desc) outputsize then
        .ok (.table (outputBase g desc) (tableattrs ||| (extract64 desc 59 5).setWidth 32))
      else .error (.fault {})
    | _ => .error (.fault {})

variable {M : Type} [DmaSocket M]

/-- Fetch the descriptor of a level, at an address that `fetch` may translate first. -/
def walkStep (fetch : U64 → M → Except Halt U64 × M) (va : U64) (g : Granule) (outputsize level : ℕ)
    (ttbr : U64) (tableattrs : U32) (m : M) : Except Halt Descent × M :=
  match fetch (ttbr ||| descIndex va g level) m with
  | (.error h,m) => (.error h,m)
  | (.ok descaddr,m) =>
    match dmaRead64 descaddr m with
    | (none,m) => (.error (.fault {}),m)
    | (some desc,m) => (classify g outputsize level tableattrs desc,m)

/-- The descent with `n` levels below the current one, which is level `3 - n`. -/
def walkLoop (fetch : U64 → M → Except Halt U64 × M) (va : U64) (g : Granule) (outputsize : ℕ) :
    ℕ → U64 → U32 → M → Except Halt Leaf × M
  | 0, ttbr, tableattrs, m =>
    match walkStep fetch va g outputsize 3 ttbr tableattrs m with
    | (.error h,m) => (.error h,m)
    | (.ok (.leaf l),m) => (.ok l,m)
    -- level 3 has no table descriptors
    | (.ok (.table _ _),m) => (.error (.fault {}),m)
  | n+1, ttbr, tableattrs, m =>
    match walkStep fetch va g outputsize (2-n) ttbr tableattrs m with
    | (.error h,m) => (.error h,m)
    | (.ok (.leaf l),m) => (.ok l,m)
    | (.ok (.table next attrs),m) => walkLoop fetch va g outputsize n next attrs m

/-- The checks on the access flag and the rights of a leaf; nothing stands for a fault. -/
def checkLeaf (l : Leaf) : Option IOMMUAccessFlags :=
  let attrs := checkedAttrs req.stage l.desc l.tableattrs
  if !bit32 attrs 8 then none
  else match req.stage with
    | .one =>
      if !bit32 attrs 4 then none
      else if bit32 attrs 5 then
        if req.access = .wo then none else some (.rw &&& ~~~.wo)
      else some .rw
    | .two => stage2Prot req.access (leafAttrs l.desc)

def walkResult (w : WalkStart) (l : Leaf) : Except Halt PtwLeaf :=
  let ttbr := outputBase w.granule l.desc
  let pageSize := leafPageSize w.granule l.level
  if checkOutAddr ttbr w.outputsize then
    match checkLeaf req l with
    | none => .error (.fault { pageSize := some pageSize })
    | some prot => .ok ⟨ttbr ||| (req.va &&& lowMask pageSize),some pageSize,prot⟩
  else .error (.fault {})

/-- A whole walk for a context bank with descriptor addresses taken through `fetch`. -/
def walkWith (fetch : U64 → M → Except Halt U64 × M) (pamax : ℕ) (bank : ContextBank) (req : WalkReq) (m : M) :
    Except Halt PtwLeaf × M :=
  if !bit32 bank.sctlr 0 then (.ok ⟨req.va,none,.rw⟩,m)
  else match walkStart pamax (bit32 bank.cba2r 0) req with
    | .error h => (.error h,m)
    | .ok w =>
      match walkLoop fetch req.va w.granule w.outputsize (3-w.level) w.ttbr 0 m with
      | (.error h,m) => (.error h,m)
      | (.ok l,m) => (walkResult req w l,m)

def plainFetch (descaddr : U64) (m : M) : Except Halt U64 × M := (.ok descaddr,m)

def WalkReq.atStage2 (va : U64) : WalkReq := { req with stage := .two, va := va }

/-- A descriptor address of a nested stage-1 walk goes through a stage-2 walk on the bank `s2Cb`. -/
def nestedFetch (descaddr : U64) (m : M) :
    Except Halt U64 × M :=
  match walkWith plainFetch pamax (banks req.s2Cb) (req.atStage2 descaddr) m with
  | (.ok l,m) => (.ok l.pa,m)
  | (.error (.fault _),m) => (.error (.fault { nested := some descaddr }),m)
  | (.error .stop,m) => (.error .stop,m)

def fetchOf : U64 → M → Except Halt U64 × M :=
  match req.stage, req.s2Enabled with
  | .one, true => nestedFetch pamax banks req
  | _, _ => plainFetch

/-- The walk of `smmu500_ptw64`. -/
def walk (cb : ℕ) (req : WalkReq) (m : M) : Except Halt PtwLeaf × M :=
  walkWith (fetchOf pamax banks req) pamax (banks cb) req m

structure FaultRegs where
  fsr : U32 := 0
  farLow : U32 := 0
  farHigh : U32 := 0
  ipafarLow : U32 := 0
  ipafarHigh : U32 := 0

end Smmu500

open Smmu500 in
/-- Configuration, context banks, fault registers, interrupt lines and the memory behind the DMA socket. -/
structure Smmu500 (M : Type) where
  pamax : ℕ := 48
  numCb : ℕ := 16
  scr0 : U32 := 0
  sidr0 : U32 := 48
  smr : ℕ → U32 := fun _ => 0
  s2cr : ℕ → U32 := fun _ => 0
  banks : ℕ → ContextBank := fun _ => {}
  faults : ℕ → FaultRegs := fun _ => {}
  irqContext : ℕ → Bool := fun _ => false
  gpar : U32 := 0
  gparH : U32 := 0
  dma : M

namespace Smmu500
variable {M : Type} (cb : ℕ)

def smmu500UpdateCtxIrq (s : Smmu500 M) : Smmu500 M :=
  { s with irqContext :=
      Function.update s.irqContext cb (bit32 (s.faults cb).fsr 1 && bit32 (s.banks cb).sctlr 6) }

def low32 (v : U64) : U32 := v.setWidth 32

def high32 (v : U64) : U32 := (v >>> 32).setWidth 32

def FaultRegs.withIpafar (f : FaultRegs) (addr : U64) : FaultRegs :=
  { f with ipafarLow := low32 addr, ipafarHigh := high32 addr }

def FaultRegs.withFar (f : FaultRegs) (addr : U64) : FaultRegs :=
  { f with farLow := low32 addr, farHigh := high32 addr }

def smmu500Fault (va : U64) (stage : Stage) (s : Smmu500 M) : Smmu500 M :=
  let f := { s.faults cb with fsr := (s.faults cb).fsr ||| 2 }.withIpafar va
  let f := if stage = .two then f.withFar va else f
  smmu500UpdateCtxIrq cb { s with faults := Function.update s.faults cb f }

/-- The register writes of a walk that faulted: those of the stage-2 walk of a descriptor address
first. -/
def raise (req : WalkReq) (f : PtwFault) (s : Smmu500 M) : Smmu500 M :=
  let s := match f.nested with
    | some descaddr =>
      let s := smmu500Fault req.s2Cb descaddr .two s
      { s with faults := Function.update s.faults cb ((s.faults cb).withIpafar descaddr) }
    | none => s
  smmu500Fault cb req.va req.stage s

/-- `TransReq`, with what a walk stores into it. -/
structure TransReq extends WalkReq where
  pa : U64 := 0
  prot : IOMMUAccessFlags := .none
  pageSize : ℕ
  err : Bool := false

variable [DmaSocket M]

/-- The request and the state after a walk; nothing if the simulator stops. -/
def smmu500Ptw64 (req : TransReq) (s : Smmu500 M) : Option (TransReq × Smmu500 M) :=
  match walk s.pamax s.banks cb req.toWalkReq s.dma with
  | (.ok l,m) =>
    some ({ req with err := false, pa := l.pa, prot := l.prot, pageSize := l.pageSize.getD req.pageSize },
      { s with dma := m })
  | (.error (.fault f),m) =>
    some ({ req with
      err := true, pa := req.va, prot := if f.pageSize.isSome then .rw else req.prot,
      pageSize := f.pageSize.getD req.pageSize },raise cb req.toWalkReq f { s with dma := m })
  | (.error .stop,_) => none

/-- `CBAR.TYPE`. -/
def ContextBank.type (bank : ContextBank) : ℕ := (extract32 bank.cbar 16 2).toNat

def pair (high low : U32) : U64 := (high.setWidth 64 <<< 32) ||| low.setWidth 64

/-- What `smmu500_at64` reads from the registers for a walk of `va` on a bank. -/
def walkReq (banks : ℕ → ContextBank) (cb : ℕ) (va : U64) (wr : Bool) : WalkReq :=
  let bank := banks cb
  let s2Cb := match bank.type with
    | 0 => cb
    | 3 => ((bank.cbar >>> 8) &&& 0xFF).toNat
    | _ => 0
  { va := va
    tcr := fun
      | .one => pair bank.tcr2 bank.tcrLpae
      | .two => (banks s2Cb).tcrLpae.setWidth 64
    ttbr0 := fun
      | .one => pair bank.ttbr0High bank.ttbr0Low
      | .two => pair (banks s2Cb).ttbr0High (banks s2Cb).ttbr0Low
    ttbr1 := pair bank.ttbr1High bank.ttbr1Low
    access := if wr then .wo else .ro
    stage := if bank.type = 0 then .two else .one
    s2Enabled := bank.type == 0 || bank.type == 3
    s2Cb := s2Cb }

/-- What `smmu500_at64` answers. -/
structure AtResult where
  err : Bool
  pa : U64
  prot : IOMMUAccessFlags
  pageSize : ℕ
  deriving DecidableEq

def smmu500At64 (va : U64) (wr s2 : Bool) (pageSize : ℕ) (s : Smmu500 M) :
    Option (AtResult × Smmu500 M) := do
  let req : TransReq := { walkReq s.banks cb va wr with pageSize := pageSize }
  let (req,s) ← if req.stage = .one then smmu500Ptw64 cb req s else some ({ req with pa := req.va },s)
  let req := { req with stage := .two }
  let (req,s) ← if s2 && req.s2Enabled then smmu500Ptw64 cb { req with va := req.pa } s else some (req,s)
  return (⟨req.err,req.pa,req.prot,req.pageSize⟩,s)

def addrmask : U64 := lowMask 12

def vaWidth : ℕ := 32

/-- `smmu500_gat`: a translation asked for through the registers. -/
def smmu500Gat (v : U64) (wr s2 : Bool) (s : Smmu500 M) : Option (Smmu500 M) := do
  let (r,s) ← smmu500At64 (v &&& addrmask).toNat ((v &&& ~~~addrmask) &&& lowMask vaWidth) wr s2 0 s
  return { s with gpar := low32 (r.pa ||| if r.err then 1 else 0), gparH := high32 r.pa }

/-- The context bank of the first valid stream match register that matches. -/
def smmu500StreamIdMatch (streamId : U32) (s : Smmu500 M) : Option ℕ :=
  ((List.range (extract32 s.sidr0 0 8).toNat).find? fun i =>
    let mask := extract32 (s.smr i) 16 15
    bit32 (s.smr i) 31 && (~~~mask &&& extract32 (s.smr i) 0 15) == (~~~mask &&& streamId)).map
      fun i => (extract32 (s.s2cr i) 0 8).toNat

structure IOMMUTLBEntry where
  iova : U64
  translatedAddr : U64
  addrMask : U64
  perm : IOMMUAccessFlags
  deriving DecidableEq

/-- The stream identifier of an access, cut to 16 bits. -/
def masterId (addr sid : U64) : U32 := ((sid ||| ((addr >>> 32) &&& 0xF)).setWidth 16).setWidth 32

def lookupAddress (addr : U64) : U64 := (addr &&& ~~~addrmask) &&& lowMask vaWidth

/-- `smmu500_translate`; nothing if the simulator stops. -/
def smmu500Translate (addr : U64) (cmd : TlmCommand) (sid : U64) (s : Smmu500 M) :
    Option (IOMMUTLBEntry × Smmu500 M) :=
  if bit32 s.scr0 0 then some (⟨0,addr,BitVec.allOnes 64,.rw⟩,s)
  else match smmu500StreamIdMatch (masterId addr sid) s with
    | none => some (⟨0,addr,BitVec.allOnes 64,.rw⟩,s)
    | some cb =>
      if s.numCb ≤ cb then none
      else do
        let (r,s) ← smmu500At64 cb (lookupAddress addr) (cmd == .write) true 12 s
        return (if r.err then ⟨0,0,0,.none⟩ else ⟨0,r.pa,lowMask 12,r.prot⟩,s)

end Smmu500
end Qbox
