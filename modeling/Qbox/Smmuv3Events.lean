import Qbox.DmaSocket
import Qbox.Smmuv3Records

/-! Registers, interrupt lines, global errors and the event and page-request queues of the SMMUv3. The caches of the SMMU are
out of reach here by type. -/
namespace Qbox.Smmuv3
open MachineWord DmaSocket

structure Regs where
  idr0 : U32 := 0
  cr0 : U32 := 0
  cr2 : U32 := 0
  gbpa : U32 := 0
  irqCtrl : U32 := 0
  gerror : U32 := 0
  gerrorn : U32 := 0
  gerrorIrqCfg0Lo : U32 := 0
  gerrorIrqCfg0Hi : U32 := 0
  gerrorIrqCfg2 : U32 := 0
  strtabBaseLo : U32 := 0
  strtabBaseHi : U32 := 0
  strtabBaseCfg : U32 := 0
  cmdqBaseLo : U32 := 0
  cmdqBaseHi : U32 := 0
  cmdqProd : U32 := 0
  cmdqCons : U32 := 0
  eventqBaseLo : U32 := 0
  eventqBaseHi : U32 := 0
  eventqProd : U32 := 0
  eventqCons : U32 := 0
  eventqIrqCfg0Lo : U32 := 0
  eventqIrqCfg0Hi : U32 := 0
  eventqIrqCfg2 : U32 := 0
  priqBaseLo : U32 := 0
  priqBaseHi : U32 := 0
  priqProd : U32 := 0
  priqCons : U32 := 0
  priqIrqCfg0Lo : U32 := 0
  priqIrqCfg0Hi : U32 := 0
  priqIrqCfg2 : U32 := 0
  sIrqCtrl : U32 := 0
  sGerror : U32 := 0
  sGerrorn : U32 := 0
  sGerrorIrqCfg0Lo : U32 := 0
  sGerrorIrqCfg0Hi : U32 := 0
  sGerrorIrqCfg2 : U32 := 0
  sCmdqBaseLo : U32 := 0
  sCmdqBaseHi : U32 := 0
  sCmdqProd : U32 := 0
  sCmdqCons : U32 := 0
  sEventqProd : U32 := 0
  sEventqCons : U32 := 0
  sEventqIrqCfg0Lo : U32 := 0
  sEventqIrqCfg0Hi : U32 := 0
  sEventqIrqCfg2 : U32 := 0
  deriving DecidableEq

namespace Regs
variable (r : Regs)

def smmuen : Bool := bit32 r.cr0 0
def priqen : Bool := bit32 r.cr0 1
def eventqen : Bool := bit32 r.cr0 2
def cmdqen : Bool := bit32 r.cr0 3
def e2h : Bool := bit32 r.cr2 0
def gbpaAbort : Bool := bit32 r.gbpa 20
def pri : Bool := bit32 r.idr0 16

end Regs

inductive IrqLine where
  | eventq | priq | cmdSync | gerror | sGerror | sEventq
  deriving DecidableEq

/-- Remembered flags and driven levels, which lines are bound, and the values written, newest first. -/
structure IrqState where
  prevGerrorPending : Bool := false
  prevEventqPending : Bool := false
  prevPriqPending : Bool := false
  prevSGerrorPending : Bool := false
  prevSEventqPending : Bool := false
  lastGerrorLevel : Bool := false
  lastEventqLevel : Bool := false
  lastPriqLevel : Bool := false
  lastSGerrorLevel : Bool := false
  lastSEventqLevel : Bool := false
  bound : List IrqLine := []
  writes : List (IrqLine × Bool) := []
  deriving DecidableEq

namespace IrqState
variable (line : IrqLine)

def write (level : Bool) (s : IrqState) : IrqState :=
  if line ∈ s.bound then { s with writes := (line,level) :: s.writes } else s

def trigger (s : IrqState) : IrqState := (s.write line true).write line false

/-- A level change, given the last level and how to remember the new one. -/
def drive (last new : Bool) (remember : Bool → IrqState → IrqState) (s : IrqState) : IrqState :=
  if last = new then s else (remember new s).write line new

end IrqState

structure Core (M : Type) where
  regs : Regs
  bus : M
  irq : IrqState := {}

namespace Core
variable {M : Type} [DmaSocket M]

def gerrorBitCmdqErr : ℕ := 0
def gerrorBitEventqAbt : ℕ := 2
def gerrorBitPriqAbt : ℕ := 3
def gerrorBitMsiCmdqAbt : ℕ := 4
def gerrorBitMsiEventqAbt : ℕ := 5
def gerrorBitMsiPriqAbt : ℕ := 6
def gerrorBitMsiGerrorAbt : ℕ := 7
def gerrorBitSfmErr : ℕ := 8

/-- The global error register after `set_gerror`, or nothing when the error is already
pending. -/
def raisedGerror (gerror gerrorn : U32) (bit : ℕ) : Option U32 :=
  if bit32 (gerror ^^^ gerrorn) bit then none else some (gerror ^^^ (1#32 <<< bit))

/-- `set_gerror`, with `update_irq_levels` as `update`. -/
def setGerrorWith (update : Core M → Core M) (bit : ℕ) (c : Core M) : Core M :=
  match raisedGerror c.regs.gerror c.regs.gerrorn bit with
  | none => c
  | some g => update { c with regs := { c.regs with gerror := g } }

/-- `emit_msi`, with `set_gerror` as `onFail`. -/
def emitMsiWith (onFail : ℕ → Core M → Core M) (cfg0Lo cfg0Hi data : U32) (abortBit : ℕ) (c : Core M) : Core M :=
  let addr : U64 := (cfg0Hi.setWidth 64 <<< 32) ||| cfg0Lo.setWidth 64
  if addr = 0 then c
  else match dmaWrite addr (storeLe 4 data) c.bus with
    | (true,bus) => { c with bus := bus }
    | (false,bus) => onFail abortBit { c with bus := bus }

/-- The body of `update_irq_levels`: flags and levels are fixed before the first message; a failed one can change
registers. -/
def updateIrqLevelsBody (setGerror : ℕ → Core M → Core M) (c : Core M) : Core M :=
  let gerrorPending := decide (c.regs.gerror ^^^ c.regs.gerrorn ≠ 0)
  let eventqPending := decide (c.regs.eventqProd ≠ c.regs.eventqCons)
  let priqPending := decide (c.regs.priqProd ≠ c.regs.priqCons)
  let gerrorIrq := gerrorPending && bit32 c.regs.irqCtrl 0
  let eventqIrq := eventqPending && bit32 c.regs.irqCtrl 2
  let priqIrq := priqPending && bit32 c.regs.irqCtrl 1
  let c := if gerrorPending && !c.irq.prevGerrorPending && bit32 c.regs.irqCtrl 0 then
      emitMsiWith setGerror c.regs.gerrorIrqCfg0Lo c.regs.gerrorIrqCfg0Hi c.regs.gerrorIrqCfg2
        gerrorBitMsiGerrorAbt c
    else c
  let c := if eventqPending && !c.irq.prevEventqPending && bit32 c.regs.irqCtrl 2 then
      emitMsiWith setGerror c.regs.eventqIrqCfg0Lo c.regs.eventqIrqCfg0Hi c.regs.eventqIrqCfg2
        gerrorBitMsiEventqAbt c
    else c
  let c := if priqPending && !c.irq.prevPriqPending && bit32 c.regs.irqCtrl 1 then
      emitMsiWith setGerror c.regs.priqIrqCfg0Lo c.regs.priqIrqCfg0Hi c.regs.priqIrqCfg2
        gerrorBitMsiPriqAbt c
    else c
  let irq := { c.irq with
    prevGerrorPending := gerrorPending
    prevEventqPending := eventqPending
    prevPriqPending := priqPending }
  let irq := irq.drive .gerror irq.lastGerrorLevel gerrorIrq (fun b s => { s with lastGerrorLevel := b })
  let irq := irq.drive .eventq irq.lastEventqLevel eventqIrq (fun b s => { s with lastEventqLevel := b })
  let irq := irq.drive .priq irq.lastPriqLevel priqIrq (fun b s => { s with lastPriqLevel := b })
  { c with irq := irq }

/-- `update_irq_levels` and `set_gerror` call each other on a failed message; each call makes one more of three abort
bits pending. -/
def updateIrqLevelsFuel : ℕ → Core M → Core M
  | 0, c => c
  | n+1, c => updateIrqLevelsBody (setGerrorWith (updateIrqLevelsFuel n)) c

def updateIrqLevels (c : Core M) : Core M := updateIrqLevelsFuel 4 c

def setGerror (bit : ℕ) (c : Core M) : Core M := setGerrorWith updateIrqLevels bit c

/-- `update_secure_irq_levels`; a failed message is reported in the non-secure register. -/
def updateSecureIrqLevels (c : Core M) : Core M :=
  let gerrorPending := decide (c.regs.sGerror ^^^ c.regs.sGerrorn ≠ 0)
  let eventqPending := decide (c.regs.sEventqProd ≠ c.regs.sEventqCons)
  let gerrorIrq := gerrorPending && bit32 c.regs.sIrqCtrl 0
  let eventqIrq := eventqPending && bit32 c.regs.sIrqCtrl 2
  let c := if gerrorPending && !c.irq.prevSGerrorPending && bit32 c.regs.sIrqCtrl 0 then
      emitMsiWith setGerror c.regs.sGerrorIrqCfg0Lo c.regs.sGerrorIrqCfg0Hi c.regs.sGerrorIrqCfg2
        gerrorBitMsiGerrorAbt c
    else c
  let c := if eventqPending && !c.irq.prevSEventqPending && bit32 c.regs.sIrqCtrl 2 then
      emitMsiWith setGerror c.regs.sEventqIrqCfg0Lo c.regs.sEventqIrqCfg0Hi c.regs.sEventqIrqCfg2
        gerrorBitMsiEventqAbt c
    else c
  let irq := { c.irq with prevSGerrorPending := gerrorPending, prevSEventqPending := eventqPending }
  let irq := irq.drive .sGerror irq.lastSGerrorLevel gerrorIrq (fun b s => { s with lastSGerrorLevel := b })
  let irq := irq.drive .sEventq irq.lastSEventqLevel eventqIrq (fun b s => { s with lastSEventqLevel := b })
  { c with irq := irq }

def setSecureGerror (bit : ℕ) (c : Core M) : Core M := match raisedGerror c.regs.sGerror c.regs.sGerrorn bit with
  | none => c
  | some g => updateSecureIrqLevels { c with regs := { c.regs with sGerror := g } }

def withErr (cons : U32) (cerror : U32) : U32 := (cons &&& ~~~(lowMask 7 <<< 23)) ||| ((cerror &&& lowMask 7) <<< 23)

def setCmdqErr (cerror : U32) (c : Core M) : Core M :=
  setGerror gerrorBitCmdqErr { c with regs := { c.regs with cmdqCons := withErr c.regs.cmdqCons cerror } }

def setSecureCmdqErr (cerror : U32) (c : Core M) : Core M := setSecureGerror gerrorBitCmdqErr
    { c with regs := { c.regs with sCmdqCons := withErr c.regs.sCmdqCons cerror } }

def clampQueueLog2size (log2size : ℕ) : ℕ := if 19 < log2size then 19 else log2size

def queueLog2size (baseLo : U32) : ℕ := clampQueueLog2size (extract32 baseLo 0 5).toNat

def queueFull (prod cons : U32) (log2size : ℕ) : Bool := let size := clampQueueLog2size log2size
  prod ^^^ cons == 1#32 <<< size && prod &&& lowMask size == cons &&& lowMask size

def outputQueueBase (lo hi : U32) : U64 := (hi.setWidth 64 <<< 32) ||| (lo.setWidth 64 &&& ~~~lowMask 5)

def nextProd (prod : U32) (log2size : ℕ) : U32 := (prod+1) &&& lowMask (log2size+1)

def recordAddr (base : U64) (prod : U32) (log2size recordSize : ℕ) : U64 :=
  base+(prod &&& lowMask log2size).setWidth 64*BitVec.ofNat 64 recordSize

def eventWords (type sid ssid : U32) (iova : U64) (command : TlmCommand) (cls faultLevel stag : U32)
    (stall : Bool) : List U64 :=
  let flag (b : Bool) (i : ℕ) : U64 := if b then 1#64 <<< i else 0
  [(type.setWidth 64 &&& 0xFF) ||| flag (ssid ≠ 0) 12 ||| ((ssid.setWidth 64 &&& 0xFFFFF) <<< 13) |||
      (sid.setWidth 64 <<< 32),
   (stag.setWidth 64 &&& 0xFFFF) ||| flag (command = .read) 17 ||| ((cls.setWidth 64 &&& 3) <<< 20) |||
      flag stall 23 ||| ((faultLevel.setWidth 64 &&& 7) <<< 24),
   iova,0]

def recordEventFull (type sid ssid : U32) (iova : U64) (command : TlmCommand) (cls faultLevel stag : U32)
    (stall : Bool) (c : Core M) : Core M :=
  if !c.regs.eventqen then c
  else
    let log2size := queueLog2size c.regs.eventqBaseLo
    let prod := c.regs.eventqProd
    if queueFull prod c.regs.eventqCons log2size then setGerror gerrorBitEventqAbt c
    else
      let addr := recordAddr (outputQueueBase c.regs.eventqBaseLo c.regs.eventqBaseHi) prod log2size 32
      let bytes := (eventWords type sid ssid iova command cls faultLevel stag stall).flatMap (storeLe 8)
      match dmaWrite addr bytes c.bus with
      | (false,bus) => setGerror gerrorBitEventqAbt { c with bus := bus }
      | (true,bus) =>
        updateIrqLevels { c with bus := bus, regs := { c.regs with eventqProd := nextProd prod log2size } }

def recordPri (sid : U32) (iova : U64) (flags : U32) (c : Core M) : Core M := if !c.regs.priqen then c
  else
    let log2size := queueLog2size c.regs.priqBaseLo
    let prod := c.regs.priqProd
    if queueFull prod c.regs.priqCons log2size then setGerror gerrorBitPriqAbt c
    else
      let addr := recordAddr (outputQueueBase c.regs.priqBaseLo c.regs.priqBaseHi) prod log2size 16
      match dmaWrite addr (storeLe 4 sid ++ storeLe 4 flags ++ storeLe 8 iova) c.bus with
      | (false,bus) => setGerror gerrorBitPriqAbt { c with bus := bus }
      | (true,bus) =>
        updateIrqLevels { c with bus := bus, regs := { c.regs with priqProd := nextProd prod log2size } }

end Core
end Qbox.Smmuv3
