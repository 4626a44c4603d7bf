import Qbox.Smmuv3Commands

/-! The register interface of the SMMUv3: what a write or a read of a register sets off,
and reset. An assignment inside the SMMU sets off nothing. -/
namespace Qbox.Smmuv3
open MachineWord DmaSocket

variable {M : Type} [DmaSocket M]

/-- The registers of page 0 and their aliases that a driver writes while messages keep their addresses. -/
inductive WriteReg where
  | cr0 | cr2 | gbpa | irqCtrl | gerrorn
  | strtabBaseLo | strtabBaseHi | strtabBaseCfg
  | cmdqBaseLo | cmdqBaseHi | cmdqProd
  | eventqBaseLo | eventqBaseHi | eventqCons
  | priqBaseLo | priqBaseHi | priqCons
  | cmdqProdP1 | eventqConsP1 | priqConsP1
  deriving DecidableEq

/-- The registers after a write, also from an alias; the update bit of `GBPA` clears itself. -/
def Regs.store (reg : WriteReg) (v : U32) (r : Regs) : Regs := match reg with
  | .cr0 => { r with cr0 := v }
  | .cr2 => { r with cr2 := v }
  | .gbpa => { r with gbpa := v &&& ~~~(1#32 <<< 31) }
  | .irqCtrl => { r with irqCtrl := v }
  | .gerrorn => { r with gerrorn := v }
  | .strtabBaseLo => { r with strtabBaseLo := v }
  | .strtabBaseHi => { r with strtabBaseHi := v }
  | .strtabBaseCfg => { r with strtabBaseCfg := v }
  | .cmdqBaseLo => { r with cmdqBaseLo := v }
  | .cmdqBaseHi => { r with cmdqBaseHi := v }
  | .cmdqProd | .cmdqProdP1 => { r with cmdqProd := v }
  | .eventqBaseLo => { r with eventqBaseLo := v }
  | .eventqBaseHi => { r with eventqBaseHi := v }
  | .eventqCons | .eventqConsP1 => { r with eventqCons := v }
  | .priqBaseLo => { r with priqBaseLo := v }
  | .priqBaseHi => { r with priqBaseHi := v }
  | .priqCons | .priqConsP1 => { r with priqCons := v }

def mapRegs (f : Regs → Regs) (s : Smmuv3 M) : Smmuv3 M := s.mapCore fun c => { c with regs := f c.regs }

variable (ato : Bool) (s : Smmuv3 M)

def drainCmdq : Smmuv3 M := if s.regs.cmdqen then consumeCmdq s else s

/-- A register write with its callbacks. The levels follow a write of `EVENTQ_CONS` or `PRIQ_CONS`, but not of the
alias. -/
def writeReg (reg : WriteReg) (v : U32) (s : Smmuv3 M) : Smmuv3 M := let s := s.mapRegs (Regs.store reg v)
  match reg with
  | .irqCtrl | .gerrorn | .eventqCons | .priqCons => s.mapCore Core.updateIrqLevels
  | .cmdqProd | .cmdqProdP1 => drainCmdq s
  | .strtabBaseCfg => clearSteCache s
  | _ => s

/-- A read of `CMDQ_CONS`, or of its alias. -/
def readCmdqCons : U32 × Smmuv3 M := let s := drainCmdq s
  (s.regs.cmdqCons,s)

/-- `IDR0` with the features the model announces. -/
def idr0Value : U32 := let s2p := 1#32 <<< 0
  let s1p := 1#32 <<< 1
  let ttf := 2#32 <<< 2
  let cohacc := 1#32 <<< 4
  let httu := 3#32 <<< 6
  let ats := 1#32 <<< 10
  let asid16 := 1#32 <<< 12
  let msi := 1#32 <<< 13
  let atos := (if ato then 1#32 else 0#32) <<< 15
  let pri := 1#32 <<< 16
  let vmid16 := 1#32 <<< 18
  let stlevel := 2#32 <<< 27
  s2p ||| s1p ||| ttf ||| cohacc ||| httu ||| ats ||| asid16 ||| msi ||| atos ||| pri ||| vmid16 ||| stlevel

/-- The registers of `start_of_simulation`: zero but `IDR0` and `GBPA`, which keeps its other bits. -/
def Regs.reset (r : Regs) : Regs where
  idr0 := idr0Value ato
  gbpa := r.gbpa ||| (1#32 <<< 20)

def startOfSimulation : Smmuv3 M := s.mapRegs (Regs.reset ato)

/-- A change of the reset line: caches and parked transactions go when it rises, registers when it falls. -/
def resetChanged (level : Bool) (s : Smmuv3 M) : Smmuv3 M := if level then
    { clearCdCache (clearSteCache (iotlbInvAll s)) with stalledTxns := ∅ }
  else startOfSimulation ato s

end Qbox.Smmuv3
