import Mathlib.Logic.Function.Basic
import Qbox.ByteTransfer

/-! Registers behind the register router: the targets of an address, the ports with their user callbacks, and the
masking around a write. Callbacks are arbitrary functions of the state and the transaction; `E` is what they keep. -/
namespace Qbox.RegRouter
/-- `target_info`. The dimensions of a bank are pairs of a stride and a count, outermost first. -/
structure TargetInfo where
  address : U64
  size : U64
  priority : U32
  useOffset : Bool
  stride : U64
  elemSize : U64
  dims : List (U64 × U64)

def offsetInElement : List (U64 × U64) → U64 → Option U64
  | [], rest => some rest
  | (stride,count) :: dims, rest => if count ≤ rest/stride then none else offsetInElement dims (rest%stride)

variable (ti : TargetInfo)

def TargetInfo.claims (addr : U64) : Bool := if addr < ti.address ∨ ti.size ≤ addr-ti.address then false
  else if ti.dims ≠ [] then (offsetInElement ti.dims (addr-ti.address)).any (fun rest => decide (rest < ti.elemSize))
  else if ti.stride = 0 then true
  else decide ((addr-ti.address)%ti.stride < ti.elemSize)

structure Txn where
  command : TlmCommand
  address : U64
  data : List U8
  byteEnable : Option ByteEnable
  response : TlmResponse

/-- The transaction as a target sees it, when its address at the router was `addr`. -/
def TargetInfo.enter (addr : U64) (t : Txn) : Txn := if ti.useOffset then { t with address := addr-ti.address } else t

/-- The address of the transaction is put back where it was changed. -/
def TargetInfo.restore (addr : U64) (t : Txn) : Txn := if ti.useOffset then { t with address := addr } else t

def Txn.failed (t : Txn) : Bool := t.response != .ok && t.response != .incomplete

/-- A memory: the error it answers with, if any, and the range it grants direct access to. -/
structure MemTarget where
  info : TargetInfo
  refuses : TlmCommand → U64 → ℕ → Option TlmResponse
  grants : Option (U64 × U64)
  refuses_ne_ok : ∀ cmd addr len, refuses cmd addr len ≠ some .ok

/-- The memories; for each register `m_in_callback`, `captured_txn_data`, a direct pointer; what the callbacks keep.
-/
structure State (E : Type) where
  mems : ℕ → U64 → U8
  inCallback : ℕ → Bool
  captured : ℕ → List U8
  dmi : ℕ → Bool
  env : E

/-- A user callback. -/
abbrev Hook (E : Type) := State E → Txn → State E × Txn

/-- The layout of a bank, and the masks of single elements by flat index. -/
structure Bank where
  dims : List (U64 × U64)
  elementMasks : List (U64 × U64)

/-- A register, an array or a bank with its value in the memory `home`, `width` bytes an element. -/
structure Register (E : Type) where
  info : TargetInfo
  home : ℕ
  number : U64
  width : ℕ
  mask : U64
  bank : Option Bank
  preRead : List (Hook E)
  preWrite : List (Hook E)
  postRead : List (Hook E)
  postWrite : List (Hook E)
  width_pos : 0 < width

/-- Everything bound to a router: the memories and the registers, these in the order of their addresses. -/
structure RegFile (E : Type) where
  memories : ℕ
  memory : ℕ → MemTarget
  registers : List (Register E)

def fullMask (width : ℕ) : U64 := BitVec.ofNat 64 (2^(8*width)-1)

def maskByte (mask : U64) (j : ℕ) : U8 := (mask >>> (8*j)).setWidth 8

/-- The written bits where the mask is set, the old ones elsewhere. -/
def blend (mask new old : U8) : U8 := new &&& mask ||| old &&& ~~~mask

/-- `write_with_mask`, on the bytes of consecutive elements. -/
def writeWithMask (width : ℕ) (mask : U64) (src dst : List U8) : List U8 :=
  src.mapIdx fun k b => blend (maskByte mask (k%width)) b (dst.getD k 0)

/-- `compute_total_count`. -/
def totalCount : List (U64 × U64) → U64
  | [] => 1
  | (_,count) :: dims => count*totalCount dims

/-- The sum of `byte_offset_for_flat`. -/
def offsetOfFlat : List (U64 × U64) → U64 → U64
  | [], _ => 0
  | (stride,_) :: dims, flat => flat/totalCount dims*stride+offsetOfFlat dims (flat%totalCount dims)

/-- The loop of `decode_access`: the index of each dimension with its count, and the rest. -/
def indicesOf : List (U64 × U64) → U64 → List (U64 × U64) × U64
  | [], rest => ([],rest)
  | (stride,count) :: dims, rest =>
    ((rest/stride,count) :: (indicesOf dims (rest%stride)).1,(indicesOf dims (rest%stride)).2)

def flatOf : List (U64 × U64) → U64
  | [] => 0
  | (index,_) :: indices => index*totalCount indices+flatOf indices

/-- `gs_bank_access`. -/
structure BankAccess where
  index : U64
  byteOffset : U64
  indices : List U64
  aligned : Bool
  inRange : Bool

namespace Register
variable {E : Type} (r : Register E)

def hooked : Bool := !(r.preRead.isEmpty && r.preWrite.isEmpty && r.postRead.isEmpty && r.postWrite.isEmpty)

def preHooks : TlmCommand → List (Hook E)
  | .read => r.preRead
  | .write => r.preWrite
  | .ignore => []

def postHooks : TlmCommand → List (Hook E)
  | .read => r.postRead
  | .write => r.postWrite
  | .ignore => []

def offset (addr : U64) : U64 := if r.info.useOffset then addr else addr-r.info.address

variable (b : Bank)

def decodeAccess (addr : U64) : BankAccess := let byteOffset := r.offset addr
  let x := indicesOf b.dims byteOffset
  { index := flatOf x.1
    byteOffset := byteOffset
    indices := x.1.map Prod.fst
    aligned := decide (x.2 < BitVec.ofNat 64 r.width)
    inRange := x.1.all fun p => decide (p.1 < p.2) }

def byteOffsetForFlat (flat : U64) : Option U64 :=
  if totalCount b.dims ≤ flat then none else some (offsetOfFlat b.dims flat)

def maskForElement (flat : U64) : U64 := (b.elementMasks.lookup flat).getD r.mask

def getElementMask (flat : U64) : Option U64 :=
  if totalCount b.dims ≤ flat then none else some (r.maskForElement b flat)

def isElementStart (a : BankAccess) : Option Bool :=
  if a.aligned && a.inRange then (byteOffsetForFlat b a.index).map fun off => off == a.byteOffset else some false

def maskedTransactionElementCount (a : BankAccess) (len : ℕ) : Option ℕ := do
  let start ← isElementStart b a
  if !start then some 0
  else if len = 0 ∨ len%r.width ≠ 0 then some 0
  else if len/r.width = 1 then some 1
  else
    match b.dims with
    | [(stride,_)] =>
      if stride ≠ BitVec.ofNat 64 r.width then some 0
      else if totalCount b.dims ≤ a.index ∨ (totalCount b.dims-a.index).toNat < len/r.width then some 0
      else some (len/r.width)
    | _ => some 0

end Register

section
variable {E : Type} (f : RegFile E) (i : ℕ) (r : Register E)

/-- `check_dmi`; nothing on a failed assertion. -/
def checkDmi (s : State E) : Option (State E) := match (f.memory r.home).grants with
  | none => some s
  | some (start,stop) =>
    if stop < start+r.info.address+r.info.size then none
    else some { s with dmi := Function.update s.dmi i true }

/-- A read of the register's own memory by a transaction. -/
def transportRead (addr : U64) (len : ℕ) (s : State E) : Option (State E × List U8) :=
  match (f.memory r.home).refuses .read addr len with
  | some _ => none
  | none => (checkDmi f i r s).map fun s' => (s',bytesAt (s.mems r.home) addr len)

/-- A write of the register's own memory by a transaction. -/
def transportWrite (addr : U64) (data : List U8) (s : State E) : Option (State E) :=
  match (f.memory r.home).refuses .write addr data.length with
  | some _ => none
  | none => checkDmi f i r { s with mems := Function.update s.mems r.home (writeAt (s.mems r.home) addr data) }

/-- The elements at addresses a stride apart, read through the direct pointer. -/
def directReads (mem : U64 → U8) : ℕ → U64 → List U8
  | 0, _ => []
  | n+1, addr => bytesAt mem addr r.width++directReads mem n (addr+r.info.stride)

def directWrites : ℕ → U64 → List U8 → (U64 → U8) → U64 → U8
  | 0, _, _, mem => mem
  | n+1, addr, data, mem =>
    directWrites n (addr+r.info.stride) (data.drop r.width) (writeAt mem addr (data.take r.width))

def transportReads : ℕ → U64 → State E → Option (State E × List U8)
  | 0, _, s => some (s,[])
  | n+1, addr, s => do
    let (s,first) ← transportRead f i r addr r.width s
    let (s,rest) ← transportReads n (addr+r.info.stride) s
    some (s,first++rest)

def transportWrites : ℕ → U64 → List U8 → State E → Option (State E)
  | 0, _, _, s => some s
  | n+1, addr, data, s => do
    let s ← transportWrite f i r addr (data.take r.width) s
    transportWrites n (addr+r.info.stride) (data.drop r.width) s

/-- `get` of `length` elements from an index on. -/
def get (idx : U64) (length : ℕ) (s : State E) : Option (State E × List U8) :=
  let addr := r.info.address+r.info.stride*idx
  if r.number < idx+BitVec.ofNat 64 length then none
  else if s.dmi i then some (s,directReads r (s.mems r.home) length addr)
  else if length = 1 ∨ r.info.stride = BitVec.ofNat 64 r.width then transportRead f i r addr (r.width*length) s
  else transportReads f i r length addr s

/-- `set` without the mask. -/
def set (data : List U8) (idx : U64) (length : ℕ) (s : State E) : Option (State E) :=
  let addr := r.info.address+r.info.stride*idx
  if r.number < idx+BitVec.ofNat 64 length then none
  else if s.dmi i then
    some { s with mems := Function.update s.mems r.home (directWrites r length addr data (s.mems r.home)) }
  else if length = 1 ∨ r.info.stride = BitVec.ofNat 64 r.width then transportWrite f i r addr data s
  else transportWrites f i r length addr data s

def getBytes (byteOffset : U64) (s : State E) : Option (State E × List U8) :=
  if s.dmi i then some (s,bytesAt (s.mems r.home) (r.info.address+byteOffset) r.width)
  else transportRead f i r (r.info.address+byteOffset) r.width s

/-- `set_bytes` without the mask. -/
def setBytes (data : List U8) (byteOffset : U64) (s : State E) : Option (State E) := if s.dmi i then
    some { s with mems := Function.update s.mems r.home (writeAt (s.mems r.home) (r.info.address+byteOffset) data) }
  else transportWrite f i r (r.info.address+byteOffset) data s

def getElements (b : Bank) : ℕ → U64 → State E → Option (State E × List U8)
  | 0, _, s => some (s,[])
  | n+1, flat, s => do
    let off ← Register.byteOffsetForFlat b flat
    let (s,first) ← getBytes f i r off s
    let (s,rest) ← getElements b n (flat+1) s
    some (s,first++rest)

/-- The loop of a bank's `handle_mask_post`: each element is blended with what was captured and stored. -/
def maskElements (b : Bank) : ℕ → U64 → List U8 → List U8 → State E → Option (State E × List U8)
  | 0, _, data, _, s => some (s,data)
  | n+1, flat, data, old, s => do
    let mask ← r.getElementMask b flat
    let off ← Register.byteOffsetForFlat b flat
    let stored := writeWithMask r.width mask (data.take r.width) (old.take r.width)
    let s ← setBytes f i r stored off s
    let (s,rest) ← maskElements b n (flat+1) (data.drop r.width) (old.drop r.width) s
    some (s,stored++rest)

def Register.masked : Bool := match r.bank with
  | none => r.mask != fullMask r.width
  | some b => !b.elementMasks.isEmpty || r.mask != fullMask r.width

def captureTxnPre (s : State E) (t : Txn) : Option (State E × Txn) :=
  if !r.masked || t.command != .write then some (s,t)
  else
    match r.bank with
    | none =>
      if t.data.length = 0 ∨ t.data.length%r.width ≠ 0 then none
      else do
        let (s,old) ← get f i r (r.offset t.address/r.info.stride) (t.data.length/r.width) s
        some ({ s with captured := Function.update s.captured i old },t)
    | some b => do
      let a := r.decodeAccess b t.address
      let count ← r.maskedTransactionElementCount b a t.data.length
      if count = 0 then
        some ({ s with captured := Function.update s.captured i [] },{ t with response := .burstError })
      else
        let (s,old) ← getElements f i r b count a.index s
        some ({ s with captured := Function.update s.captured i old },t)

def handleMaskPost (s : State E) (t : Txn) : Option (State E × Txn) :=
  if !r.masked || t.command != .write then some (s,t)
  else
    match r.bank with
    | none =>
      if t.data.length = 0 ∨ t.data.length%r.width ≠ 0 then none
      else do
        let stored := writeWithMask r.width r.mask t.data (s.captured i)
        let s ← set f i r stored (r.offset t.address/r.info.stride) (t.data.length/r.width)
          { s with captured := Function.update s.captured i stored }
        some (s,{ t with data := stored })
    | some b => do
      let a := r.decodeAccess b t.address
      let count ← r.maskedTransactionElementCount b a t.data.length
      if count = 0 ∨ (s.captured i).length < count*r.width then some (s,{ t with response := .burstError })
      else
        let (s,stored) ← maskElements f i r b count a.index t.data (s.captured i) s
        some (s,{ t with data := stored })

end

section
variable {E : Type} (f : RegFile E)

def runHooks (hooks : List (Hook E)) (s : State E) (t : Txn) : State E × Txn :=
  hooks.foldl (fun x hook => hook x.1 x.2) (s,t)

def portBody (i : ℕ) (r : Register E) (s : State E) (t : Txn) : Option (State E × Txn) := match t.response with
  | .incomplete =>
    let x := runHooks (r.preHooks t.command) s t
    captureTxnPre f i r x.1 x.2
  | .ok => do
    let x ← handleMaskPost f i r s t
    some (runHooks (r.postHooks t.command) x.1 x.2)
  | _ => some (s,t)

/-- `port_fnct::b_transport`. -/
def portTransport (i : ℕ) (r : Register E) (s : State E) (t : Txn) : Option (State E × Txn) :=
  if !r.hooked then some (s,t)
  else if s.inCallback i then some (s,t)
  else do
    let (s,t) ← portBody f i r { s with inCallback := Function.update s.inCallback i true } t
    some ({ s with inCallback := Function.update s.inCallback i false },t)

variable (addr : U64)

/-- One candidate in the loop of `do_callbacks`, with the claimants so far and their priority. -/
def addClaimant (acc : List (Register E × ℕ) × U32) (c : Register E × ℕ) : List (Register E × ℕ) × U32 :=
  if !c.1.info.claims addr then acc
  else if acc.1.isEmpty || decide (c.1.info.priority < acc.2) then ([c],c.1.info.priority)
  else if c.1.info.priority = acc.2 then (acc.1++[c],acc.2)
  else acc

/-- The registers that claim an address with the strongest priority. -/
def claimants : List (Register E × ℕ) := (f.registers.zipIdx.foldl (addClaimant addr) ([],0)).1

/-- The ports are called one after the other, until one reports an error. -/
def callPorts (addr : U64) : List (Register E × ℕ) → State E → Txn → Option (State E × Txn)
  | [], s, t => some (s,t)
  | (r,i) :: l, s, t => do
    let (s,t) ← portTransport f i r s (r.info.enter addr t)
    let t := r.info.restore addr t
    if t.failed then some (s,t) else callPorts addr l s t

def doCallbacks (s : State E) (t : Txn) : Option (State E × Txn) := callPorts f t.address (claimants f t.address) s t

/-- One memory in the loop of `decode_address`; nothing when two claim the address alike. -/
def addMemory (best : Option ℕ) (k : ℕ) : Option (Option ℕ) := if !(f.memory k).info.claims addr then some best
  else
    match best with
    | none => some (some k)
    | some b =>
      if (f.memory k).info.priority < (f.memory b).info.priority then some (some k)
      else if (f.memory k).info.priority = (f.memory b).info.priority then none
      else some best

def decodeAddress : Option (Option ℕ) := (List.range f.memories).foldlM (addMemory f addr) none

def memTransport (k : ℕ) (s : State E) (t : Txn) : State E × Txn :=
  match (f.memory k).refuses t.command t.address t.data.length with
  | some response => (s,{ t with response := response })
  | none =>
    let x := transfer t.command (byteEnabled t.byteEnable) t.address t.data (s.mems k)
    ({ s with mems := Function.update s.mems k x.2 },{ t with data := x.1, response := .ok })

/-- `reg_router::b_transport`; nothing where the simulation ends with an error. -/
def bTransport (s : State E) (t : Txn) : Option (State E × Txn) := do
  let addr := t.address
  match ← decodeAddress f addr with
  | none => some (s,{ t with response := .addressError })
  | some k =>
    let (s,t) ← doCallbacks f s t
    let ti := (f.memory k).info
    let (s,t) := if t.failed then (s,t)
      else
        let x := memTransport f k s (ti.enter addr t)
        (x.1,ti.restore addr x.2)
    if t.response = .ok then doCallbacks f s t else some (s,t)

end

end Qbox.RegRouter
