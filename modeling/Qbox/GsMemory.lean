import Qbox.Tlm

/-! The memory `gs_memory`: a tree of blocks that are backed by host memory when they are
first accessed, and split into four when the host refuses. -/
namespace Qbox.GsMemory
structure Params where
  size : U64
  address : U64 := 0
  relativeAddresses : Bool := true
  rom : Bool := false
  dmi : Bool := true
  maxBlockSize : U64 := 0x100000000
  minBlockSize : U64 := 0x1000
  /-- A file to map is given. -/
  mapfile : Bool := false
  shmem : Bool := false
  initMem : Bool := false
  initMemVal : U8 := 0

/-- A block of the memory and the host memory that backs it, which is its own. -/
structure Region where
  address : ℕ
  len : ℕ
  deriving DecidableEq

def Region.Has (r : Region) (a : ℕ) : Prop := r.address ≤ a ∧ a < r.address+r.len

instance (r : Region) (a : ℕ) : Decidable (r.Has a) := inferInstanceAs (Decidable (_ ∧ _))

/-- The bytes of a piece of host memory. -/
abbrev Contents := ℕ → U8

/-- What the host answers; a block asks once. A failed `map_file` or `map_mem_create` ends the simulation. -/
structure Host where
  mapFile : Region → Option Contents
  mapMemCreate : Region → Option Contents
  alloc : Region → Option Contents

inductive Answer where
  | backed (c : Contents)
  | refused
  /-- The simulation ends. -/
  | fatal

variable (p : Params)

def ask (host : Host) (r : Region) : Answer := if p.mapfile then (host.mapFile r).elim .fatal .backed
  else if p.shmem then (host.mapMemCreate r).elim .fatal .backed
  else (host.alloc r).elim .refused fun c => .backed (if p.initMem then fun _ => p.initMemVal else c)

/-- A block: not accessed so far, backed by host memory, or with `m_use_sub_blocks` set. -/
inductive SubBlock where
  | untouched
  | backed
  | split (subs : Fin 4 → SubBlock)

structure Memory where
  root : SubBlock := .untouched
  heap : Region → Contents

/-- The sub-block of an access. A block too small or not divisible by four ends the simulation. -/
def childIndex (len base addr : ℕ) : Option (Fin 4) := if len < p.minBlockSize.toNat then none
  else if len % 4 ≠ 0 then none
  -- A division by zero, or an address below the block.
  else if len = 0 ∨ addr < base then none
  else if h : (addr-base)/(len/4) < 4 then some ⟨(addr-base)/(len/4),h⟩ else none

def childBase (len base : ℕ) (i : Fin 4) : ℕ := i*(len/4)+base

/-- `SubBlock::access`: the block that backs an address, in a block of `len` bytes at `base`. -/
def SubBlock.access (p : Params) (host : Host) :
    ℕ → ℕ → ℕ → ℕ → SubBlock → (Region → Contents) → Option (Region × SubBlock × (Region → Contents))
  | 0, _, _, _, _, _ => none
  | n+1, len, base, addr, b, heap =>
    let sub (subs : Fin 4 → SubBlock) := match childIndex p len base addr with
      | none => none
      | some i =>
        match access p host n (len/4) (childBase len base i) addr (subs i) heap with
        | none => none
        | some (r,b,heap) => some (r,.split (Function.update subs i b),heap)
    match b with
    | .backed => some (⟨base,len⟩,.backed,heap)
    | .split subs => sub subs
    | .untouched =>
      if p.maxBlockSize.toNat < len then sub fun _ => .untouched
      else match ask p host ⟨base,len⟩ with
        | .backed c => some (⟨base,len⟩,.backed,Function.update heap ⟨base,len⟩ c)
        | .refused => sub fun _ => .untouched
        | .fatal => none

def maxDepth : ℕ := 33

def Memory.access (p : Params) (host : Host) (addr : ℕ) (m : Memory) : Option (Region × Memory) :=
  match m.root.access p host maxDepth p.size.toNat 0 addr m.heap with
  | none => none
  | some (r,root,heap) => some (r,⟨root,heap⟩)

/-- `doreset`, in a block of `len` bytes at `base`. -/
def SubBlock.doreset (p : Params) : SubBlock → ℕ → ℕ → (Region → Contents) → Region → Contents
  | .untouched, _, _, heap => heap
  | .backed, len, base, heap => if p.initMem then Function.update heap ⟨base,len⟩ fun _ => p.initMemVal else heap
  -- The loop goes over `N`, not `1 << N`, sub-blocks.
  | .split subs, len, base, heap =>
    doreset p (subs 1) (len/4) (childBase len base 1) (doreset p (subs 0) (len/4) (childBase len base 0) heap)

def Memory.doreset (p : Params) (m : Memory) : Memory := { m with heap := m.root.doreset p p.size.toNat 0 m.heap }

def Region.piece (r : Region) (offset len : ℕ) : ℕ := min len (r.len-(offset-r.address))

/-- `read_sub_blocks`: the bytes copied out of a block. -/
def Memory.readSubBlocks (m : Memory) (r : Region) (offset len : ℕ) : List U8 :=
  (List.range (r.piece offset len)).map fun i => m.heap r (offset-r.address+i)

/-- `write_sub_blocks`: the first bytes of the data are copied into a block. -/
def Memory.writeSubBlocks (m : Memory) (r : Region) (offset : ℕ) (data : List U8) : Memory :=
  let first := offset-r.address
  { m with heap := Function.update m.heap r fun k =>
      if first ≤ k ∧ k < first+r.piece offset data.length then data.getD (k-first) 0 else m.heap r k }

/-- The loop of `read`, at least a byte a turn. Outside its block an access is outside the host memory. -/
def readLoop (p : Params) (host : Host) : ℕ → ℕ → ℕ → Memory → Option (List U8 × Memory)
  | _, _, 0, m => some ([],m)
  | 0, _, _+1, _ => none
  | n+1, offset, len+1, m =>
    match m.access p host offset with
    | none => none
    | some (r,m) =>
      if r.Has offset then
        match readLoop p host n (offset+r.piece offset (len+1)) (len+1-r.piece offset (len+1)) m with
        | none => none
        | some (rest,m') => some (m.readSubBlocks r offset (len+1)++rest,m')
      else none

/-- `read`; an access that does not fit ends the simulation. -/
def read (host : Host) (offset : U64) (len : ℕ) (m : Memory) : Option (List U8 × Memory) :=
  if p.size < offset+BitVec.ofNat 64 len then none else readLoop p host len offset.toNat len m

/-- The loop of `write`. -/
def writeLoop (p : Params) (host : Host) : ℕ → ℕ → List U8 → Memory → Option Memory
  | _, _, [], m => some m
  | 0, _, _ :: _, _ => none
  | n+1, offset, d :: data, m =>
    match m.access p host offset with
    | none => none
    | some (r,m) =>
      if r.Has offset then
        writeLoop p host n (offset+r.piece offset (d :: data).length) ((d :: data).drop (r.piece offset (d :: data).length))
          (m.writeSubBlocks r offset (d :: data))
      else none

def write (host : Host) (offset : U64) (data : List U8) (m : Memory) : Option Memory :=
  if p.size < offset+BitVec.ofNat 64 data.length then none
  else writeLoop p host data.length offset.toNat data m

structure Txn where
  command : TlmCommand
  address : U64
  data : List U8
  byteEnable : Option ByteEnable := none
  streamingWidth : U32 := 0xFFFFFFFF
  length_lt : data.length < 2^32 := by decide

/-- What comes back from `b_transport`. -/
structure Reply where
  response : TlmResponse
  data : List U8
  dmiAllowed : Bool
  deriving DecidableEq

def Params.offset (addr : U64) : Option U64 :=
  if p.relativeAddresses then some addr else if addr < p.address then none else some (addr-p.address)

/-- The reads of `b_transport` under byte enables, from byte `i` on. -/
def readEnabled (p : Params) (host : Host) (be : ByteEnable) (addr : U64) :
    ℕ → List U8 → Memory → Option (List U8 × Memory)
  | _, [], m => some ([],m)
  | i, d :: data, m =>
    match if be.enables i then read p host (addr+BitVec.ofNat 64 i) 1 m else some ([d],m) with
    | none => none
    | some (bytes,m) =>
      match readEnabled p host be addr (i+1) data m with
      | none => none
      | some (rest,m) => some (bytes++rest,m)

/-- The writes of `b_transport` under byte enables, from byte `i` on. -/
def writeEnabled (p : Params) (host : Host) (be : ByteEnable) (addr : U64) : ℕ → List U8 → Memory → Option Memory
  | _, [], m => some m
  | i, d :: data, m =>
    match if be.enables i then write p host (addr+BitVec.ofNat 64 i) [d] m else some m with
    | none => none
    | some m => writeEnabled p host be addr (i+1) data m

/-- `b_transport`; nothing stands for the end of the simulation. -/
def bTransport (host : Host) (txn : Txn) (m : Memory) : Option (Reply × Memory) :=
  if txn.streamingWidth.toNat < txn.data.length then none
  else match p.offset txn.address with
    | none => some (⟨.addressError,txn.data,false⟩,m)
    | some addr =>
      if p.size < addr+BitVec.ofNat 64 txn.data.length then some (⟨.addressError,txn.data,false⟩,m)
      else match txn.command with
        | .read =>
          match txn.byteEnable.elim (read p host addr txn.data.length m) fun be => readEnabled p host be addr 0 txn.data m with
          | none => none
          | some (data,m) => some (⟨.ok,data,p.dmi⟩,m)
        | .write =>
          if p.rom then some (⟨.commandError,txn.data,false⟩,m)
          else match txn.byteEnable.elim (write p host addr txn.data m) fun be => writeEnabled p host be addr 0 txn.data m with
            | none => none
            | some m => some (⟨.ok,txn.data,p.dmi⟩,m)
        | .ignore => none

/-- `transport_dbg`: the number of bytes, and what comes back. -/
def transportDbg (host : Host) (txn : Txn) (m : Memory) : Option (ℕ × Reply × Memory) :=
  match bTransport p host txn m with
  | none => none
  | some (reply,m) => some (if reply.response = .ok then txn.data.length else 0,reply,m)

/-- A direct memory grant; its pointer is the first byte of a region. -/
structure Grant where
  start : U64
  endAddr : U64
  region : Region
  writable : Bool
  deriving DecidableEq

/-- What `get_direct_mem_ptr` returns: a response when it sets one, and the grant if any. -/
structure DmiReply where
  response : Option TlmResponse
  grant : Option Grant
  deriving DecidableEq

def Params.grant (r : Region) : Grant :=
  let start := BitVec.ofNat 64 r.address+(if p.relativeAddresses then 0 else p.address)
  ⟨start,start+BitVec.ofNat 64 r.len-1,r,!p.rom⟩

def getDirectMemPtr (host : Host) (addr : U64) (m : Memory) : Option (DmiReply × Memory) :=
  if !p.dmi then some (⟨none,none⟩,m)
  else match p.offset addr with
    | none => some (⟨some .addressError,none⟩,m)
    | some off =>
      if p.size ≤ off then some (⟨some .addressError,none⟩,m)
      else match m.access p host off.toNat with
        | none => none
        | some (r,m) => some (⟨none,some (p.grant r)⟩,m)

end Qbox.GsMemory
