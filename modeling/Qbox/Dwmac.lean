import Qbox.ByteTransfer

/-! The Ethernet controller: its DMA registers and interrupt register, and the reception and transmission of frames
through rings or chains of descriptors in memory. -/
namespace Qbox
namespace Dwmac
open MachineWord

/-- `DwmacState::Tx`. -/
inductive TxState where
  | stopped | fetching | waiting | reading | suspended | closing
  deriving DecidableEq, Repr

/-- `DwmacState::Rx`. -/
inductive RxState where
  | stopped | fetching | waiting | suspended | closing | transferring
  deriving DecidableEq, Repr

def TxState.code : TxState → U32
  | .stopped => 0
  | .fetching => 1
  | .waiting => 2
  | .reading => 3
  | .suspended => 6
  | .closing => 7

def RxState.code : RxState → U32
  | .stopped => 0
  | .fetching => 1
  | .waiting => 3
  | .suspended => 4
  | .closing => 5
  | .transferring => 7

/-- The fields of `status_reg` that are written. -/
structure StatusReg where
  tu : Bool := false
  ru : Bool := false
  rs : RxState := .stopped
  ts : TxState := .stopped
  deriving DecidableEq

def StatusReg.value (r : StatusReg) : U32 :=
  (if r.tu then 1#32 <<< 2 else 0) ||| (if r.ru then 1#32 <<< 7 else 0) ||| (r.rs.code <<< 17) ||| (r.ts.code <<< 20)

/-- `NIS_mask` and `AIS_mask`: the normal and the abnormal interrupts. -/
def nisMask : U32 := 0x4045
def aisMask : U32 := 0x27ba
def nisBit : U32 := 1#32 <<< 16
def aisBit : U32 := 1#32 <<< 15
def isMask : U32 := nisMask ||| aisMask
def isBits : U32 := nisBit ||| aisBit

def rxBufUnavailable : U32 := 1#32 <<< 7
def rxInt : U32 := 1#32 <<< 6
def txBufUnavailable : U32 := 1#32 <<< 2
def txInt : U32 := 1#32 <<< 0

structure InterruptRegister where
  regstateStaled : Bool := false
  regstate : U32 := 0
  regmask : U32 := 0
  interrupts : U32 := 0
  dmaRegStatus : StatusReg := {}
  deriving DecidableEq

namespace InterruptRegister
def setTxState (state : TxState) (r : InterruptRegister) : InterruptRegister :=
  { r with dmaRegStatus := { r.dmaRegStatus with ts := state }, regstateStaled := true }

def setRxState (state : RxState) (r : InterruptRegister) : InterruptRegister :=
  { r with dmaRegStatus := { r.dmaRegStatus with rs := state }, regstateStaled := true }

variable (r : InterruptRegister)

def getTxState : TxState := r.dmaRegStatus.ts

def getRxState : RxState := r.dmaRegStatus.rs

def reset : InterruptRegister := {}

/-- The interrupts with the summary bits that they and the mask call for. -/
def summarize (mask interrupts : U32) : U32 :=
  let i := if interrupts &&& nisMask ≠ 0 ∧ mask &&& nisBit ≠ 0 then interrupts ||| nisBit else interrupts
  if i &&& aisMask ≠ 0 ∧ mask &&& aisBit ≠ 0 then i ||| aisBit else i

def clear (v : U32) (r : InterruptRegister) : InterruptRegister := let v := v &&& (isMask ||| isBits)
  { r with interrupts := summarize r.regmask (r.interrupts &&& (~~~v &&& isMask)), regstateStaled := true }

def fire (interrupts : U32) (r : InterruptRegister) : InterruptRegister := { r with
    interrupts := r.interrupts ||| summarize r.regmask (interrupts &&& r.regmask &&& isMask)
    regstateStaled := true }

def hasInterrupts : Bool := decide (r.interrupts &&& r.regmask ≠ 0)

def setInterrupts (mask : U32) (r : InterruptRegister) : InterruptRegister :=
  { r with regmask := mask &&& (isMask ||| isBits) }

def setStatus (value : U32) (r : InterruptRegister) : InterruptRegister := r.clear (value &&& (isMask ||| isBits))

/-- `status`: the value is put together again when it is stale. -/
def status : U32 × InterruptRegister := if r.regstateStaled then
    let v := r.interrupts ||| r.dmaRegStatus.value
    (v,{ r with regstate := v, regstateStaled := false })
  else (r.regstate,r)

end InterruptRegister

structure DmaDesc where
  bytes : List U8
  deriving DecidableEq

namespace DmaDesc
variable (d : DmaDesc)

def word (i : ℕ) : U32 := loadLe 32 ((d.bytes.drop (4*i)).take 4)

def withWord0 (w : U32) (d : DmaDesc) : DmaDesc := ⟨storeLe 4 w++d.bytes.drop 4⟩

def own : Bool := (d.word 0).getLsbD 31

def disown : DmaDesc := d.withWord0 (d.word 0 &&& ~~~(1#32 <<< 31))

def buffer1Size : ℕ := ((d.word 1).extractLsb' 0 13).toNat

def buffer2Size : ℕ := ((d.word 1).extractLsb' 16 13).toNat

def des2 : U32 := d.word 2

def des3 : U32 := d.word 3

/-- The fields of `etx`. -/
def txChained : Bool := (d.word 0).getLsbD 20
def txEndRing : Bool := (d.word 0).getLsbD 21
def checksumInsertion : ℕ := ((d.word 0).extractLsb' 22 2).toNat
def firstSegment : Bool := (d.word 0).getLsbD 28
def lastSegment : Bool := (d.word 0).getLsbD 29
def interrupt : Bool := (d.word 0).getLsbD 30

/-- The fields of `erx`. -/
def rxChained : Bool := (d.word 1).getLsbD 14
def rxEndRing : Bool := (d.word 1).getLsbD 15
def disableIc : Bool := (d.word 1).getLsbD 31

def received (size : ℕ) (d : DmaDesc) : DmaDesc := let cleared := (0x3FFF#32 <<< 16) ||| 1 ||| (1#32 <<< 31)
  let length := ((BitVec.ofNat 14 (size+4)).setWidth 32) <<< 16
  d.withWord0 ((d.word 0 &&& ~~~cleared) ||| length ||| (1#32 <<< 9) ||| (1#32 <<< 8) ||| (1#32 <<< 5))

end DmaDesc

/-- `Payload`: a buffer and how much of it is in use. -/
structure Payload where
  buffer : ℕ → U8
  size : ℕ

namespace Payload
def capacity : ℕ := 9018

/-- `resize` asserts that the size fits. -/
def resize (size : ℕ) (p : Payload) : Option Payload := if size ≤ capacity then some { p with size := size } else none

def fill (offset : ℕ) (bytes : List U8) (p : Payload) : Payload :=
  { p with buffer := fun i => if offset ≤ i then bytes[i-offset]?.getD (p.buffer i) else p.buffer i }

def data (p : Payload) : List U8 := (List.range p.size).map p.buffer

def half (p : Payload) (i : ℕ) : U32 := (p.buffer i).setWidth 32 ||| ((p.buffer (i+1)).setWidth 32 <<< 8)

def setHalf (i : ℕ) (v : U32) (p : Payload) : Payload :=
  { p with buffer := fun j => if j = i then v.setWidth 8 else if j = i+1 then (v >>> 8).setWidth 8 else p.buffer j }

def foldCarry (sum : U32) : U32 := if sum >>> 16 = 0 then sum else (sum &&& 0xFFFF)+(sum >>> 16)

/-- `checksum` of `size` bytes from an offset on. A sum of 32 bits is folded after three turns. -/
def checksum (offset : ℕ) (size : ℤ) (sum : U32) (p : Payload) : U32 := let pairs := (size/2).toNat
  let sum := (List.range pairs).foldl (fun sum k => sum+p.half (offset+2*k)) sum
  let sum := if size % 2 = 1 then sum+(p.buffer (offset+2*pairs)).setWidth 32 else sum
  ~~~(foldCarry (foldCarry (foldCarry sum))) &&& 0xFFFF

/-- The swapped half word that `htons` gives. -/
def htons (v : U32) : U32 := ((v &&& 0xFF) <<< 8) ||| ((v >>> 8) &&& 0xFF)

/-- The checksum of a TCP or UDP segment in an IPv4 packet. -/
def segmentChecksum (headerLen : ℕ) (protocol : U8) (p : Payload) : Payload := let seg := 14+headerLen
  let at_ := seg+if protocol = 0x06 then 16 else 6
  let p := p.setHalf at_ 0
  let size : ℤ := p.size-14-headerLen
  let sum := p.half 26+p.half 28+p.half 30+p.half 32+htons (protocol.setWidth 32)+htons (BitVec.ofInt 32 size)
  p.setHalf at_ (p.checksum seg size sum)

/-- The checksum offloading of `tx`, for frames that hold an IPv4 packet. -/
def offload (insertion : ℕ) (p : Payload) : Payload := if 14 ≤ p.size ∧ p.buffer 12 = 0x08 ∧ p.buffer 13 = 0x00 then
    let headerLen := 4*(p.buffer 14 &&& 0x0F).toNat
    let p := if 14+headerLen ≤ p.size then
        let p := p.setHalf 24 0
        p.setHalf 24 (p.checksum 14 headerLen 0)
      else p
    let protocol := p.buffer 23
    if insertion = 3 ∧ 24 ≤ p.size ∧ (protocol = 0x06 ∨ protocol = 0x11) then p.segmentChecksum headerLen protocol else p
  else p

end Payload

/-- The registers that decide where a write goes; the others do not touch the DMA. -/
inductive Register where
  | busMode | txPoll | rxPoll | rxDescListAddr | txDescListAddr | status | operationMode | interrupts | configuration
  | other
  deriving DecidableEq

def Register.ofAddress (address : U32) : Register := match address.toNat with
  | 0x1000 => .busMode
  | 0x1004 => .txPoll
  | 0x1008 => .rxPoll
  | 0x100C => .rxDescListAddr
  | 0x1010 => .txDescListAddr
  | 0x1014 => .status
  | 0x1018 => .operationMode
  | 0x101C => .interrupts
  | 0x0000 => .configuration
  | _ => .other

/-- Why `tx` does not return: the process ends on an error, or the model has run out of turns. -/
inductive TxStop where
  | exited | fuel
  deriving DecidableEq

end Dwmac

open Dwmac in
/-- The controller, its memory, the frames sent, newest last, the line `intr0`, whether its thread was woken, and the
bits acknowledged since their causes occurred. -/
structure Dwmac where
  busMode : U32 := 0
  rxDescAddr : U32 := 0
  txDescAddr : U32 := 0
  intr : InterruptRegister := .reset
  oprMode : U32 := 0
  currentTxDesc : U32 := 0
  currentRxDesc : U32 := 0
  configuration : U32 := 0
  txFrame : Payload := ⟨fun _ => 0,0⟩
  mem : U64 → U8
  sent : List (List U8) := []
  intr0 : Bool := false
  intrWake : Bool := false
  acked : U32 := 0

namespace Dwmac
/-- The bits of `DMA_STATUS` that interrupts are a cause of. -/
def causeBits (interrupts : U32) : U32 := interrupts ||| (if interrupts &&& nisMask ≠ 0 then nisBit else 0) |||
    (if interrupts &&& aisMask ≠ 0 then aisBit else 0)

variable (desc : DmaDesc) (frame : List U8) (s : Dwmac)

def descSize : ℕ := if s.busMode.getLsbD 7 then 32 else 16

def dsl : ℕ := (s.busMode.extractLsb' 2 5).toNat

def setTxState (state : TxState) (s : Dwmac) : Dwmac := { s with intr := s.intr.setTxState state }

def setRxState (state : RxState) (s : Dwmac) : Dwmac := { s with intr := s.intr.setRxState state }

def busRead (addr : U32) (n : ℕ) (s : Dwmac) : List U8 := bytesAt s.mem (addr.setWidth 64) n

def busWrite (addr : U32) (bytes : List U8) (s : Dwmac) : Dwmac :=
  { s with mem := writeAt s.mem (addr.setWidth 64) bytes }

def interruptsFire (interrupts : U32) (s : Dwmac) : Dwmac :=
  { s with intr := s.intr.fire interrupts, intrWake := true, acked := s.acked &&& ~~~causeBits interrupts }

def reset : Dwmac := { s with
    busMode := 0, rxDescAddr := 0, txDescAddr := 0, intr := .reset, oprMode := 0, currentTxDesc := 0
    currentRxDesc := 0, configuration := 0 }

def readTxDesc : DmaDesc := ⟨s.busRead s.currentTxDesc s.descSize⟩

def readRxDesc : DmaDesc := ⟨s.busRead s.currentRxDesc s.descSize⟩

def strideFrom (addr : U32) (s : Dwmac) : U32 := addr+BitVec.ofNat 32 (s.descSize+s.dsl*4)

/-- `move_to_next_tx_desc`: a second buffer ends the simulation. -/
def moveToNextTxDesc : Except TxStop Dwmac := if desc.txEndRing then .ok { s with currentTxDesc := s.txDescAddr }
  else if desc.txChained then .ok { s with currentTxDesc := desc.des3 }
  else if 0 < desc.buffer2Size ∨ desc.des3 ≠ 0 then .error .exited
  else .ok { s with currentTxDesc := s.strideFrom s.currentTxDesc }

/-- The buffer of a descriptor appended to the frame that is put together. -/
def loadBuffer (offset : ℕ) (desc : DmaDesc) (s : Dwmac) : Except TxStop Dwmac :=
  match s.txFrame.resize (offset+desc.buffer1Size) with
  | none => .error .exited
  | some p => .ok { s with txFrame := p.fill offset (s.busRead desc.des2 desc.buffer1Size) }

/-- The loop of `tx` over the segments of a frame, with the number of turns it may take. -/
def txSegments : ℕ → DmaDesc → Dwmac → Except TxStop (DmaDesc × Dwmac)
  | 0, _, _ => .error .fuel
  | n+1, desc, s =>
    if desc.lastSegment then .ok (desc,s)
    else
      (s.moveToNextTxDesc desc).bind fun next =>
        let next := next.busWrite s.currentTxDesc desc.disown.bytes
        if !next.readTxDesc.own then .error .exited
        else (next.loadBuffer next.txFrame.size next.readTxDesc).bind (txSegments n next.readTxDesc)

def checksummed : Payload :=
  if s.configuration.getLsbD 10 ∧ desc.checksumInsertion ≠ 0 then s.txFrame.offload desc.checksumInsertion
  else s.txFrame

def sendFrame : Dwmac := { s with txFrame := s.checksummed desc, sent := s.sent++[(s.checksummed desc).data] }

def txDone : Dwmac := (if desc.interrupt then s.interruptsFire txInt else s).setTxState .suspended

/-- The end of `tx`: the frame is sent, the last descriptor given back and left behind. -/
def txClose : Except TxStop (Bool × Dwmac) := if s.txFrame.size < 14 then .ok (false,s.setTxState .suspended)
  else
    let s := (s.sendFrame desc).setTxState .closing
    ((s.busWrite s.currentTxDesc desc.disown.bytes).moveToNextTxDesc desc.disown).bind fun s => .ok (true,s.txDone desc)

/-- `tx` after its first test: the frame at the current descriptor is put together. -/
def txFetch (n : ℕ) (s : Dwmac) : Except TxStop (Bool × Dwmac) :=
  if !s.readTxDesc.own then .ok (false,(s.setTxState .suspended).interruptsFire txBufUnavailable)
  else if !s.readTxDesc.firstSegment then .ok (false,s.setTxState .suspended)
  else
    ((s.setTxState .reading).loadBuffer 0 s.readTxDesc).bind fun loaded =>
      (txSegments n s.readTxDesc loaded).bind fun (desc,s) => s.txClose desc

def tx (n : ℕ) (s : Dwmac) : Except TxStop (Bool × Dwmac) :=
  if s.intr.getTxState ≠ .suspended then .ok (false,s) else (s.setTxState .fetching).txFetch n

/-- The inner loop of `tx_thread`, with the number of calls it may make and the turns each may take. -/
def txAll : ℕ → ℕ → Dwmac → Except TxStop Dwmac
  | 0, _, _ => .error .fuel
  | k+1, n, s => (s.tx n).bind fun (again,s) => if again then txAll k n s else .ok s

def nextRxDesc : U32 :=
  if desc.rxEndRing then s.rxDescAddr else if desc.rxChained then desc.des3 else s.strideFrom s.currentRxDesc

/-- The current descriptor written back and left behind. -/
def rxGiveBack : Dwmac := { s.busWrite s.currentRxDesc desc.bytes with currentRxDesc := s.nextRxDesc desc }

def rxDone : Dwmac := (if !desc.disableIc then s.interruptsFire rxInt else s).setRxState .suspended

/-- A frame stored in the buffer of a descriptor, and the descriptor given back with its status. -/
def rxStore : Dwmac :=
  (((s.busWrite desc.des2 frame).setRxState .closing).rxGiveBack (desc.received frame.length)).rxDone
    (desc.received frame.length)

/-- `rx` after its first tests. -/
def rxFetch : Bool × Dwmac :=
  if !s.readRxDesc.own then (false,(s.setRxState .suspended).interruptsFire rxBufUnavailable)
  else if s.readRxDesc.buffer1Size < frame.length then (false,s.setRxState .transferring)
  else (true,(s.setRxState .transferring).rxStore s.readRxDesc frame)

def rx : Bool × Dwmac := if frame.length < 14 then (false,s)
  else if !s.oprMode.getLsbD 1 then (false,s)
  else if s.intr.getRxState ≠ .suspended then (false,s)
  else (s.setRxState .fetching).rxFetch frame

def payloadRecv : Dwmac := if s.intr.getRxState ≠ .stopped then (s.rx frame).2 else s

/-- One turn of `intr_thread`. -/
def intrThread : Dwmac := if s.intrWake then { s with intr0 := s.intr.hasInterrupts, intrWake := false } else s

def writeRegister (reg : Register) (data : U32) (s : Dwmac) : Dwmac := match reg with
  | .busMode => if data.getLsbD 0 then reset { s with busMode := data } else { s with busMode := data }
  | .txPoll =>
    if !s.readTxDesc.own then
      { s with intr := { s.intr with dmaRegStatus := { s.intr.dmaRegStatus with tu := true } } }.setTxState .suspended
    else s.setTxState .suspended
  | .rxPoll =>
    if !s.readRxDesc.own then
      { s with intr := { s.intr with dmaRegStatus := { s.intr.dmaRegStatus with ru := false } } }.setRxState .suspended
    else s.setRxState .suspended
  | .rxDescListAddr =>
    if s.intr.getRxState ≠ .stopped then s else { s with rxDescAddr := data, currentRxDesc := data }
  | .txDescListAddr =>
    if s.intr.getTxState ≠ .stopped then s else { s with txDescAddr := data, currentTxDesc := data }
  | .status =>
    { s with intr := s.intr.setStatus data, intrWake := true, acked := s.acked ||| (data &&& (isMask ||| isBits)) }
  | .operationMode =>
    let s := { s with oprMode := data &&& ~~~(1#32 <<< 20) }
    let s := if s.oprMode.getLsbD 1 ∧ s.intr.getRxState = .stopped then s.setRxState .suspended else s
    if s.oprMode.getLsbD 13 ∧ s.intr.getTxState = .stopped then s.setTxState .suspended else s
  | .interrupts => { s with intr := s.intr.setInterrupts data, intrWake := true }
  | .configuration => { s with configuration := data }
  | .other => s

def writeWord (address data : U32) (s : Dwmac) : Dwmac :=
  if address &&& 3 ≠ 0 then s else s.writeRegister (.ofAddress address) data

/-- `read_word` of the DMA registers; the others hold nothing that is modelled. -/
def readWord (address : U32) (s : Dwmac) : U32 × Dwmac := if address &&& 3 ≠ 0 then (0,s)
  else match Register.ofAddress address with
    | .busMode => (s.busMode,s)
    | .rxDescListAddr => (s.rxDescAddr,s)
    | .txDescListAddr => (s.txDescAddr,s)
    | .status => (s.intr.status.1,{ s with intr := s.intr.status.2 })
    | .operationMode => (s.oprMode,s)
    | .interrupts => (s.intr.regmask,s)
    | .configuration => (s.configuration,s)
    | .txPoll | .rxPoll | .other => (0,s)

/-- What happens to the controller. A transmission is one call of `tx`, with its turns. -/
inductive Action where
  | write (address data : U32)
  | read (address : U32)
  | recv (frame : List U8)
  | transmit (n : ℕ)
  | serve
  /-- The host changes the memory. -/
  | memory (mem : U64 → U8)

/-- One action; a call that ends the simulation changes nothing here. -/
def step : Action → Dwmac
  | .write address data => s.writeWord address data
  | .read address => (s.readWord address).2
  | .recv frame => s.payloadRecv frame
  | .transmit n => match s.tx n with
    | .ok (_,s') => s'
    | .error _ => s
  | .serve => s.intrThread
  | .memory mem => { s with mem := mem }

lemma readWord_state (address : U32) (s : Dwmac) :
    (s.readWord address).2 = s ∨ (s.readWord address).2 = { s with intr := s.intr.status.2 } := by
  rw [readWord]
  split_ifs
  · exact .inl rfl
  · split
    case h_4 => exact .inr rfl
    all_goals exact .inl rfl

lemma four_le_descSize : 4 ≤ s.descSize := by
  rw [descSize]
  split_ifs <;> omega

/-- What `tx` and `rx` are made of. -/
inductive Move where
  | txState (state : TxState)
  | rxState (state : RxState)
  | fire (interrupts : U32)
  | data (currentTxDesc currentRxDesc : U32) (txFrame : Payload) (mem : U64 → U8) (sent : List (List U8))

def move : Move → Dwmac
  | .txState state => s.setTxState state
  | .rxState state => s.setRxState state
  | .fire interrupts => s.interruptsFire interrupts
  | .data currentTxDesc currentRxDesc txFrame mem sent =>
    { s with
      currentTxDesc := currentTxDesc, currentRxDesc := currentRxDesc, txFrame := txFrame, mem := mem, sent := sent }

def Moves (P : Move → Prop) (s s' : Dwmac) : Prop := ∃ l : List Move, (∀ m ∈ l, P m) ∧ s' = l.foldl move s

def Move.OfTx : Move → Prop
  | .rxState _ => False
  | .txState _ | .fire _ | .data _ _ _ _ _ => True

namespace Moves
variable {P : Move → Prop} {s s' s'' : Dwmac}

lemma refl (s : Dwmac) : Moves P s s := ⟨[],by simp,rfl⟩

lemma single {m : Move} (hm : P m) : Moves P s (s.move m) := ⟨[m],by simpa using hm,rfl⟩

lemma trans (h1 : Moves P s s') (h2 : Moves P s' s'') : Moves P s s'' := by
  obtain ⟨l1,hl1,rfl⟩ := h1
  obtain ⟨l2,hl2,rfl⟩ := h2
  refine ⟨l1++l2,fun m hm => ?_,(List.foldl_append ..).symm⟩
  rcases List.mem_append.mp hm with h | h
  · exact hl1 m h
  · exact hl2 m h

lemma invariant {I : Dwmac → Prop} (hmo : ∀ s m, P m → I s → I (s.move m)) (h : Moves P s s') (hs : I s) : I s' := by
  obtain ⟨l,hl,rfl⟩ := h
  exact List.foldlRecOn l move hs fun s hs m hm => hmo s m (hl m hm) hs

end Moves

section
variable {s s' : Dwmac} {desc desc' : DmaDesc}

lemma moves_data (currentTxDesc : U32) (txFrame : Payload) (mem : U64 → U8) (sent : List (List U8)) (s : Dwmac) :
    Moves Move.OfTx s { s with currentTxDesc := currentTxDesc, txFrame := txFrame, mem := mem, sent := sent } :=
  .single (m := .data currentTxDesc s.currentRxDesc txFrame mem sent) trivial

lemma moveToNextTxDesc_moves (h : s.moveToNextTxDesc desc = .ok s') : Moves Move.OfTx s s' := by
  rw [moveToNextTxDesc] at h
  split_ifs at h <;> cases h <;> exact moves_data _ s.txFrame s.mem s.sent s

lemma loadBuffer_moves {offset : ℕ} (h : s.loadBuffer offset desc = .ok s') : Moves Move.OfTx s s' := by
  rw [loadBuffer] at h
  split at h <;> cases h
  exact moves_data s.currentTxDesc _ s.mem s.sent s

lemma bind_eq_ok {α β : Type} {x : Except TxStop α} {f : α → Except TxStop β} {b : β} (h : x.bind f = .ok b) :
    ∃ a, x = .ok a ∧ f a = .ok b := by
  cases x with
  | error e => cases h
  | ok a => exact ⟨a,rfl,h⟩

lemma txSegments_moves {n : ℕ} (h : txSegments n desc s = .ok (desc',s')) : Moves Move.OfTx s s' := by
  induction n generalizing desc s with
  | zero => cases h
  | succ n ih =>
    rw [txSegments] at h
    split_ifs at h with hla
    · cases h
      exact .refl _
    · obtain ⟨next,hn,h⟩ := bind_eq_ok h
      dsimp only at h
      split_ifs at h
      obtain ⟨loaded,hl,h⟩ := bind_eq_ok h
      refine (moveToNextTxDesc_moves hn).trans (.trans ?_ ((loadBuffer_moves hl).trans (ih h)))
      exact moves_data next.currentTxDesc next.txFrame _ next.sent next

lemma txDone_moves (desc : DmaDesc) (s : Dwmac) : Moves Move.OfTx s (s.txDone desc) := by
  refine Moves.trans ?_ (.single (m := .txState .suspended) trivial)
  split_ifs
  · exact .single (m := .fire txInt) trivial
  · exact .refl s

lemma txClose_moves {b : Bool} (h : s.txClose desc = .ok (b,s')) : Moves Move.OfTx s s' := by
  rw [txClose] at h
  split_ifs at h with hsi
  · cases h
    exact .single (m := .txState .suspended) trivial
  · obtain ⟨next,hn,h⟩ := bind_eq_ok h
    cases h
    have hs : Moves Move.OfTx s (s.sendFrame desc) := moves_data s.currentTxDesc _ s.mem _ s
    have hc : Moves Move.OfTx (s.sendFrame desc) ((s.sendFrame desc).setTxState .closing) :=
      .single (m := .txState .closing) trivial
    refine (hs.trans hc).trans (.trans ?_ ((moveToNextTxDesc_moves hn).trans (txDone_moves desc next)))
    exact moves_data _ _ _ _ _

lemma txFetch_moves {n : ℕ} {b : Bool} (h : s.txFetch n = .ok (b,s')) : Moves Move.OfTx s s' := by
  rw [txFetch] at h
  split_ifs at h
  · cases h
    exact .trans (.single (m := .txState .suspended) trivial) (.single (m := .fire txBufUnavailable) trivial)
  · cases h
    exact .single (m := .txState .suspended) trivial
  · obtain ⟨loaded,hl,h⟩ := bind_eq_ok h
    obtain ⟨⟨last,s2⟩,hs,h⟩ := bind_eq_ok h
    refine .trans (.single (m := .txState .reading) trivial) ?_
    exact (loadBuffer_moves hl).trans ((txSegments_moves hs).trans (txClose_moves h))

lemma tx_moves {n : ℕ} {b : Bool} (h : s.tx n = .ok (b,s')) : Moves Move.OfTx s s' := by
  rw [tx] at h
  split_ifs at h
  · cases h
    exact .refl _
  · exact .trans (.single (m := .txState .fetching) trivial) (txFetch_moves h)

lemma step_transmit_moves (n : ℕ) (s : Dwmac) : Moves Move.OfTx s (s.step (.transmit n)) := by
  rw [step]
  split
  · next h => exact tx_moves h
  · exact .refl s

end

section
variable {s : Dwmac}

lemma rxDone_moves (desc : DmaDesc) (s : Dwmac) : Moves (fun _ => True) s (s.rxDone desc) := by
  refine Moves.trans ?_ (.single (m := .rxState .suspended) trivial)
  split_ifs
  · exact .single (m := .fire rxInt) trivial
  · exact .refl s

lemma rxStore_moves (desc : DmaDesc) (frame : List U8) (s : Dwmac) :
    Moves (fun _ => True) s (s.rxStore desc frame) := by
  have hd : ∀ (s : Dwmac) currentRxDesc mem,
      Moves (fun _ => True) s { s with currentRxDesc := currentRxDesc, mem := mem } := fun s currentRxDesc mem =>
    .single (m := .data s.currentTxDesc currentRxDesc s.txFrame mem s.sent) trivial
  have hb : Moves (fun _ => True) s (s.busWrite desc.des2 frame) := hd s s.currentRxDesc _
  have hba : ∀ (s : Dwmac) desc, Moves (fun _ => True) s (s.rxGiveBack desc) := fun s desc => hd s _ _
  exact hb.trans (.trans (.single (m := .rxState .closing) trivial) ((hba _ _).trans (rxDone_moves _ _)))

lemma rx_moves (frame : List U8) (s : Dwmac) : Moves (fun _ => True) s (s.rx frame).2 := by
  have hs : ∀ (s : Dwmac) state, Moves (fun _ => True) s (s.setRxState state) := fun s state =>
    .single (m := .rxState state) trivial
  rw [rx]
  split_ifs
  · exact .refl s
  · exact .refl s
  · exact .refl s
  · refine (hs s .fetching).trans ?_
    rw [rxFetch]
    split_ifs
    · exact (hs _ .suspended).trans (.single (m := .fire rxBufUnavailable) trivial)
    · exact hs _ .transferring
    · exact (hs _ .transferring).trans (rxStore_moves _ frame _)

end

end Dwmac
end Qbox
