import Qbox.Smmuv3Translate

/-! The front end `smmuv3_tbu`: the bus path, DMI requests, and DMI invalidation in
both directions. -/
namespace Qbox.Smmuv3
open MachineWord DmaSocket

variable {M : Type} [DmaSocket M] (topologyId : U32) (txn : Txn)

def extractSubstreamId : U32 := match txn.ss with
  | some (id,true) => id
  | _ => 0

def extractSecure : Bool := txn.secure = some true

variable (te : IOMMUTLBEntry) (s : Smmuv3 M)

def tbuTranslate : IOMMUTLBEntry × Smmuv3 M :=
  smmuv3Translate txn topologyId (extractSubstreamId txn) (extractSecure txn) s

def refuses (perm : IOMMUAccessFlags) (command : TlmCommand) : Bool :=
  perm = .none || (command = .write && perm = .ro) || (command = .read && perm = .wo)

structure AtsReply where
  faulted : Bool
  faultType : U8
  pa : U64
  granuleLog2 : U8
  prot : BitVec 2
  deriving DecidableEq

/-- The loop that counts the halvings of the page size. -/
def halvings : ℕ → U64 → U8 → U8
  | 0, _, g => g
  | n+1, m, g => if 1 < m then halvings n (m >>> 1) (g+1) else g

inductive TransportOutcome where
  /-- Sent on to an address, with the descriptor and table attributes for the memory attributes. -/
  | forwarded (addr descriptor : U64) (tableAttrs : U32)
  /-- Sent on unchanged. -/
  | passed (addr : U64)
  | atsReply (r : AtsReply)
  | addressError
  /-- Parked under a stall tag. -/
  | stalled (stag : U32)
  deriving DecidableEq

/-- `stall_and_wait` up to the wait. -/
def stallAndWait (sid substreamId : U32) (iova : U64) (faultType faultLevel cls : U32) (command : TlmCommand)
    (s : Smmuv3 M) : U32 × Smmuv3 M :=
  let stag := s.nextStag
  let s := { s with nextStag := stag+1, stalledTxns := s.stalledTxns.insert stag ⟨sid,substreamId,false,false⟩ }
  (stag,s.mapCore (Core.recordEventFull faultType sid substreamId iova command cls faultLevel stag true))

def atsAnswer (ats : AtsExtension) (te : IOMMUTLBEntry) (s : Smmuv3 M) : AtsReply × Smmuv3 M :=
  if te.perm = .none then
    let flags : U32 := (if txn.command = .write then 2 else 0) ||| (ats.prgIndex <<< 16)
    let s := if s.regs.priqen && s.regs.pri then s.mapCore (Core.recordPri topologyId txn.address flags) else s
    (⟨true,te.faultType.setWidth 8,0,0,0⟩,s)
  else
    (⟨false,0,te.translatedAddr ||| (txn.address &&& te.addrMask),halvings 64 (te.addrMask+1) 0,te.perm.bits⟩,s)

/-- The address a transaction goes on with. -/
def busAddress (addr : U64) : U64 := te.translatedAddr ||| (addr &&& lowMask 12)

/-- `b_transport` from a translation on. A stallable fault parks the transaction. -/
def transportAfter : TransportOutcome × Smmuv3 M := if te.stallableFault then
    let (stag,s) := stallAndWait topologyId (extractSubstreamId txn) txn.address te.faultType te.faultLevel 0
      txn.command s
    (.stalled stag,s)
  else match txn.ats with
    | some ⟨true,_,prg⟩ =>
      let (r,s) := atsAnswer topologyId txn ⟨true,false,prg⟩ te s
      (.atsReply r,s)
    | _ =>
      if refuses te.perm txn.command then (.addressError,s)
      else (.forwarded (busAddress te txn.address) te.descriptor te.tableAttrs,s)

def bTransport : TransportOutcome × Smmuv3 M := match txn.ats with
  | some ⟨_,true,_⟩ => (.passed txn.address,s)
  | _ =>
    let (te,s) := tbuTranslate topologyId txn s
    transportAfter topologyId txn te s

/-- A transaction is sent on to a translated address only with the rights for it. -/
lemma bTransport_forwarded {topologyId : U32} {txn : Txn} {s : Smmuv3 M} {addr desc : U64} {attrs : U32}
    (h : (bTransport topologyId txn s).1 = .forwarded addr desc attrs) :
    refuses (tbuTranslate topologyId txn s).1.perm txn.command = false ∧
      addr = busAddress (tbuTranslate topologyId txn s).1 txn.address := by
  unfold bTransport at h
  split at h
  · cases h
  · simp only [transportAfter] at h
    split_ifs at h with hs hr
    · split at h <;> cases h
    · split at h
      · cases h
      · simp only [TransportOutcome.forwarded.injEq] at h
        exact ⟨Bool.eq_false_iff.mpr hr,h.1.symm⟩

lemma bTransport_plain {topologyId : U32} {txn : Txn} {s : Smmuv3 M} (ha : txn.ats = none)
    (hs : (tbuTranslate topologyId txn s).1.stallableFault = false)
    (hok : refuses (tbuTranslate topologyId txn s).1.perm txn.command = false) :
    (bTransport topologyId txn s).1 = .forwarded (busAddress (tbuTranslate topologyId txn s).1 txn.address)
      (tbuTranslate topologyId txn s).1.descriptor (tbuTranslate topologyId txn s).1.tableAttrs := by
  simp [bTransport,transportAfter,ha,hs,hok]

structure DmiReply where
  ok : Bool
  dmi : TlmDmi
  deriving DecidableEq

/-- The answer when the translation refuses the request. -/
def deniedDmi (iova : U64) (dmi : TlmDmi) : DmiReply := ⟨false,{ dmi with start := iova, endAddr := iova, access := .none }⟩

/-- The part of a downstream region inside the translated page, moved to input
addresses. -/
def clampDmi (iova : U64) (dmi : TlmDmi) : DmiReply := let paPageStart := te.translatedAddr
  let paPageEnd := te.translatedAddr ||| te.addrMask
  let clampPaStart := if dmi.start < paPageStart then paPageStart else dmi.start
  let clampPaEnd := if paPageEnd < dmi.endAddr then paPageEnd else dmi.endAddr
  if clampPaEnd < clampPaStart then ⟨false,dmi⟩
  else
    let iovaPageStart := iova &&& ~~~te.addrMask
    ⟨true,{
      start := iovaPageStart+(clampPaStart-paPageStart)
      endAddr := iovaPageStart+(clampPaEnd-paPageStart)
      ptr := dmi.ptr+(clampPaStart-dmi.start)
      access := if te.perm = .ro then .ro else if te.perm = .wo then .wo else dmi.access }⟩

def dmiAddress (iova : U64) : U64 := te.translatedAddr ||| (iova &&& te.addrMask)

/-- `get_direct_mem_ptr` from a translation on; `dmi` is the caller's record. -/
def dmiAfter (downstream : U64 → TlmCommand → DmiReply) (txn : Txn) (dmi : TlmDmi) (te : IOMMUTLBEntry) : DmiReply :=
  if refuses te.perm txn.command then deniedDmi txn.address dmi
  else
    let reply := downstream (dmiAddress te txn.address) txn.command
    if reply.ok then clampDmi te txn.address reply.dmi else reply

def getDirectMemPtr (downstream : U64 → TlmCommand → DmiReply) (topologyId : U32) (txn : Txn) (dmi : TlmDmi)
    (s : Smmuv3 M) : DmiReply × Smmuv3 M :=
  let (te,s) := tbuTranslate topologyId txn s
  (dmiAfter downstream txn dmi te,s)

/-- The ranges a downstream invalidation passes upstream, one for each IOTLB entry
that meets it. -/
def invalidatedRanges (start endAddr : U64) (iotlb : EvictingMap IOTLBKey IOMMUTLBEntry) : List (U64 × U64) :=
  iotlb.entries.filterMap fun e =>
    if endAddr < e.2.translatedAddr ∨ e.2.translatedAddr ||| e.2.addrMask < start then none
    else some (e.2.iova,e.2.iova ||| e.2.addrMask)

def Tbu.show (t : Tbu) (e : UpstreamEvent) : Tbu := { t with events := e :: t.events }

def Tbu.upstreamInvalidate (start endAddr : U64) (t : Tbu) : Tbu :=
  if t.bound then t.show (.invalidated start endAddr) else t

def Tbu.invalidateDirectMemPtr (start endAddr : U64) (iotlb : EvictingMap IOTLBKey IOMMUTLBEntry) (t : Tbu) : Tbu :=
  (invalidatedRanges start endAddr iotlb).foldl (fun t r => t.show (.invalidated r.1 r.2)) t

end Qbox.Smmuv3
