import Qbox.PageTables

/-! Records of the SMMUv3 model: decoded stream-table entries and context
descriptors, walk contexts, translation results and IOTLB keys. A field extracted
from a descriptor has the width of its bit field. -/
namespace Qbox.Smmuv3
def accessOf : TlmCommand → IOMMUAccessFlags
  | .write => .wo
  | _ => .ro

/-- `smmuv3_ats_extension`, the fields the master fills in. -/
structure AtsExtension where
  isTranslationRequest : Bool
  isTranslated : Bool
  prgIndex : U32
  deriving DecidableEq

structure Txn where
  address : U64
  command : TlmCommand
  /-- `substream_id` and `ssv`. -/
  ss : Option (U32 × Bool) := none
  secure : Option Bool := none
  ats : Option AtsExtension := none
  deriving DecidableEq

structure IOMMUTLBEntry where
  iova : U64
  translatedAddr : U64
  addrMask : U64
  perm : IOMMUAccessFlags
  descriptor : U64
  tableAttrs : U32
  faultType : U32
  faultLevel : U32
  stallableFault : Bool
  deriving DecidableEq

structure STE where
  valid : Bool := false
  config : BitVec 3 := 0
  s1contextptr : U64 := 0
  s2ttb : U64 := 0
  s2t0sz : BitVec 6 := 0
  s2sl0 : BitVec 2 := 0
  s2tg : BitVec 2 := 0
  s2ps : BitVec 3 := 0
  s1fmt : BitVec 2 := 0
  s1stalld : Bool := false
  s1cdmax : BitVec 5 := 0
  vmid : U16 := 0
  s2affd : Bool := false
  s2hd : Bool := false
  eats : Bool := false
  strw : BitVec 2 := 0
  deriving DecidableEq

structure CD where
  valid : Bool := false
  aarch64 : Bool := false
  ttb0 : U64 := 0
  ttb1 : U64 := 0
  tsz0 : BitVec 6 := 0
  tsz1 : BitVec 6 := 0
  tg0 : BitVec 2 := 0
  tg1 : BitVec 2 := 0
  ips : BitVec 3 := 0
  asid : U16 := 0
  epd0 : Bool := false
  epd1 : Bool := false
  affd : Bool := false
  ha : Bool := false
  hd : Bool := false
  deriving DecidableEq

structure PtwCtx where
  ttb0 : U64
  ttb1 : U64 := 0
  tsz0 : BitVec 6
  tsz1 : BitVec 6 := 0
  tg0 : BitVec 2
  tg1 : BitVec 2 := 0
  ips : BitVec 3
  sl0 : BitVec 2 := 0
  epd0 : Bool
  epd1 : Bool := false
  stage : Stage
  iova : U64
  access : IOMMUAccessFlags
  s2Enabled : Bool
  /-- The pointer back to the stream-table entry; null for stage 1 alone. -/
  ste : Option STE
  affd : Bool
  ha : Bool
  hd : Bool
  deriving DecidableEq

structure TransReq where
  iova : U64
  access : IOMMUAccessFlags
  sid : U32 := 0
  substreamId : U32 := 0
  ste : STE := {}
  cd : CD := {}
  pa : U64 := 0
  prot : IOMMUAccessFlags := .none
  /-- The exponent of the page size. -/
  pageSize : ℕ := 0
  err : Bool := false
  eventType : U32 := 0
  tableattrs : U32 := 0
  faultLevel : ℕ := 0
  descriptor : U64 := 0
  leafDescAddr : U64 := 0
  deriving DecidableEq

structure IOTLBKey where
  vmid : U16
  asid : U16
  iova : U64
  tg : U8
  level : U8
  secure : Bool
  regime : U8
  deriving DecidableEq

structure IOTLBTags where
  vmid : U16
  asid : U16
  tg : U8
  secure : Bool
  regime : U8
  deriving DecidableEq

def IOTLBTags.key (t : IOTLBTags) (iova : U64) : IOTLBKey := ⟨t.vmid,t.asid,iova,t.tg,3,t.secure,t.regime⟩

lemma IOTLBTags.key_inj {t t' : IOTLBTags} {iova iova' : U64} (h : t.key iova = t'.key iova') :
    t = t' ∧ iova = iova' := by
  cases t
  cases t'
  simp only [key,IOTLBKey.mk.injEq] at h
  grind

/-- A granted DMI region: the input addresses, the physical ones, and the translation's tags, if any. -/
structure DmiGrant where
  start : U64
  endAddr : U64
  paStart : U64
  paEnd : U64
  tags : Option IOTLBTags
  deriving DecidableEq

/-- What the master of a front end sees of its DMI regions. -/
inductive UpstreamEvent where
  | granted (g : DmiGrant)
  | invalidated (start endAddr : U64)
  deriving DecidableEq

/-- A front end with the DMI events it has shown its master, newest first. -/
structure Tbu where
  topologyId : U32
  /-- Whether the upstream socket is bound. -/
  bound : Bool := true
  events : List UpstreamEvent := []
  deriving DecidableEq

def evtFSteFetch : U32 := 0x03
def evtCBadSte : U32 := 0x04
def evtCBadSubstreamid : U32 := 0x08
def evtFCdFetch : U32 := 0x09
def evtFWalkEabt : U32 := 0x0B
def evtFTranslation : U32 := 0x10
def evtFAddrSize : U32 := 0x11
def evtFAccess : U32 := 0x12
def evtFPermission : U32 := 0x13

end Qbox.Smmuv3
