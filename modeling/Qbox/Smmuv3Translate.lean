import Qbox.EvictingMap
import Qbox.Smmuv3Walk
import Qbox.Smmuv3Events

/-! Translation: the stream-table and context-descriptor lookups with their caches,
the IOTLB, and `smmuv3_translate` over them. -/
namespace Qbox
open MachineWord DmaSocket

/-- A parked transaction; `resumed` is its event having been notified. -/
structure Smmuv3.StalledTxn where
  sid : U32
  substreamId : U32
  aborted : Bool
  resumed : Bool
  deriving DecidableEq

/-- The part of the SMMU that finds the configuration of a stream. -/
structure Smmuv3.Streams (M : Type) where
  core : Smmuv3.Core M
  steCache : EvictingMap U32 Smmuv3.STE := .empty
  cdCache : EvictingMap U64 Smmuv3.CD := .empty

structure Smmuv3 (M : Type) where
  pamax : ℕ
  iotlbSize : ℕ
  streams : Smmuv3.Streams M
  iotlb : EvictingMap Smmuv3.IOTLBKey Smmuv3.IOMMUTLBEntry := .empty
  stalledTxns : AList (fun _ : U32 => Smmuv3.StalledTxn) := ∅
  nextStag : U32 := 1
  tbus : List Smmuv3.Tbu := []

namespace Smmuv3
variable {M : Type} [DmaSocket M]

def Streams.setBus (bus : M) (s : Streams M) : Streams M := { s with core := { s.core with bus := bus } }

def Streams.mapCore (f : Core M → Core M) (s : Streams M) : Streams M := { s with core := f s.core }

def regs (s : Smmuv3 M) : Regs := s.streams.core.regs

def bus (s : Smmuv3 M) : M := s.streams.core.bus

def setBus (bus : M) (s : Smmuv3 M) : Smmuv3 M := { s with streams := s.streams.setBus bus }

def mapCore (f : Core M → Core M) (s : Smmuv3 M) : Smmuv3 M := { s with streams := s.streams.mapCore f }

def steCacheMax : ℕ := 1024
def cdCacheMax : ℕ := 1024

/-- Fields of a stream-table entry from its first four words. -/
def decodeSte (dw0 dw1 dw2 dw3 : U64) : STE where
  valid := dw0.getLsbD 0
  config := (extract64 dw0 1 3).setWidth 3
  s1fmt := (extract64 dw0 4 2).setWidth 2
  s1contextptr := dw0 &&& 0x000FFFFFFFFFFFC0
  s1cdmax := (extract64 dw0 59 5).setWidth 5
  s1stalld := decide (extract64 dw1 27 1 ≠ 0)
  eats := decide (extract64 dw1 28 2 ≠ 0)
  strw := (extract64 dw1 30 2).setWidth 2
  vmid := (extract64 dw2 0 16).setWidth 16
  s2t0sz := (extract64 dw2 32 6).setWidth 6
  s2sl0 := (extract64 dw2 38 2).setWidth 2
  s2tg := (extract64 dw2 46 2).setWidth 2
  s2ps := (extract64 dw2 48 3).setWidth 3
  s2hd := decide (extract64 dw2 56 1 ≠ 0)
  s2affd := decide (extract64 dw2 60 1 ≠ 0)
  s2ttb := dw3 &&& 0x000FFFFFFFFFFFF0

def dword (bytes : List U8) (i : ℕ) : U64 := loadLe 64 ((bytes.drop (8*i)).take 8)

def word (bytes : List U8) (i : ℕ) : U32 := loadLe 32 ((bytes.drop (4*i)).take 4)

/-- Where the lookup finds an entry: out of range, an invalid or failed first level, or an address. -/
inductive Located where
  | missing | aborted | at (addr : U64)

def strtabBase (r : Regs) : U64 :=
  ((r.strtabBaseHi.setWidth 64 <<< 32) ||| r.strtabBaseLo.setWidth 64) &&& 0x000FFFFFFFFFFFC0

def locateSte (sid : U32) (r : Regs) (bus : M) : Located × M := let fmt := extract32 r.strtabBaseCfg 16 2
  let log2size := min (extract32 r.strtabBaseCfg 0 6).toNat 31
  if fmt = 0 then
    if 1#32 <<< log2size ≤ sid then (.missing,bus)
    else (.at (strtabBase r+sid.setWidth 64*64),bus)
  else
    let split := (extract32 r.strtabBaseCfg 6 5).toNat
    let l1Idx := sid >>> split
    let l2Idx := sid &&& lowMask split
    if 1#32 <<< log2size ≤ l1Idx then (.missing,bus)
    else match dmaRead64 (strtabBase r+l1Idx.setWidth 64*8) bus with
      | (none,bus) => (.aborted,bus)
      | (some l1std,bus) =>
        if l1std.getLsbD 0 then (.at ((l1std &&& ~~~lowMask 6)+l2Idx.setWidth 64*64),bus)
        else (.missing,bus)

/-- `find_ste`: the entry when it is valid. An entry that was read is cached, valid or
not. -/
def findSte (sid : U32) (s : Streams M) : Option STE × Streams M := match s.steCache.find sid with
  | some ste => (if ste.valid then some ste else none,s)
  | none =>
    match locateSte sid s.core.regs s.core.bus with
    | (.missing,bus) => (none,s.setBus bus)
    | (.aborted,bus) => (none,(s.setBus bus).mapCore (Core.setGerror Core.gerrorBitSfmErr))
    | (.at addr,bus) =>
      match dmaRead addr 64 bus with
      | (none,bus) => (none,(s.setBus bus).mapCore (Core.setGerror Core.gerrorBitSfmErr))
      | (some bytes,bus) =>
        let ste := decodeSte (dword bytes 0) (dword bytes 1) (dword bytes 2) (dword bytes 3)
        (if ste.valid then some ste else none, { s.setBus bus with steCache := s.steCache.put steCacheMax sid ste })

/-- Fields of a context descriptor from its first six words. -/
def decodeCd (w0 w1 w2 w3 w4 w5 : U32) : CD where
  valid := bit32 w0 31
  aarch64 := bit32 w1 9
  tsz0 := (extract32 w0 0 6).setWidth 6
  tg0 := (extract32 w0 6 2).setWidth 2
  epd0 := bit32 w0 14
  tsz1 := (extract32 w0 16 6).setWidth 6
  tg1 := (extract32 w0 22 2).setWidth 2
  epd1 := bit32 w0 30
  ips := (extract32 w1 0 3).setWidth 3
  asid := (extract32 w1 16 16).setWidth 16
  affd := bit32 w1 3
  ha := bit32 w1 11
  hd := bit32 w1 10
  ttb0 := ((w3 &&& 0xFFFFF).setWidth 64 <<< 32) ||| (w2 &&& 0xFFFFFFF0).setWidth 64
  ttb1 := ((w5 &&& 0xFFFFF).setWidth 64 <<< 32) ||| (w4 &&& 0xFFFFFFF0).setWidth 64

def locateCd (ste : STE) (substreamId : U32) (bus : M) : Located × M := if ste.s1fmt = 0 ∨ ste.s1cdmax = 0 then
    (.at (ste.s1contextptr+substreamId.setWidth 64*64),bus)
  else
    let split := if ste.s1fmt = 1 then 4 else 8
    let l1Idx : U64 := substreamId.setWidth 64 >>> split
    let l2Idx : U64 := substreamId.setWidth 64 &&& lowMask split
    match dmaRead64 (ste.s1contextptr+l1Idx*8) bus with
    | (none,bus) => (.aborted,bus)
    | (some l1cd,bus) =>
      if l1cd.getLsbD 0 then (.at ((l1cd &&& ~~~0xFFF)+l2Idx*64),bus) else (.missing,bus)

def cdKey (sid substreamId : U32) : U64 := (sid.setWidth 64 <<< 32) ||| substreamId.setWidth 64

def readCd (sid : U32) (ste : STE) (substreamId : U32) (s : Streams M) : Option CD × Streams M :=
  match s.cdCache.find (cdKey sid substreamId) with
  | some cd => (if cd.valid then some cd else none,s)
  | none =>
    match locateCd ste substreamId s.core.bus with
    | (.missing,bus) => (none,s.setBus bus)
    | (.aborted,bus) => (none,(s.setBus bus).mapCore (Core.setGerror Core.gerrorBitSfmErr))
    | (.at addr,bus) =>
      match dmaRead addr 64 bus with
      | (none,bus) => (none,(s.setBus bus).mapCore (Core.setGerror Core.gerrorBitSfmErr))
      | (some bytes,bus) =>
        let cd := decodeCd (word bytes 0) (word bytes 1) (word bytes 2) (word bytes 3) (word bytes 4)
          (word bytes 5)
        (if cd.valid then some cd else none,
          { s.setBus bus with cdCache := s.cdCache.put cdCacheMax (cdKey sid substreamId) cd })

variable (pamax : ℕ) (iova : U64)

/-- The answer before any step of a translation has changed it. -/
def identityEntry : IOMMUTLBEntry where
  iova := iova
  translatedAddr := iova
  addrMask := lowMask 12
  perm := .rw
  descriptor := 0
  tableAttrs := 0
  faultType := 0
  faultLevel := 0
  stallableFault := false

def bypassEntry : IOMMUTLBEntry := { identityEntry iova with addrMask := -1 }

def faultEntry (faultType : U32) : IOMMUTLBEntry := { identityEntry iova with perm := .none, faultType := faultType }

def computeIotlbRegime (strw : BitVec 2) (e2h isSecure : Bool) : U8 := if isSecure then 3
  else if strw = 2 then (if e2h then 2 else 1)
  else 0

inductive Config where
  | s1 | s2 | nested
  deriving DecidableEq

/-- The tables of a stream. -/
structure Tables where
  config : Config
  ste : STE
  cd : CD
  deriving DecidableEq

/-- What the configuration says about a stream: an answer without a walk, or the tables. -/
inductive Resolved where
  | answer (e : IOMMUTLBEntry)
  | tables (t : Tables)
  deriving DecidableEq

def classCd : U32 := 2
def classIn : U32 := 1
def classTt : U32 := 0

def reject (txn : Txn) (sid substreamId : U32) (type cls : U32) (s : Streams M) : Resolved × Streams M :=
  (.answer (faultEntry txn.address type),
    s.mapCore (Core.recordEventFull type sid substreamId txn.address txn.command cls 0 0 false))

/-- The part of `smmuv3_translate` up to the table lookups. -/
def resolve (txn : Txn) (sid substreamId : U32) (s : Streams M) : Resolved × Streams M :=
  if !s.core.regs.smmuen then (.answer (bypassEntry txn.address),s)
  else match findSte sid s with
    | (none,s) =>
      if s.core.regs.gbpaAbort then reject txn sid substreamId evtFSteFetch 0 s
      else (.answer (bypassEntry txn.address),s)
    | (some ste,s) =>
      if 0 < ste.s1cdmax ∧ 1#32 <<< ste.s1cdmax.toNat ≤ substreamId then
        reject txn sid substreamId evtCBadSubstreamid 0 s
      else match ste.config.toNat with
        | 4 => (.answer (bypassEntry txn.address),s)
        | 5 =>
          match readCd sid ste substreamId s with
          | (none,s) => reject txn sid substreamId evtFCdFetch classCd s
          | (some cd,s) => (.tables ⟨.s1,ste,cd⟩,s)
        | 6 => (.tables ⟨.s2,ste,{}⟩,s)
        | 7 =>
          match readCd sid ste substreamId s with
          | (none,s) => reject txn sid substreamId evtFCdFetch classCd s
          | (some cd,s) => (.tables ⟨.nested,ste,cd⟩,s)
        | _ => reject txn sid substreamId evtCBadSte 0 s

section
variable {P : Streams M → Prop} {s : Streams M} (h : P s) (hbus : ∀ bus, P (s.setBus bus))
  (herr : ∀ bus, P ((s.setBus bus).mapCore (Core.setGerror Core.gerrorBitSfmErr)))

include h hbus herr

lemma findSte_inv {sid : U32} (hp : ∀ bus ste, P { s.setBus bus with steCache := s.steCache.put steCacheMax sid ste }) :
    P (findSte sid s).2 := by
  rw [findSte]
  split
  · exact h
  · split
    · exact hbus _
    · exact herr _
    · split
      · exact herr _
      · exact hp _ _

lemma readCd_inv {sid ssid : U32} {ste : STE}
    (hp : ∀ bus cd, P { s.setBus bus with cdCache := s.cdCache.put cdCacheMax (cdKey sid ssid) cd }) :
    P (readCd sid ste ssid s).2 := by
  rw [readCd]
  split
  · exact h
  · split
    · exact hbus _
    · exact herr _
    · split
      · exact herr _
      · exact hp _ _

omit hbus herr in
/-- What the lookups of the descriptors and the records of a rejection keep, `resolve` keeps. -/
lemma resolve_inv {txn : Txn} {sid ssid : U32} (hs : P (findSte sid s).2)
    (hcd : ∀ {ste s1}, findSte sid s = (some ste,s1) → P (readCd sid ste ssid s1).2)
    (hre : ∀ {s} type cls, P s → P (reject txn sid ssid type cls s).2) : P (resolve txn sid ssid s).2 := by
  rw [resolve]
  split_ifs
  · exact h
  · rcases hf : findSte sid s with ⟨_ | ste,s1⟩
    · rw [hf] at hs
      dsimp only
      split_ifs
      · exact hre _ _ hs
      · exact hs
    · have hrd := hcd hf
      rw [hf] at hs
      dsimp only
      split_ifs
      · exact hre _ _ hs
      · split
        · exact hs
        · rcases hr : readCd sid ste ssid s1 with ⟨_ | cd,s2⟩
          · rw [hr] at hrd
            exact hre _ _ hrd
          · rwa [hr] at hrd
        · exact hs
        · rcases hr : readCd sid ste ssid s1 with ⟨_ | cd,s2⟩
          · rw [hr] at hrd
            exact hre _ _ hrd
          · rwa [hr] at hrd
        · exact hre _ _ hs

end

/-- The context of a stage-1 walk; the nested one sends its own fetches through
stage 2. -/
def stage1Ctx (ste : STE) (cd : CD) (nested : Bool) (iova : U64) (access : IOMMUAccessFlags) : PtwCtx where
  ttb0 := cd.ttb0
  ttb1 := cd.ttb1
  tsz0 := cd.tsz0
  tsz1 := cd.tsz1
  tg0 := cd.tg0
  tg1 := cd.tg1
  ips := cd.ips
  epd0 := cd.epd0
  epd1 := cd.epd1
  stage := .one
  iova := iova
  access := access
  s2Enabled := nested
  ste := if nested then some ste else none
  affd := cd.affd
  ha := cd.ha
  hd := cd.hd

/-- The walks of a request. A nested second walk starts from the first one's output and overwrites its result. -/
def walkTables (config : Config) (req : TransReq) (bus : M) : TransReq × M := match config with
  | .s1 =>
    let (r,bus) := smmuv3Ptw64 pamax (stage1Ctx req.ste req.cd false req.iova req.access) bus
    (req.store r,bus)
  | .s2 =>
    let (r,bus) := smmuv3Ptw64 pamax (stage2Ctx req.ste req.iova req.access) bus
    (req.store r,bus)
  | .nested =>
    let (r,bus) := smmuv3Ptw64 pamax (stage1Ctx req.ste req.cd true req.iova req.access) bus
    let req := req.store r
    if req.err then (req,bus)
    else
      let (r,bus) := smmuv3Ptw64 pamax (stage2Ctx req.ste req.pa req.access) bus
      (req.store r,bus)

def tagsOf (t : Tables) (isSecure e2h : Bool) : IOTLBTags where
  vmid := t.ste.vmid
  asid := if t.config = .s2 then 0 else t.cd.asid
  tg := if t.config = .s2 then t.ste.s2tg.setWidth 8 else t.cd.tg0.setWidth 8
  secure := isSecure
  regime := computeIotlbRegime t.ste.strw e2h isSecure

def lookupKey (t : IOTLBTags) (iova : U64) : IOTLBKey := t.key (iova &&& ~~~lowMask 12)

def iotlbLookup (key : IOTLBKey) (s : Smmuv3 M) : Option IOMMUTLBEntry := s.iotlb.find key

def iotlbInsert (key : IOTLBKey) (e : IOMMUTLBEntry) (s : Smmuv3 M) : Smmuv3 M :=
  { s with iotlb := s.iotlb.put s.iotlbSize key e }

def stallableType (type : U32) : Bool :=
  type = evtFTranslation || type = evtFPermission || type = evtFAccess || type = evtFAddrSize

/-- The answer to a faulting walk. A stallable fault is recorded when stalled, others here. -/
def faultAnswer (txn : Txn) (sid substreamId : U32) (config : Config) (req : TransReq) (s : Smmuv3 M) :
    IOMMUTLBEntry × Smmuv3 M :=
  let stallable := stallableType req.eventType && decide (config ≠ .s2) && !req.ste.s1stalld
  let level := BitVec.ofNat 32 req.faultLevel
  let ret := { faultEntry req.iova req.eventType with faultLevel := level, stallableFault := stallable }
  let cls := if config = .s2 then classIn else classTt
  if stallable then (ret,s)
  else (ret,s.mapCore
    (Core.recordEventFull req.eventType sid substreamId req.iova txn.command cls level 0 false))

def successEntry (req : TransReq) : IOMMUTLBEntry where
  iova := req.iova
  translatedAddr := req.pa
  addrMask := lowMask req.pageSize
  perm := req.prot
  descriptor := req.descriptor
  tableAttrs := req.tableattrs
  faultType := 0
  faultLevel := 0
  stallableFault := false

def initialReq (txn : Txn) (sid substreamId : U32) (t : Tables) : TransReq :=
  { iova := txn.address, access := accessOf txn.command, sid := sid, substreamId := substreamId, ste := t.ste,
    cd := t.cd }

/-- Walk, answer, and keep a successful answer in the IOTLB. -/
def walkAndCache (txn : Txn) (sid substreamId : U32) (isSecure : Bool) (t : Tables) (s : Smmuv3 M) :
    IOMMUTLBEntry × Smmuv3 M :=
  let (req,bus) := walkTables s.pamax t.config (initialReq txn sid substreamId t) s.bus
  let s := s.setBus bus
  if req.err then faultAnswer txn sid substreamId t.config req s
  else
    let ret := successEntry req
    (ret,s.iotlbInsert ((tagsOf t isSecure s.regs.e2h).key (txn.address &&& ~~~ret.addrMask)) ret)

def smmuv3Translate (txn : Txn) (sid substreamId : U32) (isSecure : Bool) (s : Smmuv3 M) : IOMMUTLBEntry × Smmuv3 M :=
  match resolve txn sid substreamId s.streams with
  | (.answer e,st) => (e,{ s with streams := st })
  | (.tables t,st) =>
    let s := { s with streams := st }
    match s.iotlbLookup (lookupKey (tagsOf t isSecure s.regs.e2h) txn.address) with
    | some e => (e,s)
    | none => walkAndCache txn sid substreamId isSecure t s

/-- A leaf with the granule of the table it stands in. -/
structure WalkedLeaf where
  granule : Granule
  leaf : PtwLeaf
  deriving DecidableEq

/-- The output address a leaf carries, aligned to the granule. -/
def WalkedLeaf.base (w : WalkedLeaf) : U64 := outputBase w.granule w.leaf.descriptor

/-- The leaves of a translation: the last, and for a nested one the stage-1 leaf before it. -/
structure Walked where
  last : WalkedLeaf
  before : Option WalkedLeaf
  deriving DecidableEq

def walkedLeaf (ctx : PtwCtx) (bus : M) : Option WalkedLeaf × M := match smmuv3Ptw64 pamax ctx bus with
  | (.ok l,bus) => (some ⟨walkGranule ctx,l⟩,bus)
  | (.error _,bus) => (none,bus)

def Tables.firstCtx (t : Tables) (iova : U64) (access : IOMMUAccessFlags) : PtwCtx := match t.config with
  | .s1 => stage1Ctx t.ste t.cd false iova access
  | .s2 => stage2Ctx t.ste iova access
  | .nested => stage1Ctx t.ste t.cd true iova access

/-- The leaves that the walks of `walkTables` find. -/
def walkLeaves (t : Tables) (iova : U64) (access : IOMMUAccessFlags) (bus : M) : Option Walked × M :=
  match walkedLeaf pamax (t.firstCtx iova access) bus with
  | (none,bus) => (none,bus)
  | (some w1,bus) =>
    if t.config = .nested then
      match walkedLeaf pamax (stage2Ctx t.ste w1.leaf.pa access) bus with
      | (none,bus) => (none,bus)
      | (some w2,bus) => (some ⟨w2,some w1⟩,bus)
    else (some ⟨w1,none⟩,bus)

lemma walkLeaves_eq_some {pamax : ℕ} {t : Tables} {iova : U64} {access : IOMMUAccessFlags} {bus bus' : M}
    {w : Walked} : walkLeaves pamax t iova access bus = (some w,bus') ↔ (t.config ≠ .nested ∧ w.before = none ∧
        walkedLeaf pamax (t.firstCtx iova access) bus = (some w.last,bus')) ∨
      (t.config = .nested ∧ ∃ w1 bus1, w.before = some w1 ∧
        walkedLeaf pamax (t.firstCtx iova access) bus = (some w1,bus1) ∧
        walkedLeaf pamax (stage2Ctx t.ste w1.leaf.pa access) bus1 = (some w.last,bus')) := by
  obtain ⟨last,before⟩ := w
  rw [walkLeaves]
  rcases walkedLeaf pamax (t.firstCtx iova access) bus with ⟨_ | w1,bus1⟩
  · simp
  · by_cases hn : t.config = .nested
    · simp only [hn,if_true,ne_eq,not_true_eq_false,false_and,false_or,true_and,Prod.mk.injEq,Option.some.injEq]
      rcases h2 : walkedLeaf pamax (stage2Ctx t.ste w1.leaf.pa access) bus1 with ⟨_ | w2,bus2⟩
      · simp only [Prod.mk.injEq,reduceCtorEq,false_and,false_iff]
        rintro ⟨w1',bus1',-,⟨rfl,rfl⟩,h⟩
        cases h2.symm.trans h
      · simp only [Prod.mk.injEq,Option.some.injEq,Walked.mk.injEq]
        constructor
        · rintro ⟨⟨rfl,rfl⟩,rfl⟩
          exact ⟨w1,bus1,rfl,⟨rfl,rfl⟩,h2⟩
        · rintro ⟨w1',bus1',hb,⟨rfl,rfl⟩,h⟩
          cases h2.symm.trans h
          exact ⟨⟨rfl,hb.symm⟩,rfl⟩
    · simp only [hn,if_false,ne_eq,not_false_eq_true,true_and,false_and,or_false,Prod.mk.injEq,
        Option.some.injEq,Walked.mk.injEq]
      constructor
      · rintro ⟨⟨rfl,rfl⟩,rfl⟩
        exact ⟨rfl,rfl,rfl⟩
      · rintro ⟨hb,rfl,rfl⟩
        exact ⟨⟨rfl,hb.symm⟩,rfl⟩

def leafEntry (l : PtwLeaf) : IOMMUTLBEntry where
  iova := iova
  translatedAddr := l.pa
  addrMask := lowMask l.pageSize
  perm := l.prot
  descriptor := l.descriptor
  tableAttrs := l.tableattrs
  faultType := 0
  faultLevel := 0
  stallableFault := false

/-- `walkTables` succeeds exactly when every walk finds its leaf, and then answers
from the last one. -/
lemma walkTables_eq (config : Config) (req : TransReq) (bus : M) : ∃ r, walkTables pamax config req bus =
        (r,(walkLeaves pamax ⟨config,req.ste,req.cd⟩ req.iova req.access bus).2) ∧
      match (walkLeaves pamax ⟨config,req.ste,req.cd⟩ req.iova req.access bus).1 with
      | some w => r.err = false ∧ successEntry r = leafEntry req.iova w.last.leaf
      | none => r.err = true ∧ r.iova = req.iova ∧ r.ste = req.ste := by
  cases config with
  | s1 =>
    rcases h : smmuv3Ptw64 pamax (stage1Ctx req.ste req.cd false req.iova req.access) bus with ⟨f | l,bus'⟩
    · simp [walkTables,walkLeaves,walkedLeaf,Tables.firstCtx,h]
    · simp only [walkTables,walkLeaves,walkedLeaf,Tables.firstCtx,h,reduceCtorEq,if_false]
      exact ⟨_,rfl,rfl,rfl⟩
  | s2 =>
    rcases h : smmuv3Ptw64 pamax (stage2Ctx req.ste req.iova req.access) bus with ⟨f | l,bus'⟩
    · simp [walkTables,walkLeaves,walkedLeaf,Tables.firstCtx,h]
    · simp only [walkTables,walkLeaves,walkedLeaf,Tables.firstCtx,h,reduceCtorEq,if_false]
      exact ⟨_,rfl,rfl,rfl⟩
  | nested =>
    rcases h1 : smmuv3Ptw64 pamax (stage1Ctx req.ste req.cd true req.iova req.access) bus with ⟨f | l1,bus1⟩
    · simp [walkTables,walkLeaves,walkedLeaf,Tables.firstCtx,h1]
    · rcases h2 : smmuv3Ptw64 pamax (stage2Ctx req.ste l1.pa req.access) bus1 with ⟨f | l2,bus2⟩
      · simp [walkTables,walkLeaves,walkedLeaf,Tables.firstCtx,h1,h2]
      · simp only [walkTables,walkLeaves,walkedLeaf,Tables.firstCtx,h1,TransReq.store_ok_err,TransReq.store_ste,
          TransReq.store_ok_pa,TransReq.store_access,h2,Bool.false_eq_true,if_false,if_true]
        exact ⟨_,rfl,rfl,rfl⟩

variable {txn : Txn} {sid ssid : U32}

lemma resolve_tables {st st' : Streams M} {t : Tables}
    (h : resolve txn sid ssid st = (.tables t,st')) (txn' : Txn) : resolve txn' sid ssid st = (.tables t,st') := by
  simp only [resolve] at h ⊢
  split_ifs at h ⊢
  · cases h
  · rcases hf : findSte sid st with ⟨_ | ste,st1⟩
    · simp only [hf] at h
      split_ifs at h <;> cases h
    · simp only [hf] at h ⊢
      split_ifs at h ⊢
      · cases h
      · split at h
        · cases h
        · split at h
          · cases h
          · exact h
        · exact h
        · split at h
          · cases h
          · exact h
        · cases h

lemma resolve_answer {st st' : Streams M} {e : IOMMUTLBEntry}
    (h : resolve txn sid ssid st = (.answer e,st')) : e = bypassEntry txn.address ∨ e.perm = .none := by
  simp only [resolve] at h
  split_ifs at h
  · cases h
    exact Or.inl rfl
  · rcases hf : findSte sid st with ⟨_ | ste,st1⟩
    · simp only [hf,reject] at h
      split_ifs at h
      · cases h
        exact Or.inr rfl
      · cases h
        exact Or.inl rfl
    · simp only [hf,reject] at h
      split_ifs at h
      · cases h
        exact Or.inr rfl
      · split at h
        · cases h
          exact Or.inl rfl
        · split at h
          · cases h
            exact Or.inr rfl
          · cases h
        · cases h
        · split at h
          · cases h
            exact Or.inr rfl
          · cases h
        · cases h
          exact Or.inr rfl

lemma faultAnswer_eq (txn : Txn) (sid ssid : U32) (config : Config) (req : TransReq) (s : Smmuv3 M) :
    ∃ e st, faultAnswer txn sid ssid config req s = (e,{ s with streams := st }) ∧ e.perm = .none := by
  rw [faultAnswer]
  split_ifs <;> exact ⟨_,_,rfl,rfl⟩

/-- The ways a translation can go. -/
inductive TranslateCase (txn : Txn) (sid ssid : U32) (isSecure : Bool) (s : Smmuv3 M) :
    IOMMUTLBEntry × Smmuv3 M → Prop where
  /-- The configuration answers without a walk. -/
  | answer {e : IOMMUTLBEntry} {st : Streams M} (hres : resolve txn sid ssid s.streams = (.answer e,st)) :
      TranslateCase txn sid ssid isSecure s (e,{ s with streams := st })
  /-- The IOTLB answers. -/
  | hit {t : Tables} {st : Streams M} {e : IOMMUTLBEntry}
      (hres : resolve txn sid ssid s.streams = (.tables t,st))
      (hfind : s.iotlb.find (lookupKey (tagsOf t isSecure st.core.regs.e2h) txn.address) = some e) :
      TranslateCase txn sid ssid isSecure s (e,{ s with streams := st })
  /-- A walk faults; only reporting changes the state. -/
  | fault {t : Tables} {st st' : Streams M} {e : IOMMUTLBEntry} {bus : M}
      (hres : resolve txn sid ssid s.streams = (.tables t,st))
      (hfind : s.iotlb.find (lookupKey (tagsOf t isSecure st.core.regs.e2h) txn.address) = none)
      (hwalk : walkLeaves s.pamax t txn.address (accessOf txn.command) st.core.bus = (none,bus))
      (hperm : e.perm = .none) :
      TranslateCase txn sid ssid isSecure s (e,{ s with streams := st' })
  /-- The walks succeed and the answer is kept. -/
  | fill {t : Tables} {st : Streams M} {w : Walked} {bus : M}
      (hres : resolve txn sid ssid s.streams = (.tables t,st))
      (hfind : s.iotlb.find (lookupKey (tagsOf t isSecure st.core.regs.e2h) txn.address) = none)
      (hwalk : walkLeaves s.pamax t txn.address (accessOf txn.command) st.core.bus = (some w,bus)) :
      TranslateCase txn sid ssid isSecure s
        (leafEntry txn.address w.last.leaf, { s with
            streams := st.setBus bus
            iotlb := s.iotlb.put s.iotlbSize
              ((tagsOf t isSecure st.core.regs.e2h).key (txn.address &&& ~~~lowMask w.last.leaf.pageSize))
              (leafEntry txn.address w.last.leaf) })

lemma smmuv3Translate_cases (txn : Txn) (sid ssid : U32) (isSecure : Bool) (s : Smmuv3 M) :
    TranslateCase txn sid ssid isSecure s (smmuv3Translate txn sid ssid isSecure s) := by
  rw [smmuv3Translate]
  rcases hre : resolve txn sid ssid s.streams with ⟨e | t,st⟩
  · exact .answer hre
  · simp only [iotlbLookup,regs]
    cases hf : s.iotlb.find (lookupKey (tagsOf t isSecure st.core.regs.e2h) txn.address) with
    | some e => exact .hit hre hf
    | none =>
      simp only [walkAndCache,Smmuv3.bus]
      obtain ⟨r,hr,hc⟩ := walkTables_eq s.pamax t.config (initialReq txn sid ssid t) st.core.bus
      rcases hw : walkLeaves s.pamax t txn.address (accessOf txn.command) st.core.bus with ⟨_ | w,bus⟩
      · have hw' : walkLeaves s.pamax ⟨t.config,(initialReq txn sid ssid t).ste,(initialReq txn sid ssid t).cd⟩
            (initialReq txn sid ssid t).iova (initialReq txn sid ssid t).access st.core.bus = (none,bus) := hw
        rw [hw'] at hr hc
        simp only [hr,hc.1,if_true]
        obtain ⟨e,st',he,hp⟩ := faultAnswer_eq txn sid ssid t.config r
          (setBus bus { s with streams := st })
        rw [he]
        exact .fault hre hf hw hp
      · have hw' : walkLeaves s.pamax ⟨t.config,(initialReq txn sid ssid t).ste,(initialReq txn sid ssid t).cd⟩
            (initialReq txn sid ssid t).iova (initialReq txn sid ssid t).access st.core.bus = (some w,bus) := hw
        rw [hw'] at hr hc
        simp only [hr,hc.1,hc.2]
        exact .fill hre hf hw

/-- The state with an empty IOTLB, which has every translation walk. -/
def flushed (s : Smmuv3 M) : Smmuv3 M := { s with iotlb := .empty }

/-- The answer of a translation that is not served from the IOTLB. -/
def freshTranslate (txn : Txn) (sid ssid : U32) (isSecure : Bool) (s : Smmuv3 M) : IOMMUTLBEntry :=
  (smmuv3Translate txn sid ssid isSecure s.flushed).1

variable {s : Smmuv3 M} {isSecure : Bool} {t : Tables} {st : Streams M} {w : Walked}

lemma freshTranslate_walk {bus : M} (hre : resolve txn sid ssid s.streams = (.tables t,st))
    (hw : walkLeaves s.pamax t txn.address (accessOf txn.command) st.core.bus = (some w,bus)) :
    freshTranslate txn sid ssid isSecure s = leafEntry txn.address w.last.leaf := by
  rw [freshTranslate]
  generalize hr : smmuv3Translate txn sid ssid isSecure s.flushed = r
  have hc := smmuv3Translate_cases txn sid ssid isSecure s.flushed
  rw [hr] at hc
  cases hc with
  | answer h => cases h.symm.trans hre
  | hit h hf => exact absurd hf (by simp [flushed])
  | fault h hf hn =>
    cases h.symm.trans hre
    cases hn.symm.trans hw
  | fill h hf hs =>
    cases h.symm.trans hre
    cases hs.symm.trans hw
    rfl

def freshWalk (txn : Txn) (sid ssid : U32) (s : Smmuv3 M) : Option Walked := match resolve txn sid ssid s.streams with
  | (.tables t,st) => (walkLeaves s.pamax t txn.address (accessOf txn.command) st.core.bus).1
  | (.answer _,_) => none

lemma freshWalk_eq_some :
    freshWalk txn sid ssid s = some w ↔ ∃ t st bus, resolve txn sid ssid s.streams = (.tables t,st) ∧
      walkLeaves s.pamax t txn.address (accessOf txn.command) st.core.bus = (some w,bus) := by
  rw [freshWalk]
  rcases resolve txn sid ssid s.streams with ⟨e | t,st⟩
  · simp
  · constructor
    · intro h
      exact ⟨t,st,_,rfl,Prod.ext h rfl⟩
    · rintro ⟨t',st',bus',heq,hw⟩
      cases heq
      exact congrArg Prod.fst hw

lemma freshTranslate_of_freshWalk (h : freshWalk txn sid ssid s = some w) (isSecure : Bool) :
    freshTranslate txn sid ssid isSecure s = leafEntry txn.address w.last.leaf := by
  obtain ⟨t,st,bus,hr,hw⟩ := freshWalk_eq_some.mp h
  exact freshTranslate_walk hr hw

def cachedEntry (txn : Txn) (sid ssid : U32) (isSecure : Bool) (s : Smmuv3 M) : Option IOMMUTLBEntry :=
  match resolve txn sid ssid s.streams with
  | (.tables t,st) => s.iotlb.find (lookupKey (tagsOf t isSecure st.core.regs.e2h) txn.address)
  | (.answer _,_) => none

lemma cachedEntry_of_tables (hr : resolve txn sid ssid s.streams = (.tables t,st)) (isSecure : Bool) :
    cachedEntry txn sid ssid isSecure s =
      s.iotlb.find (lookupKey (tagsOf t isSecure st.core.regs.e2h) txn.address) := by
  rw [cachedEntry,hr]

lemma cachedEntry_of_empty (h : s.iotlb = .empty) (txn : Txn) (sid ssid : U32) (isSecure : Bool) :
    cachedEntry txn sid ssid isSecure s = none := by
  rw [cachedEntry]
  split
  · rw [h,EvictingMap.find_empty]
  · rfl

lemma cachedEntry_eq_some {e : IOMMUTLBEntry} :
    cachedEntry txn sid ssid isSecure s = some e ↔ ∃ t st, resolve txn sid ssid s.streams = (.tables t,st) ∧
      s.iotlb.find (lookupKey (tagsOf t isSecure st.core.regs.e2h) txn.address) = some e := by
  rcases hr : resolve txn sid ssid s.streams with ⟨e' | t,st⟩
  · simp [cachedEntry,hr]
  · simp [cachedEntry_of_tables hr]

lemma smmuv3Translate_fill
    (hm : cachedEntry txn sid ssid isSecure s = none) (hw : freshWalk txn sid ssid s = some w) :
    (smmuv3Translate txn sid ssid isSecure s).1 = leafEntry txn.address w.last.leaf ∧
      ∃ k, (smmuv3Translate txn sid ssid isSecure s).2.iotlb =
        s.iotlb.put s.iotlbSize k (smmuv3Translate txn sid ssid isSecure s).1 := by
  obtain ⟨t,st,bus,hre,hl⟩ := freshWalk_eq_some.mp hw
  generalize hr : smmuv3Translate txn sid ssid isSecure s = r
  have hc := smmuv3Translate_cases txn sid ssid isSecure s
  rw [hr] at hc
  rw [cachedEntry_of_tables hre] at hm
  cases hc with
  | answer h => cases h.symm.trans hre
  | hit h hf =>
    cases h.symm.trans hre
    cases hm.symm.trans hf
  | fault h hf hn =>
    cases h.symm.trans hre
    cases hn.symm.trans hl
  | fill h hf hs =>
    cases h.symm.trans hre
    cases hs.symm.trans hl
    exact ⟨rfl,_,rfl⟩

def Txn.withAddress (txn : Txn) (address : U64) : Txn := { txn with address := address }

@[simp] lemma Txn.withAddress_self (txn : Txn) : txn.withAddress txn.address = txn := rfl

/-- One stream: stream table at `0x1000`, context descriptor at `0x3000`, stage 1 from `0x20000`, stage 2 from
`0x10000`, 4K granules, 39 input bits; `tables` goes before. -/
def sampleSmmu (config : U64) (tables : List (U64 × U64)) : Smmuv3 Ram where
  pamax := 48
  iotlbSize := 256
  streams := { core := {
    regs := { cr0 := 1, strtabBaseLo := 0x1000, strtabBaseCfg := 1 }
    bus := ⟨tables ++ ([(0x1000,0x3001 ||| (config <<< 1)),(0x1010,0x0005005900000000),(0x1018,0x10000),
      (0x3000,0x0001000580000019),(0x3008,0x20000)] : List (U64 × U64)),[]⟩ } }

def readTxn : Txn := { address := iova, command := .read }

def writeTxn : Txn := { address := iova, command := .write }

end Smmuv3
end Qbox
