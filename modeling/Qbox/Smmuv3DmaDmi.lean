import Qbox.ByteTransfer
import Qbox.GuardedRun

/-! The accesses of the SMMUv3 itself (table walks, queues, message-signalled interrupts), through a bounded cache of
direct memory grants, against plain bus accesses. -/
namespace Qbox.Smmuv3
open List

/-- `DmaDmiRegion`; the pointer is a host address. -/
structure DmaDmiRegion where
  start : U64
  endAddr : U64
  ptr : U64
  readAllowed : Bool
  writeAllowed : Bool
  deriving DecidableEq

def dmaDmiCacheMax : ℕ := 64

variable (r : DmaDmiRegion)

def DmaDmiRegion.allows (write : Bool) : Bool := (write && r.writeAllowed) || (!write && r.readAllowed)

/-- The first cached region with the addresses and the right. The last address is computed in 64 bits. -/
def findDmaDmi (cache : List DmaDmiRegion) (addr : U64) (len : ℕ) (write : Bool) : Option DmaDmiRegion :=
  if len = 0 then none
  else
    let last := addr+BitVec.ofNat 64 len-1
    cache.find? fun r => decide (r.start ≤ addr ∧ last ≤ r.endAddr) && r.allows write

/-- `grant_dma_dmi`, with the answer of `get_direct_mem_ptr`. A full cache loses its oldest region. -/
def grantDmaDmi (answer : Option DmaDmiRegion) (cache : List DmaDmiRegion) : Bool × List DmaDmiRegion :=
  match answer with
  | none => (false,cache)
  | some r =>
    if !r.readAllowed && !r.writeAllowed then (false,cache)
    else (true,(if dmaDmiCacheMax ≤ cache.length then cache.drop 1 else cache)++[r])

def dmaDmiInvalidate (start stop : U64) (cache : List DmaDmiRegion) : List DmaDmiRegion :=
  cache.filter fun r => decide (r.endAddr < start ∨ stop < r.start)

/-- The outcome of an access: the result, the caller's buffer and the host memory. -/
structure DmaReply where
  ok : Bool
  data : List U8
  host : U64 → U8

/-- What `b_transport` does with an access on the bus; the targets keep their state in host memory. -/
abbrev DmaBus := Bool → U64 → List U8 → (U64 → U8) → DmaReply

/-- `memcpy` between the buffer and the pointer of a region. -/
def DmaDmiRegion.copy (write : Bool) (addr : U64) (data : List U8) (host : U64 → U8) : DmaReply :=
  let t := transfer (if write then .write else .read) (fun _ => true) (r.ptr+(addr-r.start)) data host
  ⟨true,t.1,t.2⟩

/-- The transaction of an access that no region serves; its length has 32 bits. -/
def dmaTransport (bus : DmaBus) (write : Bool) (addr : U64) (data : List U8) (host : U64 → U8) : DmaReply :=
  let n := data.length % 2^32
  let reply := bus write addr (data.take n) host
  { reply with data := reply.data++data.drop n }

/-- The cache, the grants that stand, and what lies behind the socket. -/
structure DmaSide where
  cache : List DmaDmiRegion
  granted : List DmaDmiRegion
  bus : DmaBus
  host : U64 → U8

namespace DmaSide
/-- The region an access is served by, asking for a grant if none is cached. -/
def lookup (s : DmaSide) (write : Bool) (addr : U64) (len : ℕ) (answer : Option DmaDmiRegion) :
    Option DmaDmiRegion × DmaSide :=
  match findDmaDmi s.cache addr len write with
  | some r => (some r,s)
  | none =>
    let (ok,cache) := grantDmaDmi answer s.cache
    (if ok then findDmaDmi cache addr len write else none,
      { s with cache := cache, granted := s.granted++answer.toList })

/-- An access: the region it copies through, its outcome and the state after it. -/
def access (write : Bool) (addr : U64) (data : List U8) (answer : Option DmaDmiRegion) (s : DmaSide) :
    Option DmaDmiRegion × DmaReply × DmaSide :=
  let (used,s) := s.lookup write addr data.length answer
  let reply := match used with
    | some r => r.copy write addr data s.host
    | none => dmaTransport s.bus write addr data s.host
  (used,reply,{ s with host := reply.host })

def dmaRead : U64 → List U8 → Option DmaDmiRegion → DmaSide → Option DmaDmiRegion × DmaReply × DmaSide := access false

def dmaWrite : U64 → List U8 → Option DmaDmiRegion → DmaSide → Option DmaDmiRegion × DmaReply × DmaSide := access true

end DmaSide

def DmaDmiRegion.Contains (addr : U64) (len : ℕ) : Prop := r.start ≤ addr ∧ addr.toNat+len ≤ r.endAddr.toNat+1

instance (r : DmaDmiRegion) (addr : U64) (len : ℕ) : Decidable (r.Contains addr len) :=
  inferInstanceAs (Decidable (_ ∧ _))

/-- The region's pointer leads to the bytes that the bus accesses, for the allowed commands. -/
def DmaDmiRegion.Aliases (bus : DmaBus) : Prop :=
  ∀ write addr data host, r.allows write → r.Contains addr data.length →
    bus write addr data host = r.copy write addr data host

/-- What happens at the socket. A call comes with what the target answers if it is asked for a grant. -/
inductive DmaEvent where
  | read (addr : U64) (data : List U8) (answer : Option DmaDmiRegion)
  | write (addr : U64) (data : List U8) (answer : Option DmaDmiRegion)
  | invalidate (start stop : U64)
  /-- The targets or the memory change. -/
  | downstream (bus : DmaBus) (host : U64 → U8)
  | reset

namespace DmaSide
def start (bus : DmaBus) (host : U64 → U8) : DmaSide := ⟨[],[],bus,host⟩

/-- One event. An invalidation withdraws the grants it meets, and reset empties the cache. -/
def step (s : DmaSide) : DmaEvent → DmaSide
  | .read addr data answer => (s.dmaRead addr data answer).2.2
  | .write addr data answer => (s.dmaWrite addr data answer).2.2
  | .invalidate start stop =>
    { s with
      cache := dmaDmiInvalidate start stop s.cache
      granted := s.granted.filter fun r => decide (min r.endAddr stop < max r.start start) }
  | .downstream bus host => { s with bus := bus, host := host }
  | .reset => { s with cache := [] }

/-- Every grant aliases the bus when it is given and for as long as it stands. -/
def Aliased (s : DmaSide) : DmaEvent → Prop
  | .read _ _ answer | .write _ _ answer => ∀ r ∈ answer, r.Aliases s.bus
  | .downstream bus _ => ∀ r ∈ s.granted, r.Aliases bus
  | .invalidate _ _ | .reset => True

/-- The access has the outcome of a plain bus access, and copies only within a grant that stands. -/
def AccessRight (s : DmaSide) (write : Bool) (addr : U64) (data : List U8) (answer : Option DmaDmiRegion) : Prop :=
  (access write addr data answer s).2.1 = s.bus write addr data s.host ∧ ∀ r ∈ (access write addr data answer s).1,
      r ∈ (access write addr data answer s).2.2.granted ∧ r.Contains addr data.length

/-- The cached regions are among the grants that stand, and these alias the bus. -/
structure Kept (s : DmaSide) : Prop where
  cached : ∀ r ∈ s.cache, r ∈ s.granted
  aliases : ∀ r ∈ s.granted, r.Aliases s.bus

end DmaSide

lemma findDmaDmi_eq_some {cache : List DmaDmiRegion} {addr : U64} {len : ℕ} {write : Bool} {r : DmaDmiRegion}
    (h : findDmaDmi cache addr len write = some r) : r ∈ cache ∧ r.allows write ∧
      (addr.toNat+len ≤ 2^64 → r.Contains addr len) := by
  rw [findDmaDmi] at h
  split_ifs at h with hl
  have hr := find?_some h
  simp only [Bool.and_eq_true,decide_eq_true_eq] at hr
  refine ⟨mem_of_find?_eq_some h,hr.2,fun hf => ⟨hr.1.1,?_⟩⟩
  bv_omega

lemma mem_grantDmaDmi {answer : Option DmaDmiRegion} {cache : List DmaDmiRegion} {r : DmaDmiRegion}
    (h : r ∈ (grantDmaDmi answer cache).2) : r ∈ cache ∨ r ∈ answer.toList := by
  cases answer with
  | none => exact .inl h
  | some g =>
    simp only [grantDmaDmi] at h
    split_ifs at h
    · exact .inl h
    all_goals
      rcases mem_append.mp h with hold | hn
      · exact .inl (by first | exact mem_of_mem_drop hold | exact hold)
      · exact .inr hn

namespace DmaSide
variable {s : DmaSide} {write : Bool} {addr : U64} {len : ℕ} {data : List U8} {answer : Option DmaDmiRegion}

lemma Kept.grant (h : s.Kept) (ha : ∀ r ∈ answer, r.Aliases s.bus) :
    Kept { s with cache := (grantDmaDmi answer s.cache).2, granted := s.granted++answer.toList } where
  cached r hr := by
    rcases mem_grantDmaDmi hr with hold | hn
    · exact mem_append_left _ (h.cached r hold)
    · exact mem_append_right _ hn
  aliases r hr := by
    rcases mem_append.mp hr with hold | hn
    · exact h.aliases r hold
    · exact ha r (Option.mem_toList.mp hn)

lemma lookup_of_cached {r : DmaDmiRegion} (h : findDmaDmi s.cache addr len write = some r) :
    s.lookup write addr len answer = (some r,s) := by
  rw [DmaSide.lookup,h]

lemma lookup_of_missing (answer : Option DmaDmiRegion) (h : findDmaDmi s.cache addr len write = none) :
    s.lookup write addr len answer =
    (if (grantDmaDmi answer s.cache).1 then findDmaDmi (grantDmaDmi answer s.cache).2 addr len write else none,
      { s with cache := (grantDmaDmi answer s.cache).2, granted := s.granted++answer.toList }) := by
  rw [DmaSide.lookup,h]

variable (write addr len) in
lemma Kept.lookup (h : s.Kept) (ha : ∀ r ∈ answer, r.Aliases s.bus) :
    (s.lookup write addr len answer).2.Kept ∧ (s.lookup write addr len answer).2.bus = s.bus ∧
      (s.lookup write addr len answer).2.host = s.host ∧ ∀ r ∈ (s.lookup write addr len answer).1,
        r ∈ (s.lookup write addr len answer).2.granted ∧ r.allows write ∧
          (addr.toNat+len ≤ 2^64 → r.Contains addr len) := by
  cases hf : findDmaDmi s.cache addr len write with
  | some r =>
    rw [lookup_of_cached hf]
    obtain ⟨hm,hre⟩ := findDmaDmi_eq_some hf
    refine ⟨h,rfl,rfl,fun g hg => ?_⟩
    obtain rfl := Option.some.inj hg
    exact ⟨h.cached _ hm,hre⟩
  | none =>
    have hgr := h.grant ha
    rw [lookup_of_missing answer hf]
    refine ⟨hgr,rfl,rfl,fun r hr => ?_⟩
    dsimp only at hr
    split_ifs at hr with hok
    · obtain ⟨hm,hre⟩ := findDmaDmi_eq_some hr
      exact ⟨hgr.cached _ hm,hre⟩
    · cases hr

lemma access_of_found {r : DmaDmiRegion} (h : (s.lookup write addr data.length answer).1 = some r) :
    (access write addr data answer s).2.1 =
      r.copy write addr data (s.lookup write addr data.length answer).2.host := by
  simp [DmaSide.access,h]

lemma access_of_missing (h : (s.lookup write addr data.length answer).1 = none) :
    (access write addr data answer s).2.1 =
      dmaTransport (s.lookup write addr data.length answer).2.bus write addr data
        (s.lookup write addr data.length answer).2.host := by
  simp [DmaSide.access,h]

lemma Kept.access (h : s.Kept) (ha : ∀ r ∈ answer, r.Aliases s.bus) :
    (DmaSide.access write addr data answer s).2.2.Kept := by
  have hl := (h.lookup write addr data.length ha).1
  exact ⟨hl.cached,hl.aliases⟩

lemma Kept.step (h : s.Kept) {e : DmaEvent} (he : s.Aliased e) : (s.step e).Kept := by
  cases e with
  | read addr data answer | write addr data answer => exact h.access he
  | invalidate start stop =>
    refine ⟨fun r hr => ?_,fun r hr => h.aliases r (mem_of_mem_filter hr)⟩
    obtain ⟨hm,ha⟩ := mem_filter.mp hr
    refine mem_filter.mpr ⟨h.cached r hm,?_⟩
    simp only [decide_eq_true_eq,min_lt_iff,lt_max_iff] at ha ⊢
    tauto
  | downstream bus host => exact ⟨h.cached,he⟩
  | reset => exact ⟨fun _ hr => absurd hr not_mem_nil,h.aliases⟩

lemma foldl_kept {l : List DmaEvent} (hs : s.Kept) (hl : GuardedRun.Along step Aliased s l) : (l.foldl step s).Kept :=
  GuardedRun.invariant (fun _ _ h he => Kept.step h he) hs (GuardedRun.foldl .refl hl)

lemma start_kept (bus : DmaBus) (host : U64 → U8) : (start bus host).Kept :=
  ⟨fun _ hr => absurd hr not_mem_nil,fun _ hr => absurd hr not_mem_nil⟩

lemma dmaTransport_of_lt {bus : DmaBus} {host : U64 → U8} (hl : data.length < 2^32) :
    dmaTransport bus write addr data host = bus write addr data host := by
  simp only [dmaTransport,Nat.mod_eq_of_lt hl,take_length,drop_length,List.append_nil]

/-- An access that ends within the address space and that a transaction can hold is right. -/
lemma Kept.accessRight (h : s.Kept) (han : ∀ r ∈ answer, r.Aliases s.bus) (hfi : addr.toNat+data.length ≤ 2^64)
    (hl : data.length < 2^32) : s.AccessRight write addr data answer := by
  obtain ⟨hk,hb,hh,hu⟩ := h.lookup write addr data.length han
  refine ⟨?_,fun r hr => ⟨(hu r hr).1,(hu r hr).2.2 hfi⟩⟩
  cases hf : (s.lookup write addr data.length answer).1 with
  | none => rw [access_of_missing hf,dmaTransport_of_lt hl,hb,hh]
  | some r =>
    obtain ⟨hm,ha,hin⟩ := hu r hf
    have hal := hk.aliases r hm write addr data s.host ha (hin hfi)
    rw [access_of_found hf,hh,← hal,hb]

def flatBus : DmaBus := DmaDmiRegion.copy ⟨0,0,0,true,true⟩

def wholeRegion : DmaDmiRegion := ⟨0,BitVec.allOnes 64,0,true,true⟩

lemma wholeRegion_aliases : wholeRegion.Aliases flatBus := fun _ _ _ _ _ _ => rfl

lemma wholeRegion_endAddr : wholeRegion.endAddr.toNat = 2^64-1 := by decide

lemma findDmaDmi_wholeRegion (write : Bool) (addr : U64) (hl : len ≠ 0) :
    findDmaDmi [wholeRegion] addr len write = some wholeRegion := by
  rw [findDmaDmi,if_neg hl]
  refine find?_cons_of_pos ?_
  have hh : wholeRegion.start ≤ addr ∧ addr+BitVec.ofNat 64 len-1 ≤ wholeRegion.endAddr := by
    refine ⟨BitVec.le_def.mpr (Nat.zero_le _),BitVec.le_def.mpr ?_⟩
    rw [wholeRegion_endAddr]
    omega
  rw [decide_eq_true hh]
  cases write <;> rfl

/-- An access past the end of the address space is served by a region that does not contain it. -/
lemma not_accessRight_of_wraps (host : U64 → U8) (hle : 2^64 < addr.toNat+data.length) :
    ¬(start flatBus host).AccessRight write addr data (some wholeRegion) := by
  intro h
  have hm : findDmaDmi [] addr data.length write = none := by simp [findDmaDmi]
  have hf := findDmaDmi_wholeRegion write addr (show data.length ≠ 0 by omega)
  have hl := lookup_of_missing (s := start flatBus host) (some wholeRegion) hm
  have hu := (congrArg Prod.fst hl).trans hf
  have hin := ((h.2 _ hu).2).2
  rw [wholeRegion_endAddr] at hin
  omega

def sizedBus (len : ℕ) : DmaBus := fun _ _ data host => ⟨decide (data.length = len),data,host⟩

/-- An access that a transaction cannot hold reaches the target with another length. -/
lemma not_accessRight_of_long (host : U64 → U8) (hle : 2^32 ≤ data.length) :
    ¬(start (sizedBus data.length) host).AccessRight write addr data none := by
  intro h
  have hm : findDmaDmi [] addr data.length write = none := by simp [findDmaDmi]
  have hl := lookup_of_missing (s := start (sizedBus data.length) host) none hm
  have hr := access_of_missing (congrArg Prod.fst hl)
  have hok := congrArg DmaReply.ok (hr.symm.trans h.1)
  rw [hl] at hok
  simp [dmaTransport,sizedBus,start] at hok
  omega

/-- After every run an access has the outcome of a plain one, within a standing grant, exactly when it ends within the
address space and its length has 32 bits. -/
theorem accessRight_iff (write : Bool) (addr : U64) (len : ℕ) :
    (∀ bus host l, GuardedRun.Along step Aliased (start bus host) l → ∀ data : List U8, data.length = len →
      ∀ answer : Option DmaDmiRegion, (∀ r ∈ answer, r.Aliases (l.foldl step (start bus host)).bus) →
        (l.foldl step (start bus host)).AccessRight write addr data answer) ↔
      addr.toNat+len ≤ 2^64 ∧ len < 2^32 := by
  constructor
  · intro h
    have hd : (List.replicate len (0 : U8)).length = len := length_replicate
    constructor
    · by_contra hw
      refine not_accessRight_of_wraps (fun _ => 0) (by rw [hd]; omega)
        (h flatBus (fun _ => 0) [] trivial _ hd (some wholeRegion) ?_)
      intro r hr
      cases hr
      exact wholeRegion_aliases
    · by_contra hlo
      have hri := h (sizedBus (List.replicate len (0 : U8)).length) (fun _ => 0) [] trivial _ hd none (by simp)
      exact not_accessRight_of_long (fun _ => 0) (by rw [hd]; omega) hri
  · rintro ⟨hf,hle⟩ bus host l hl data rfl answer ha
    exact (foldl_kept (start_kept bus host) hl).accessRight ha hf hle

def regionBus (r : DmaDmiRegion) : DmaBus := fun write addr data host =>
  if r.Contains addr data.length then r.copy write addr data host else ⟨false,data,host⟩

/-- Of four bytes written at the end of the last page two are stored past the page in the host, where the bus refuses
them. -/
theorem access_leaves_grant : let page : DmaDmiRegion := ⟨0xFFFFFFFFFFFFF000,0xFFFFFFFFFFFFFFFF,0x10000,true,true⟩
    let s := start (regionBus page) fun _ => 0
    let (used,reply,s') := s.dmaWrite 0xFFFFFFFFFFFFFFFE [1,2,3,4] (some page)
    page.Aliases (regionBus page) ∧ used = some page ∧ reply.ok = true ∧
      (s.bus true 0xFFFFFFFFFFFFFFFE [1,2,3,4] s.host).ok = false ∧
        s.host 0x11000 = 0 ∧ s'.host 0x11000 = 3 ∧ s'.host 0x11001 = 4 := by
  refine ⟨fun _ _ _ _ _ hin => if_pos hin,?_⟩
  decide +kernel

end DmaSide
end Qbox.Smmuv3
