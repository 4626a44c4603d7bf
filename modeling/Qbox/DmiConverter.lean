import Mathlib.Logic.Function.Basic
import Qbox.ByteTransfer
import Qbox.OrderedMap

/-! The converter from transactions to direct memory accesses: the cache of granted ranges its ports share, and the loop
of `b_transport` that cuts a transaction along them. A granted pointer is named by the port whose target gave it. -/
namespace Qbox.DmiConverter
open OrderedMap

structure Range where
  start : U64
  endAddr : U64
  access : IOMMUAccessFlags
  deriving DecidableEq

namespace Range
variable (r : Range)

def Holds (addr : U64) : Prop := r.start ≤ addr ∧ addr ≤ r.endAddr

instance (r : Range) (addr : U64) : Decidable (r.Holds addr) := inferInstanceAs (Decidable (_ ∧ _))

/-- `is_dmi_access_type_granted`. -/
def granted : TlmCommand → Bool
  | .write => decide (.wo ≤ r.access)
  | .read => decide (.ro ≤ r.access)
  | .ignore => false

def Usable : Prop := r.start ≤ r.endAddr ∧ ∃ cmd, r.granted cmd = true

def Meets (start stop : U64) : Prop := r.start ≤ stop ∧ start ≤ r.endAddr

instance (r : Range) (start stop : U64) : Decidable (r.Meets start stop) := inferInstanceAs (Decidable (_ ∧ _))

def StartsInside (other : Range) : Prop := other.start < r.start ∧ r.start ≤ other.endAddr

instance (r other : Range) : Decidable (r.StartsInside other) := inferInstanceAs (Decidable (_ ∧ _))

end Range

/-- A cached `tlm_dmi`, with its port for the pointer; `live`, which no function reads: no invalidation has met it
since. -/
structure Grant where
  range : Range
  port : ℕ
  live : Bool
  deriving DecidableEq

/-- `m_dmi_cache`: grants under their start addresses. -/
structure Cache where
  map : OrderedMap U64 Grant
  keyed : ∀ e ∈ map, e.2.range.start = e.1

namespace Cache
def empty : Cache := ⟨.empty,fun _ he => absurd he (OrderedMap.not_mem_empty _)⟩

instance : Membership Grant Cache := ⟨fun c g => ∃ k, (k,g) ∈ c.map⟩

variable {c : Cache} {g : Grant} {start stop : U64}

lemma mem_iff : g ∈ c ↔ (g.range.start,g) ∈ c.map := by
  constructor
  · rintro ⟨k,hk⟩
    rwa [c.keyed _ hk]
  · exact fun h => ⟨_,h⟩

@[simp] lemma not_mem_empty (g : Grant) : g ∉ empty := fun ⟨_,h⟩ => OrderedMap.not_mem_empty _ h

def inCache (c : Cache) (addr : U64) : Option Grant := match c.map.beforeUpperBound addr with
  | some (_,g) => if g.range.Holds addr then some g else none
  | none => none

/-- The range found is the one with the greatest start not above the address, if it holds the address. -/
lemma inCache_eq_some {addr : U64} : c.inCache addr = some g ↔
    g ∈ c ∧ g.range.Holds addr ∧ ∀ f ∈ c, f.range.start ≤ addr → f.range.start ≤ g.range.start := by
  have hm : (∀ f ∈ c, f.range.start ≤ addr → f.range.start ≤ g.range.start) ↔
      ∀ e ∈ c.map, e.1 ≤ addr → e.1 ≤ g.range.start := by
    constructor
    · intro h e he
      have hf := h e.2 ⟨_,he⟩
      rwa [c.keyed e he] at hf
    · intro h f hf
      exact h _ (mem_iff.mp hf)
  rw [hm,inCache]
  cases hb : c.map.beforeUpperBound addr with
  | none =>
    have ha := OrderedMap.beforeUpperBound_eq_none.mp hb
    simp only [reduceCtorEq,false_iff]
    rintro ⟨hg,hh,-⟩
    exact absurd hh.1 (not_le.mpr (ha _ (mem_iff.mp hg)))
  | some e =>
    obtain ⟨he,hle,hgr⟩ := OrderedMap.beforeUpperBound_eq_some.mp hb
    obtain ⟨k,f⟩ := e
    have hk := c.keyed _ he
    dsimp only
    constructor
    · intro h
      split_ifs at h with hho
      cases h
      exact ⟨⟨k,he⟩,hho,hk ▸ hgr⟩
    · rintro ⟨hg,hho,ha⟩
      have hs := le_antisymm (ha _ he hle) (hgr _ (mem_iff.mp hg) hho.1)
      obtain ⟨-,rfl⟩ := Prod.mk.inj (eq_of_mem he (mem_iff.mp hg) hs)
      rw [if_pos hho]

/-- `m_dmi_cache[start] = dmi`. -/
def insert (c : Cache) (g : Grant) : Cache where
  map := c.map.assign g.range.start g
  keyed := fun e he => by
    rcases OrderedMap.mem_assign.mp he with rfl | ⟨he,-⟩
    · rfl
    · exact c.keyed e he

lemma mem_insert {f : Grant} : f ∈ c.insert g ↔ f = g ∨ f ∈ c ∧ f.range.start ≠ g.range.start := by
  rw [mem_iff,mem_iff,insert,mem_assign,Prod.mk.injEq]
  refine or_congr ⟨And.right,?_⟩ Iff.rfl
  rintro rfl
  exact ⟨rfl,rfl⟩

/-- The loop of `cache_clean`. -/
def cleaned (c : Cache) (start stop : U64) : OrderedMap U64 Grant :=
  eraseScan (fun e => decide (stop < e.2.range.start)) (fun e => !decide (e.2.range.endAddr < start))
    (c.map.fromBeforeUpperBound start) c.map

lemma mem_cleaned {e : U64 × Grant} : e ∈ c.cleaned start stop ↔
    e ∈ c.map ∧ ¬ (e.2.range.Meets start stop ∧ ∀ a ∈ c.map, a.1 ≤ start → a.1 ≤ e.1) := by
  have hm : ∀ a ∈ c.map.fromBeforeUpperBound start, a ∈ c.map :=
    fun a ha => (OrderedMap.mem_fromBeforeUpperBound.mp ha).1
  have hp : (c.map.fromBeforeUpperBound start).Pairwise
      (fun a b => decide (stop < a.2.range.start) = true → decide (stop < b.2.range.start) = true) := by
    refine (c.map.fromBeforeUpperBound_sorted start).imp_of_mem fun {a b} ha hb hab h => ?_
    rw [c.keyed a (hm a ha),decide_eq_true_eq] at h
    rw [c.keyed b (hm b hb),decide_eq_true_eq]
    exact h.trans hab
  rw [cleaned,mem_eraseScan_self hp hm]
  refine and_congr_right fun he => not_congr ?_
  simp only [mem_fromBeforeUpperBound,he,true_and,decide_eq_false_iff_not,not_lt,Bool.not_eq_true',
    Range.Meets]
  tauto

def cacheClean (c : Cache) (start stop : U64) : Cache where
  map := c.cleaned start stop
  keyed := fun e he => c.keyed e (mem_cleaned.mp he).1

/-- A grant stays when it does not meet the range, or another one starts between its start and that of the range. -/
lemma mem_cacheClean : g ∈ c.cacheClean start stop ↔
    g ∈ c ∧ ¬ (g.range.Meets start stop ∧ ∀ f ∈ c, f.range.start ≤ start → f.range.start ≤ g.range.start) := by
  rw [mem_iff,mem_iff,cacheClean,mem_cleaned]
  refine and_congr_right fun _ => not_congr (and_congr_right fun _ => ?_)
  constructor
  · intro h f hf
    exact h _ (mem_iff.mp hf)
  · intro h e he
    rw [← c.keyed e he]
    exact h e.2 ⟨_,he⟩

def withdraw (c : Cache) (start stop : U64) : Cache where
  map := ⟨c.map.entries.map fun e => (e.1,{ e.2 with live := e.2.live && !decide (e.2.range.Meets start stop) }),
    List.pairwise_map.mpr c.map.sorted⟩
  keyed := fun e he => by
    obtain ⟨a,ha,rfl⟩ := List.mem_map.mp he
    exact c.keyed a ha

lemma mem_withdraw : g ∈ c.withdraw start stop ↔
    ∃ f ∈ c, g = { f with live := f.live && !decide (f.range.Meets start stop) } := by
  constructor
  · rintro ⟨k,hk⟩
    obtain ⟨a,ha,h⟩ := List.mem_map.mp hk
    exact ⟨a.2,⟨a.1,ha⟩,(Prod.mk.inj h).2.symm⟩
  · rintro ⟨f,⟨k,hk⟩,rfl⟩
    exact ⟨k,List.mem_map.mpr ⟨_,hk,rfl⟩⟩

end Cache

structure Txn where
  command : TlmCommand
  address : U64
  data : List U8
  byteEnable : Option ByteEnable
  response : TlmResponse
  dmiAllowed : Bool
  short : data.length < 2^32 := by decide

structure Reply where
  response : TlmResponse
  data : List U8
  dmiAllowed : Bool
  deriving DecidableEq

/-- The target during a call: the error it answers with, if any, and its answers to DMI requests. -/
structure Target where
  refuses : TlmCommand → U64 → ℕ → Option TlmResponse
  dmi : ℕ → TlmCommand → U64 → Option Range

variable (target : Target)

/-- `b_transport` of a target. -/
def Target.bTransport (cmd : TlmCommand) (addr : U64) (data : List U8) (enabled : ℕ → Bool)
    (mem : U64 → U8) : TlmResponse × List U8 × (U64 → U8) :=
  match target.refuses cmd addr data.length with
  | some response => (response,data,mem)
  | none => (.ok,transfer cmd enabled addr data mem)

structure World where
  cache : Cache
  mems : ℕ → U64 → U8

/-- The locals of `b_transport`: the address reached, the data before and behind it, the byte enables and the length
passed on, whether the cache was used, and the DMI requests. -/
structure Progress where
  addr : U64
  copied : List U8
  todo : List U8
  byt : List U8
  belRemaining : ℕ
  isCacheUsed : Bool
  requests : ℕ

namespace Txn
variable (txn : Txn)

/-- `get_byte_enable_length`. -/
def bel : ℕ := txn.byteEnable.elim 0 (·.bytes.length)

def begin : Progress := ⟨txn.address,[],txn.data,txn.byteEnable.elim [] (·.bytes),txn.bel,false,0⟩

def enabled (byt : List U8) (len i : ℕ) : Bool := txn.byteEnable.isNone || byt.getD (i % len) 0 == 0xFF

variable (q : Progress)

/-- `update_byte_enable`. With an array as long as the data only a copy of the pointer moves. -/
def updateByteEnable (iterLen : ℕ) : Progress := if txn.byteEnable.isNone then q
  else if txn.data.length ≤ txn.bel then { q with belRemaining := txn.bel-iterLen }
  else if iterLen % txn.bel = 0 then q
  else { q with byt := q.byt.rotate (iterLen % txn.bel), belRemaining := txn.bel }

def iterLen (g : Grant) : ℕ := min q.todo.length (g.range.endAddr-q.addr+1).toNat

/-- The copy of one turn of the loop, through a cached range. -/
def copy (g : Grant) (q : Progress) (w : World) : List U8 × (U64 → U8) :=
  transfer txn.command (txn.enabled q.byt txn.bel) q.addr (q.todo.take (iterLen q g)) (w.mems g.port)

def advance (g : Grant) (q : Progress) (w : World) : Progress := txn.updateByteEnable
    { q with
      addr := q.addr+BitVec.ofNat 64 (iterLen q g)
      copied := q.copied++(txn.copy g q w).1
      todo := q.todo.drop (iterLen q g)
      isCacheUsed := true }
    (iterLen q g)

def copyWorld (g : Grant) (q : Progress) (w : World) : World :=
  { w with mems := Function.update w.mems g.port (txn.copy g q w).2 }

def forwardRest (target : Target) (id : ℕ) (q : Progress) (w : World) : Reply × World :=
  let enabled := if q.isCacheUsed then txn.enabled q.byt q.belRemaining else byteEnabled txn.byteEnable
  let r := target.bTransport txn.command q.addr q.todo enabled (w.mems id)
  (⟨r.1,q.copied++r.2.1,false⟩,{ w with mems := Function.update w.mems id r.2.2 })

def finished : Reply := if q.isCacheUsed then ⟨.ok,q.copied,true⟩ else ⟨txn.response,txn.data,txn.dmiAllowed⟩

end Txn

def lookup (c : Cache) (cmd : TlmCommand) (addr : U64) : Option Grant := (c.inCache addr).filter (·.range.granted cmd)

/-- The answer to the DMI request of one turn of the loop, if it serves the access. -/
def request (id : ℕ) (cmd : TlmCommand) (q : Progress) : Option Grant :=
  ((target.dmi q.requests cmd q.addr).filter (·.granted cmd)).map (⟨·,id,true⟩)

/-- A call: the cached grants it copied through, and what it returned, if it did. -/
structure Call where
  used : List Grant
  returned : Option (Reply × World)

/-- The loop of `b_transport`, for a number of turns. -/
def loop (txn : Txn) (target : Target) (id : ℕ) : ℕ → Progress → World → Call
  | 0, _, _ => ⟨[],none⟩
  | n+1, q, w =>
    if q.todo = [] then ⟨[],some (txn.finished q,w)⟩
    else
      match lookup w.cache txn.command q.addr with
      | some g =>
        let rest := loop txn target id n (txn.advance g q w) (txn.copyWorld g q w)
        ⟨g :: rest.used,rest.returned⟩
      | none =>
        match request target id txn.command q with
        | some g => loop txn target id n { q with requests := q.requests+1 } { w with cache := w.cache.insert g }
        | none => ⟨[],some (txn.forwardRest target id q w)⟩

def bTransport (id : ℕ) (txn : Txn) (n : ℕ) (w : World) : Call := loop txn target id n txn.begin w

/-- `get_direct_mem_ptr`, with the answer the target gives if it is asked. -/
def getDirectMemPtr (id : ℕ) (addr : U64) (answer : Option Range) (w : World) : Bool × Option Grant × World :=
  match w.cache.inCache addr with
  | some g => (decide (g.range.access ≠ .none),some g,w)
  | none =>
    match answer with
    | some r => (true,some ⟨r,id,true⟩,{ w with cache := w.cache.insert ⟨r,id,true⟩ })
    | none => (false,none,w)

def invalidateDirectMemPtr (start stop : U64) (w : World) : World :=
  { w with cache := (w.cache.cacheClean start stop).withdraw start stop }

lemma lookup_eq_some {c : Cache} {cmd : TlmCommand} {addr : U64} {g : Grant} : lookup c cmd addr = some g ↔
    c.inCache addr = some g ∧ g.range.granted cmd = true := by
  rw [lookup,Option.filter_eq_some_iff]

lemma request_eq_some {target : Target} {id : ℕ} {cmd : TlmCommand} {q : Progress} {g : Grant} :
    request target id cmd q = some g ↔
      ∃ r, target.dmi q.requests cmd q.addr = some r ∧ r.granted cmd = true ∧ g = ⟨r,id,true⟩ := by
  rw [request,Option.map_eq_some_iff]
  simp only [Option.filter_eq_some_iff]
  constructor
  · rintro ⟨r,⟨hr,hg⟩,rfl⟩
    exact ⟨r,hr,hg,rfl⟩
  · rintro ⟨r,hr,hg,rfl⟩
    exact ⟨r,⟨hr,hg⟩,rfl⟩

end Qbox.DmiConverter
