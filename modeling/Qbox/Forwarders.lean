import Qbox.Addrtr
import Qbox.RegRouterFanOut
import Qbox.RouterAccess
import Qbox.Smmu500Tbu
import Qbox.Smmuv3Tbu

/-! The components that pass a transaction on under another address: what each of their calls leaves in the payload. -/
namespace Qbox.Forwarders
/-- A call that reads and writes the address of the payload; nothing if the simulation ends. -/
abbrev Access := StateT U64 Option

/-- What is behind a forwarder: for each address whether it succeeds, and the address it leaves. -/
abbrev Downstream := U64 → Bool × U64

def call (down : Downstream) : Access Bool := fun addr => some (down addr)

/-- The address is replaced for a call and put back after it. -/
def forwardTo (target : U64) (down : Downstream) : Access Bool := do
  let addr ← get
  set target
  let ret ← call down
  set addr
  return ret

/-- What both routers do around a call to a target. -/
def crossing (useOffset : Bool) (base : U64) (down : Downstream) : Access Bool := do
  let addr ← get
  if useOffset then set (addr-base)
  let ret ← call down
  if useOffset then set addr
  return ret

/-- The request for a translated page in `smmu500_tbu::get_direct_mem_ptr`, as far as the grant is read. -/
def pageRequest (pageStart : U64) (down : Downstream) : Access Bool := do
  let addr ← get
  set pageStart
  let ret ← call down
  if !ret then return false
  set addr
  return ret

inductive Op where
  | bTransport
  | transportDbg
  | getDirectMemPtr
  deriving DecidableEq

section
variable {C E M : Type} [AddressMap.AddrMapCacheBase C Router.TargetInfo] [DmaSocket M] (down : ℕ → Downstream)

def router (response : TlmResponse) (len : U64) (r : Router C) (op : Op) : Access Bool := do
  let addr ← get
  let found := match op with
    | .getDirectMemPtr => (AddressMap.findRegion r.addressMap.regions addr).1
    | _ => (r.decodeAddress ⟨addr,len,response,[]⟩).1
  match found with
  | none => return false
  | some ti =>
    if op = .bTransport ∧ Router.proceeds response = false then return false
    else crossing ti.useOffset ti.address (down ti.index)

def regRouter (f : RegRouter.RegFile E) (s : RegRouter.State E) (t : RegRouter.Txn) : Op → Access Bool
  | .bTransport => fun addr =>
    (RegRouter.bTransport f s { t with address := addr }).map fun x => (x.2.response == .ok,x.2.address)
  | .transportDbg => do
    match ← RegRouter.decodeAddress f (← get) with
    | none => return false
    | some k => crossing (f.memory k).info.useOffset (f.memory k).info.address (down k)
  | .getDirectMemPtr => return false

def addrtr (t : Addrtr) (len : U64) : Access Bool := do
  let mapped ← t.mapTxnAddr (← get) len
  forwardTo mapped (down 0)

/-- `smmuv3_tbu::b_transport` after its stalls, each aborted or retried in some state; nothing while one lasts. -/
def settled (topologyId : U32) (txn : Smmuv3.Txn) : Smmuv3 M → List (Option (Smmuv3 M)) → Option Smmuv3.TransportOutcome
  | s, ends =>
    match (Smmuv3.bTransport topologyId txn s).1,ends with
    | .stalled _, [] => none
    | .stalled _, none :: _ => some .addressError
    | .stalled _, some s :: ends => settled topologyId txn s ends
    | out, _ => some out

def smmuv3Tbu (topologyId : U32) (txn : Smmuv3.Txn) (s : Smmuv3 M) (ends : List (Option (Smmuv3 M))) : Op → Access Bool
  | .bTransport => do
    match ← settled topologyId { txn with address := ← get } s ends with
    | .forwarded pa _ _ => forwardTo pa (down 0)
    | .passed _ => call (down 0)
    | _ => return false
  | .transportDbg => do
    let addr ← get
    let te := (Smmuv3.tbuTranslate topologyId { txn with address := addr } s).1
    forwardTo (Smmuv3.busAddress te addr) (down 0)
  | .getDirectMemPtr => do
    let iova ← get
    let te := (Smmuv3.tbuTranslate topologyId { txn with address := iova } s).1
    if Smmuv3.refuses te.perm txn.command then
      set iova
      return false
    else forwardTo (Smmuv3.dmiAddress te iova) (down 0)

def smmu500Tbu (cmd : TlmCommand) (t : Smmu500.Tbu) (s : Smmu500 M) (op : Op) : Access Bool := do
  let addr ← get
  let (te,_) ← Smmu500.smmu500Translate addr cmd t.sid s
  match op with
  | .bTransport =>
    if Smmu500.refuses te.perm cmd then return false
    else forwardTo (te.translatedAddr ||| (addr &&& Smmu500.pagemask)) (down 0)
  | .transportDbg => forwardTo (te.translatedAddr ||| (addr &&& Smmu500.pagemask)) (down 0)
  | .getDirectMemPtr =>
    if te.addrMask = BitVec.allOnes 64 then
      if te.translatedAddr ≠ addr then failure else call (down 0)
    else if te.pageEnd ≤ te.pageStart then failure
    else pageRequest te.pageStart (down 0)

end

def GivesBack (m : Access Bool) (addr : U64) : Prop := ∀ ret addr', m addr = some (ret,addr') → addr' = addr

def Downstream.Restores (down : Downstream) : Prop := ∀ addr, (down addr).2 = addr

section
variable {addr : U64} {down : Downstream}

lemma givesBack_return (b : Bool) : GivesBack (pure b) addr := by
  rintro ret addr' h
  cases h
  rfl

lemma givesBack_call (h : down.Restores) : GivesBack (call down) addr := by
  rintro ret addr' hc
  exact (congrArg Prod.snd (Option.some.inj hc)).symm.trans (h addr)

lemma givesBack_forwardTo (target : U64) : GivesBack (forwardTo target down) addr := by
  rintro ret addr' h
  cases h
  rfl

lemma givesBack_crossing (useOffset : Bool) (base : U64) (h : down.Restores) :
    GivesBack (crossing useOffset base down) addr := by
  cases useOffset with
  | false => exact givesBack_call h
  | true => exact givesBack_forwardTo (addr-base)

lemma givesBack_get_iff {m : U64 → Access Bool} : GivesBack (get >>= m) addr ↔ GivesBack (m addr) addr := .rfl

lemma givesBack_lift_iff {A : Type} {x : Option A} {m : A → Access Bool} :
    GivesBack (liftM x >>= m) addr ↔ ∀ a, x = some a → GivesBack (m a) addr := by
  cases x with
  | none => exact iff_of_true (fun _ _ h => absurd h (by rintro ⟨⟩)) (fun _ h => absurd h (by rintro ⟨⟩))
  | some a => exact ⟨fun h b hb => Option.some.inj hb ▸ h,fun h => h a rfl⟩

lemma givesBack_failure : GivesBack failure addr := by
  rintro ret addr' h
  cases h

/-- The way out after a refusal leaves the start of the page. -/
lemma givesBack_pageRequest_iff {pageStart : U64} (h : down.Restores) :
    GivesBack (pageRequest pageStart down) addr ↔ ((down pageStart).1 = false → pageStart = addr) := by
  have hr : pageRequest pageStart down addr =
      some (if (down pageStart).1 then (true,addr) else (false,(down pageStart).2)) := by
    change ((call down >>= fun ret => if !ret then pure false else set addr >>= fun _ => pure ret : Access Bool)
      pageStart) = _
    simp only [call,bind,StateT.bind,Option.bind_some]
    cases (down pageStart).1 with
    | true | false => rfl
  rw [GivesBack,hr,h pageStart]
  cases (down pageStart).1 with
  | true | false => simp

end

section
variable {C E M : Type} [AddressMap.AddrMapCacheBase C Router.TargetInfo] [DmaSocket M]

/-- A forwarder with its state and transaction; the callbacks of a register router, and what is behind the others,
restore the address. -/
inductive Forwarder (C E M : Type) where
  | router (response : TlmResponse) (len : U64) (r : Router C)
  | regRouter (f : RegRouter.RegFile E) (hkeeps : ∀ r ∈ f.registers, r.KeepsAddress) (s : RegRouter.State E)
    (t : RegRouter.Txn)
  | addrtr (t : Addrtr) (len : U64)
  | smmuv3Tbu (topologyId : U32) (txn : Smmuv3.Txn) (s : Smmuv3 M) (ends : List (Option (Smmuv3 M)))
  | smmu500Tbu (cmd : TlmCommand) (t : Smmu500.Tbu) (s : Smmu500 M)

def Forwarder.run (down : ℕ → Downstream) (op : Op) : Forwarder C E M → Access Bool
  | .router response len r => Forwarders.router down response len r op
  | .regRouter f _ s t => Forwarders.regRouter down f s t op
  | .addrtr t len => Forwarders.addrtr down t len
  | .smmuv3Tbu topologyId txn s ends => Forwarders.smmuv3Tbu down topologyId txn s ends op
  | .smmu500Tbu cmd t s => Forwarders.smmu500Tbu down cmd t s op

/-- The request for direct access to a translated page is refused behind the forwarder. -/
def Forwarder.RefusedPage (down : ℕ → Downstream) (addr : U64) : Op → Forwarder C E M → Prop
  | .getDirectMemPtr, .smmu500Tbu cmd t s => ∃ te s', Smmu500.smmu500Translate addr cmd t.sid s = some (te,s') ∧
      te.addrMask ≠ BitVec.allOnes 64 ∧ te.pageStart < te.pageEnd ∧ (down 0 te.pageStart).1 = false ∧ te.pageStart ≠ addr
  | _, _ => False

variable {down : ℕ → Downstream} {addr : U64}

section
variable (hd : ∀ i, (down i).Restores)
include hd

lemma givesBack_router (response : TlmResponse) (len : U64) (r : Router C) (op : Op) :
    GivesBack (router down response len r op) addr := by
  show GivesBack (match (match op with
    | .getDirectMemPtr => (AddressMap.findRegion r.addressMap.regions addr).1
    | _ => (r.decodeAddress ⟨addr,len,response,[]⟩).1) with
    | none => pure false
    | some ti => _) addr
  split
  · exact givesBack_return false
  · split_ifs
    · exact givesBack_return false
    · exact givesBack_crossing _ _ (hd _)

lemma givesBack_regRouter {f : RegRouter.RegFile E}
    (hk : ∀ r ∈ f.registers, r.KeepsAddress) (s : RegRouter.State E) (t : RegRouter.Txn) (op : Op) :
    GivesBack (regRouter down f s t op) addr := by
  cases op with
  | bTransport =>
    rintro ret addr' h
    obtain ⟨⟨s',t'⟩,hc,hx⟩ := Option.map_eq_some_iff.mp h
    cases hx
    exact RegRouter.bTransport_address hk hc
  | transportDbg =>
    refine givesBack_get_iff.mpr (givesBack_lift_iff.mpr fun best _ => ?_)
    cases best with
    | none => exact givesBack_return false
    | some k => exact givesBack_crossing _ _ (hd k)
  | getDirectMemPtr => exact givesBack_return false

lemma givesBack_smmuv3Tbu (topologyId : U32) (txn : Smmuv3.Txn) (s : Smmuv3 M)
    (ends : List (Option (Smmuv3 M))) (op : Op) : GivesBack (smmuv3Tbu down topologyId txn s ends op) addr := by
  cases op with
  | bTransport =>
    refine givesBack_get_iff.mpr (givesBack_lift_iff.mpr fun out _ => ?_)
    split
    · exact givesBack_forwardTo _
    · exact givesBack_call (hd 0)
    · exact givesBack_return false
  | transportDbg => exact givesBack_forwardTo _
  | getDirectMemPtr =>
    show GivesBack (if _ then _ else _) addr
    split_ifs
    · exact givesBack_return false
    · exact givesBack_forwardTo _

end

lemma givesBack_smmu500Tbu (cmd : TlmCommand) (t : Smmu500.Tbu) (s : Smmu500 M)
    {op : Op} (hop : op ≠ .getDirectMemPtr) : GivesBack (smmu500Tbu down cmd t s op) addr := by
  refine givesBack_get_iff.mpr (givesBack_lift_iff.mpr fun te _ => ?_)
  cases op with
  | bTransport =>
    show GivesBack (if _ then _ else _) addr
    split_ifs
    · exact givesBack_return false
    · exact givesBack_forwardTo _
  | transportDbg => exact givesBack_forwardTo _
  | getDirectMemPtr => exact absurd rfl hop

omit [AddressMap.AddrMapCacheBase C Router.TargetInfo] in
/-- The only way out with another address: the page is asked for and refused. -/
lemma givesBack_smmu500Tbu_iff (hd : ∀ i, (down i).Restores) (cmd : TlmCommand) (t : Smmu500.Tbu) (s : Smmu500 M) :
    GivesBack (smmu500Tbu down cmd t s .getDirectMemPtr) addr ↔
      ¬ (Forwarder.smmu500Tbu cmd t s : Forwarder C E M).RefusedPage down addr .getDirectMemPtr := by
  have hs : GivesBack (smmu500Tbu down cmd t s .getDirectMemPtr) addr ↔
      ∀ x, Smmu500.smmu500Translate addr cmd t.sid s = some x → GivesBack (if x.1.addrMask = BitVec.allOnes 64 then
        if x.1.translatedAddr ≠ addr then failure else call (down 0)
      else if x.1.pageEnd ≤ x.1.pageStart then failure
      else pageRequest x.1.pageStart (down 0)) addr :=
    givesBack_get_iff.trans givesBack_lift_iff
  simp only [hs,Forwarder.RefusedPage,Prod.forall,not_exists,not_and]
  refine forall_congr' fun te => forall_congr' fun s' => imp_congr_right fun _ => ?_
  split_ifs with hm hsa he
  · simp [hm,givesBack_failure]
  · simp [hm,givesBack_call (hd 0)]
  · simp [not_lt.mpr he,givesBack_failure]
  · rw [givesBack_pageRequest_iff (hd 0)]
    simp only [ne_eq,hm,not_false_eq_true,not_le.mp he,not_not,forall_const]

/-- Every call of a forwarder that returns leaves its address, unless the SMMU-500's request for a translated page is
refused: that leaves the start of the page. -/
theorem address_given_back_iff (hdown : ∀ i, (down i).Restores) (x : Forwarder C E M) (op : Op) :
    GivesBack (x.run down op) addr ↔ ¬ x.RefusedPage down addr op := by
  cases x with
  | router response len r => exact iff_of_true (givesBack_router hdown response len r op) (by cases op <;> exact id)
  | regRouter f hk s t => exact iff_of_true (givesBack_regRouter hdown hk s t op) (by cases op <;> exact id)
  | addrtr t len =>
    refine iff_of_true (givesBack_get_iff.mpr (givesBack_lift_iff.mpr fun mapped _ => givesBack_forwardTo mapped)) ?_
    cases op <;> exact id
  | smmuv3Tbu topologyId txn s ends =>
    exact iff_of_true (givesBack_smmuv3Tbu hdown topologyId txn s ends op) (by cases op <;> exact id)
  | smmu500Tbu cmd t s =>
    by_cases hop : op = .getDirectMemPtr
    · subst hop
      exact givesBack_smmu500Tbu_iff hdown cmd t s
    · refine iff_of_true (givesBack_smmu500Tbu cmd t s hop) ?_
      cases op <;> first | exact id | exact absurd rfl hop

end

section
open Smmu500 in
/-- Three levels of tables lead from the page at `0x1000` to the one at `0x5000`. -/
def mapped : Forwarder AddressMap.AddrMapNoCache Unit Ram :=
  .smmu500Tbu .read {} (Tbu.tbuSmmu 0x10000 [(0x20000,0x21003),(0x21000,0x22003),(0x22008,0x54C3)])

def refusing : ℕ → Downstream := fun _ addr => (false,addr)

theorem address_given_back_debug : GivesBack (mapped.run refusing .transportDbg) 0x1000 ∧
    mapped.run refusing .transportDbg 0x1000 = some (false,0x1000) :=
  ⟨(address_given_back_iff (fun _ _ => rfl) mapped .transportDbg).mpr id,by decide +kernel⟩

/-- A refused request for the page leaves its physical address in the payload. -/
theorem refused_page_address_left : (∀ i, (refusing i).Restores) ∧
    mapped.run refusing .getDirectMemPtr 0x1000 = some (false,0x5000) ∧
    ¬ GivesBack (mapped.run refusing .getDirectMemPtr) 0x1000 := by
  have hr : mapped.run refusing .getDirectMemPtr 0x1000 = some (false,0x5000) := by decide +kernel
  exact ⟨fun _ _ => rfl,hr,fun h => absurd (h _ _ hr) (by decide)⟩

end

end Qbox.Forwarders
