import Qbox.PassRpcPayload

/-! `PassRPC` in its two modes: a `LocalPass` hands every operation to the container around it, a `RemotePass` to the
other process. Both have the same entry points, each with its own test of the mode. -/
namespace Qbox.PassRpc
/-- The operations of `transaction_forwarder_if`, on a state of the forwarder. -/
structure Forwarder (C Time : Type) where
  fwBTransport : C → ℕ → TlmGenericPayload → Time → C × TlmGenericPayload × Time
  fwTransportDbg : C → ℕ → TlmGenericPayload → C × TlmGenericPayload × ℕ
  fwGetDirectMemPtr : C → ℕ → TlmGenericPayload → TlmDmi → C × TlmGenericPayload × TlmDmi × Bool
  fwInvalidateDirectMemPtr : C → U64 → U64 → C
  fwHandleSignal : C → ℕ → Bool → C

inductive Operation (Time : Type) where
  | bTransport (id : ℕ) (txn : TlmGenericPayload) (delay : Time)
  | transportDbg (id : ℕ) (txn : TlmGenericPayload)
  | getDirectMemPtr (id : ℕ) (txn : TlmGenericPayload) (dmiData : TlmDmi)
  | invalidateDirectMemPtr (start endAddr : U64)
  | signal (id : ℕ) (value : Bool)

def Operation.isInvalidation {Time : Type} : Operation Time → Bool
  | .invalidateDirectMemPtr _ _ => true
  | _ => false

inductive Outcome (Time : Type) where
  | transported (txn : TlmGenericPayload) (delay : Time)
  | debugged (txn : TlmGenericPayload) (ret : ℕ)
  | granted (txn : TlmGenericPayload) (dmiData : TlmDmi) (ret : Bool)
  | done

/-- `tlm_dmi_rpc`: a region as a part of shared memory. -/
structure TlmDmiRpc where
  shmemFn : String
  shmemSize : ℕ
  shmemOffset : U64
  dmiStartAddress : U64
  dmiEndAddress : U64
  dmiAccess : IOMMUAccessFlags

inductive Request (Time : Type) where
  | bTspt (id : ℕ) (t : TlmGenericPayloadRpc) (quantumTime : Time)
  | dbgTspt (id : ℕ) (t : TlmGenericPayloadRpc)
  | dmiReq (id : ℕ) (t : TlmGenericPayloadRpc)
  | dmiInv (start endAddr : U64)
  | signal (id : ℕ) (value : Bool)
  | exit

inductive Reply (Time : Type) where
  | transported (r : TlmGenericPayloadRpc) (quantumTime : Time)
  | debugged (r : TlmGenericPayloadRpc)
  | dmi (r : TlmDmiRpc)
  | done

/-- The other process: its answer to a call, or none where the connection is closed. -/
structure Peer (Time : Type) where
  call : Request Time → Option (Reply Time)
  /-- `MemoryServices::map_mem_join`. -/
  mapMemJoin : String → ℕ → U64

/-- A `PassRPC`: its container, the mode asked for, whether it has a client and was stopped, the calls attempted, and
whether `_Exit` was reached. -/
structure Module (C Time : Type) where
  container : Option C
  isLocal : Bool
  client : Bool
  cancelWaiting : Bool
  rpcs : List (Request Time)
  exited : Bool

variable {C Time : Type}

def Forwarder.forward (fw : Forwarder C Time) (c : C) : Operation Time → C × Outcome Time
  | .bTransport id txn delay => let r := fw.fwBTransport c id txn delay; (r.1,.transported r.2.1 r.2.2)
  | .transportDbg id txn => let r := fw.fwTransportDbg c id txn; (r.1,.debugged r.2.1 r.2.2)
  | .getDirectMemPtr id txn dmiData =>
    let r := fw.fwGetDirectMemPtr c id txn dmiData; (r.1,.granted r.2.1 r.2.2.1 r.2.2.2)
  | .invalidateDirectMemPtr start endAddr => (fw.fwInvalidateDirectMemPtr c start endAddr,.done)
  | .signal id value => (fw.fwHandleSignal c id value,.done)

def Forwarder.forwardAll (fw : Forwarder C Time) (c : C) : List (Operation Time) → C × List (Outcome Time)
  | [] => (c,[])
  | op :: ops =>
    let first := fw.forward c op
    let rest := fw.forwardAll first.1 ops
    (rest.1,first.2 :: rest.2)

namespace Module
variable (fw : Forwarder C Time) (peer : Peer Time) (s : Module C Time)

def isLocalMode : Bool := s.container.isSome && s.isLocal

/-- `stop`, as far as the calls and the process go. -/
def stop : Module C Time := if s.cancelWaiting || s.isLocalMode then s
  else if s.client then
    {s with
      cancelWaiting := true
      client := false
      rpcs := s.rpcs++[.exit]
      exited := s.exited || (peer.call .exit).isNone}
  else {s with cancelWaiting := true}

def stopAndExit : Module C Time := {s.stop peer with exited := true}

/-- `do_rpc_call` and `do_rpc_async_call`: without a client or an answer the process ends. -/
def doRpcCall (request : Request Time) : Module C Time × Option (Reply Time) :=
  let s := {s with rpcs := s.rpcs++[request]}
  match (if s.client then peer.call request else none) with
  | some reply => (s,some reply)
  | none => (s.stopAndExit peer,none)

/-- `do_rpc_as`: a reply that cannot be read as what was asked for ends the process. -/
def doRpcAs {R : Type} (r : Module C Time × Option (Reply Time)) (read : Reply Time → Option R) :
    Module C Time × Option R :=
  match r.2 with
  | none => (r.1,none)
  | some reply =>
    match read reply with
    | some v => (r.1,some v)
    | none => (r.1.stopAndExit peer,none)

def forward (op : Operation Time) : Module C Time × Option (Outcome Time) := match s.container with
  | some c => let r := fw.forward c op; ({s with container := some r.1},some r.2)
  | none => (s,none)

variable (id : ℕ) (txn : TlmGenericPayload)

def bTransport (delay : Time) : Module C Time × Option (Outcome Time) :=
  if s.isLocalMode then s.forward fw (.bTransport id txn delay)
  else
    let r := doRpcAs peer (s.doRpcCall peer (.bTspt id (.fromTlm txn) delay)) fun
      | .transported r quantumTime => some (r,quantumTime)
      | _ => none
    (r.1,r.2.map fun r => .transported (r.1.updateToTlm txn) r.2)

def transportDbg : Module C Time × Option (Outcome Time) := if s.isLocalMode then s.forward fw (.transportDbg id txn)
  else
    let r := doRpcAs peer (s.doRpcCall peer (.dbgTspt id (.fromTlm txn))) fun
      | .debugged r => some r
      | _ => none
    (r.1,r.2.map fun r =>
      let txn := r.updateToTlm txn
      .debugged txn (if txn.responseStatus = .ok then txn.dataLength else 0))

def getDirectMemPtr (dmiData : TlmDmi) : Module C Time × Option (Outcome Time) :=
  if s.isLocalMode then s.forward fw (.getDirectMemPtr id txn dmiData)
  else
    let r := doRpcAs peer (s.doRpcCall peer (.dmiReq id (.fromTlm txn))) fun
      | .dmi r => some r
      | _ => none
    (r.1,r.2.map fun r =>
      if r.shmemSize = 0 then .granted txn dmiData false
      else .granted txn
        ⟨r.dmiStartAddress,r.dmiEndAddress,r.shmemOffset+peer.mapMemJoin r.shmemFn r.shmemSize,r.dmiAccess⟩
        (r.dmiAccess ≠ .none))

/-- An invalidation goes on to the remote call in both modes. -/
def invalidateDirectMemPtr (start endAddr : U64) : Module C Time × Option (Outcome Time) :=
  let s := if s.isLocalMode then (s.forward fw (.invalidateDirectMemPtr start endAddr)).1 else s
  let r := s.doRpcCall peer (.dmiInv start endAddr)
  (r.1,r.2.map fun _ => .done)

def handleSignal (value : Bool) : Module C Time × Option (Outcome Time) :=
  if s.isLocalMode then s.forward fw (.signal id value)
  else
    let r := s.doRpcCall peer (.signal id value)
    (r.1,r.2.map fun _ => .done)

/-- An operation; it has no outcome when the process ends in it. -/
def perform : Operation Time → Module C Time × Option (Outcome Time)
  | .bTransport id txn delay => s.bTransport fw peer id txn delay
  | .transportDbg id txn => s.transportDbg fw peer id txn
  | .getDirectMemPtr id txn dmiData => s.getDirectMemPtr fw peer id txn dmiData
  | .invalidateDirectMemPtr start endAddr => s.invalidateDirectMemPtr fw peer start endAddr
  | .signal id value => s.handleSignal fw peer id value

/-- A sequence of operations, as far as the process lives. -/
def run (s : Module C Time) : List (Operation Time) → Module C Time × List (Outcome Time)
  | [] => (s,[])
  | op :: ops =>
    match s.perform fw peer op with
    | (s',none) => (s',[])
    | (s',some outcome) => let rest := s'.run ops; (rest.1,outcome :: rest.2)

/-- A `LocalPass` inside a container: it starts no server and has no client. -/
def localPass (c : C) : Module C Time where
  container := some c
  isLocal := true
  client := false
  cancelWaiting := false
  rpcs := []
  exited := false

/-- A connected `RemotePass`. -/
def remotePass : Module C Time where
  container := none
  isLocal := false
  client := true
  cancelWaiting := false
  rpcs := []
  exited := false

variable {fw peer}

variable {op : Operation Time}

/-- Every operation but an invalidation is forwarded and nothing else. -/
lemma perform_localPass (c : C) (hop : op.isInvalidation = false) :
    (localPass c).perform fw peer op = (localPass (fw.forward c op).1,some (fw.forward c op).2) := by
  cases op with
  | invalidateDirectMemPtr => simp [Operation.isInvalidation] at hop
  | _ => rfl

/-- After an invalidation has been forwarded, the missing client ends the process. -/
lemma perform_localPass_invalidation (c : C) (hop : op.isInvalidation = true) :
    ((localPass c).perform fw peer op).1.exited = true := by
  cases op with
  | invalidateDirectMemPtr => rfl
  | _ => simp [Operation.isInvalidation] at hop

lemma run_of_exited {s : Module C Time} {ops : List (Operation Time)}
    (h : (s.perform fw peer op).2 = none) : (s.run fw peer (op :: ops)).1 = (s.perform fw peer op).1 := by
  rw [run]
  rcases hp : s.perform fw peer op with ⟨s',_ | outcome⟩
  · rfl
  · simp [hp] at h

lemma perform_localPass_none (c : C) (hop : op.isInvalidation = true) :
    ((localPass c).perform fw peer op).2 = none := by
  cases op with
  | invalidateDirectMemPtr => rfl
  | _ => simp [Operation.isInvalidation] at hop

/-- The operations on a `LocalPass` have exactly the effect of forwarding them when none is an invalidation. -/
theorem localPass_forwards_iff (fw : Forwarder C Time) (peer : Peer Time) (c : C) (ops : List (Operation Time)) :
    (localPass c).run fw peer ops = (localPass (fw.forwardAll c ops).1,(fw.forwardAll c ops).2) ↔
      ∀ op ∈ ops, op.isInvalidation = false := by
  induction ops generalizing c with
  | nil => simp [run,Forwarder.forwardAll]
  | cons op ops ih =>
    rw [List.forall_mem_cons]
    cases hop : op.isInvalidation with
    | true =>
      -- The process has ended, and the `LocalPass` on the right has not.
      simp only [Bool.true_eq_false,false_and,iff_false]
      intro heq
      have he : ((localPass c).perform fw peer op).1.exited = true := perform_localPass_invalidation c hop
      have hr : ((localPass c).run fw peer (op :: ops)).1 = _ := run_of_exited (perform_localPass_none c hop)
      rw [← hr,heq] at he
      simp [localPass] at he
    | false =>
      rw [run,perform_localPass c hop,Forwarder.forwardAll]
      simp only [true_and,← ih (fw.forward c op).1,Prod.ext_iff,List.cons.injEq]

def idleForwarder : Forwarder Unit Unit where
  fwBTransport c _ txn delay := (c,txn,delay)
  fwTransportDbg c _ txn := (c,txn,0)
  fwGetDirectMemPtr c _ txn dmiData := (c,txn,dmiData,false)
  fwInvalidateDirectMemPtr c _ _ := c
  fwHandleSignal c _ _ := c

def closedPeer : Peer Unit := ⟨fun _ => none,fun _ _ => 0⟩

/-- One invalidation from an initiator socket makes a remote call and ends the process. -/
theorem localPass_invalidation_exits :
    ((localPass ()).run idleForwarder closedPeer [.invalidateDirectMemPtr 0 0xFFF]).1.exited = true ∧
    ((localPass ()).run idleForwarder closedPeer [.invalidateDirectMemPtr 0 0xFFF]).1.rpcs = [.dmiInv 0 0xFFF] :=
  ⟨rfl,rfl⟩

/-- A peer that serves the transactions on the target, as the other half of the pair. -/
def servingPeer (f : TlmTarget) (delay : Time) (peer : Peer Time) : Peer Time where
  call
    | .bTspt _ t _ => some (.transported (bTransportRpc f t) delay)
    | .dbgTspt _ t => (transportDbgRpc f t).map .debugged
    | request => peer.call request
  mapMemJoin := peer.mapMemJoin

section
variable (fw : Forwarder C Time) (f : TlmTarget) (delay : Time) (peer : Peer Time) (id : ℕ) (p : TlmGenericPayload)

lemma remotePass_bTransport (delay' : Time) :
    ((remotePass : Module C Time).perform fw (servingPeer f delay peer) (.bTransport id p delay')).2 =
      some (.transported (PassRpc.bTransport f p) delay) := rfl

lemma remotePass_transportDbg :
    ((remotePass : Module C Time).perform fw (servingPeer f delay peer) (.transportDbg id p)).2 =
      (PassRpc.transportDbg f p).map fun r => .debugged r.1 r.2 := by
  cases h : transportDbgRpc f (.fromTlm p) <;>
    simp [perform,transportDbg,PassRpc.transportDbg,isLocalMode,remotePass,doRpcAs,doRpcCall,servingPeer,h]

end

end Module
end Qbox.PassRpc
