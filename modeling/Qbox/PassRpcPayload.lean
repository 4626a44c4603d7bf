import Qbox.Tlm

/-! Transactions through a pair of `PassRPC` modules: the payload is copied into a message, out of it on the other side,
and back, and the answer is merged into the initiator's payload. Extensions and times are left out. -/
namespace Qbox
open List Option

/-- `tlm::tlm_gp_option`. -/
inductive TlmGpOption where
  | minPayload | fullPayload | fullPayloadAccepted
  deriving DecidableEq, Repr

/-- `tlm::tlm_generic_payload`. A pointer is the array it points to, or null; arrays have the lengths announced, none
without data. -/
structure TlmGenericPayload where
  command : TlmCommand
  address : U64
  dataPtr : Option (List U8)
  dataLength : ℕ
  responseStatus : TlmResponse
  dmiAllowed : Bool
  byteEnablePtr : Option (List Bool)
  byteEnableLength : ℕ
  streamingWidth : ℕ
  gpOption : TlmGpOption
  data_length : ∀ d ∈ dataPtr, d.length = dataLength
  data_null : dataPtr = none → dataLength = 0
  byteEnable_length : ∀ b ∈ byteEnablePtr, b.length = byteEnableLength

/-- What a target can tell about a transaction: an array of length zero is no array. -/
@[ext]
structure TlmRequest where
  command : TlmCommand
  address : U64
  data : List U8
  responseStatus : TlmResponse
  dmiAllowed : Bool
  byteEnable : List Bool
  streamingWidth : ℕ
  gpOption : TlmGpOption
  deriving DecidableEq

/-- What a target makes of a transaction; the number of bytes is returned by a debug access only. -/
structure TlmAnswer where
  data : List U8
  responseStatus : TlmResponse
  dmiAllowed : Bool
  count : ℕ
  deriving DecidableEq

structure TlmTarget where
  answer : TlmRequest → TlmAnswer
  length_answer : ∀ r, (answer r).data.length = r.data.length

def TlmRequest.enabled (r : TlmRequest) (i : ℕ) : Bool :=
  r.byteEnable.length = 0 || r.byteEnable.getD (i % r.byteEnable.length) false

/-- A target changes the data on reads only, and there the enabled bytes only. -/
def TlmTarget.Respects (f : TlmTarget) (r : TlmRequest) : Prop := match r.command with
  | .read => ∀ i, r.enabled i = false → (f.answer r).data[i]? = r.data[i]?
  | .write | .ignore => (f.answer r).data = r.data

namespace PassRpc
/-- An array is copied where there is one, unless its length is zero. -/
def copied {α : Type} (length : ℕ) (ptr : Option (List α)) : List α := if length = 0 then [] else ptr.getD []

lemma copied_some {α : Type} {length : ℕ} {l : List α} (h : l.length = length) : copied length (some l) = l := by
  rw [copied]
  split
  · exact (eq_nil_of_length_eq_zero (by omega)).symm
  · rfl

lemma copied_pointer {α : Type} (l : List α) : copied l.length (if l.length = 0 then none else some l) = l := by
  split
  · rename_i h0
    rw [copied,if_pos h0,eq_nil_of_length_eq_zero h0]
  · exact copied_some rfl

end PassRpc

def TlmGenericPayload.request (p : TlmGenericPayload) : TlmRequest where
  command := p.command
  address := p.address
  data := PassRpc.copied p.dataLength p.dataPtr
  responseStatus := p.responseStatus
  dmiAllowed := p.dmiAllowed
  byteEnable := PassRpc.copied p.byteEnableLength p.byteEnablePtr
  streamingWidth := p.streamingWidth
  gpOption := p.gpOption

lemma TlmGenericPayload.request_data {p : TlmGenericPayload} {d : List U8} (h : p.dataPtr = some d) :
    p.request.data = d := by
  rw [request,h]
  exact PassRpc.copied_some (p.data_length d h)

def TlmTarget.transport (f : TlmTarget) (p : TlmGenericPayload) : TlmGenericPayload where
  command := p.command
  address := p.address
  dataPtr := p.dataPtr.map fun _ => (f.answer p.request).data
  dataLength := p.dataLength
  responseStatus := (f.answer p.request).responseStatus
  dmiAllowed := (f.answer p.request).dmiAllowed
  byteEnablePtr := p.byteEnablePtr
  byteEnableLength := p.byteEnableLength
  streamingWidth := p.streamingWidth
  gpOption := p.gpOption
  data_length := by
    intro d hd
    obtain ⟨d',hd',rfl⟩ := Option.mem_map.mp hd
    rw [f.length_answer,p.request_data hd',p.data_length d' hd']
  data_null h := p.data_null (by simpa using h)
  byteEnable_length := p.byteEnable_length

namespace PassRpc
/-- `tlm_generic_payload_rpc`. The arrays have the lengths of the message. -/
structure TlmGenericPayloadRpc where
  address : U64
  command : TlmCommand
  length : ℕ
  responseStatus : TlmResponse
  dmi : Bool
  byteEnableLength : ℕ
  streamingWidth : ℕ
  gpOption : TlmGpOption
  data : List U8
  byteEnable : List Bool
  data_length : data.length = length
  byteEnable_length : byteEnable.length = byteEnableLength

def TlmGenericPayloadRpc.fromTlm (p : TlmGenericPayload) : TlmGenericPayloadRpc where
  address := p.address
  command := p.command
  length := (copied p.dataLength p.dataPtr).length
  responseStatus := p.responseStatus
  dmi := p.dmiAllowed
  byteEnableLength := (copied p.byteEnableLength p.byteEnablePtr).length
  streamingWidth := p.streamingWidth
  gpOption := p.gpOption
  data := copied p.dataLength p.dataPtr
  byteEnable := copied p.byteEnableLength p.byteEnablePtr
  data_length := rfl
  byteEnable_length := rfl

namespace TlmGenericPayloadRpc
variable (t : TlmGenericPayloadRpc)

def deepCopyToTlm : TlmGenericPayload where
  command := t.command
  address := t.address
  dataPtr := if t.length = 0 then none else some t.data
  dataLength := t.length
  responseStatus := t.responseStatus
  dmiAllowed := t.dmi
  byteEnablePtr := if t.byteEnableLength = 0 then none else some t.byteEnable
  byteEnableLength := t.byteEnableLength
  streamingWidth := t.streamingWidth
  gpOption := t.gpOption
  data_length := by
    intro d hd
    split at hd
    · simp at hd
    · rw [← t.data_length,mem_some.mp hd]
  data_null h := by
    by_contra h0
    simp [h0] at h
  byteEnable_length := by
    intro b hb
    split at hb
    · simp at hb
    · rw [← t.byteEnable_length,mem_some.mp hb]

/-- The byte enables for merging the answer; they are dropped when the message has none. -/
def mergeEnablePtr (p : TlmGenericPayload) : Option (List Bool) :=
  if t.byteEnableLength = 0 then none else p.byteEnablePtr

def mergeByte (p : TlmGenericPayload) (i : ℕ) (old : U8) : U8 :=
  if (t.mergeEnablePtr p).all fun be => be.getD (i % p.byteEnableLength) false then t.data.getD i old else old

/-- `update_to_tlm`: the data is merged for a read where both sides have some. -/
def updateToTlm (p : TlmGenericPayload) : TlmGenericPayload where
  command := p.command
  address := p.address
  dataPtr := p.dataPtr.map fun d => if p.command = .read ∧ t.length ≠ 0 then d.mapIdx (t.mergeByte p) else d
  dataLength := p.dataLength
  responseStatus := t.responseStatus
  dmiAllowed := t.dmi
  byteEnablePtr := t.mergeEnablePtr p
  byteEnableLength := p.byteEnableLength
  streamingWidth := p.streamingWidth
  gpOption := p.gpOption
  data_length := by
    intro d hd
    obtain ⟨d',hd',rfl⟩ := Option.mem_map.mp hd
    rw [← p.data_length d' hd']
    split <;> simp
  data_null h := p.data_null (by simpa using h)
  byteEnable_length := by
    intro b hb
    rw [mergeEnablePtr] at hb
    split at hb
    · simp at hb
    · exact p.byteEnable_length b hb

end TlmGenericPayloadRpc

open TlmGenericPayloadRpc

/-- `b_transport_rpc` of the serving side, whose socket is bound to the target. -/
def bTransportRpc (f : TlmTarget) (t : TlmGenericPayloadRpc) : TlmGenericPayloadRpc :=
  fromTlm (f.transport t.deepCopyToTlm)

/-- `b_transport` through the pair. -/
def bTransport (f : TlmTarget) (p : TlmGenericPayload) : TlmGenericPayload :=
  (bTransportRpc f (fromTlm p)).updateToTlm p

/-- `transport_dbg_rpc` of the serving side; the assertion fails when a successful access falls short. -/
def transportDbgRpc (f : TlmTarget) (t : TlmGenericPayloadRpc) : Option TlmGenericPayloadRpc :=
  let trans := f.transport t.deepCopyToTlm
  let retLen := (f.answer t.deepCopyToTlm.request).count
  if trans.dataLength = retLen ∨ trans.responseStatus ≠ .ok then some (fromTlm trans) else none

/-- `transport_dbg` through the pair, with the number of bytes it returns. -/
def transportDbg (f : TlmTarget) (p : TlmGenericPayload) : Option (TlmGenericPayload × ℕ) :=
  (transportDbgRpc f (fromTlm p)).map fun r =>
    let trans := r.updateToTlm p
    (trans,if trans.responseStatus = .ok then trans.dataLength else 0)

def SameAnswer (p q : TlmGenericPayload) : Prop :=
  p.dataPtr = q.dataPtr ∧ p.responseStatus = q.responseStatus ∧ p.dmiAllowed = q.dmiAllowed

variable {f : TlmTarget} {p : TlmGenericPayload}

lemma request_deepCopyToTlm_fromTlm (p : TlmGenericPayload) : (fromTlm p).deepCopyToTlm.request = p.request :=
  TlmRequest.ext rfl rfl (copied_pointer _) rfl rfl (copied_pointer _) rfl rfl

lemma bTransportRpc_data (f : TlmTarget) (p : TlmGenericPayload) :
    (bTransportRpc f (fromTlm p)).data = (f.answer p.request).data := by
  have hl := f.length_answer p.request
  rw [bTransportRpc,← request_deepCopyToTlm_fromTlm p] at *
  generalize hq : (fromTlm p).deepCopyToTlm = q at *
  cases hp : q.dataPtr with
  | none =>
    have hn : q.request.data = [] := by simp [TlmGenericPayload.request,copied,q.data_null hp]
    rw [hn,length_nil,length_eq_zero_iff] at hl
    simp [fromTlm,TlmTarget.transport,hp,hl,copied]
  | some d =>
    simp only [fromTlm,TlmTarget.transport,hp,map_some]
    exact copied_some (by rw [hl,q.request_data hp,q.data_length d hp])

lemma bTransportRpc_byteEnableLength (f : TlmTarget) (p : TlmGenericPayload) :
    (bTransportRpc f (fromTlm p)).byteEnableLength = p.request.byteEnable.length :=
  congrArg List.length (copied_pointer _)

/-- The answer is merged under the byte enables that the target has seen. -/
lemma all_mergeEnablePtr (f : TlmTarget) (p : TlmGenericPayload) (i : ℕ) :
    ((bTransportRpc f (fromTlm p)).mergeEnablePtr p).all (fun be => be.getD (i % p.byteEnableLength) false) =
      p.request.enabled i := by
  rw [mergeEnablePtr,bTransportRpc_byteEnableLength,TlmRequest.enabled]
  split
  · rename_i h0
    simp [h0]
  · rename_i h0
    cases hp : p.byteEnablePtr with
    | none => simp [TlmGenericPayload.request,copied,hp] at h0
    | some be =>
      have hl := p.byteEnable_length be hp
      have hbe : p.request.byteEnable = be := by
        rw [TlmGenericPayload.request,hp]
        exact copied_some hl
      rw [hbe] at h0 ⊢
      simp [← hl,h0]

lemma bTransport_responseStatus (f : TlmTarget) (p : TlmGenericPayload) :
    (bTransport f p).responseStatus = (f.answer p.request).responseStatus := by
  rw [← request_deepCopyToTlm_fromTlm p]
  rfl

lemma bTransport_dmiAllowed (f : TlmTarget) (p : TlmGenericPayload) :
    (bTransport f p).dmiAllowed = (f.answer p.request).dmiAllowed := by
  rw [← request_deepCopyToTlm_fromTlm p]
  rfl

lemma mapIdx_merge_eq_iff {enabled : ℕ → Bool} {old new : List U8} (hl : new.length = old.length) :
    old.mapIdx (fun i b => if enabled i then new.getD i b else b) = new ↔
      ∀ i, enabled i = false → new[i]? = old[i]? := by
  constructor
  · intro heq i hi
    rw [← heq]
    simp [getElem?_mapIdx,hi]
  · intro hk
    refine ext_getElem (by simp [hl]) fun i h1 h2 => ?_
    have hi : i < old.length := by simpa using h1
    have hold := hk i
    rw [List.getElem?_eq_getElem h2,List.getElem?_eq_getElem hi,some_inj] at hold
    cases hen : enabled i with
    | true => simp [hen,h2]
    | false => simp [hen,hold hen]

lemma bTransport_dataPtr_iff (f : TlmTarget) (p : TlmGenericPayload) :
    (bTransport f p).dataPtr = (f.transport p).dataPtr ↔ f.Respects p.request := by
  have hl := f.length_answer p.request
  have hd := bTransportRpc_data f p
  have ht := (bTransportRpc f (fromTlm p)).data_length
  rw [hd,hl] at ht
  cases hp : p.dataPtr with
  | none =>
    have hn : p.request.data = [] := by simp [TlmGenericPayload.request,copied,p.data_null hp]
    rw [hn,length_nil,length_eq_zero_iff] at hl
    simp only [bTransport,updateToTlm,TlmTarget.transport,hp,map_none,true_iff,TlmTarget.Respects,hl,hn]
    split <;> simp
  | some d =>
    rw [p.request_data hp] at hl ht
    simp only [bTransport,updateToTlm,TlmTarget.transport,hp,map_some,some_inj,← ht,
      funext₂ fun i b => show mergeByte _ p i b = _ by rw [mergeByte,all_mergeEnablePtr,hd]]
    have hc : p.request.command = p.command := rfl
    rw [TlmTarget.Respects,hc,p.request_data hp]
    cases p.command with
    | read =>
      by_cases h0 : d.length = 0
      · rw [h0,length_eq_zero_iff] at hl
        simp [eq_nil_of_length_eq_zero h0,hl]
      · rw [if_pos ⟨rfl,h0⟩]
        exact mapIdx_merge_eq_iff hl
    | write | ignore => simp [eq_comm]

lemma bTransport_sameAnswer_iff (f : TlmTarget) (p : TlmGenericPayload) :
    SameAnswer (bTransport f p) (f.transport p) ↔ f.Respects p.request := by
  rw [SameAnswer,bTransport_responseStatus,bTransport_dmiAllowed,bTransport_dataPtr_iff]
  exact and_iff_left ⟨rfl,rfl⟩

/-- A debug access is answered like any other, unless the assertion of the serving side fails. -/
lemma transportDbg_eq (f : TlmTarget) (p : TlmGenericPayload) : transportDbg f p =
      if p.request.data.length = (f.answer p.request).count ∨ (f.answer p.request).responseStatus ≠ .ok then
        some (bTransport f p,if (f.answer p.request).responseStatus = .ok then p.dataLength else 0)
      else none := by
  rw [transportDbg,transportDbgRpc,← bTransport_responseStatus]
  have hs : (f.transport (fromTlm p).deepCopyToTlm).responseStatus = (bTransport f p).responseStatus := rfl
  have hl : (f.transport (fromTlm p).deepCopyToTlm).dataLength = p.request.data.length := rfl
  simp only [request_deepCopyToTlm_fromTlm,hs,hl]
  split <;> rfl

def swapping : TlmTarget where
  answer r := ⟨r.data.map fun _ => 0,.ok,false,r.data.length⟩
  length_answer _ := length_map _

def writeOne : TlmGenericPayload where
  command := .write
  address := 0x1000
  dataPtr := some [0x5A]
  dataLength := 1
  responseStatus := .incomplete
  dmiAllowed := false
  byteEnablePtr := none
  byteEnableLength := 0
  streamingWidth := 1
  gpOption := .minPayload
  data_length := by simp
  data_null := by simp
  byteEnable_length := by simp

end PassRpc
end Qbox
