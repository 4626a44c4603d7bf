import Qbox.GuardedRun
import Qbox.Tlm

/-! `biflow_socket`: a queue of items that is sent as far as the other side allows. -/
namespace Qbox
open List

structure BiflowTxn where
  command : TlmCommand
  address : U64
  dataLength : U32
  deriving DecidableEq

inductive BiflowCtrl where
  | deltaChange (canSend : U32)
  | absoluteValue (canSend : U32)
  | infiniteValue
  deriving DecidableEq, Repr

/-- `biflow_socket`, as a sender of items. -/
structure BiflowSocket (T : Type) where
  canSend : U32
  infinite : Bool
  queue : List T
  txn : Option BiflowTxn
  deriving DecidableEq

/-- A transaction of `sendall`; so many items are then removed from the queue. -/
structure BiflowDelivery (T : Type) where
  txn : BiflowTxn
  streamingWidth : U32
  dataPtr : List T
  removed : ℕ
  deriving DecidableEq

/-- The data of the transaction, in the length that it announces. -/
def BiflowDelivery.items {T : Type} (d : BiflowDelivery T) : List T := d.dataPtr.take d.txn.dataLength.toNat

namespace BiflowSocket
variable {T : Type} (s : BiflowSocket T)

def constructed : BiflowSocket T := ⟨0,false,[],none⟩

/-- `can_receive_more`, `can_receive_set` and `can_receive_any`: the message sent to the other side. -/
def canReceiveMore (i : U32) : BiflowCtrl := .deltaChange i
def canReceiveSet (i : U32) : BiflowCtrl := .absoluteValue i
def canReceiveAny : BiflowCtrl := .infiniteValue

def sending : ℕ := if s.infinite ∨ s.queue.length < s.canSend.toNat then s.queue.length else s.canSend.toNat

def sendingTxn : BiflowTxn := s.txn.getD ⟨.ignore,0,BitVec.ofNat 32 s.sending⟩

/-- `sendall`: the transaction sent, and the socket after it. -/
def sendall : Option (BiflowDelivery T) × BiflowSocket T := if 0 < s.sending then
    (some ⟨s.sendingTxn,BitVec.ofNat 32 s.sending,s.queue,s.sending⟩,
      {s with queue := s.queue.drop s.sending, canSend := s.canSend-BitVec.ofNat 32 s.sending})
  else (none,s)

/-- `initiator_ctrl`, without its assertion that the sender is limited. -/
def initiatorCtrl : BiflowCtrl → BiflowSocket T
  | .absoluteValue n => {s with canSend := n, infinite := false}
  | .deltaChange n => {s with canSend := s.canSend+n, infinite := false}
  | .infiniteValue => {s with infinite := true}

def enqueue (data : T) : BiflowSocket T := {s with queue := s.queue++[data]}

def setDefaultTxn (txn : BiflowTxn) : BiflowSocket T := {s with txn := some txn}

def reset : BiflowSocket T := {s with queue := []}

variable {s}

lemma foldl_enqueue (l : List T) : l.foldl enqueue s = {s with queue := s.queue++l} := by
  induction l generalizing s with
  | nil => simp
  | cons x l ih => simp [ih,enqueue]

lemma sending_le_length : s.sending ≤ s.queue.length := by
  rw [sending]
  split
  · exact le_rfl
  · rename_i h
    exact not_lt.mp (not_or.mp h).2

lemma sending_eq_min (h : s.infinite = false) : s.sending = min s.queue.length s.canSend.toNat := by
  simp only [sending,h,Bool.false_eq_true,false_or]
  split <;> omega

lemma sending_le_canSend (h : s.infinite = false) : s.sending ≤ s.canSend.toNat := by
  rw [sending_eq_min h]
  exact min_le_right _ _

lemma sendall_pos (h : 0 < s.sending) : s.sendall =
    (some ⟨s.sendingTxn,BitVec.ofNat 32 s.sending,s.queue,s.sending⟩,
      {s with queue := s.queue.drop s.sending, canSend := s.canSend-BitVec.ofNat 32 s.sending}) := if_pos h

lemma sendall_zero (h : s.sending = 0) : s.sendall = (none,s) := if_neg (by omega)

lemma canSend_sub_sending (h : s.infinite = false) :
    (s.canSend-BitVec.ofNat 32 s.sending).toNat+s.sending = s.canSend.toNat := by
  have hle := sending_le_canSend h
  rw [BitVec.toNat_sub,BitVec.toNat_ofNat,Nat.mod_eq_of_lt (show s.sending < 2^32 by omega)]
  omega

end BiflowSocket

/-- A socket with its history: the items accepted, the transactions sent, and since the last absolute value the credit
given, the items sent, and whether reception is unlimited. -/
structure BiflowChannel (T : Type) where
  socket : BiflowSocket T
  accepted : List T
  log : List (BiflowDelivery T)
  allowed : ℕ
  sent : ℕ
  unlimited : Bool

inductive BiflowEvent (T : Type) where
  | enqueue (data : T)
  | control (c : BiflowCtrl)
  | sendall
  | reset
  deriving DecidableEq, Repr

namespace BiflowChannel
variable {T : Type} (c : BiflowChannel T)

def delivered : List T := c.log.flatMap BiflowDelivery.items

def control (m : BiflowCtrl) : BiflowChannel T := let c := {c with socket := c.socket.initiatorCtrl m}
  match m with
  | .absoluteValue n => {c with allowed := n.toNat, sent := 0, unlimited := false}
  | .deltaChange n => {c with allowed := c.allowed+n.toNat}
  | .infiniteValue => {c with unlimited := true}

def sendall : BiflowChannel T := match c.socket.sendall with
  | (none,_) => c
  | (some d,socket) => {c with socket := socket, log := c.log++[d], sent := c.sent+d.items.length}

def step : BiflowEvent T → BiflowChannel T
  | .enqueue data => {c with socket := c.socket.enqueue data, accepted := c.accepted++[data]}
  | .control m => c.control m
  | .sendall => c.sendall
  | .reset =>
    {c with socket := c.socket.reset, accepted := c.accepted.take (c.accepted.length-c.socket.queue.length)}

def constructed : BiflowChannel T := ⟨.constructed,[],[],0,0,false⟩

/-- What was accepted is delivered in order or queued, and a limited sender has kept its limit. -/
structure Delivers (c : BiflowChannel T) : Prop where
  data : c.delivered++c.socket.queue = c.accepted
  credit : c.unlimited = false → c.sent ≤ c.allowed

def Announceable : BiflowEvent T → Prop
  | .sendall => c.socket.infinite = true → c.socket.queue.length < 2^32
  | _ => True

/-- There is no default transaction, and the credit left is what has not been used. -/
structure Credited (c : BiflowChannel T) : Prop where
  txn : c.socket.txn = none
  credit : c.unlimited = false → c.socket.infinite = false ∧ c.sent+c.socket.canSend.toNat ≤ c.allowed

variable {c}

lemma sendall_pos (h : 0 < c.socket.sending) (ht : c.socket.txn = none) : c.sendall = {c with
      socket := {c.socket with
        queue := c.socket.queue.drop c.socket.sending, canSend := c.socket.canSend-BitVec.ofNat 32 c.socket.sending}
      log := c.log++[⟨⟨.ignore,0,BitVec.ofNat 32 c.socket.sending⟩,BitVec.ofNat 32 c.socket.sending,c.socket.queue,
        c.socket.sending⟩]
      sent := c.sent+(c.socket.queue.take (c.socket.sending % 2^32)).length} := by
  rw [sendall,BiflowSocket.sendall_pos h]
  simp [BiflowDelivery.items,BiflowSocket.sendingTxn,ht]

lemma sendall_zero (h : c.socket.sending = 0) : c.sendall = c := by
  rw [sendall,BiflowSocket.sendall_zero h]

lemma Credited.step (h : Credited c) (e : BiflowEvent T) : Credited (c.step e) := by
  obtain ⟨ht,hc⟩ := h
  cases e with
  | enqueue data | reset => exact ⟨ht,hc⟩
  | control m =>
    cases m with
    | absoluteValue n => exact ⟨ht,fun _ => ⟨rfl,by simp [BiflowChannel.step,control,BiflowSocket.initiatorCtrl]⟩⟩
    | infiniteValue => exact ⟨ht,nofun⟩
    | deltaChange n =>
      refine ⟨ht,fun hun => ⟨rfl,?_⟩⟩
      have hle := (hc hun).2
      -- The credit may wrap around, which only lowers it.
      simp only [BiflowChannel.step,control,BiflowSocket.initiatorCtrl,BitVec.toNat_add]
      omega
  | sendall =>
    rw [BiflowChannel.step]
    rcases Nat.eq_zero_or_pos c.socket.sending with h0 | hp
    · rw [sendall_zero h0]
      exact ⟨ht,hc⟩
    · rw [sendall_pos hp ht]
      refine ⟨ht,fun hun => ?_⟩
      obtain ⟨hi,hle⟩ := hc hun
      refine ⟨hi,?_⟩
      have hs := BiflowSocket.canSend_sub_sending hi
      simp only [length_take]
      omega

lemma Credited.constructed : Credited (constructed : BiflowChannel T) := ⟨rfl,fun _ => ⟨rfl,le_rfl⟩⟩

lemma Credited.sent_le (h : Credited c) (hun : c.unlimited = false) : c.sent ≤ c.allowed := by
  have := (h.credit hun).2
  omega

/-- The items sent leave the queue as they are delivered when the transaction can announce their number. -/
lemma sendall_data_iff (h : Credited c) (hd : c.delivered++c.socket.queue = c.accepted) :
    c.sendall.delivered++c.sendall.socket.queue = c.accepted ↔ c.Announceable .sendall := by
  have hle := BiflowSocket.sending_le_length (s := c.socket)
  have ha : c.Announceable .sendall ↔ c.socket.sending < 2^32 := by
    rw [Announceable]
    cases hi : c.socket.infinite with
    | true => simp [BiflowSocket.sending,hi]
    | false =>
      have hc := BiflowSocket.sending_le_canSend hi
      simp only [Bool.false_eq_true,false_implies,true_iff]
      omega
  rw [ha]
  rcases Nat.eq_zero_or_pos c.socket.sending with h0 | hp
  · rw [sendall_zero h0]
    simp [hd,h0]
  · rw [sendall_pos hp h.txn,← hd]
    simp only [delivered,flatMap_append,flatMap_singleton,List.append_assoc,append_cancel_left_eq,
      BiflowDelivery.items,BitVec.toNat_ofNat]
    constructor
    · intro heq
      have hl := congrArg List.length heq
      simp only [length_append,length_take,length_drop] at hl
      omega
    · intro hlt
      rw [Nat.mod_eq_of_lt hlt,take_append_drop]

lemma Delivers.step_iff (hc : Credited c) (h : Delivers c) (e : BiflowEvent T) :
    Delivers (c.step e) ↔ c.Announceable e := by
  have hcr := (hc.step e).sent_le
  have hs : Delivers (c.step e) ↔ (c.step e).delivered++(c.step e).socket.queue = (c.step e).accepted :=
    ⟨fun h => h.data,fun h => ⟨h,hcr⟩⟩
  have hd := h.data
  rw [hs]
  cases e with
  | enqueue data => simp [step,Announceable,delivered,BiflowSocket.enqueue,← hd]
  | control m => cases m <;> simpa [step,Announceable,control,BiflowSocket.initiatorCtrl,delivered] using hd
  | reset => simp [step,Announceable,BiflowSocket.reset,delivered,← hd]
  | sendall =>
    have ha : c.sendall.accepted = c.accepted := by
      rw [sendall]
      split <;> rfl
    rw [step,ha]
    exact sendall_data_iff hc hd

/-- In every run without a default transaction items are delivered in order, none lost or twice, within the credit,
exactly when no unlimited `sendall` finds `2^32` items. -/
theorem biflow_delivers_iff (l : List (BiflowEvent T)) :
    (∀ l', l' <+: l → Delivers (l'.foldl step (constructed : BiflowChannel T))) ↔
      GuardedRun.Along step Announceable (constructed : BiflowChannel T) l :=
  GuardedRun.forall_prefix_iff_along (fun _ e hc _ _ => hc.step e) (fun _ e hc h => h.step_iff hc e)
    .constructed ⟨rfl,fun _ => le_rfl⟩ l

lemma foldl_enqueue (l : List T) : (l.map .enqueue).foldl step c =
    {c with socket := {c.socket with queue := c.socket.queue++l}, accepted := c.accepted++l} := by
  induction l generalizing c with
  | nil => simp
  | cons x l ih => simp [ih,step,BiflowSocket.enqueue]

def floodedRun (n : ℕ) : List (BiflowEvent U8) :=
  (List.replicate n 0).map .enqueue++[.control BiflowSocket.canReceiveAny,.sendall]

/-- A number of items that the length of a transaction cannot hold is announced without its upper part. -/
lemma flooded_delivered {n : ℕ} (hp : 0 < n) (hm : n % 2^32 = 0) :
    ((floodedRun n).foldl step constructed).delivered = [] ∧
    ((floodedRun n).foldl step constructed).socket.queue = [] ∧
    ((floodedRun n).foldl step constructed).accepted.length = n := by
  have hr : (floodedRun n).foldl step constructed =
      sendall ⟨⟨0,true,List.replicate n 0,none⟩,List.replicate n 0,[],0,0,true⟩ := by
    rw [floodedRun,foldl_append,foldl_enqueue]
    rfl
  have hs : (⟨0,true,List.replicate n 0,none⟩ : BiflowSocket U8).sending = n := by simp [BiflowSocket.sending]
  rw [hr,sendall_pos (hs.symm ▸ hp) rfl]
  simp only [hs]
  refine ⟨?_,?_,?_⟩
  · simp only [delivered,nil_append,flatMap_singleton,BiflowDelivery.items,BitVec.toNat_ofNat,hm,take_zero]
  · rw [drop_replicate,Nat.sub_self,List.replicate_zero]
  · exact length_replicate

/-- With `2^32` items the transaction announces none, and all of them leave the queue. -/
theorem biflow_flood_lost : ((floodedRun (2^32)).foldl step constructed).delivered = [] ∧
    ((floodedRun (2^32)).foldl step constructed).socket.queue = [] ∧
    ((floodedRun (2^32)).foldl step constructed).accepted.length = 2^32 :=
  flooded_delivered (Nat.two_pow_pos 32) (Nat.mod_self _)

end BiflowChannel
end Qbox
