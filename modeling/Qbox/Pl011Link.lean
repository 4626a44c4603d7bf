import Qbox.Pl011
import Qbox.RingQueue

/-! A `Pl011` whose `backend_socket` is bound to a `biflow_socket` that sends it characters. -/
namespace Qbox
open List BitVec BiflowSocket

namespace Pl011
variable {s : Pl011}

def contents (s : Pl011) : List U32 := (List.range s.readCount).map fun i => s.readFifo ((s.readPos+i) % 16)

lemma slot_eq (hp : s.readPos < 16) (hr : s.readCount < 16) : s.slot = (s.readPos+s.readCount) % 16 := by
  rw [slot]
  split <;> omega

lemma contents_put (hp : s.readPos < 16) (hr : s.readCount < 16) (value : U32) :
    (s.pl011PutFifo value).contents = s.contents++[value] := by
  rw [contents,put_readCount,put_readFifo,put_readPos,range_succ,map_append,map_singleton,
    slot_eq hp hr,Function.update_self,contents]
  refine congrArg (·++[value]) (map_congr_left fun i hi => ?_)
  rw [mem_range] at hi
  exact Function.update_of_ne (RingQueue.cell_ne (n := 4) s.readPos hi (by omega)) _ _

lemma contents_readDr (hp : s.readPos < 16) (hc : 0 < s.readCount) :
    s.contents = s.readFifo s.readPos :: s.readDr.2.2.contents := by
  obtain ⟨n,hn⟩ : ∃ n, s.readCount = n+1 := ⟨s.readCount-1,by omega⟩
  have hne := (readDr_readPos hp).trans (if_pos hc)
  have hc' : s.readDr.2.2.readCount = n := by
    rw [readDr_readCount]
    omega
  have hf : s.readDr.2.2.readFifo = s.readFifo := rfl
  rw [contents,contents,hne,hc',hf,hn,range_succ_eq_map,map_cons,List.map_map,Nat.add_zero,Nat.mod_eq_of_lt hp]
  refine congrArg _ (map_congr_left fun i _ => ?_)
  rw [Function.comp_apply,Nat.mod_add_mod,Nat.succ_eq_add_one,Nat.add_assoc,Nat.add_comm 1]

lemma receive_contents (cs : List U8) (hpo : s.readPos < 16) (hr : s.readCount+cs.length ≤ 16) :
    let s' := cs.foldl (fun s c => s.pl011PutFifo (c.setWidth 32)) s
    s'.contents = s.contents++cs.map (setWidth 32) ∧ s'.readCount = s.readCount+cs.length ∧
      s'.readPos = s.readPos ∧ s'.overrun = s.overrun := by
  induction cs generalizing s with
  | nil => simp
  | cons c cs ih =>
    rw [length_cons] at hr
    have hlt : s.readCount < 16 := by omega
    obtain ⟨hc,hn,hp,ho⟩ := ih (s := s.pl011PutFifo (c.setWidth 32)) (by simpa using hpo) (by simp; omega)
    have hs : ¬16 ≤ s.slot := by
      rw [slot_eq hpo hlt]
      omega
    refine ⟨?_,?_,?_,?_⟩
    · rw [foldl_cons,hc,contents_put hpo hlt]
      simp
    · rw [foldl_cons,hn]
      simp
      omega
    · rw [foldl_cons,hp,put_readPos]
    · rw [foldl_cons,ho]
      simp [hs]

lemma write_reset (s : Pl011) {offset : U64} (value : U32)
    (hr : (offset >>> 2).toNat = 11 ∨ (offset >>> 2).toNat = 13) :
    ∃ lcr ifl pos, (pos = 0 ∨ pos = s.readPos) ∧ s.pl011Write offset value = ([canReceiveSet 16],
      {s with lcr := lcr, ifl := ifl, readPos := pos, readTrigger := 1, readCount := 0}) := by
  rcases hr with hr | hr
  · obtain ⟨pos,hp,heq⟩ := writeLcr_snd value
    refine ⟨value,s.ifl,pos,hp,?_⟩
    rw [← heq]
    simp only [pl011Write,hr]
    rfl
  · refine ⟨s.lcr,value,s.readPos,.inr rfl,?_⟩
    simp only [pl011Write,hr]
    rfl

lemma write_keeps (s : Pl011) {offset : U64} (value : U32)
    (hr : ¬((offset >>> 2).toNat = 11 ∨ (offset >>> 2).toNat = 13)) :
    (s.pl011Write offset value).1 = [] ∧ (s.pl011Write offset value).2.readCount = s.readCount ∧
      (s.pl011Write offset value).2.readPos = s.readPos ∧ (s.pl011Write offset value).2.readFifo = s.readFifo ∧
      (s.pl011Write offset value).2.overrun = s.overrun := by
  rw [pl011Write]
  split
  case h_6 h11 => exact absurd (.inl h11) hr
  case h_8 h13 => exact absurd (.inr h13) hr
  all_goals exact ⟨rfl,rfl,rfl,rfl,rfl⟩

end Pl011

/-- The UART, the sender, and the characters delivered and read since the FIFO's last reset. -/
structure Pl011Link where
  uart : Pl011
  sender : BiflowSocket U8
  delivered : List U8
  taken : List U32

inductive Pl011LinkEvent where
  | enqueue (data : U8)
  | deliver
  | read (offset : U64)
  | write (offset : U64) (value : U32)
  | update
  deriving DecidableEq, Repr

namespace Pl011Link
variable (l : Pl011Link)

/-- `sendall` of the sender, with `pl011_receive` at the other end. -/
def deliver : Pl011Link := match l.sender.sendall with
  | (none,_) => l
  | (some d,sender) =>
    {l with
      uart := l.uart.pl011Receive d
      sender := sender
      delivered := l.delivered++d.dataPtr.take d.streamingWidth.toNat}

/-- A register is read; a character read from a FIFO that holds some is noted. -/
def read (offset : U64) : Pl011Link := let r := l.uart.pl011Read offset
  {l with
    uart := r.2.2
    sender := r.2.1.foldl initiatorCtrl l.sender
    taken := if (offset >>> 2).toNat = 0 ∧ 0 < l.uart.readCount then l.taken++r.1.toList else l.taken}

/-- A register is written; the FIFO is reset by `UARTLCR_H` and `UARTIFLS`. -/
def write (offset : U64) (value : U32) : Pl011Link := let r := l.uart.pl011Write offset value
  let l := {l with uart := r.2, sender := r.1.foldl initiatorCtrl l.sender}
  if (offset >>> 2).toNat = 11 ∨ (offset >>> 2).toNat = 13 then {l with delivered := [], taken := []} else l

def step : Pl011LinkEvent → Pl011Link
  | .enqueue data => {l with sender := l.sender.enqueue data}
  | .deliver => l.deliver
  | .read offset => l.read offset
  | .write offset value => l.write offset value
  | .update => {l with uart := l.uart.settle}

def constructed (txn : Option BiflowTxn) : Pl011Link := ⟨.constructed,{BiflowSocket.constructed with txn := txn},[],[]⟩

/-- The sender is limited to the room in the FIFO, which holds what has been delivered and not yet read. -/
structure Credited (l : Pl011Link) : Prop where
  limited : l.sender.infinite = false
  credit : l.uart.readCount+l.sender.canSend.toNat ≤ 16
  pos : l.uart.readPos < 16
  inside : l.uart.overrun = false
  order : l.taken++l.uart.contents = l.delivered.map (setWidth 32)

variable {l}

section
variable (h : Credited l)
include h

lemma Credited.deliver : Credited l.deliver := by
  rcases Nat.eq_zero_or_pos l.sender.sending with h0 | hpo
  · rw [Pl011Link.deliver,BiflowSocket.sendall_zero h0]
    exact h
  · rw [Pl011Link.deliver,BiflowSocket.sendall_pos hpo]
    have hs := canSend_sub_sending h.limited
    have hle := sending_le_length (s := l.sender)
    have hcr := h.credit
    have hw : (BitVec.ofNat 32 l.sender.sending).toNat = l.sender.sending := by
      rw [toNat_ofNat]
      omega
    have hl := length_take_of_le hle
    obtain ⟨hc,hn,hp,ho⟩ := Pl011.receive_contents (l.sender.queue.take l.sender.sending) h.pos (by omega)
    simp only [Pl011.pl011Receive,hw]
    refine ⟨h.limited,?_,hp ▸ h.pos,ho.trans h.inside,?_⟩
    · simp only [hn]
      omega
    · rw [hc,← List.append_assoc,h.order,map_append]

lemma Credited.readDr {offset : U64} (hre : (offset >>> 2).toNat = 0) :
    Credited (l.read offset) := by
  have hr : l.uart.pl011Read offset = l.uart.readDr := by simp [Pl011.pl011Read,hre]
  have hp := h.pos
  have hcr := h.credit
  have hi := (Pl011.readDr_overrun hp).trans h.inside
  have hn := Pl011.readDr_readPos_lt hp
  rw [read,hr]
  by_cases hco : 0 < l.uart.readCount
  · have hc := Pl011.contents_readDr hp hco
    refine ⟨?_,?_,hn,hi,?_⟩
    · simp [Pl011.readDr,hco,canReceiveMore,initiatorCtrl]
    · have ha : (l.sender.canSend+1).toNat = l.sender.canSend.toNat+1 := by
        rw [toNat_add,show (1 : U32).toNat = 1 by rfl]
        omega
      simp only [Pl011.readDr,hco,if_true,canReceiveMore,foldl_cons,foldl_nil,
        initiatorCtrl,Pl011.pl011Update,ha]
      omega
    · rw [← h.order,hc]
      simp [hre,hco,Pl011.readDr]
  · have h0 : l.uart.readCount = 0 := by omega
    have he : l.uart.readDr.2.2.contents = l.uart.contents := by
      simp [Pl011.contents,Pl011.readDr,Pl011.pl011Update,h0]
    refine ⟨?_,?_,hn,hi,?_⟩
    · simpa [Pl011.readDr,h0] using h.limited
    · simpa [Pl011.readDr,Pl011.pl011Update,h0] using hcr
    · simpa [h0,he] using h.order

lemma Credited.read (offset : U64) : Credited (l.read offset) := by
  by_cases hr : (offset >>> 2).toNat = 0
  · exact h.readDr hr
  · rw [Pl011Link.read,Pl011.pl011Read]
    split
    case h_1 h0 => exact absurd h0 hr
    all_goals
      simp only [hr,false_and,if_false]
      exact ⟨h.limited,h.credit,h.pos,h.inside,h.order⟩

lemma Credited.emptied {uart : Pl011} (hp : uart.readPos < 16) (hc : uart.readCount = 0)
    (ho : uart.overrun = l.uart.overrun) :
    Credited ⟨uart,l.sender.initiatorCtrl (canReceiveSet 16),[],[]⟩ := by
  refine ⟨rfl,?_,hp,ho.trans h.inside,?_⟩
  · simp [hc,canReceiveSet,initiatorCtrl]
  · simp [Pl011.contents,hc]

lemma Credited.write (offset : U64) (value : U32) : Credited (l.write offset value) := by
  rw [Pl011Link.write]
  by_cases hr : (offset >>> 2).toNat = 11 ∨ (offset >>> 2).toNat = 13
  · obtain ⟨lcr,ifl,pos,hp,heq⟩ := l.uart.write_reset value hr
    have hlt := h.pos
    rw [if_pos hr,heq]
    exact h.emptied (by simp; omega) rfl rfl
  · obtain ⟨hm,hc,hp,hf,ho⟩ := l.uart.write_keeps value hr
    rw [if_neg hr,hm]
    refine ⟨h.limited,hc ▸ h.credit,hp ▸ h.pos,ho.trans h.inside,?_⟩
    rw [Pl011.contents,hc,hp,hf]
    exact h.order

lemma Credited.step (e : Pl011LinkEvent) : Credited (l.step e) := by
  cases e with
  | enqueue data => exact ⟨h.limited,h.credit,h.pos,h.inside,h.order⟩
  | deliver => exact h.deliver
  | read offset => exact h.read offset
  | write offset value => exact h.write offset value
  | update =>
    rw [Pl011Link.step,Pl011.settle]
    split
    · exact ⟨h.limited,h.credit,h.pos,h.inside,h.order⟩
    · exact h

end

lemma Credited.constructed (txn : Option BiflowTxn) : Credited (constructed txn) :=
  ⟨rfl,Nat.zero_le _,Nat.zero_lt_succ _,rfl,rfl⟩

end Pl011Link
end Qbox
