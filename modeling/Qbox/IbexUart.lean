import Qbox.BiflowSocket

/-! `ibex_uart`: its registers, the one character it holds, and a `biflow_socket` that sends characters to it. -/
namespace Qbox
open MachineWord List BiflowSocket

/-- `ibex_uart` with its sending side, whether `update_event` is notified, the level of `irq_rxwatermark`, and the
characters `recv` has ignored. -/
structure IbexUart where
  itState : U32
  itEnable : U32
  ctrl : U32
  status : U32
  rdata : U8
  backend : BiflowSocket U8
  updateEvent : Bool
  irqRxwatermark : Bool
  overflows : ℕ
  deriving DecidableEq

namespace IbexUart
def regItstat : U64 := 0x00
def regIten : U64 := 0x04
def regCtrl : U64 := 0x0c
def regStatus : U64 := 0x10
def regRdata : U64 := 0x14
def regWdata : U64 := 0x18

def fieldItRxwatermark : U32 := 0x2
def fieldCtrlRxenable : U32 := 0x2
def fieldStatusTxempty : U32 := 0x04
def fieldStatusRxidle : U32 := 0x10
def fieldStatusRxempty : U32 := 0x20

/-- The constructor. `update_irqs` is not excluded from the initialisation, so it is to run once. -/
def constructed : IbexUart where
  itState := 0
  itEnable := 0
  ctrl := 0
  status := fieldStatusTxempty ||| fieldStatusRxidle ||| fieldStatusRxempty
  rdata := 0
  backend := .constructed
  updateEvent := true
  irqRxwatermark := false
  overflows := 0

variable (s : IbexUart)

def updateIrqs : IbexUart :=
  {s with updateEvent := false, irqRxwatermark := decide (s.itState &&& s.itEnable &&& fieldItRxwatermark ≠ 0)}

def Enabled : Prop := s.ctrl &&& fieldCtrlRxenable ≠ 0

def Empty : Prop := s.status &&& fieldStatusRxempty ≠ 0

instance : Decidable s.Enabled := inferInstanceAs (Decidable (_ ≠ _))
instance : Decidable s.Empty := inferInstanceAs (Decidable (_ ≠ _))

def recv (value : U32) : IbexUart := if s.Enabled ∧ s.Empty then
    {s with
      rdata := value.setWidth 8
      status := s.status &&& ~~~(fieldStatusRxempty ||| fieldStatusRxidle)
      itState := s.itState ||| fieldItRxwatermark
      updateEvent := true}
  else {s with overflows := s.overflows+1}

/-- `receive`: as many characters as the streaming width says. -/
def receive (d : BiflowDelivery U8) : IbexUart :=
  (d.dataPtr.take d.streamingWidth.toNat).foldl (fun s c => s.recv (c.setWidth 32)) s

/-- The read of `RDATA`: the character leaves only an enabled receiver, but credit is given in any case. -/
def readRdata : U64 × List BiflowCtrl × IbexUart := (s.rdata.setWidth 64,[canReceiveMore 1],
    if s.Enabled then {s with status := s.status ||| (fieldStatusRxidle ||| fieldStatusRxempty), rdata := 0} else s)

/-- `reg_read`: the value, and the messages to the other side of `backend_socket`. -/
def regRead (addr : U64) : U64 × List BiflowCtrl × IbexUart := if addr = regItstat then (s.itState.setWidth 64,[],s)
  else if addr = regIten then (s.itEnable.setWidth 64,[],s)
  else if addr = regCtrl then (s.ctrl.setWidth 64,[],s)
  else if addr = regStatus then (s.status.setWidth 64,[],s)
  else if addr = regRdata then s.readRdata
  else (0,[],s)

/-- `reg_write`, with the messages to the other side of `backend_socket`. -/
def regWrite (addr : U64) (data : U32) : List BiflowCtrl × IbexUart :=
  if addr = regItstat then ([],{s with itState := s.itState &&& ~~~data, updateEvent := true})
  else if addr = regIten then
    ([canReceiveSet 1],{s with itEnable := data &&& fieldItRxwatermark, updateEvent := true})
  else if addr = regCtrl then ([],{s with ctrl := data})
  else if addr = regWdata then ([],{s with backend := s.backend.enqueue ((data &&& 0xFF).setWidth 8)})
  else ([],s)

def Sized (ptr : List U8) : Prop := ptr.length = 1 ∨ ptr.length = 2 ∨ ptr.length = 4

instance (ptr : List U8) : Decidable (Sized ptr) := inferInstanceAs (Decidable (_ ∨ _ ∨ _))

/-- The bytes a read leaves in the transaction; of two bytes only the first is stored. -/
def readInto (r : U64) (ptr : List U8) : List U8 := if ptr.length = 4 then storeLe 4 r else ptr.set 0 (r.setWidth 8)

/-- `b_transport`: data and response, unless the size is fatal, and the messages over `backend_socket`. -/
def bTransport (command : TlmCommand) (addr : U64) (ptr : List U8) :
    Option (List U8 × TlmResponse) × List BiflowCtrl × IbexUart :=
  if addr &&& 3 ≠ 0 then (some (ptr,.addressError),[],s)
  else match command with
    | .write => if Sized ptr then (some (ptr,.ok),s.regWrite addr (loadLe 32 ptr)) else (none,[],s)
    | .read =>
      if Sized ptr then (some (readInto (s.regRead addr).1 ptr,.ok),(s.regRead addr).2) else (none,[],s)
    | .ignore => (some (ptr,.ok),[],s)

def held : ℕ := if s.Empty then 0 else 1

variable {s}

lemma held_le_one : s.held ≤ 1 := by
  rw [held]
  split <;> omega

lemma and_rxempty_ne {x : U32} : x &&& fieldStatusRxempty ≠ 0 ↔ x.getLsbD 5 = true :=
  and_twoPow_ne_zero (i := 5) (by decide) x

lemma not_empty_of_recv (x : U32) :
    ¬x &&& ~~~(fieldStatusRxempty ||| fieldStatusRxidle) &&& fieldStatusRxempty ≠ 0 := by
  rw [and_rxempty_ne]
  simp [fieldStatusRxempty,fieldStatusRxidle]

lemma empty_of_read (x : U32) : (x ||| (fieldStatusRxidle ||| fieldStatusRxempty)) &&& fieldStatusRxempty ≠ 0 := by
  rw [and_rxempty_ne]
  simp [fieldStatusRxempty,fieldStatusRxidle]

lemma recv_spec (h : s.Enabled) (value : U32) : (s.recv value).Enabled ∧ (s.recv value).held = 1 ∧
    (s.recv value).overflows = s.overflows+s.held := by
  rw [recv,held,held]
  by_cases he : s.Empty
  · have hf := not_empty_of_recv s.status
    rw [if_pos ⟨h,he⟩,if_pos he]
    exact ⟨h,if_neg hf,rfl⟩
  · rw [if_neg (fun hc => he hc.2),if_neg he]
    exact ⟨h,if_neg he,rfl⟩

lemma receive_spec (h : s.Enabled) (cs : List U8) : let s' := cs.foldl (fun s c => s.recv (c.setWidth 32)) s
    s'.Enabled ∧ s'.held = min 1 (s.held+cs.length) ∧ s'.overflows = s.overflows+(s.held+cs.length-1) := by
  induction cs generalizing s with
  | nil =>
    have hle := s.held_le_one
    refine ⟨h,?_,?_⟩
    · simp only [foldl_nil,length_nil]
      omega
    · simp only [foldl_nil,length_nil]
      omega
  | cons c cs ih =>
    obtain ⟨hen,hh,ho⟩ := recv_spec h (c.setWidth 32)
    obtain ⟨hen',hh',ho'⟩ := ih hen
    refine ⟨hen',?_,?_⟩
    · rw [foldl_cons,hh',length_cons]
      omega
    · rw [foldl_cons,ho',length_cons]
      omega

variable {addr : U64}

lemma regRead_of_ne (h : addr ≠ regRdata) : (s.regRead addr).2 = ([],s) := by
  rw [regRead]
  split_ifs <;> rfl

lemma regRead_rdata : s.regRead regRdata = s.readRdata := rfl

lemma regWrite_of_ne (h : addr ≠ regIten) (data : U32) :
    (s.regWrite addr data).1 = [] ∧ (s.regWrite addr data).2.held = s.held ∧
      (s.regWrite addr data).2.overflows = s.overflows := by
  rw [regWrite]
  split_ifs <;> exact ⟨rfl,rfl,rfl⟩

lemma bTransport_read {ptr : List U8} (ha : addr &&& 3 = 0) (hs : Sized ptr) :
    (s.bTransport .read addr ptr).2 = (s.regRead addr).2 := by
  unfold bTransport
  rw [if_neg (not_not.mpr ha)]
  simp [hs]

lemma bTransport_write {ptr : List U8} (ha : addr &&& 3 = 0) (hs : Sized ptr) :
    (s.bTransport .write addr ptr).2 = s.regWrite addr (loadLe 32 ptr) := by
  unfold bTransport
  rw [if_neg (not_not.mpr ha)]
  simp [hs]

lemma bTransport_idle {command : TlmCommand} {ptr : List U8}
    (h : addr &&& 3 ≠ 0 ∨ ¬Sized ptr ∨ command = .ignore) : (s.bTransport command addr ptr).2 = ([],s) := by
  unfold bTransport
  rcases h with ha | hs | rfl
  · rw [if_pos ha]
  · cases command <;> simp only [hs,if_false] <;> split <;> rfl
  · split <;> rfl

lemma regWrite_enabled (h : s.Enabled) {data : U32}
    (hk : addr = regCtrl → data &&& fieldCtrlRxenable ≠ 0) : (s.regWrite addr data).2.Enabled := by
  rw [regWrite]
  split_ifs with h1 h2 h3
  · exact h
  · exact h
  · exact hk h3
  · exact h
  · exact h

end IbexUart

/-- The UART and the sender to its `backend_socket`. -/
structure IbexLink where
  uart : IbexUart
  sender : BiflowSocket U8
  deriving DecidableEq

inductive IbexLinkEvent where
  | enqueue (data : U8)
  | deliver
  | transport (command : TlmCommand) (addr : U64) (ptr : List U8)
  | update
  deriving DecidableEq, Repr

namespace IbexLink
open IbexUart

variable (l : IbexLink)

/-- `sendall` of the sender, with `receive` at the other end. -/
def deliver : IbexLink := match l.sender.sendall with
  | (none,_) => l
  | (some d,sender) => {l with uart := l.uart.receive d, sender := sender}

def step : IbexLinkEvent → IbexLink
  | .enqueue data => {l with sender := l.sender.enqueue data}
  | .deliver => l.deliver
  | .transport command addr ptr =>
    let r := l.uart.bTransport command addr ptr
    ⟨r.2.2,r.2.1.foldl initiatorCtrl l.sender⟩
  | .update => {l with uart := l.uart.updateIrqs}

def enabled (txn : Option BiflowTxn) (ctrl : U32) : IbexLink :=
  ⟨(IbexUart.constructed.regWrite regCtrl ctrl).2,{BiflowSocket.constructed with txn := txn}⟩

def KeepsEnabled : IbexLinkEvent → Prop
  | .transport command addr ptr => command = .write → addr = regCtrl → loadLe 32 ptr &&& fieldCtrlRxenable ≠ 0
  | .enqueue _ | .deliver | .update => True

instance : (e : IbexLinkEvent) → Decidable (KeepsEnabled e)
  | .transport _ _ _ => inferInstanceAs (Decidable (_ → _))
  | .enqueue _ | .deliver | .update => isTrue trivial

/-- The sender's credit and the characters held are at most one together. -/
def WithinOne : Prop := l.sender.canSend.toNat+l.uart.held ≤ 1

instance : Decidable l.WithinOne := inferInstanceAs (Decidable (_ ≤ _))

/-- `RDATA` is read only without credit, and `ITEN` written only while no character is held. -/
def Paced : IbexLinkEvent → Prop
  | .transport command addr ptr => Sized ptr →
    (command = .read → addr = regRdata → l.sender.canSend = 0) ∧ (command = .write → addr = regIten → l.uart.Empty)
  | .enqueue _ | .deliver | .update => True

instance : (e : IbexLinkEvent) → Decidable (l.Paced e)
  | .transport _ _ _ => inferInstanceAs (Decidable (_ → _))
  | .enqueue _ | .deliver | .update => isTrue trivial

variable {l}

structure Receiving (l : IbexLink) : Prop where
  enabled : l.uart.Enabled
  limited : l.sender.infinite = false

lemma Receiving.deliver (h : Receiving l) : ∃ n, n = min l.sender.queue.length l.sender.canSend.toNat ∧
    Receiving l.deliver ∧ l.deliver.sender.canSend.toNat+n = l.sender.canSend.toNat ∧
    l.deliver.uart.held = min 1 (l.uart.held+n) ∧ l.deliver.uart.overflows = l.uart.overflows+(l.uart.held+n-1) := by
  have hh := l.uart.held_le_one
  refine ⟨l.sender.sending,sending_eq_min h.limited,?_⟩
  rcases Nat.eq_zero_or_pos l.sender.sending with h0 | hp
  · have hs : l.deliver = l := by rw [IbexLink.deliver,BiflowSocket.sendall_zero h0]
    rw [hs,h0]
    exact ⟨h,rfl,by omega,by omega⟩
  · have hsu := canSend_sub_sending h.limited
    have hw : (BitVec.ofNat 32 l.sender.sending).toNat = l.sender.sending := by
      rw [BitVec.toNat_ofNat]
      omega
    have hl : (l.sender.queue.take l.sender.sending).length = l.sender.sending :=
      length_take_of_le sending_le_length
    obtain ⟨hen,hn,ho⟩ := receive_spec h.enabled (l.sender.queue.take l.sender.sending)
    rw [hl] at hn ho
    rw [IbexLink.deliver,BiflowSocket.sendall_pos hp]
    simp only [receive,hw]
    exact ⟨⟨hen,h.limited⟩,hsu,hn,ho⟩

lemma Receiving.readRdata (h : Receiving l) (hc : l.sender.canSend.toNat ≤ 1) :
    let l' : IbexLink := ⟨l.uart.readRdata.2.2,l.uart.readRdata.2.1.foldl initiatorCtrl l.sender⟩
    Receiving l' ∧ l'.sender.canSend.toNat = l.sender.canSend.toNat+1 ∧ l'.uart.held = 0 ∧
      l'.uart.overflows = l.uart.overflows := by
  have he := empty_of_read l.uart.status
  have ha : (l.sender.canSend+1).toNat = l.sender.canSend.toNat+1 := by
    rw [BitVec.toNat_add,show (1 : U32).toNat = 1 by rfl]
    omega
  simp only [IbexUart.readRdata,if_pos h.enabled,foldl_cons,foldl_nil]
  exact ⟨⟨h.enabled,rfl⟩,ha,if_pos he,trivial⟩

/-- A write of `ITEN` sets the credit to one, whatever is held. -/
lemma Receiving.writeIten (h : Receiving l) (data : U32) : let r := l.uart.regWrite regIten data
    let l' : IbexLink := ⟨r.2,r.1.foldl initiatorCtrl l.sender⟩
    Receiving l' ∧ l'.sender.canSend.toNat = 1 ∧ l'.uart.held = l.uart.held ∧ l'.uart.overflows = l.uart.overflows :=
  ⟨⟨h.enabled,rfl⟩,rfl,rfl,rfl⟩

/-- What one event does to an enabled receiver whose sender has at most one character of credit in all. -/
structure StepSpec (l l' : IbexLink) (paced : Prop) : Prop where
  receiving : Receiving l'
  within : l'.WithinOne ↔ paced
  overflows : l'.uart.overflows = l.uart.overflows

lemma StepSpec.of_same {l' : IbexLink} {paced : Prop} (h : l.WithinOne) (hr : Receiving l')
    (hc : l'.sender.canSend = l.sender.canSend) (hh : l'.uart.held = l.uart.held)
    (ho : l'.uart.overflows = l.uart.overflows) (hp : paced) : StepSpec l l' paced := by
  refine ⟨hr,iff_of_true ?_ hp,ho⟩
  rw [WithinOne,hc,hh]
  exact h

lemma step_transport (command : TlmCommand) (addr : U64) (ptr : List U8) :
    l.step (.transport command addr ptr) = ⟨(l.uart.bTransport command addr ptr).2.2,
      (l.uart.bTransport command addr ptr).2.1.foldl initiatorCtrl l.sender⟩ := rfl

section
variable (h : Receiving l)
include h

lemma Receiving.transport_spec (hon : l.WithinOne) {command : TlmCommand} {addr : U64}
    {ptr : List U8} (hk : KeepsEnabled (.transport command addr ptr)) :
    StepSpec l (l.step (.transport command addr ptr)) (l.Paced (.transport command addr ptr)) := by
  have hsu : l.sender.canSend.toNat+l.uart.held ≤ 1 := hon
  rw [step_transport,Paced]
  by_cases hi : addr &&& 3 ≠ 0 ∨ ¬Sized ptr ∨ command = .ignore
  · rw [bTransport_idle hi]
    refine .of_same hon h rfl rfl rfl fun hs => ⟨?_,?_⟩
    · rintro rfl rfl
      simp [hs,regRdata] at hi
    · rintro rfl rfl
      simp [hs,regIten] at hi
  · obtain ⟨hal,hs,hco⟩ : addr &&& 3 = 0 ∧ Sized ptr ∧ command ≠ .ignore := by simpa using hi
    cases command with
    | ignore => exact absurd rfl hco
    | read =>
      rw [bTransport_read hal hs]
      by_cases had : addr = regRdata
      · obtain ⟨hr,hc,hh,ho⟩ := h.readRdata (by omega)
        rw [had,regRead_rdata]
        refine ⟨hr,?_,ho⟩
        rw [WithinOne,hc,hh]
        simp only [hs,true_imp_iff,reduceCtorEq,false_imp_iff,and_true]
        rw [← BitVec.toNat_inj,show (0 : U32).toNat = 0 by rfl]
        omega
      · rw [regRead_of_ne had]
        exact .of_same hon h rfl rfl rfl fun _ => ⟨fun _ ha => absurd ha had,nofun⟩
    | write =>
      rw [bTransport_write hal hs]
      by_cases had : addr = regIten
      · obtain ⟨hr,hc,hh,ho⟩ := h.writeIten (loadLe 32 ptr)
        rw [had]
        refine ⟨hr,?_,ho⟩
        rw [WithinOne,hc,hh,held]
        by_cases he : l.uart.Empty <;> simp [he,hs]
      · obtain ⟨hm,hh,ho⟩ := regWrite_of_ne had (loadLe 32 ptr)
        have hr := regWrite_enabled h.enabled (hk rfl)
        rw [hm]
        exact .of_same hon ⟨hr,h.limited⟩ rfl hh ho fun _ => ⟨nofun,fun _ ha => absurd ha had⟩

lemma Receiving.step_spec (hon : l.WithinOne) {e : IbexLinkEvent} (hk : KeepsEnabled e) :
    StepSpec l (l.step e) (l.Paced e) := by
  cases e with
  | enqueue data | update => exact .of_same hon ⟨h.enabled,h.limited⟩ rfl rfl rfl trivial
  | deliver =>
    have hs : l.sender.canSend.toNat+l.uart.held ≤ 1 := hon
    obtain ⟨n,-,hr,hc,hh,ho⟩ := h.deliver
    refine ⟨hr,iff_of_true ?_ trivial,?_⟩
    · show l.deliver.sender.canSend.toNat+l.deliver.uart.held ≤ 1
      omega
    · show l.deliver.uart.overflows = l.uart.overflows
      omega
  | transport command addr ptr => exact h.transport_spec hon hk

/-- Where more than one character can arrive or is held, a character can get lost. -/
lemma Receiving.loses (hm : ¬l.WithinOne) :
    0 < ([.enqueue 0,.enqueue 0,.deliver].foldl step l).uart.overflows := by
  have hs := not_le.mp hm
  have hr : Receiving ⟨l.uart,(l.sender.enqueue 0).enqueue 0⟩ := ⟨h.enabled,h.limited⟩
  obtain ⟨n,hn,-,-,-,ho⟩ := hr.deliver
  have hl : ((l.sender.enqueue 0).enqueue 0).queue.length = l.sender.queue.length+2 := by
    simp [BiflowSocket.enqueue]
  rw [hl] at hn
  have hc : ((l.sender.enqueue 0).enqueue 0).canSend = l.sender.canSend := rfl
  rw [hc] at hn
  show 0 < (IbexLink.deliver ⟨l.uart,(l.sender.enqueue 0).enqueue 0⟩).uart.overflows
  rw [ho]
  dsimp only
  omega

/-- Along paced events the credit stays within one, and no character is ignored. -/
lemma Receiving.along (hon : l.WithinOne) {es : List IbexLinkEvent}
    (hes : ∀ e ∈ es, KeepsEnabled e) (hp : GuardedRun.Along step Paced l es) :
    Receiving (es.foldl step l) ∧ (es.foldl step l).WithinOne ∧
      (es.foldl step l).uart.overflows = l.uart.overflows := by
  induction es generalizing l with
  | nil => exact ⟨h,hon,rfl⟩
  | cons e es ih =>
    obtain ⟨hr,hw,ho⟩ := h.step_spec hon (hes e (by simp))
    obtain ⟨hr',hon',ho'⟩ := ih hr (hw.mpr hp.1) (fun e' he' => hes e' (by simp [he'])) hp.2
    exact ⟨hr',hon',ho'.trans ho⟩

/-- An event that is not paced leaves the receiver open to more than one character. -/
lemma Receiving.exists_prefix (ho : l.WithinOne) {es : List IbexLinkEvent}
    (hes : ∀ e ∈ es, KeepsEnabled e) (hpa : ¬GuardedRun.Along step Paced l es) :
    ∃ es', es' <+: es ∧ Receiving (es'.foldl step l) ∧ ¬(es'.foldl step l).WithinOne := by
  have hk : GuardedRun.Along step (fun _ e => KeepsEnabled e) l es :=
    GuardedRun.along_of_forall_mem fun e he _ => hes e he
  have hst : ∀ (l : IbexLink) (e : IbexLinkEvent), KeepsEnabled e → Receiving l → (Receiving l → l.WithinOne) →
      ((Receiving (l.step e) → (l.step e).WithinOne) ↔ l.Paced e) := by
    intro l e he hr ho
    have hs := hr.step_spec (ho hr) he
    exact ⟨fun hw => hs.within.mp (hw hs.receiving),fun hp _ => hs.within.mpr hp⟩
  have hi := GuardedRun.forall_prefix_iff_along_of_allowed
    (fun l e he hr ho _ => (hr.step_spec (ho hr) he).receiving) hst h (fun _ => ho) hk
  by_contra hn
  refine hpa (hi.mp fun es' hes' hr => ?_)
  by_contra hm
  exact hn ⟨es',hes',hr,hm⟩

end

/-- With the receiver enabled, credit and characters held stay within one exactly when every event is paced. Then no
character is ignored; otherwise one is, after two more. -/
theorem within_one_iff (txn : Option BiflowTxn) {ctrl : U32} (hctrl : ctrl &&& fieldCtrlRxenable ≠ 0)
    {es : List IbexLinkEvent} (hes : ∀ e ∈ es, KeepsEnabled e) :
    ((∀ es', es' <+: es → (es'.foldl step (enabled txn ctrl)).WithinOne) ↔
        GuardedRun.Along step Paced (enabled txn ctrl) es) ∧
      (GuardedRun.Along step Paced (enabled txn ctrl) es →
        ∀ es', es' <+: es → (es'.foldl step (enabled txn ctrl)).uart.overflows = 0) ∧
      (¬GuardedRun.Along step Paced (enabled txn ctrl) es → ∃ es', es' <+: es ∧
          0 < ((es'++[IbexLinkEvent.enqueue 0,.enqueue 0,.deliver]).foldl step (enabled txn ctrl)).uart.overflows) := by
  have hr : Receiving (enabled txn ctrl) := ⟨hctrl,rfl⟩
  have ho : (enabled txn ctrl).WithinOne := by
    have hh : (enabled txn ctrl).uart.held = 0 := (regWrite_of_ne (by decide) ctrl).2.1
    rw [WithinOne,hh]
    exact Nat.zero_le 1
  have ha : GuardedRun.Along step Paced (enabled txn ctrl) es → ∀ es', es' <+: es →
      (es'.foldl step (enabled txn ctrl)).WithinOne ∧ (es'.foldl step (enabled txn ctrl)).uart.overflows = 0 := by
    rintro hp es' ⟨es2,rfl⟩
    have hk : ∀ e ∈ es', KeepsEnabled e := fun e he => hes e (by simp [he])
    exact (hr.along ho hk (GuardedRun.along_append.mp hp).1).2
  refine ⟨⟨fun hal => ?_,fun hp es' hes' => (ha hp es' hes').1⟩,fun hp es' hes' => (ha hp es' hes').2,fun hp => ?_⟩
  · by_contra hp
    obtain ⟨es',hes',-,hm⟩ := hr.exists_prefix ho hes hp
    exact hm (hal es' hes')
  · obtain ⟨es',hes',hr',hm⟩ := hr.exists_prefix ho hes hp
    refine ⟨es',hes',?_⟩
    rw [foldl_append]
    exact hr'.loses hm

/-- The interrupt is enabled, a character arrives and is read. -/
theorem within_one_echo : ([.transport .write 4 [2],.enqueue 65,.deliver].foldl step (enabled none 2)).uart.held = 1 ∧
      ∀ es', es' <+: [IbexLinkEvent.transport .write 4 [2],.enqueue 65,.deliver,.transport .read 0x14 [0]] →
        (es'.foldl step (enabled none 2)).WithinOne :=
  ⟨by decide +kernel,(within_one_iff none (by decide) (by decide)).1.mpr (by decide +kernel)⟩

/-- `RDATA` is read while empty, or `ITEN` written while a character is held, and a later character is ignored. -/
theorem character_lost :
    ([.transport .write 4 [2],.transport .read 0x14 [0],.enqueue 65,.enqueue 66,.deliver].foldl step
        (enabled none 2)).uart.overflows = 1 ∧
      ([.transport .write 4 [2],.enqueue 65,.deliver,.transport .write 4 [2],.enqueue 66,.deliver].foldl step
        (enabled none 2)).uart.overflows = 1 := by
  decide +kernel

end IbexLink
end Qbox
