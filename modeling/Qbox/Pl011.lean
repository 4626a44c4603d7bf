import Qbox.BiflowSocket

/-! `Pl011`: the registers of the UART, its receive FIFO and its interrupt line. -/
namespace Qbox
/-- `Pl011` with `PL011State`, its sending side, whether `update_event` is notified, the level of `irq`, and whether
`read_fifo` was accessed outside. -/
structure Pl011 where
  flags : U32
  lcr : U32
  rsr : U32
  cr : U32
  dmacr : U32
  intEnabled : U32
  intLevel : U32
  readFifo : ℕ → U32
  ilpr : U32
  ibrd : U32
  fbrd : U32
  ifl : U32
  readPos : ℕ
  readCount : ℕ
  readTrigger : ℕ
  backend : BiflowSocket U8
  updateEvent : Bool
  irq : Bool
  overrun : Bool

namespace Pl011
def intTX : U32 := 0x20
def intRX : U32 := 0x10
def flagRXFF : U32 := 0x40
def flagRXFE : U32 := 0x10
def fifoEnable : U32 := 0x10
def irqmask : U32 := 0x7ff

def pl011IdArm : List U8 := [0x11,0x10,0x14,0x00,0x0d,0xf0,0x05,0xb1]

/-- The constructor. The update method is not excluded from the initialisation, so it is to run once. -/
def constructed : Pl011 where
  flags := 0x90
  lcr := 0
  rsr := 0
  cr := 0x300
  dmacr := 0
  intEnabled := 0
  intLevel := 0
  readFifo _ := 0
  ilpr := 0
  ibrd := 0
  fbrd := 0
  ifl := 0x12
  readPos := 0
  readCount := 0
  readTrigger := 1
  backend := .constructed
  updateEvent := true
  irq := false
  overrun := false

variable (s : Pl011)

def pl011Update : Pl011 := {s with updateEvent := true}

/-- `pl011_update_sysc`: the line is left alone while no implemented interrupt is enabled. -/
def pl011UpdateSysc : Pl011 := {s with
    updateEvent := false
    irq := if irqmask &&& s.intEnabled ≠ 0 then decide (s.intLevel &&& s.intEnabled &&& irqmask ≠ 0) else s.irq}

def settle : Pl011 := if s.updateEvent then s.pl011UpdateSysc else s

/-- `pl011_read` of `UARTDR`: the entry at `read_pos`, which leaves the FIFO when there is one. -/
def readDr : Option U32 × List BiflowCtrl × Pl011 := let c := s.readFifo s.readPos
  let count := s.readCount-1
  let flags := s.flags &&& ~~~flagRXFF
  (some c,if 0 < s.readCount then [BiflowSocket.canReceiveMore 1] else [], {s with
      flags := if count = 0 then flags ||| flagRXFE else flags
      readCount := count
      readPos := if 0 < s.readCount then if s.readPos+1 = 16 then 0 else s.readPos+1 else s.readPos
      intLevel := if count+1 = s.readTrigger then s.intLevel &&& ~~~intRX else s.intLevel
      rsr := c >>> 8
      overrun := s.overrun || decide (16 ≤ s.readPos)}.pl011Update)

variable (offset : U64)

/-- The identification registers. The comparison lets one index more pass than there are entries. -/
def readId : Option U32 := if 0x3f8 ≤ (offset >>> 2).toNat ∧ (offset >>> 2).toNat ≤ 0x400 then
    (pl011IdArm[((offset-0xfe0) >>> 2).toNat]?).map (BitVec.setWidth 32)
  else some 0

/-- `pl011_read`: the value, unless outside the identification registers, and the messages sent. -/
def pl011Read : Option U32 × List BiflowCtrl × Pl011 := match (offset >>> 2).toNat with
  | 0 => s.readDr
  | 1 => (some s.rsr,[],s)
  | 6 => (some s.flags,[],s)
  | 8 => (some s.ilpr,[],s)
  | 9 => (some s.ibrd,[],s)
  | 10 => (some s.fbrd,[],s)
  | 11 => (some s.lcr,[],s)
  | 12 => (some s.cr,[],s)
  | 13 => (some s.ifl,[],s)
  | 14 => (some s.intEnabled,[],s)
  | 15 => (some s.intLevel,[],s)
  | 16 => (some (s.intLevel &&& s.intEnabled),[],s)
  | 18 => (some s.dmacr,[],s)
  | _ => (readId offset,[],s)

/-- `pl011_set_read_trigger`, which also empties the FIFO. -/
def pl011SetReadTrigger : List BiflowCtrl × Pl011 :=
  ([BiflowSocket.canReceiveSet 16],{s with readTrigger := 1, readCount := 0})

/-- `pl011_write` of `UARTLCR_H`. -/
def writeLcr (value : U32) : List BiflowCtrl × Pl011 :=
  let s := if (s.lcr ^^^ value) &&& fifoEnable ≠ 0 then {s with readCount := 0, readPos := 0} else s
  {s with lcr := value}.pl011SetReadTrigger

/-- `pl011_write`, with the messages to the other side of `backend_socket`. -/
def pl011Write (value : U32) : List BiflowCtrl × Pl011 := match (offset >>> 2).toNat with
  | 0 =>
    ([],{s with
      backend := s.backend.enqueue ((value &&& 0xff).setWidth 8)
      intLevel := s.intLevel ||| intTX}.pl011Update)
  | 1 => ([],{s with rsr := 0})
  | 8 => ([],{s with ilpr := value})
  | 9 => ([],{s with ibrd := value})
  | 10 => ([],{s with fbrd := value})
  | 11 => s.writeLcr value
  | 12 => ([],{s with cr := value})
  | 13 => {s with ifl := value}.pl011SetReadTrigger
  | 14 => ([],{s with intEnabled := value}.pl011Update)
  | 17 => ([],{s with intLevel := s.intLevel &&& ~~~value}.pl011Update)
  | 18 => ([],{s with dmacr := value})
  | _ => ([],s)

def slot : ℕ := if 16 ≤ s.readPos+s.readCount then s.readPos+s.readCount-16 else s.readPos+s.readCount

def pl011PutFifo (value : U32) : Pl011 := let count := s.readCount+1
  let flags := s.flags &&& ~~~flagRXFE
  let s' := {s with
    readFifo := Function.update s.readFifo s.slot value
    readCount := count
    flags := if s.lcr &&& fifoEnable = 0 ∨ count = 16 then flags ||| flagRXFF else flags
    overrun := s.overrun || decide (16 ≤ s.slot)}
  if count = s.readTrigger then {s' with intLevel := s.intLevel ||| intRX}.pl011Update else s'

/-- `pl011_receive`: as many characters as the streaming width says. -/
def pl011Receive (d : BiflowDelivery U8) : Pl011 :=
  (d.dataPtr.take d.streamingWidth.toNat).foldl (fun s c => s.pl011PutFifo (c.setWidth 32)) s

end Pl011

/-- What happens to a `Pl011`. -/
inductive Pl011Event where
  | read (offset : U64)
  | write (offset : U64) (value : U32)
  | receive (value : U8)
  | update
  deriving DecidableEq, Repr

namespace Pl011
variable (s : Pl011)

def step : Pl011Event → Pl011
  | .read offset => (s.pl011Read offset).2.2
  | .write offset value => (s.pl011Write offset value).2
  | .receive value => s.pl011PutFifo (value.setWidth 32)
  | .update => s.settle

/-- The line and the flags follow the state, as long as the FIFO was accessed inside. -/
structure Reports (s : Pl011) : Prop where
  irq : s.irq = true ↔ s.intLevel &&& s.intEnabled &&& irqmask ≠ 0
  rxfe : s.flags &&& flagRXFE ≠ 0 ↔ s.readCount = 0
  rxff : s.lcr &&& fifoEnable ≠ 0 → (s.flags &&& flagRXFF ≠ 0 ↔ s.readCount = 16)
  inside : s.overrun = false

/-- The line is low when all is masked, the FIFO empty when reset, and a character finds room. -/
def Orderly : Pl011Event → Prop
  | .write offset value =>
    ((offset >>> 2).toNat = 11 ∨ (offset >>> 2).toNat = 13 → s.readCount = 0) ∧
    ((offset >>> 2).toNat = 14 → irqmask &&& value = 0 → s.irq = false)
  | .receive _ => s.readPos+s.readCount < 32 ∧ (s.lcr &&& fifoEnable ≠ 0 → s.readCount ≠ 16)
  | _ => True

variable {s}

lemma and_flagRXFE_ne {x : U32} : x &&& flagRXFE ≠ 0 ↔ x.getLsbD 4 = true :=
  MachineWord.and_twoPow_ne_zero (i := 4) (by decide) x

lemma and_flagRXFF_ne {x : U32} : x &&& flagRXFF ≠ 0 ↔ x.getLsbD 6 = true :=
  MachineWord.and_twoPow_ne_zero (i := 6) (by decide) x

def Line (s : Pl011) : Prop := if s.updateEvent then irqmask &&& s.intEnabled = 0 → s.irq = false
  else (s.irq = true ↔ s.intLevel &&& s.intEnabled &&& irqmask ≠ 0)

lemma interrupts_eq_zero (level : U32) {enabled : U32} (h : irqmask &&& enabled = 0) :
    level &&& enabled &&& irqmask = 0 := by
  rw [BitVec.and_assoc,BitVec.and_comm enabled,h]
  exact BitVec.and_zero

lemma settle_irq_iff : (s.settle.irq = true ↔ s.intLevel &&& s.intEnabled &&& irqmask ≠ 0) ↔ Line s := by
  rw [settle,Line]
  split
  · by_cases h : irqmask &&& s.intEnabled = 0
    · simp [pl011UpdateSysc,h,interrupts_eq_zero s.intLevel h]
    · simp only [pl011UpdateSysc,ne_eq,h,not_false_eq_true,if_true,decide_eq_true_eq,false_implies]
  · exact Iff.rfl

lemma Line.masked (h : Line s) (hm : irqmask &&& s.intEnabled = 0) : s.irq = false := by
  rw [Line] at h
  split at h
  · exact h hm
  · simpa [interrupts_eq_zero s.intLevel hm] using h

/-- What holds of the registers before the pending update when the status is right after it. -/
structure Follows (s : Pl011) : Prop where
  line : Line s
  rxfe : s.flags &&& flagRXFE ≠ 0 ↔ s.readCount = 0
  rxff : s.lcr &&& fifoEnable ≠ 0 → (s.flags &&& flagRXFF ≠ 0 ↔ s.readCount = 16)
  inside : s.overrun = false

lemma reports_settle_iff : Reports s.settle ↔ Follows s := by
  have hl := settle_irq_iff (s := s)
  have hs : s.settle = {s with updateEvent := false, irq := s.settle.irq} := by
    rw [settle]
    split
    · rfl
    · rename_i h
      simp only [Bool.not_eq_true] at h
      rw [← h]
  rw [hs]
  exact ⟨fun h => ⟨hl.mp h.irq,h.rxfe,h.rxff,h.inside⟩,fun h => ⟨hl.mpr h.line,h.rxfe,h.rxff,h.inside⟩⟩

structure Stored (s : Pl011) : Prop where
  empty : s.readCount = 0 → ¬s.flags &&& flagRXFF ≠ 0
  room : s.lcr &&& fifoEnable ≠ 0 → s.readCount ≤ 16
  pos : s.readPos < 16

@[simp] lemma readDr_readCount : s.readDr.2.2.readCount = s.readCount-1 := rfl

lemma readDr_readPos (hp : s.readPos < 16) :
    s.readDr.2.2.readPos = if 0 < s.readCount then (s.readPos+1) % 16 else s.readPos := by
  simp only [Pl011.readDr,pl011Update]
  split
  · split <;> omega
  · rfl

lemma readDr_readPos_lt (hp : s.readPos < 16) : s.readDr.2.2.readPos < 16 := by
  rw [readDr_readPos hp]
  split <;> omega

lemma readDr_overrun (hp : s.readPos < 16) : s.readDr.2.2.overrun = s.overrun := by
  simp [Pl011.readDr,pl011Update,hp]

lemma readDr_rxff : ¬s.readDr.2.2.flags &&& flagRXFF ≠ 0 := by
  rw [and_flagRXFF_ne]
  simp only [Pl011.readDr,pl011Update]
  split <;> simp [flagRXFF,flagRXFE]

lemma Stored.readDr (h : Stored s) : Stored s.readDr.2.2 := by
  refine ⟨fun _ => readDr_rxff,fun hen => ?_,readDr_readPos_lt h.pos⟩
  have := h.room hen
  rw [readDr_readCount]
  omega

lemma Follows.readDr (hs : Stored s) (h : Follows s) : Follows s.readDr.2.2 := by
  refine ⟨h.line.masked,?_,fun hen => iff_of_false readDr_rxff ?_,(readDr_overrun hs.pos).trans h.inside⟩
  · have hr := and_flagRXFE_ne.symm.trans h.rxfe
    rw [and_flagRXFE_ne]
    simp only [Pl011.readDr,pl011Update]
    split
    · rename_i h0
      simp [flagRXFE,h0]
    · rename_i h0
      have hne : s.readCount ≠ 0 := by omega
      simpa [flagRXFF,h0] using fun hse => hne (hr.mp hse)
  · have hro := hs.room hen
    rw [readDr_readCount]
    omega

lemma follows_emptied_iff (hs : Stored s) (h : Follows s) (lcr ifl : U32) (pos : ℕ) :
    Follows {s with lcr := lcr, ifl := ifl, readPos := pos, readTrigger := 1, readCount := 0} ↔ s.readCount = 0 := by
  refine ⟨fun h' => h.rxfe.mp (h'.rxfe.mpr rfl),fun h0 => ?_⟩
  exact ⟨h.line,iff_of_true (h.rxfe.mpr h0) rfl,fun _ => iff_of_false (hs.empty h0) (by simp),h.inside⟩

lemma stored_emptied (hs : Stored s) (h0 : s.readCount = 0) (lcr ifl : U32) {pos : ℕ} (hp : pos < 16) :
    Stored {s with lcr := lcr, ifl := ifl, readPos := pos, readTrigger := 1, readCount := 0} :=
  ⟨fun _ => hs.empty h0,fun _ => Nat.zero_le _,hp⟩

lemma writeLcr_snd (value : U32) : ∃ pos, (pos = 0 ∨ pos = s.readPos) ∧ (s.writeLcr value).2 =
    {s with lcr := value, ifl := s.ifl, readPos := pos, readTrigger := 1, readCount := 0} := by
  rw [writeLcr]
  split
  · exact ⟨0,.inl rfl,rfl⟩
  · exact ⟨s.readPos,.inr rfl,rfl⟩

section
variable (hs : Stored s)
include hs

lemma follows_write_iff (h : Follows s) (offset : U64) (value : U32) :
    Follows (s.pl011Write offset value).2 ↔ s.Orderly (.write offset value) := by
  rw [Orderly,pl011Write]
  split
  case h_6 hr =>
    obtain ⟨pos,-,heq⟩ := writeLcr_snd value
    rw [heq,follows_emptied_iff hs h]
    simp [hr]
  case h_8 hr =>
    rw [pl011SetReadTrigger,follows_emptied_iff hs h s.lcr value s.readPos]
    simp [hr]
  case h_9 hr =>
    simp only [hr,Nat.reduceEqDiff,or_self,false_implies,true_and,true_implies]
    exact ⟨fun h' => h'.line,fun hi => ⟨hi,h.rxfe,h.rxff,h.inside⟩⟩
  case h_1 hr | h_10 hr => exact iff_of_true ⟨h.line.masked,h.rxfe,h.rxff,h.inside⟩ (by simp [hr])
  case h_12 h11 _ h13 h14 _ _ =>
    exact iff_of_true h ⟨fun hr => (hr.elim h11 h13).elim,fun hr => (h14 hr).elim⟩
  -- The other registers are no part of the status.
  all_goals
    rename_i hr
    exact iff_of_true ⟨h.line,h.rxfe,h.rxff,h.inside⟩ (by simp [hr])

lemma Stored.write (h : Follows s) {offset : U64} {value : U32}
    (h' : Follows (s.pl011Write offset value).2) : Stored (s.pl011Write offset value).2 := by
  have ho := (follows_write_iff hs h offset value).mp h'
  rw [pl011Write]
  split
  case h_6 hr =>
    obtain ⟨pos,hp,heq⟩ := writeLcr_snd value
    rw [heq]
    have := hs.pos
    exact stored_emptied hs (ho.1 (.inl hr)) _ _ (by omega)
  case h_8 hr => exact stored_emptied hs (ho.1 (.inr hr)) _ _ hs.pos
  all_goals exact ⟨hs.empty,hs.room,hs.pos⟩

lemma follows_read (h : Follows s) (offset : U64) : Follows (s.pl011Read offset).2.2 := by
  rw [pl011Read]
  split
  case h_1 => exact h.readDr hs
  all_goals exact h

lemma Stored.read (offset : U64) : Stored (s.pl011Read offset).2.2 := by
  rw [pl011Read]
  split
  case h_1 => exact hs.readDr
  all_goals exact hs

lemma slot_lt_iff : s.slot < 16 ↔ s.readPos+s.readCount < 32 := by
  have := hs.pos
  rw [slot]
  split <;> omega

end

section
variable (value : U32)

@[simp] lemma put_readCount : (s.pl011PutFifo value).readCount = s.readCount+1 := by
  rw [pl011PutFifo]
  split <;> rfl

@[simp] lemma put_readPos : (s.pl011PutFifo value).readPos = s.readPos := by
  rw [pl011PutFifo]
  split <;> rfl

@[simp] lemma put_readFifo : (s.pl011PutFifo value).readFifo = Function.update s.readFifo s.slot value := by
  rw [pl011PutFifo]
  split <;> rfl

@[simp] lemma put_lcr : (s.pl011PutFifo value).lcr = s.lcr := by
  rw [pl011PutFifo]
  split <;> rfl

@[simp] lemma put_overrun : (s.pl011PutFifo value).overrun = (s.overrun || decide (16 ≤ s.slot)) := by
  rw [pl011PutFifo]
  split <;> rfl

@[simp] lemma put_flags : (s.pl011PutFifo value).flags =
    if s.lcr &&& fifoEnable = 0 ∨ s.readCount+1 = 16 then s.flags &&& ~~~flagRXFE ||| flagRXFF
    else s.flags &&& ~~~flagRXFE := by
  rw [pl011PutFifo]
  split <;> rfl

lemma Line.put (h : Line s) : Line (s.pl011PutFifo value) := by
  rw [pl011PutFifo]
  split
  · exact h.masked
  · exact h

lemma put_rxfe : ¬(s.pl011PutFifo value).flags &&& flagRXFE ≠ 0 := by
  rw [and_flagRXFE_ne,put_flags]
  split <;> simp [flagRXFE,flagRXFF]

lemma put_rxff : (s.pl011PutFifo value).flags &&& flagRXFF ≠ 0 ↔
    s.flags &&& flagRXFF ≠ 0 ∨ s.lcr &&& fifoEnable = 0 ∨ s.readCount+1 = 16 := by
  rw [and_flagRXFF_ne,and_flagRXFF_ne,put_flags]
  split
  · rename_i h
    exact iff_of_true (by simp [flagRXFF]) (.inr h)
  · rename_i h
    simp only [h,or_false]
    simp [flagRXFE]

lemma follows_put_iff (hs : Stored s) (h : Follows s) : Follows (s.pl011PutFifo value) ↔
    s.readPos+s.readCount < 32 ∧ (s.lcr &&& fifoEnable ≠ 0 → s.readCount ≠ 16) := by
  have hi : (s.pl011PutFifo value).overrun = false ↔ s.readPos+s.readCount < 32 := by
    rw [put_overrun,h.inside,← slot_lt_iff hs]
    simp
  constructor
  · intro h'
    refine ⟨hi.mp h'.inside,fun hen h16 => ?_⟩
    -- The flag of a full FIFO stays set when one more comes.
    have hf := (h'.rxff (by simpa using hen)).mp ((put_rxff value).mpr (.inl ((h.rxff hen).mpr h16)))
    rw [put_readCount] at hf
    omega
  · rintro ⟨hr,hne⟩
    refine ⟨h.line.put value,iff_of_false (put_rxfe value) (by simp),fun hen => ?_,hi.mpr hr⟩
    rw [put_lcr] at hen
    have hc := mt (h.rxff hen).mp (hne hen)
    rw [put_rxff,put_readCount]
    tauto

lemma Stored.put (hs : Stored s) (h : Follows s) (h' : Follows (s.pl011PutFifo value)) :
    Stored (s.pl011PutFifo value) := by
  have hne := ((follows_put_iff value hs h).mp h').2
  refine ⟨by simp,fun hen => ?_,by simpa using hs.pos⟩
  rw [put_lcr] at hen
  have := hs.room hen
  have := hne hen
  rw [put_readCount]
  omega

end

lemma follows_settle (h : Follows s) : Follows s.settle := by
  rw [← reports_settle_iff] at h ⊢
  have hi : s.settle.settle = s.settle := by
    rw [settle.eq_def s]
    split
    · rfl
    · rename_i hev
      rw [settle,if_neg hev]
  rwa [hi]

lemma Stored.settle (hs : Stored s) : Stored s.settle := by
  rw [Pl011.settle]
  split
  · exact ⟨hs.empty,hs.room,hs.pos⟩
  · exact hs

lemma follows_step_iff (hs : Stored s) (h : Follows s) (e : Pl011Event) : Follows (s.step e) ↔ s.Orderly e := by
  cases e with
  | read offset => exact iff_of_true (follows_read hs h offset) trivial
  | write offset value => exact follows_write_iff hs h offset value
  | receive value => exact follows_put_iff _ hs h
  | update => exact iff_of_true (follows_settle h) trivial

lemma Stored.step (hs : Stored s) (h : Follows s) {e : Pl011Event} (h' : Follows (s.step e)) :
    Stored (s.step e) := by
  cases e with
  | read offset => exact hs.read offset
  | write offset value => exact hs.write h h'
  | receive value => exact hs.put _ h h'
  | update => exact hs.settle

lemma Stored.constructed : Stored constructed := ⟨fun _ => by decide,by decide,by decide⟩

lemma Follows.constructed : Follows constructed := ⟨fun _ => rfl,by decide,by decide,rfl⟩

/-- In every run the line and the flags follow exactly when no write masks all interrupts under a high line or empties
a filled FIFO, and no character comes to a full one. -/
theorem status_follows_iff (l : List Pl011Event) :
    (∀ l', l' <+: l → Reports (l'.foldl step Pl011.constructed).settle) ↔
      GuardedRun.Along step Orderly Pl011.constructed l := by
  simp only [reports_settle_iff]
  exact GuardedRun.forall_prefix_iff_along (J := Stored) (fun _ _ hs h h' => hs.step h h')
    (fun _ e hs h => follows_step_iff hs h e) .constructed .constructed l

def maskedRun : List Pl011Event := [.write 0x38 intTX,.write 0x0 0x41,.update,.write 0x38 0,.update]

def emptiedRun : List Pl011Event := [.receive 0x41,.write 0x34 0,.update]

/-- The line stays high with nothing enabled, and an empty FIFO is not reported. -/
theorem status_left_behind :
    ((maskedRun.foldl step Pl011.constructed).irq = true ∧ (maskedRun.foldl step Pl011.constructed).intEnabled = 0) ∧
    (emptiedRun.foldl step Pl011.constructed).readCount = 0 ∧
      (emptiedRun.foldl step Pl011.constructed).flags &&& flagRXFE = 0 := by
  decide

end Pl011
end Qbox
