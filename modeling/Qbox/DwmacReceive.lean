import Qbox.Dwmac
import Qbox.GuardedRun

/-! What becomes of the receive state of the controller, over runs of frames, register writes, transmissions and changes
of the memory. -/
namespace Qbox.Dwmac
open GuardedRun

def RecvKeeps (s : Dwmac) : Action → Prop
  | .recv frame => s.intr.getRxState = .suspended → (s.payloadRecv frame).intr.getRxState = .suspended
  | .write _ _ | .read _ | .transmit _ | .serve | .memory _ => True

/-- A received frame that finds an owned descriptor finds a large enough buffer. -/
def FrameFits (s : Dwmac) : Action → Prop
  | .recv frame => s.intr.getRxState = .suspended → s.oprMode.getLsbD 1 = true → 14 ≤ frame.length →
    s.readRxDesc.own = true → frame.length ≤ s.readRxDesc.buffer1Size
  | .write _ _ | .read _ | .transmit _ | .serve | .memory _ => True

instance (s : Dwmac) : (a : Action) → Decidable (s.RecvKeeps a)
  | .recv _ => inferInstanceAs (Decidable (_ → _))
  | .write _ _ | .read _ | .transmit _ | .serve | .memory _ => isTrue trivial

def RxStaysEnabled (s : Dwmac) (a : Action) : Prop := (s.step a).oprMode.getLsbD 1 = true

def Receives (s : Dwmac) : Prop := s.intr.getRxState = .suspended ∧ s.oprMode.getLsbD 1 = true

instance (s : Dwmac) : Decidable s.Receives := inferInstanceAs (Decidable (_ ∧ _))

/-- The frame is taken, and its bytes stand in the buffer where the descriptor does not cover them. -/
def Stored (s : Dwmac) (frame : List U8) : Prop := (s.rx frame).1 = true ∧ ∀ (i : ℕ) (h : i < frame.length),
    (∀ k < s.descSize, s.readRxDesc.des2.setWidth 64+BitVec.ofNat 64 i ≠ s.currentRxDesc.setWidth 64+BitVec.ofNat 64 k) →
      (s.payloadRecv frame).mem (s.readRxDesc.des2.setWidth 64+BitVec.ofNat 64 i) = frame[i]

variable {s : Dwmac} {frame : List U8}

lemma mem_rxStore (desc : DmaDesc) (frame : List U8) (s : Dwmac) : (s.rxStore desc frame).mem =
    writeAt (writeAt s.mem (desc.des2.setWidth 64) frame) (s.currentRxDesc.setWidth 64)
      (desc.received frame.length).bytes := by
  rw [rxStore,rxDone]
  split_ifs <;> rfl

lemma payloadRecv_eq_rx (h : s.intr.getRxState = .suspended) (frame : List U8) :
    s.payloadRecv frame = (s.rx frame).2 := by
  rw [payloadRecv,if_pos (by rw [h]; decide)]

lemma rx_of_receives (h : s.Receives) (hl : 14 ≤ frame.length) :
    s.rx frame = (s.setRxState .fetching).rxFetch frame := by
  rw [rx,if_neg (by omega),if_neg (by simp [h.2]),if_neg (by simp [h.1])]

lemma rx_of_not (h : ¬(s.oprMode.getLsbD 1 = true ∧ 14 ≤ frame.length)) : s.rx frame = (false,s) := by
  rw [rx]
  split_ifs with hl hsr
  · rfl
  · rfl
  · rfl
  · exact absurd ⟨by simpa using hsr,by omega⟩ h

lemma rxFetch_state (frame : List U8) (s : Dwmac) : (s.rxFetch frame).2.intr.getRxState = .suspended ↔
    (s.readRxDesc.own = true → frame.length ≤ s.readRxDesc.buffer1Size) := by
  rw [rxFetch]
  split_ifs with ho hs
  · exact iff_of_true rfl (by simp_all)
  · exact iff_of_false (by simp [setRxState,InterruptRegister.getRxState,InterruptRegister.setRxState])
      (by simp_all)
  · exact iff_of_true rfl fun _ => by omega

/-- A frame leaves reception suspended exactly when it fits or is not received. -/
lemma recvKeeps_iff (s : Dwmac) (a : Action) : s.RecvKeeps a ↔ s.FrameFits a := by
  cases a with
  | recv frame =>
    refine forall_congr' fun hs => ?_
    rw [payloadRecv_eq_rx hs]
    by_cases hr : s.oprMode.getLsbD 1 = true ∧ 14 ≤ frame.length
    · obtain ⟨hsr,hl⟩ := hr
      rw [rx_of_receives ⟨hs,hsr⟩ hl,rxFetch_state]
      exact ⟨fun h _ _ => h,fun h => h hsr hl⟩
    · rw [rx_of_not hr]
      exact iff_of_true hs fun hsr hl => absurd ⟨hsr,hl⟩ hr
  | write _ _ | read _ | transmit _ | serve | memory _ => exact Iff.rfl

section
lemma writeRegister_receives {reg : Register} {data : U32} (h : s.Receives)
    (hst : (s.writeRegister reg data).oprMode.getLsbD 1 = true) : (s.writeRegister reg data).Receives := by
  refine ⟨?_,hst⟩
  have hs := h.1
  cases reg with
  | busMode =>
    rw [writeRegister] at hst ⊢
    split_ifs at hst ⊢
    · simp [reset] at hst
    · exact hs
  | rxPoll =>
    rw [writeRegister]
    split_ifs <;> rfl
  | txPoll | rxDescListAddr | txDescListAddr =>
    rw [writeRegister]
    split_ifs <;> exact hs
  | operationMode =>
    simp only [writeRegister]
    split_ifs <;> first | rfl | exact hs
  | status | interrupts | configuration | other => exact hs

lemma writeWord_receives {address data : U32} (h : s.Receives)
    (hs : (s.writeWord address data).oprMode.getLsbD 1 = true) : (s.writeWord address data).Receives := by
  rw [writeWord] at hs ⊢
  split_ifs at hs ⊢
  · exact h
  · exact writeRegister_receives h hs

lemma readWord_receives (h : s.Receives) (address : U32) : (s.readWord address).2.Receives := by
  rcases readWord_state address s with hr | hr
  · rwa [hr]
  · rw [hr]
    refine ⟨?_,h.2⟩
    rw [InterruptRegister.status]
    split_ifs <;> exact h.1

lemma transmit_receives (h : s.Receives) (n : ℕ) : (s.step (.transmit n)).Receives := by
  refine (step_transmit_moves n s).invariant (fun s m hm hs => ?_) h
  cases m with
  | rxState _ => exact hm.elim
  | txState _ | fire _ | data _ _ _ _ _ => exact hs

/-- Frames are taken as long as each fits and the DMA stays enabled. -/
lemma step_receives {a : Action} (h : s.Receives) (hf : s.FrameFits a) (hs : s.RxStaysEnabled a) :
    (s.step a).Receives := by
  cases a with
  | write address data => exact writeWord_receives h hs
  | read address => exact readWord_receives h address
  | recv frame => exact ⟨(recvKeeps_iff s (.recv frame)).mpr hf h.1,hs⟩
  | transmit n => exact transmit_receives h n
  | serve =>
    rw [step,intrThread]
    split_ifs <;> exact h
  | memory _ => exact h

end

section
lemma length_withWord0 (w : U32) {desc : DmaDesc} (h : 4 ≤ desc.bytes.length) :
    (desc.withWord0 w).bytes.length = desc.bytes.length := by
  simp only [DmaDesc.withWord0,List.length_append,MachineWord.length_storeLe,List.length_drop]
  omega

lemma length_received (size : ℕ) (desc : DmaDesc) (h : 4 ≤ desc.bytes.length) :
    (desc.received size).bytes.length = desc.bytes.length := length_withWord0 _ h

lemma length_readRxDesc (s : Dwmac) : s.readRxDesc.bytes.length = s.descSize := length_bytesAt ..

lemma stored_of_receives (h : s.Receives) (hl : 14 ≤ frame.length) (how : s.readRxDesc.own = true)
    (hf : frame.length ≤ s.readRxDesc.buffer1Size) : s.Stored frame := by
  have hrx : s.rx frame = (true,((s.setRxState .fetching).setRxState .transferring).rxStore s.readRxDesc frame) := by
    rw [rx_of_receives h hl,rxFetch]
    have hd : (s.setRxState .fetching).readRxDesc = s.readRxDesc := rfl
    rw [hd,if_neg (by simp [how]),if_neg (by omega)]
  refine ⟨by rw [hrx],fun i hi ho => ?_⟩
  have hs : frame.length < 2^64 := hf.trans_lt ((BitVec.isLt _).trans (by decide))
  rw [payloadRecv_eq_rx h.1,hrx,mem_rxStore,writeAt_of_forall_ne]
  · exact writeAt_getElem s.mem _ hi (hi.trans hs)
  · rw [length_received,length_readRxDesc]
    · exact ho
    · rw [length_readRxDesc]
      exact four_le_descSize s

end

/-- In every run frames leave a suspended reception suspended exactly when each fits in its buffer; then, with the DMA
enabled, a frame is stored where it fits. -/
theorem reception_continues_iff (s : Dwmac) (l : List Action) :
    (Along step RecvKeeps s l ↔ Along step FrameFits s l) ∧
      (s.Receives → Along step (fun s a => s.FrameFits a ∧ s.RxStaysEnabled a) s l → ∀ frame : List U8,
        14 ≤ frame.length → (l.foldl step s).readRxDesc.own = true →
          frame.length ≤ (l.foldl step s).readRxDesc.buffer1Size → (l.foldl step s).Stored frame) := by
  refine ⟨?_,fun hs hl frame hle ho hf => ?_⟩
  · exact along_iff_along (J := fun _ => True) (fun _ _ _ _ => trivial) (fun s a _ => recvKeeps_iff s a) trivial
  · have hr := (GuardedRun.refl.foldl hl).invariant (fun s a hs ha => step_receives hs ha.1 ha.2) hs
    exact stored_of_receives hr hle ho hf

def sampleRxMemory (size : U8) : U64 → U8 := fun a =>
  if a = 3 then 0x80 else if a = 4 then size else if a = 9 then 1 else 0

def sampleFrame : List U8 := List.replicate 64 0xAA

/-- After a frame of 64 bytes for a buffer of 16 the next frame is dropped although it fits, until the driver polls.
-/
theorem small_buffer_stops_reception : let s : Dwmac := step { mem := sampleRxMemory 16 } (.write 0x1018 2)
    let s' := (s.step (.recv sampleFrame)).step (.memory (sampleRxMemory 64))
    s.Receives ∧ ¬s.RecvKeeps (.recv sampleFrame) ∧ s'.oprMode.getLsbD 1 = true ∧ s'.readRxDesc.own = true ∧
      sampleFrame.length ≤ s'.readRxDesc.buffer1Size ∧ (s'.rx sampleFrame).1 = false ∧
      ((s'.step (.write 0x1008 0)).rx sampleFrame).1 = true := by
  decide +kernel

end Qbox.Dwmac
