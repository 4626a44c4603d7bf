import Qbox.Dwmac
import Qbox.GuardedRun

/-! The interrupt register of the controller and its line: what `DMA_STATUS` reads, what is enabled in `DMA_INTERRUPTS`
and what `intr0` shows, over runs of register accesses, frames and turns of the interrupt thread. -/
namespace Qbox.Dwmac
open GuardedRun MachineWord
open BitVec hiding not_or or_assoc
open Bool hiding not_or or_assoc

/-- The two summary bits of `DMA_STATUS`. -/
inductive Summary where
  | normal | abnormal
  deriving DecidableEq

namespace Summary
def mask : Summary → U32
  | .normal => nisMask
  | .abnormal => aisMask

def index : Summary → ℕ
  | .normal => 16
  | .abnormal => 15

end Summary

variable (s : Dwmac)

def readStatus : U32 := (s.readWord 0x1014).1
def readInterrupts : U32 := (s.readWord 0x101C).1

/-- The line shows what the registers have in common, or is to be driven; acknowledged bits read 0. -/
def LineAgrees : Prop :=
  (s.intrWake = false → (s.intr0 = true ↔ s.readStatus &&& s.readInterrupts ≠ 0)) ∧ s.readStatus &&& s.acked = 0

instance (s : Dwmac) : Decidable s.LineAgrees := inferInstanceAs (Decidable (_ ∧ _))

/-- A summary bit is written as 1 together with all its pending interrupts. -/
def SummaryComplete (data interrupts : U32) : Prop :=
  ∀ g : Summary, data.getLsbD g.index = true → interrupts &&& g.mask &&& ~~~data = 0

/-- Reset comes while the line is low or about to be driven, polls while the descriptor is owned, and summary bits are
acknowledged with their interrupts. -/
def ProperWrite (data : U32) : Register → Prop
  | .busMode => data.getLsbD 0 = true → s.intrWake = true ∨ s.intr0 = false
  | .txPoll => s.readTxDesc.own = true
  | .status => SummaryComplete data s.intr.interrupts
  | .rxPoll | .rxDescListAddr | .txDescListAddr | .operationMode | .interrupts | .configuration | .other => True

def Proper : Action → Prop
  | .write address data => s.ProperWrite data (.ofAddress address)
  | .read _ | .recv _ | .transmit _ | .serve | .memory _ => True

section
variable {i : ℕ} {m x : U32}

lemma getLsbD_nisBit (i : ℕ) : nisBit.getLsbD i = decide (i = 16) := by
  rw [show nisBit = twoPow 32 16 from rfl,getLsbD_twoPow]
  simp [eq_comm]

lemma getLsbD_aisBit (i : ℕ) : aisBit.getLsbD i = decide (i = 15) := by
  rw [show aisBit = twoPow 32 15 from rfl,getLsbD_twoPow]
  simp [eq_comm]

lemma Summary.getLsbD_index (g g' : Summary) : g.mask.getLsbD g'.index = false := by
  cases g <;> cases g' <;> decide

lemma getLsbD_or_summaries (x : U32) (P : Summary → Prop) [DecidablePred P] (i : ℕ) :
    (x ||| (if P .normal then nisBit else 0) ||| (if P .abnormal then aisBit else 0)).getLsbD i = true ↔
      x.getLsbD i = true ∨ ∃ g : Summary, i = g.index ∧ P g := by
  have hg : (∃ g : Summary, i = g.index ∧ P g) ↔ (i = 16 ∧ P .normal) ∨ (i = 15 ∧ P .abnormal) := by
    constructor
    · rintro ⟨g | g,h⟩
      · exact .inl h
      · exact .inr h
    · rintro (h | h)
      · exact ⟨.normal,h⟩
      · exact ⟨.abnormal,h⟩
  rw [hg,getLsbD_or,getLsbD_or,apply_ite (getLsbD · i),apply_ite (getLsbD · i),
    getLsbD_nisBit,getLsbD_aisBit]
  split_ifs with hn ha ha <;> simp [hn,ha,or_assoc]

lemma summarize_eq (m x : U32) : InterruptRegister.summarize m x =
    x ||| (if x &&& nisMask ≠ 0 ∧ m &&& nisBit ≠ 0 then nisBit else 0) |||
      (if x &&& aisMask ≠ 0 ∧ m &&& aisBit ≠ 0 then aisBit else 0) := by
  have ho : (x ||| nisBit) &&& aisMask = x &&& aisMask := by
    rw [BitVec.and_comm,BitVec.and_or_distrib_left,BitVec.and_comm aisMask x]
    exact or_zero
  rw [InterruptRegister.summarize]
  by_cases hn : x &&& nisMask ≠ 0 ∧ m &&& nisBit ≠ 0
  · simp only [if_pos hn,ho]
    split_ifs
    · rfl
    · exact or_zero.symm
  · simp only [if_neg hn]
    split_ifs
    · simp
    · simp

lemma summarize_getLsbD (m x : U32) (i : ℕ) : (InterruptRegister.summarize m x).getLsbD i = true ↔
    x.getLsbD i = true ∨ ∃ g : Summary, i = g.index ∧ x &&& g.mask ≠ 0 ∧ m.getLsbD g.index = true := by
  have hb : ∀ g : Summary, m &&& twoPow 32 g.index ≠ 0 ↔ m.getLsbD g.index = true := fun g =>
    and_twoPow_ne_zero (by cases g <;> decide) m
  simp only [← hb]
  rw [summarize_eq]
  exact getLsbD_or_summaries x (fun g => x &&& g.mask ≠ 0 ∧ m &&& twoPow 32 g.index ≠ 0) i

/-- An interrupt is the cause of its own bit and of the summary bit of its group. -/
lemma causeBits_getLsbD (x : U32) (i : ℕ) : (causeBits x).getLsbD i = true ↔
    x.getLsbD i = true ∨ ∃ g : Summary, i = g.index ∧ x &&& g.mask ≠ 0 :=
  getLsbD_or_summaries x (fun g => x &&& g.mask ≠ 0) i

lemma Summary.mask_isMask (g : Summary) (h : g.mask.getLsbD i = true) : isMask.getLsbD i = true := by
  rw [isMask,getLsbD_or,or_eq_true]
  cases g with
  | normal => exact .inl h
  | abnormal => exact .inr h

lemma summarize_and_mask {g : Summary} (h : x &&& g.mask = 0) : InterruptRegister.summarize m x &&& g.mask = 0 := by
  rw [and_eq_zero_iff] at h ⊢
  intro i hi
  rcases (summarize_getLsbD m x i).mp hi with hx | ⟨g',rfl,-,-⟩
  · exact h i hx
  · exact g.getLsbD_index g'

lemma causeBits_of_summarize {y : U32} (hs : ∀ i, x.getLsbD i = true → y.getLsbD i = true)
    (h : (InterruptRegister.summarize m x).getLsbD i = true) : (causeBits y).getLsbD i = true := by
  rw [causeBits_getLsbD]
  rcases (summarize_getLsbD m x i).mp h with hx | ⟨g,hg,hx,-⟩
  · exact .inl (hs i hx)
  · refine .inr ⟨g,hg,fun hy => hx ?_⟩
    rw [and_eq_zero_iff] at hy ⊢
    exact fun j hj => hy j (hs j hj)

lemma value_and {r : StatusReg} (htu : r.tu = false) (hru : r.ru = false) : r.value &&& (isMask ||| isBits) = 0 := by
  obtain ⟨tu,ru,rs,ts⟩ := r
  subst htu hru
  cases rs <;> cases ts <;> decide

lemma getLsbD_and_not {a b : U32} (h : (a &&& ~~~b).getLsbD i = true) :
    a.getLsbD i = true ∧ b.getLsbD i = false := by
  rw [getLsbD_and,getLsbD_not,and_eq_true,and_eq_true] at h
  exact ⟨h.1,by simpa using h.2.2⟩

lemma left_getLsbD (data x : U32) (i : ℕ) :
    (x &&& (~~~(data &&& (isMask ||| isBits) &&& (isMask ||| isBits)) &&& isMask)).getLsbD i = true ↔
      x.getLsbD i = true ∧ data.getLsbD i = false ∧ isMask.getLsbD i = true := by
  rw [getLsbD_and,getLsbD_and,getLsbD_not,getLsbD_and,getLsbD_and,getLsbD_or]
  cases hm : isMask.getLsbD i with
  | false => simp
  | true => simp [lt_of_getLsbD hm]

lemma value_tu {r : StatusReg} (htu : r.tu = true) : r.value.getLsbD 2 = true := by
  rw [StatusReg.value,htu]
  simp

end

/-- What holds of the interrupt register, the line, its thread and the acknowledged bits. -/
structure IntrSound (r : InterruptRegister) (intr0 wake : Bool) (acked : U32) : Prop where
  fresh : r.regstateStaled = false → r.regstate = r.interrupts ||| r.dmaRegStatus.value
  line : wake = false → intr0 = r.hasInterrupts
  regmask : (isMask ||| isBits) &&& r.regmask = r.regmask
  tu : r.dmaRegStatus.tu = false
  ru : r.dmaRegStatus.ru = false
  ackedMask : (isMask ||| isBits) &&& acked = acked
  reads : ∀ i, acked.getLsbD i = true → r.interrupts.getLsbD i = false
  summary : ∀ g : Summary, acked.getLsbD g.index = true → r.interrupts &&& g.mask = 0

namespace IntrSound
variable {r : InterruptRegister} {intr0 wake : Bool} {acked : U32}

section
variable (h : IntrSound r intr0 wake acked)
include h

lemma status_eq : r.status.1 = r.interrupts ||| r.dmaRegStatus.value := by
  rw [InterruptRegister.status]
  split_ifs with hs
  · rfl
  · exact h.fresh (by simpa using hs)

lemma status_and {m : U32} (hm : (isMask ||| isBits) &&& m = m) :
    r.status.1 &&& m = r.interrupts &&& m := by
  have hv : r.dmaRegStatus.value &&& m = 0 := by
    rw [← hm,← BitVec.and_assoc,value_and h.tu h.ru]
    exact zero_and
  rw [h.status_eq,BitVec.and_comm,BitVec.and_or_distrib_left,BitVec.and_comm m,BitVec.and_comm m,hv]
  exact or_zero

lemma setTxState (state : TxState) :
    IntrSound (r.setTxState state) intr0 wake acked :=
  { h with fresh := fun hs => by cases hs }

lemma setRxState (state : RxState) :
    IntrSound (r.setRxState state) intr0 wake acked :=
  { h with fresh := fun hs => by cases hs }

lemma status : IntrSound r.status.2 intr0 wake acked := by
  rw [InterruptRegister.status]
  split_ifs
  · exact { h with fresh := fun _ => rfl }
  · exact h

lemma clearRu :
    IntrSound { r with dmaRegStatus := { r.dmaRegStatus with ru := false } } intr0 wake acked :=
  have hs : { r with dmaRegStatus := { r.dmaRegStatus with ru := false } } = r := by
    rw [← h.ru]
  hs ▸ h

lemma served : IntrSound r r.hasInterrupts false acked :=
  { h with line := fun _ => rfl }

lemma setInterrupts (mask : U32) :
    IntrSound (r.setInterrupts mask) intr0 true acked :=
  { h with
    line := fun hw => by cases hw
    regmask := by rw [InterruptRegister.setInterrupts,BitVec.and_comm mask,← BitVec.and_assoc,BitVec.and_self] }

lemma reset (hl : wake = true ∨ intr0 = false) :
    IntrSound .reset intr0 wake acked where
  fresh _ := rfl
  line hw := by
    rcases hl with hl | hl
    · simp [hl] at hw
    · exact hl
  regmask := rfl
  tu := rfl
  ru := rfl
  ackedMask := h.ackedMask
  reads _ _ := getLsbD_zero
  summary _ _ := zero_and

end

lemma fire_cause {x : U32} (i : ℕ) (h : (x &&& r.regmask &&& isMask).getLsbD i = true) : x.getLsbD i = true := by
  rw [getLsbD_and,getLsbD_and,and_eq_true,and_eq_true] at h
  exact h.1.1

section
variable (h : IntrSound r intr0 wake acked)
include h

lemma fire (x : U32) :
    IntrSound (r.fire x) intr0 true (acked &&& ~~~causeBits x) where
  fresh hs := by cases hs
  line hw := by cases hw
  regmask := h.regmask
  tu := h.tu
  ru := h.ru
  ackedMask := by rw [← BitVec.and_assoc,h.ackedMask]
  reads i hi := by
    obtain ⟨ha,hc⟩ := getLsbD_and_not hi
    rw [InterruptRegister.fire,getLsbD_or,h.reads i ha,Bool.false_or]
    refine eq_false_iff.mpr fun hse => ?_
    rw [causeBits_of_summarize fire_cause hse] at hc
    cases hc
  summary g hg := by
    obtain ⟨ha,hc⟩ := getLsbD_and_not hg
    have hx : x &&& g.mask = 0 := by
      by_contra hx
      rw [(causeBits_getLsbD x g.index).mpr (.inr ⟨g,rfl,hx⟩)] at hc
      cases hc
    have hf : x &&& r.regmask &&& isMask &&& g.mask = 0 := by
      rw [and_eq_zero_iff] at hx ⊢
      exact fun i hi => hx i (fire_cause i hi)
    rw [InterruptRegister.fire,BitVec.and_comm,BitVec.and_or_distrib_left,BitVec.and_comm,h.summary g ha,
      BitVec.and_comm,summarize_and_mask hf]
    rfl

omit h in
lemma acked_cases {data : U32} {i : ℕ} (h : (acked ||| (data &&& (isMask ||| isBits))).getLsbD i = true) :
    acked.getLsbD i = true ∨ data.getLsbD i = true := by
  rw [getLsbD_or,getLsbD_and,or_eq_true,and_eq_true] at h
  exact h.imp_right And.left

lemma left_and_mask {data : U32} (hd : SummaryComplete data r.interrupts)
    {g : Summary} (hg : (acked ||| (data &&& (isMask ||| isBits))).getLsbD g.index = true) :
    r.interrupts &&& (~~~(data &&& (isMask ||| isBits) &&& (isMask ||| isBits)) &&& isMask) &&& g.mask = 0 := by
  rw [and_eq_zero_iff]
  intro i hi
  obtain ⟨hp,hw,-⟩ := (left_getLsbD data r.interrupts i).mp hi
  rcases acked_cases hg with hg | hg
  · exact and_eq_zero_iff.mp (h.summary g hg) i hp
  · refine eq_false_iff.mpr fun hm => ?_
    have hb : (r.interrupts &&& g.mask).getLsbD i = true := by rw [getLsbD_and,hp,hm,Bool.and_self]
    have hn := and_eq_zero_iff.mp (hd g hg) i hb
    rw [getLsbD_not,hw] at hn
    simp [lt_of_getLsbD hp] at hn

lemma setStatus {data : U32} (hd : SummaryComplete data r.interrupts) :
    IntrSound (r.setStatus data) intr0 true (acked ||| (data &&& (isMask ||| isBits))) where
  fresh hs := by cases hs
  line hwa := by cases hwa
  regmask := h.regmask
  tu := h.tu
  ru := h.ru
  ackedMask := by
    rw [BitVec.and_or_distrib_left,h.ackedMask,BitVec.and_comm data,← BitVec.and_assoc,BitVec.and_self]
  reads i hi := by
    refine eq_false_iff.mpr fun hse => ?_
    rcases (summarize_getLsbD _ _ i).mp hse with hl | ⟨g,rfl,hl,-⟩
    · obtain ⟨hp,hw,-⟩ := (left_getLsbD data r.interrupts i).mp hl
      rcases acked_cases hi with hi | hi
      · simp [h.reads i hi] at hp
      · simp [hi] at hw
    · exact hl (h.left_and_mask hd hi)
  summary g hg := summarize_and_mask (h.left_and_mask hd hg)

end

end IntrSound

def Sound : Prop := IntrSound s.intr s.intr0 s.intrWake s.acked

section
variable {s : Dwmac}

lemma readStatus_eq (s : Dwmac) : s.readStatus = s.intr.status.1 := rfl

lemma readInterrupts_eq (s : Dwmac) : s.readInterrupts = s.intr.regmask := rfl

lemma Sound.lineAgrees (h : s.Sound) : s.LineAgrees := by
  rw [LineAgrees,readStatus_eq,readInterrupts_eq]
  constructor
  · intro hw
    rw [h.line hw,h.status_and h.regmask,InterruptRegister.hasInterrupts,decide_eq_true_iff]
  · rw [h.status_and h.ackedMask,BitVec.and_comm,and_eq_zero_iff]
    exact h.reads

lemma Sound.move (h : s.Sound) (m : Move) : (s.move m).Sound := by
  cases m with
  | txState state => exact IntrSound.setTxState h state
  | rxState state => exact IntrSound.setRxState h state
  | fire x => exact IntrSound.fire h x
  | data _ _ _ _ _ => exact h

lemma ofAddress_of_unaligned {address : U32} (h : address &&& 3 ≠ 0) : Register.ofAddress address = .other := by
  have hm : address.toNat % 4 ≠ 0 := by
    intro hz
    refine h (eq_of_toNat_eq ?_)
    have hand := toNat_and_lowMask address 2
    rw [show (lowMask 2 : U32) = 3 from rfl] at hand
    rw [hand]
    exact hz
  rw [Register.ofAddress]
  split <;> first | rfl | omega

lemma writeWord_eq (address data : U32) (s : Dwmac) :
    s.writeWord address data = s.writeRegister (.ofAddress address) data := by
  rw [writeWord]
  split_ifs with h
  · rw [ofAddress_of_unaligned h,writeRegister]
  · rfl

lemma Sound.writeRegister {reg : Register} {data : U32} (h : s.Sound) (hp : s.ProperWrite data reg) :
    (s.writeRegister reg data).Sound := by
  cases reg with
  | busMode =>
    rw [Dwmac.writeRegister]
    split_ifs with hr
    · exact IntrSound.reset h (hp hr)
    · exact h
  | txPoll =>
    rw [Dwmac.writeRegister,if_neg (by simp [show s.readTxDesc.own = true from hp])]
    exact IntrSound.setTxState h _
  | rxPoll =>
    rw [Dwmac.writeRegister]
    split_ifs
    · exact IntrSound.setRxState (IntrSound.clearRu h) _
    · exact IntrSound.setRxState h _
  | rxDescListAddr | txDescListAddr =>
    rw [Dwmac.writeRegister]
    split_ifs <;> exact h
  | status => exact IntrSound.setStatus h hp
  | operationMode =>
    simp only [Dwmac.writeRegister]
    split_ifs
    · exact IntrSound.setTxState (IntrSound.setRxState h _) _
    · exact IntrSound.setRxState h _
    · exact IntrSound.setTxState h _
    · exact h
  | interrupts => exact IntrSound.setInterrupts h data
  | configuration | other => exact h

lemma Sound.readWord (h : s.Sound) (address : U32) : (s.readWord address).2.Sound := by
  rcases readWord_state address s with hr | hr
  · rwa [hr]
  · rw [hr]
    exact IntrSound.status h

/-- A proper action keeps the interrupt side sound. -/
lemma Sound.step {a : Action} (h : s.Sound) (hp : s.Proper a) : (s.step a).Sound := by
  cases a with
  | write address data =>
    rw [Dwmac.step,writeWord_eq]
    exact h.writeRegister hp
  | read address => exact h.readWord address
  | recv frame =>
    rw [Dwmac.step,payloadRecv]
    split_ifs
    · exact (rx_moves frame s).invariant (fun s m _ hs => hs.move m) h
    · exact h
  | transmit n => exact (step_transmit_moves n s).invariant (fun s m _ hs => hs.move m) h
  | serve =>
    rw [Dwmac.step,intrThread]
    split_ifs
    · exact IntrSound.served h
    · exact h
  | memory _ => exact h

/-- However the run goes on with proper actions, the line agrees. -/
def KeepsAgreeing (s : Dwmac) (a : Action) : Prop :=
  ∀ l : List Action, Along Dwmac.step Proper (s.step a) l → (l.foldl Dwmac.step (s.step a)).LineAgrees

lemma Sound.foldl (h : s.Sound) {l : List Action} (hl : Along Dwmac.step Proper s l) : (l.foldl Dwmac.step s).Sound :=
  (GuardedRun.refl.foldl hl).invariant (fun _ _ hs ha => hs.step ha) h

end

section
variable {s : Dwmac} {data : U32}

lemma not_lineAgrees_of_bit {i : ℕ} (hst : s.intr.regstateStaled = true) (ha : s.acked.getLsbD i = true)
    (hse : (s.intr.interrupts ||| s.intr.dmaRegStatus.value).getLsbD i = true) : ¬s.LineAgrees := by
  intro h
  have hs : s.readStatus = s.intr.interrupts ||| s.intr.dmaRegStatus.value := by
    rw [readStatus_eq,InterruptRegister.status,if_pos hst]
  rw [LineAgrees,hs,and_eq_zero_iff] at h
  rw [h.2 i hse] at ha
  cases ha

lemma reset_disagrees (hr : data.getLsbD 0 = true) (hw : s.intrWake = false) (hl : s.intr0 = true) :
    ¬(s.writeRegister .busMode data).LineAgrees := by
  rw [writeRegister,if_pos hr]
  intro h
  refine (h.1 hw).mp hl ?_
  simp [readInterrupts_eq,reset,InterruptRegister.reset]

/-- A poll that finds a descriptor the host owns sets a bit that no acknowledgement clears. -/
lemma poll_disagrees (ho : s.readTxDesc.own = false) :
    ¬((s.writeRegister .txPoll data).writeRegister .status 4).LineAgrees := by
  rw [writeRegister,ho]
  refine not_lineAgrees_of_bit (i := 2) rfl ?_ ?_
  · have ha : ∀ acked : U32, (acked ||| (4 &&& (isMask ||| isBits))).getLsbD 2 = true := fun acked => by
      rw [getLsbD_or,or_eq_true]
      exact .inr rfl
    exact ha s.acked
  · rw [getLsbD_or,or_eq_true]
    exact .inr (value_tu rfl)

/-- A summary bit that is acknowledged before its interrupts is set again. -/
lemma summary_disagrees {g : Summary} (hg : data.getLsbD g.index = true)
    (hl : s.intr.interrupts &&& g.mask &&& ~~~data ≠ 0) :
    ¬(((s.writeRegister .status data).writeRegister .interrupts (twoPow 32 g.index)).writeRegister
      .status 0).LineAgrees := by
  refine not_lineAgrees_of_bit (i := g.index) rfl ?_ ?_
  · have hb : (isMask ||| isBits).getLsbD g.index = true := by cases g <;> decide
    have ha : ∀ acked more : U32, (acked ||| (data &&& (isMask ||| isBits)) ||| more).getLsbD g.index = true :=
      fun acked more => by
        rw [getLsbD_or,getLsbD_or,getLsbD_and,hg,hb,Bool.and_self,Bool.or_true,Bool.true_or]
    exact ha s.acked _
  · rw [getLsbD_or,or_eq_true]
    refine .inl ((summarize_getLsbD _ _ _).mpr (.inr ⟨g,rfl,fun hn => hl ?_,?_⟩))
    · -- An interrupt of the group that was not written is still pending after both writes.
      rw [and_eq_zero_iff] at hn ⊢
      intro i hi
      rw [getLsbD_and,and_eq_true] at hi
      by_contra hd
      have hno : data.getLsbD i = false := by
        rw [getLsbD_not] at hd
        simpa [lt_of_getLsbD hi.1] using hd
      have hf := (left_getLsbD data s.intr.interrupts i).mpr ⟨hi.1,hno,g.mask_isMask hi.2⟩
      have hs := (summarize_getLsbD s.intr.regmask _ i).mpr (.inl hf)
      have ht := (left_getLsbD 0 _ i).mpr ⟨hs,getLsbD_zero,g.mask_isMask hi.2⟩
      rw [hn i ht] at hi
      cases hi.2
    · have hb : (twoPow 32 g.index &&& (isMask ||| isBits)).getLsbD g.index = true := by cases g <;> decide
      exact hb

lemma proper_of_keepsAgreeing {a : Action} (h : s.KeepsAgreeing a) : s.Proper a := by
  cases a with
  | write address data =>
    have hs : s.step (.write address data) = s.writeRegister (.ofAddress address) data := writeWord_eq address data s
    rw [KeepsAgreeing,hs] at h
    rw [Proper]
    revert h
    cases hre : Register.ofAddress address with
    | busMode =>
      intro h hr
      by_contra hl
      rw [not_or,not_eq_true,not_eq_false] at hl
      exact reset_disagrees hr hl.1 hl.2 (h [] trivial)
    | txPoll =>
      intro h
      by_contra ho
      have hp : SummaryComplete 4 (s.writeRegister .txPoll data).intr.interrupts := by
        intro g hg
        cases g <;> cases hg
      exact poll_disagrees (eq_false_iff.mpr ho) (h [.write 0x1014 4] ⟨hp,trivial⟩)
    | status =>
      intro h g hg
      by_contra hle
      refine summary_disagrees hg hle (h [.write 0x101C (twoPow 32 g.index),.write 0x1014 0] ⟨trivial,?_,trivial⟩)
      intro g' hg'
      cases g' <;> cases hg'
    | rxPoll | rxDescListAddr | txDescListAddr | operationMode | interrupts | configuration | other =>
      exact fun _ => trivial
  | read _ | recv _ | transmit _ | serve | memory _ => trivial

end

def start (mem : U64 → U8) : Dwmac := { mem := mem }

lemma start_sound (mem : U64 → U8) : (start mem).Sound := by
  have hr : IntrSound .reset false false 0 :=
    { fresh := fun _ => by decide
      line := fun _ => by decide
      regmask := by decide
      tu := rfl
      ru := rfl
      ackedMask := by decide
      reads := fun _ _ => getLsbD_zero
      summary := fun _ _ => zero_and }
  exact hr

/-- The line and the registers agree in every run of proper actions, and actions are proper exactly when the line
agrees after each, however the run goes on. -/
theorem interrupt_line_agrees_iff (mem : U64 → U8) (l : List Action) :
    (Along step Proper (start mem) l → (l.foldl step (start mem)).LineAgrees) ∧
      (Along step KeepsAgreeing (start mem) l ↔ Along step Proper (start mem) l) := by
  refine ⟨fun hl => ((start_sound mem).foldl hl).lineAgrees,?_⟩
  refine along_iff_along (fun s a hs ha => hs.step ha) (fun s a hs => ?_) (start_sound mem)
  exact ⟨proper_of_keepsAgreeing,fun ha l hl => ((hs.step ha).foldl hl).lineAgrees⟩

/-- A poll sets the bit for the missing buffer, which stays when acknowledged; a reset leaves the line high; the
summary bit acknowledged alone reads 1 again. -/
theorem interrupt_line_disagrees :
    let enabled := [Action.write 0x1018 0x2000,.write 0x101C 0x10004,.serve].foldl step (start fun _ => 0)
    let polled := [Action.write 0x1004 0,.write 0x1014 4,.serve].foldl step enabled
    let fired := [Action.transmit 1,.serve].foldl step enabled
    let reset := fired.step (.write 0x1000 1)
    let summary := [Action.write 0x1014 0x10000,.serve].foldl step fired
    (polled.intrWake = false ∧ polled.intr0 = false ∧ polled.readStatus &&& polled.readInterrupts = 4 ∧
        polled.acked = 4 ∧ ¬polled.LineAgrees) ∧
      (fired.LineAgrees ∧ fired.intr0 = true) ∧
      (reset.intrWake = false ∧ reset.intr0 = true ∧ reset.readStatus = 0 ∧ ¬reset.LineAgrees) ∧
      (summary.readStatus.getLsbD 16 = true ∧ summary.acked = 0x10000 ∧ ¬summary.LineAgrees) := by
  decide +kernel

end Qbox.Dwmac
