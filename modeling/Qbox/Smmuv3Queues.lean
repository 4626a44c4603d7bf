import Qbox.GuardedRun
import Qbox.RingQueue
import Qbox.Smmuv3Reporting

/-! Runs of the event queue and the page-request queue: what lies in memory between the
consumer and the producer index. -/
namespace Qbox.Smmuv3
open MachineWord DmaSocket Function Core
open BitVec hiding not_not

namespace OutputQueue
variable (q : OutputQueue) (r : Regs)

def slotAddr (i : ℕ) : U64 := q.base r+BitVec.ofNat 64 (i*q.recordSize)

def InRing (x : U64) : Prop := ∃ i < 2^q.log2size r*q.recordSize, x = q.base r+BitVec.ofNat 64 i

lemma log2size_le : q.log2size r ≤ 19 := by
  have hc : ∀ lo, queueLog2size lo ≤ 19 := fun lo => by
    rw [queueLog2size,clampQueueLog2size]
    split_ifs <;> omega
  cases q <;> exact hc _

lemma recordSize_le : q.recordSize ≤ 32 := by
  cases q <;> decide

lemma ringSize_lt : 2^q.log2size r*q.recordSize < 2^64 := by
  have hp := Nat.pow_le_pow_right two_pos (q.log2size_le r)
  have := Nat.mul_le_mul hp q.recordSize_le
  omega

lemma nextAddr_eq : q.nextAddr r = q.slotAddr r ((q.prod r).toNat % 2^q.log2size r) := by
  have hi : (q.prod r &&& lowMask (q.log2size r)).setWidth 64 =
      BitVec.ofNat 64 ((q.prod r).toNat % 2^q.log2size r) := by
    rw [← toNat_and_lowMask]
    exact (BitVec.ofNat_toNat 64 _).symm
  rw [nextAddr,recordAddr,hi,slotAddr,ofNat_mul]

lemma slotAddr_add (i k : ℕ) : q.slotAddr r i+BitVec.ofNat 64 k = q.base r+BitVec.ofNat 64 (i*q.recordSize+k) := by
  rw [slotAddr,BitVec.add_assoc,← ofNat_add]

lemma offset_lt {n size i k : ℕ} (hi : i < n) (hk : k < size) : i*size+k < n*size :=
  calc i*size+k < i*size+size := by omega
    _ = (i+1)*size := by ring
    _ ≤ n*size := Nat.mul_le_mul_right _ hi

lemma inRing_slot {q : OutputQueue} {r : Regs} {i k : ℕ} (hi : i < 2^q.log2size r) (hk : k < q.recordSize) :
    q.InRing r (q.slotAddr r i+BitVec.ofNat 64 k) :=
  ⟨_,offset_lt hi hk,slotAddr_add q r i k⟩

lemma slot_ne {q : OutputQueue} {r : Regs} {i j k l : ℕ} (hi : i < 2^q.log2size r) (hj : j < 2^q.log2size r)
    (hk : k < q.recordSize) (hl : l < q.recordSize) (hij : i ≠ j) :
    q.slotAddr r i+BitVec.ofNat 64 k ≠ q.slotAddr r j+BitVec.ofNat 64 l := by
  intro h
  rw [slotAddr_add,slotAddr_add] at h
  have hn := congrArg BitVec.toNat (add_left_cancel h)
  have hs := q.ringSize_lt r
  rw [toNat_ofNat,toNat_ofNat,Nat.mod_eq_of_lt ((offset_lt hi hk).trans hs),
    Nat.mod_eq_of_lt ((offset_lt hj hl).trans hs)] at hn
  have hd := congrArg (· / q.recordSize) hn
  simp only [Nat.add_comm _ k,Nat.add_comm _ l,Nat.add_mul_div_right _ _ (Nat.zero_lt_of_lt hk),
    Nat.div_eq_of_lt hk,Nat.div_eq_of_lt hl,Nat.zero_add] at hd
  exact hij hd

end OutputQueue

/-- The rings and the messages do not share a byte. -/
structure Regs.Apart (r : Regs) : Prop where
  rings : ∀ x, OutputQueue.eventq.InRing r x → ¬ OutputQueue.priq.InRing r x
  doorbells : ∀ addr ∈ r.doorbells, ∀ k < 4, ∀ q : OutputQueue, ¬ q.InRing r (addr+BitVec.ofNat 64 k)

lemma Regs.Apart.of_ne {r : Regs} (h : r.Apart) {q q' : OutputQueue} (hne : q ≠ q') {x : U64} (hx : q.InRing r x) :
    ¬ q'.InRing r x := by
  cases q <;> cases q'
  · exact absurd rfl hne
  · exact h.rings x hx
  · exact fun hx' => h.rings x hx' hx
  · exact absurd rfl hne

structure Regs.SameLayout (r r' : Regs) : Prop where
  base : ∀ q : OutputQueue, q.base r' = q.base r
  log2size : ∀ q : OutputQueue, q.log2size r' = q.log2size r
  doorbells : r'.doorbells = r.doorbells

namespace Regs.SameLayout
variable {r r' r'' : Regs}

lemma refl (r : Regs) : r.SameLayout r := ⟨fun _ => rfl,fun _ => rfl,rfl⟩

lemma trans (h : r.SameLayout r') (h' : r'.SameLayout r'') : r.SameLayout r'' :=
  ⟨fun q => (h'.base q).trans (h.base q),fun q => (h'.log2size q).trans (h.log2size q),h'.doorbells.trans h.doorbells⟩

lemma inRing_iff (h : r.SameLayout r') (q : OutputQueue) (x : U64) : q.InRing r' x ↔ q.InRing r x := by
  rw [OutputQueue.InRing,OutputQueue.InRing,h.base,h.log2size]

lemma apart (h : r.SameLayout r') (ha : r.Apart) : r'.Apart := by
  refine ⟨fun x => ?_,fun addr had k hk q => ?_⟩
  · rw [h.inRing_iff,h.inRing_iff]
    exact ha.rings x
  · rw [h.inRing_iff]
    exact ha.doorbells addr (h.doorbells ▸ had) k hk q

end Regs.SameLayout

namespace OutputQueue
variable (q : OutputQueue) (v : U32) (r : Regs)

lemma setProd_layout : r.SameLayout (q.setProd v r) := by
  refine ⟨fun q' => ?_,fun q' => ?_,?_⟩ <;> cases q
  all_goals first | rfl | (cases q' <;> rfl)

lemma setCons_layout : r.SameLayout (q.setCons v r) := by
  refine ⟨fun q' => ?_,fun q' => ?_,?_⟩ <;> cases q
  all_goals first | rfl | (cases q' <;> rfl)

@[simp] lemma cons_setProd (q' : OutputQueue) (v : U32) (r : Regs) : q'.cons (q.setProd v r) = q'.cons r := by
  cases q <;> cases q' <;> rfl

@[simp] lemma prod_setProd : q.prod (q.setProd v r) = v := by
  cases q <;> rfl

lemma prod_setProd_of_ne {q q' : OutputQueue} (h : q' ≠ q) (v : U32) (r : Regs) :
    q'.prod (q.setProd v r) = q'.prod r := by
  cases q <;> cases q' <;> first | rfl | exact absurd rfl h

@[simp] lemma prod_setCons (q' : OutputQueue) (v : U32) (r : Regs) : q'.prod (q.setCons v r) = q'.prod r := by
  cases q <;> cases q' <;> rfl

@[simp] lemma cons_setCons : q.cons (q.setCons v r) = v := by
  cases q <;> rfl

lemma cons_setCons_of_ne {q q' : OutputQueue} (h : q' ≠ q) (v : U32) (r : Regs) :
    q'.cons (q.setCons v r) = q'.cons r := by
  cases q <;> cases q' <;> first | rfl | exact absurd rfl h

end OutputQueue

variable {M : Type} [DmaSocket M]

namespace Core.Signals
variable {c c' : Core M}

lemma layout (h : Signals c c') : c.regs.SameLayout c'.regs := by
  refine ⟨fun q => ?_,fun q => ?_,h.doorbells⟩
  all_goals
    rw [h.regs]
    cases q <;> rfl

lemma prod (h : Signals c c') (q : OutputQueue) : q.prod c'.regs = q.prod c.regs := by
  rw [h.regs]
  cases q <;> rfl

lemma cons (h : Signals c c') (q : OutputQueue) : q.cons c'.regs = q.cons c.regs := by
  rw [h.regs]
  cases q <;> rfl

lemma byteAt [ByteMemory M] (h : Signals c c') (ha : c.regs.Apart) {q : OutputQueue} {x : U64}
    (hx : q.InRing c.regs x) : ByteMemory.byteAt c'.bus x = ByteMemory.byteAt c.bus x := by
  have hb := h.bus
  generalize c'.bus = m at hb
  induction hb with
  | refl => rfl
  | tail _ hd ih =>
    obtain ⟨addr,had,data,rfl⟩ := hd
    rw [← ih]
    refine ByteMemory.byteAt_write_of_ne _ _ _ _ fun i hi heq => ?_
    have hl : (storeLe 4 data).length = 4 := by simp [storeLe]
    exact ha.doorbells addr had i (hl ▸ hi) q (heq ▸ hx)

end Core.Signals

lemma OutputQueue.toNat_nextProd (prod : U32) {n : ℕ} (hn : n ≤ 19) :
    (nextProd prod n).toNat = (prod.toNat+1) % 2^(n+1) :=
  toNat_succ_and_lowMask prod (by omega)

lemma OutputQueue.push_prod_ne_iff (q : OutputQueue) (bytes : List U8) (c : Core M) :
    q.prod (q.push bytes c).regs ≠ q.prod c.regs ↔ q.accepts bytes c = true := by
  cases ha : q.accepts bytes c with
  | true =>
    have hp : q.prod (q.push bytes c).regs = nextProd (q.prod c.regs) (q.log2size c.regs) := by
      rw [(push_accepted ha).prod q,prod_setProd]
    have hn := toNat_nextProd (q.prod c.regs) (q.log2size_le c.regs)
    refine iff_of_true (fun heq => ?_) rfl
    rw [← hp,heq] at hn
    exact absurd hn (RingQueue.succ_ne _ _)
  | false =>
    refine iff_of_false (not_not.mpr ?_) (by decide)
    cases hen : q.enabled c.regs with
    | false => rw [push_disabled hen]
    | true =>
      rcases (push_refused hen ha).2 with hs | ⟨-,hs⟩ <;> exact hs.prod q

variable [ByteMemory M]

namespace OutputQueue
def slot (q : OutputQueue) (c : Core M) (i : ℕ) : List U8 :=
  ByteMemory.readBytes c.bus (q.slotAddr c.regs i) q.recordSize

/-- The cells from the consumer to the producer index hold the given records. -/
def Holds (q : OutputQueue) (c : Core M) (pending : List (List U8)) : Prop :=
  RingQueue.Holds (q.log2size c.regs) (q.slot c) (q.cons c.regs).toNat (q.prod c.regs).toNat pending

variable {q : OutputQueue} {c : Core M} {i : ℕ} {bytes : List U8}

lemma slot_congr {c' : Core M} (hb : q.base c'.regs = q.base c.regs)
    (h : ∀ k < q.recordSize, ByteMemory.byteAt c'.bus (q.slotAddr c.regs i+BitVec.ofNat 64 k) =
      ByteMemory.byteAt c.bus (q.slotAddr c.regs i+BitVec.ofNat 64 k)) : q.slot c' i = q.slot c i := by
  have ha : q.slotAddr c'.regs i = q.slotAddr c.regs i := by rw [slotAddr,hb,slotAddr]
  rw [slot,slot,ha]
  exact ByteMemory.readBytes_congr h

lemma slot_write (hle : bytes.length = q.recordSize)
    (hi : i < 2^q.log2size c.regs) (hne : i ≠ (q.prod c.regs).toNat % 2^q.log2size c.regs) :
    q.slot { c with bus := (dmaWrite (q.nextAddr c.regs) bytes c.bus).2 } i = q.slot c i := by
  apply slot_congr
  · rfl
  · intro k hk
    refine ByteMemory.byteAt_write_of_ne _ _ _ _ fun l hl => ?_
    rw [nextAddr_eq]
    exact slot_ne hi (Nat.mod_lt _ (Nat.two_pow_pos _)) hk (hle ▸ hl) hne

lemma slot_write_self (hl : bytes.length = q.recordSize)
    (hok : (dmaWrite (q.nextAddr c.regs) bytes c.bus).1 = true) :
    q.slot { c with bus := (dmaWrite (q.nextAddr c.regs) bytes c.bus).2 }
      ((q.prod c.regs).toNat % 2^q.log2size c.regs) = bytes := by
  have hs := q.recordSize_le
  rw [slot,← nextAddr_eq,← hl]
  exact ByteMemory.readBytes_write hok (by omega)

lemma byteAt_write_other {q' : OutputQueue} (hne : q' ≠ q) (ha : c.regs.Apart)
    (hle : bytes.length = q.recordSize) {x : U64} (hx : q'.InRing c.regs x) :
    ByteMemory.byteAt (dmaWrite (q.nextAddr c.regs) bytes c.bus).2 x = ByteMemory.byteAt c.bus x := by
  refine ByteMemory.byteAt_write_of_ne _ _ _ _ fun l hl heq => ha.of_ne hne hx ?_
  rw [heq,nextAddr_eq]
  exact inRing_slot (Nat.mod_lt _ (Nat.two_pow_pos _)) (hle ▸ hl)

namespace Holds
variable {q : OutputQueue} {c c' : Core M} {pending : List (List U8)}

section
variable (h : q.Holds c pending)
include h

/-- A queue with the same indices and ring bytes still holds its records. -/
lemma frame (hl : c.regs.SameLayout c'.regs) (hc : q.cons c'.regs = q.cons c.regs)
    (hp : q.prod c'.regs = q.prod c.regs)
    (hb : ∀ x, q.InRing c.regs x → ByteMemory.byteAt c'.bus x = ByteMemory.byteAt c.bus x) : q.Holds c' pending := by
  rw [Holds,hl.log2size,hc,hp]
  refine RingQueue.Holds.congr h fun i _ => slot_congr (hl.base q) fun k hk => hb _ (inRing_slot ?_ hk)
  exact Nat.mod_lt _ (Nat.two_pow_pos _)

section
variable (ha : c.regs.Apart)
include ha

lemma signals (hs : Core.Signals c c') : q.Holds c' pending :=
  h.frame hs.layout (hs.cons q) (hs.prod q) fun _ hx => hs.byteAt ha hx

omit ha in
lemma full_iff : q.full c.regs = true ↔ pending.length = 2^q.log2size c.regs := by
  have hlo := q.log2size_le c.regs
  have hc : clampQueueLog2size (q.log2size c.regs) = q.log2size c.regs := by
    rw [clampQueueLog2size,if_neg (by omega)]
  have ho : (1#32 <<< q.log2size c.regs).toNat = 2^q.log2size c.regs := by
    rw [toNat_shiftLeft,toNat_ofNat,Nat.one_mod,Nat.one_shiftLeft,Nat.mod_eq_of_lt]
    exact Nat.pow_lt_pow_right one_lt_two (by omega)
  have hx : q.prod c.regs ^^^ q.cons c.regs = 1#32 <<< q.log2size c.regs ↔
      pending.length = 2^q.log2size c.regs := by
    rw [← RingQueue.Holds.full_iff h,← toNat_inj,toNat_xor,ho]
  rw [full,queueFull,hc,Bool.and_eq_true,beq_iff_eq,beq_iff_eq,hx]
  refine and_iff_left_of_imp fun hl => ?_
  rw [← toNat_inj,toNat_and_lowMask,toNat_and_lowMask,RingQueue.Holds.prod_eq h,hl,
    Nat.mod_mod_of_dvd _ (pow_dvd_pow 2 (Nat.le_succ _)),Nat.add_mod_right]

lemma push_accepted
    (hle : bytes.length = q.recordSize) (hac : q.accepts bytes c = true) :
    q.Holds (q.push bytes c) (pending++[bytes]) := by
  have hs := OutputQueue.push_accepted hac
  simp only [accepts,Bool.and_eq_true,Bool.not_eq_true',Bool.eq_false_iff] at hac
  obtain ⟨⟨-,hf⟩,hok⟩ := hac
  have hr := fun heq => hf (h.full_iff.mpr heq)
  have hl := q.setProd_layout (nextProd (q.prod c.regs) (q.log2size c.regs)) c.regs
  refine signals ?_ (hl.apart ha) hs
  rw [Holds,hl.log2size,cons_setProd,prod_setProd,toNat_nextProd _ (q.log2size_le c.regs)]
  have hsl : ∀ i, q.slot
      { c with
        bus := (dmaWrite (q.nextAddr c.regs) bytes c.bus).2
        regs := q.setProd (nextProd (q.prod c.regs) (q.log2size c.regs)) c.regs } i =
      q.slot { c with bus := (dmaWrite (q.nextAddr c.regs) bytes c.bus).2 } i := fun i => by
    rw [slot,slot,slotAddr,hl.base,slotAddr]
  refine RingQueue.Holds.push h hr ?_ fun i hi hne => ?_
  · rw [hsl]
    exact slot_write_self hle hok
  · rw [hsl]
    exact slot_write hle hi hne

lemma push_other {q' : OutputQueue} (hne : q ≠ q')
    (hle : bytes.length = q'.recordSize) (hac : q'.accepts bytes c = true) : q.Holds (q'.push bytes c) pending := by
  have hl := q'.setProd_layout (nextProd (q'.prod c.regs) (q'.log2size c.regs)) c.regs
  refine signals (h.frame hl (cons_setProd q' q _ _) (prod_setProd_of_ne hne _ _) fun x hx => ?_)
    (hl.apart ha) (OutputQueue.push_accepted hac)
  exact byteAt_write_other hne ha hle hx

lemma push_refused {q' : OutputQueue}
    (hl : bytes.length = q'.recordSize) (hac : q'.accepts bytes c = false) : q.Holds (q'.push bytes c) pending := by
  by_cases hen : q'.enabled c.regs = true
  · obtain ⟨-,hs | ⟨hf,hs⟩⟩ := OutputQueue.push_refused hen hac
    · exact h.signals ha hs
    · have hw : q.Holds { c with bus := (dmaWrite (q'.nextAddr c.regs) bytes c.bus).2 } pending := by
        by_cases hne : q = q'
        · subst hne
          have hr : pending.length ≠ 2^q.log2size c.regs := fun heq => by
            rw [h.full_iff.mpr heq] at hf
            cases hf
          refine RingQueue.Holds.congr h fun i hi => slot_write hl (Nat.mod_lt _ (Nat.two_pow_pos _)) ?_
          exact RingQueue.Holds.index_ne h hr hi
        · exact h.frame ⟨fun _ => rfl,fun _ => rfl,rfl⟩ rfl rfl fun x hx => byteAt_write_other hne ha hl hx
      exact hw.signals ha hs
  · rwa [push_disabled (Bool.eq_false_iff.mpr hen)]

end

end

end Holds
end OutputQueue

omit [ByteMemory M] in
lemma OutputQueue.push_layout (q : OutputQueue) (bytes : List U8) (c : Core M) :
    c.regs.SameLayout (q.push bytes c).regs := by
  cases ha : q.accepts bytes c with
  | true =>
    have hl := q.setProd_layout (nextProd (q.prod c.regs) (q.log2size c.regs)) c.regs
    exact hl.trans (OutputQueue.push_accepted ha).layout
  | false =>
    by_cases hen : q.enabled c.regs = true
    · obtain ⟨-,hs | ⟨-,hs⟩⟩ := OutputQueue.push_refused hen ha
      · exact hs.layout
      · exact hs.layout
    · rw [OutputQueue.push_disabled (Bool.eq_false_iff.mpr hen)]
      exact .refl _

/-- The SMMU with the records of each queue that were taken and are not consumed. -/
structure QueueState (M : Type) where
  core : Core M
  pending : OutputQueue → List (List U8)

/-- Records, and the driver's writes of a consumer index or of its alias. -/
inductive QueueAction where
  | recordEventFull (type sid ssid : U32) (iova : U64) (command : TlmCommand) (cls faultLevel stag : U32) (stall : Bool)
  | recordEvent (type sid : U32) (iova : U64) (info : U32)
  | recordPri (sid : U32) (iova : U64) (flags : U32)
  | writeCons (q : OutputQueue) (v : U32)
  | writeConsP1 (q : OutputQueue) (v : U32)

def QueueAction.record : QueueAction → Option (OutputQueue × List U8)
  | .recordEventFull type sid ssid iova command cls faultLevel stag stall =>
    some (.eventq,eventBytes type sid ssid iova command cls faultLevel stag stall)
  | .recordEvent type sid iova info => some (.eventq,shortEventBytes type sid iova info)
  | .recordPri sid iova flags => some (.priq,priBytes sid iova flags)
  | .writeCons _ _ | .writeConsP1 _ _ => none

namespace QueueState
variable (s : QueueState M)

/-- How far an index of a queue is ahead of its consumer index. -/
def ahead (q : OutputQueue) (v : U32) : ℕ :=
  RingQueue.distance (2^(q.log2size s.core.regs+1)) (q.cons s.core.regs).toNat v.toNat

def recorded (q : OutputQueue) (bytes : List U8) (s : QueueState M) : OutputQueue → List (List U8) :=
  if q.accepts bytes s.core then Function.update s.pending q (s.pending q++[bytes]) else s.pending

def consumed (q : OutputQueue) (v : U32) (s : QueueState M) : OutputQueue → List (List U8) :=
  Function.update s.pending q ((s.pending q).drop (s.ahead q v))

def step : QueueAction → QueueState M
  | .recordEventFull type sid ssid iova command cls faultLevel stag stall =>
    ⟨Core.recordEventFull type sid ssid iova command cls faultLevel stag stall s.core,
      s.recorded .eventq (eventBytes type sid ssid iova command cls faultLevel stag stall)⟩
  | .recordEvent type sid iova info =>
    ⟨Core.recordEvent type sid iova info s.core,s.recorded .eventq (shortEventBytes type sid iova info)⟩
  | .recordPri sid iova flags =>
    ⟨Core.recordPri sid iova flags s.core,s.recorded .priq (priBytes sid iova flags)⟩
  | .writeCons q v =>
    ⟨Core.updateIrqLevels { s.core with regs := q.setCons v s.core.regs },s.consumed q v⟩
  | .writeConsP1 q v => ⟨{ s.core with regs := q.setCons v s.core.regs },s.consumed q v⟩

/-- The driver moves a consumer index forward, up to the producer index. -/
def DriverForward : QueueAction → Prop
  | .writeCons q v | .writeConsP1 q v =>
    v.toNat < 2^(q.log2size s.core.regs+1) ∧ s.ahead q v ≤ s.ahead q (q.prod s.core.regs)
  | .recordEventFull .. | .recordEvent .. | .recordPri .. => True

def Empty : Prop := ∀ q : OutputQueue, q.prod s.core.regs = q.cons s.core.regs ∧
    (q.cons s.core.regs).toNat < 2^(q.log2size s.core.regs+1) ∧ s.pending q = []

/-- The rings are apart and hold the pending records. -/
structure Intact (s : QueueState M) : Prop where
  apart : s.core.regs.Apart
  holds : ∀ q : OutputQueue, q.Holds s.core (s.pending q)

lemma Empty.intact {s : QueueState M} (h : s.Empty) (ha : s.core.regs.Apart) : s.Intact := by
  refine ⟨ha,fun q => ?_⟩
  obtain ⟨hpr,hc,hp⟩ := h q
  rw [OutputQueue.Holds,hpr,hp]
  exact .empty hc

namespace Intact
variable {s : QueueState M}

section
variable (h : s.Intact)
include h

lemma push (q : OutputQueue) {bytes : List U8} (hl : bytes.length = q.recordSize) :
    Intact ⟨q.push bytes s.core,s.recorded q bytes⟩ := by
  refine ⟨(q.push_layout bytes s.core).apart h.apart,fun q' => ?_⟩
  show q'.Holds (q.push bytes s.core) (s.recorded q bytes q')
  cases ha : q.accepts bytes s.core with
  | false =>
    rw [recorded,ha]
    exact (h.holds q').push_refused h.apart hl ha
  | true =>
    rw [recorded,ha,if_pos rfl]
    by_cases hq : q' = q
    · subst hq
      rw [update_self]
      exact (h.holds q').push_accepted h.apart hl ha
    · rw [update_of_ne hq]
      exact (h.holds q').push_other h.apart hq hl ha

lemma writeConsP1 {q : OutputQueue} {v : U32} (hv : v.toNat < 2^(q.log2size s.core.regs+1))
    (hah : s.ahead q v ≤ s.ahead q (q.prod s.core.regs)) :
    Intact ⟨{ s.core with regs := q.setCons v s.core.regs },s.consumed q v⟩ := by
  have hl := q.setCons_layout v s.core.regs
  refine ⟨hl.apart h.apart,fun q' => ?_⟩
  show q'.Holds _ (s.consumed q v q')
  by_cases hq : q' = q
  · subst hq
    have ha := RingQueue.Holds.advance_to (h.holds q') hv hah
    rw [consumed,update_self,OutputQueue.Holds,hl.log2size,OutputQueue.cons_setCons,OutputQueue.prod_setCons]
    exact RingQueue.Holds.congr ha fun i _ => OutputQueue.slot_congr (hl.base q') fun _ _ => rfl
  · rw [consumed,update_of_ne hq]
    exact (h.holds q').frame hl (OutputQueue.cons_setCons_of_ne hq v _) (OutputQueue.prod_setCons q q' v _)
      fun _ _ => rfl

lemma signals {c : Core M} (hs : Core.Signals s.core c) : Intact ⟨c,s.pending⟩ :=
  ⟨hs.layout.apart h.apart,fun q => (h.holds q).signals h.apart hs⟩

lemma step {a : QueueAction} (ha : s.DriverForward a) : (s.step a).Intact := by
  cases a with
  | recordEventFull type sid ssid iova command cls faultLevel stag stall | recordEvent type sid iova info =>
    exact h.push .eventq (by rfl)
  | recordPri sid iova flags => exact h.push .priq (by rfl)
  | writeCons q v => exact (h.writeConsP1 ha.1 ha.2).signals (updateIrqLevels_signals _)
  | writeConsP1 q v => exact h.writeConsP1 ha.1 ha.2

end

end Intact

omit [ByteMemory M] in
/-- A record without room, or that memory does not take, is reported, and the producer index stays. -/
lemma step_refused {a : QueueAction} {q : OutputQueue} {bytes : List U8}
    (ha : a.record = some (q,bytes)) (hen : q.enabled s.core.regs = true)
    (hno : q.full s.core.regs = true ∨ (dmaWrite (q.nextAddr s.core.regs) bytes s.core.bus).1 = false) :
    q.prod (s.step a).core.regs = q.prod s.core.regs ∧ (s.step a).core.Active q.abortBit := by
  have hst : (s.step a).core = q.push bytes s.core := by
    cases a <;> cases ha <;> rfl
  have hacc : q.accepts bytes s.core = false := by
    rcases hno with hno | hno <;> simp [OutputQueue.accepts,hno]
  rw [hst]
  obtain ⟨hac,hs | ⟨-,hs⟩⟩ := OutputQueue.push_refused hen hacc
  · exact ⟨hs.prod q,hac⟩
  · exact ⟨hs.prod q,hac⟩

/-- In every run in which the driver only moves the consumer indices up to the producer index, the cells between hold
exactly the records taken and not consumed, in order, within the ring; one not taken leaves the producer index and is
reported. -/
theorem output_queues_keep_records {s0 s : QueueState M} (h0 : s0.Empty) (hapart : s0.core.regs.Apart)
    (hs : GuardedRun step DriverForward s0 s) : (∀ q : OutputQueue, (∀ (i : ℕ) (hi : i < (s.pending q).length),
        q.slot s.core (((q.cons s.core.regs).toNat+i) % 2^q.log2size s.core.regs) = (s.pending q)[i]) ∧
      s.ahead q (q.prod s.core.regs) = (s.pending q).length ∧
      s.ahead q (q.prod s.core.regs) ≤ 2^q.log2size s.core.regs) ∧
    ∀ (a : QueueAction) (q : OutputQueue) (bytes : List U8), a.record = some (q,bytes) →
      q.enabled s.core.regs = true →
      (q.full s.core.regs = true ∨ (dmaWrite (q.nextAddr s.core.regs) bytes s.core.bus).1 = false) →
      q.prod (s.step a).core.regs = q.prod s.core.regs ∧ (s.step a).core.Active q.abortBit := by
  have hin := hs.invariant (fun _ _ h ha => h.step ha) (h0.intact hapart)
  refine ⟨fun q => ?_,fun a q bytes ha hen hno => step_refused s ha hen hno⟩
  have hq := hin.holds q
  have hc : s.ahead q (q.prod s.core.regs) = (s.pending q).length := RingQueue.Holds.distance_eq hq
  exact ⟨RingQueue.Holds.cells hq,hc,hc ▸ RingQueue.Holds.length_le hq⟩

def sampleQueues (doorbell : U32) : QueueState Ram where
  core := {
    regs := {
      cr0 := 6
      irqCtrl := 4
      eventqBaseLo := 0x1001
      eventqIrqCfg0Lo := doorbell
      priqBaseLo := 0x2001 }
    bus := ⟨[],[]⟩ }
  pending _ := []

lemma sampleQueues_empty (doorbell : U32) : (sampleQueues doorbell).Empty := by
  intro q
  cases q <;> exact ⟨rfl,Nat.two_pow_pos _,rfl⟩

lemma sampleQueues_apart : (sampleQueues 0).core.regs.Apart := by
  have hn : (sampleQueues 0).core.regs.doorbells = [] := by decide
  refine ⟨?_,fun addr ha => absurd (hn ▸ ha) List.not_mem_nil⟩
  rintro x ⟨i,hi,rfl⟩ ⟨j,hj,h⟩
  have hi : i < 64 := hi
  have hj : j < 32 := hj
  have h : 0x1000#64+BitVec.ofNat 64 i = 0x2000#64+BitVec.ofNat 64 j := h
  bv_omega

def sampleRecords : List QueueAction :=
  [.recordEvent 1 2 3 4,.recordPri 5 6 7,.recordEvent 8 9 10 11,.writeCons .eventq 1]

instance (s : QueueState M) : (a : QueueAction) → Decidable (s.DriverForward a)
  | .writeCons _ _ | .writeConsP1 _ _ => inferInstanceAs (Decidable (_ ∧ _))
  | .recordEventFull .. | .recordEvent .. | .recordPri .. => inferInstanceAs (Decidable True)

theorem output_queues_keep_samples :
    (sampleRecords.foldl step (sampleQueues 0)).pending .eventq = [shortEventBytes 8 9 10 11] ∧
      OutputQueue.eventq.slot (sampleRecords.foldl step (sampleQueues 0)).core 1 = shortEventBytes 8 9 10 11 := by
  have hp : (sampleRecords.foldl step (sampleQueues 0)).pending .eventq = [shortEventBytes 8 9 10 11] := by
    decide +kernel
  have hr : GuardedRun step DriverForward (sampleQueues 0) (sampleRecords.foldl step (sampleQueues 0)) :=
    GuardedRun.refl.foldl (by decide +kernel)
  have hs := ((output_queues_keep_records (sampleQueues_empty 0) sampleQueues_apart hr).1 .eventq).1 0
    (by rw [hp]; decide)
  exact ⟨hp,hs.trans (List.getElem_of_eq hp _)⟩

/-- A message whose address lies in the ring is sent into the record that raises it. -/
theorem output_queue_record_overwritten :
    (sampleQueues 0x1000).Empty ∧ ∃ s, GuardedRun step DriverForward (sampleQueues 0x1000) s ∧
      s.pending .eventq = [shortEventBytes 1 2 3 4] ∧
      OutputQueue.eventq.slot s.core 0 ≠ shortEventBytes 1 2 3 4 :=
  ⟨sampleQueues_empty _,step (sampleQueues 0x1000) (.recordEvent 1 2 3 4),.tail .refl trivial,by decide +kernel,
    by decide +kernel⟩

end QueueState
end Qbox.Smmuv3
