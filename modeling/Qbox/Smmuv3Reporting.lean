import Mathlib.Logic.Relation
import Qbox.Smmuv3Commands

/-! What reporting does to the registers and to memory: the frame of `update_irq_levels`
and `set_gerror`, and the event and page-request queues as one kind of queue. -/
namespace Qbox.Smmuv3
open MachineWord DmaSocket

variable {M : Type} [DmaSocket M]

def msiAddr (lo hi : U32) : U64 := (hi.setWidth 64 <<< 32) ||| lo.setWidth 64

def Regs.doorbells (r : Regs) : List U64 :=
  [msiAddr r.gerrorIrqCfg0Lo r.gerrorIrqCfg0Hi,msiAddr r.eventqIrqCfg0Lo r.eventqIrqCfg0Hi,
    msiAddr r.priqIrqCfg0Lo r.priqIrqCfg0Hi].filter (· ≠ 0)

namespace Core
def Active (c : Core M) (bit : ℕ) : Prop := bit32 (c.regs.gerror ^^^ c.regs.gerrorn) bit = true

instance (c : Core M) (bit : ℕ) : Decidable (c.Active bit) := inferInstanceAs (Decidable (_ = true))

def Doorbell (r : Regs) (m m' : M) : Prop :=
  ∃ addr ∈ r.doorbells, ∃ data : U32, (dmaWrite addr (storeLe 4 data) m).2 = m'

/-- Only errors become active and only messages are sent. -/
structure Signals (c c' : Core M) : Prop where
  regs : c'.regs = { c.regs with gerror := c'.regs.gerror }
  active : ∀ bit, c.Active bit → c'.Active bit
  bus : Relation.ReflTransGen (Doorbell c.regs) c.bus c'.bus

namespace Signals
lemma of_eq {c c' : Core M} (hr : c'.regs = c.regs) (hb : c'.bus = c.bus) : Signals c c' :=
  ⟨by rw [hr],fun bit h => by rwa [Active,hr],by rw [hb]⟩

lemma refl (c : Core M) : Signals c c := .of_eq rfl rfl

lemma doorbells {c c' : Core M} (h : Signals c c') : c'.regs.doorbells = c.regs.doorbells := by
  rw [h.regs]
  rfl

lemma trans {c1 c2 c3 : Core M} (h12 : Signals c1 c2) (h23 : Signals c2 c3) : Signals c1 c3 := by
  have hb : Relation.ReflTransGen (Doorbell c1.regs) c2.bus c3.bus := by
    have hd : Doorbell (M := M) c2.regs = Doorbell c1.regs := by
      funext m m'
      rw [Doorbell,Doorbell,h12.doorbells]
    exact hd ▸ h23.bus
  exact ⟨by rw [h23.regs,h12.regs],fun bit h => h23.active bit (h12.active bit h),h12.bus.trans hb⟩

end Signals

lemma bit32_flip (x : U32) {bit : ℕ} (hb : bit < 32) (i : ℕ) :
    bit32 (x ^^^ (1#32 <<< bit)) i = (bit32 x i ^^ decide (i = bit)) := by
  simp only [bit32,BitVec.getLsbD_xor,BitVec.getLsbD_shiftLeft,BitVec.getLsbD_one]
  grind

lemma raisedGerror_spec {gerror gerrorn g : U32} {bit : ℕ} (hb : bit < 32)
    (h : raisedGerror gerror gerrorn bit = some g) (i : ℕ) :
    bit32 (g ^^^ gerrorn) i = (bit32 (gerror ^^^ gerrorn) i || decide (i = bit)) := by
  rw [raisedGerror] at h
  split_ifs at h with ha
  cases h
  rw [BitVec.xor_assoc,BitVec.xor_comm _ gerrorn,← BitVec.xor_assoc,bit32_flip _ hb]
  by_cases hi : i = bit
  · simp [hi,ha]
  · simp [hi]

lemma setGerrorWith_signals {update : Core M → Core M} (hu : ∀ c, Signals c (update c)) {bit : ℕ}
    (hb : bit < 32) (c : Core M) :
    Signals c (setGerrorWith update bit c) ∧ (setGerrorWith update bit c).Active bit := by
  rw [setGerrorWith]
  cases hr : raisedGerror c.regs.gerror c.regs.gerrorn bit with
  | none =>
    rw [raisedGerror,ite_eq_left_iff] at hr
    exact ⟨.refl c,by_contra fun h => nomatch hr h⟩
  | some g =>
    have hs := raisedGerror_spec hb hr
    have hra : Signals c { c with regs := { c.regs with gerror := g } } :=
      ⟨rfl,fun i hi => (hs i).trans (by rw [show bit32 _ i = true from hi,Bool.true_or]),.refl⟩
    exact ⟨hra.trans (hu _),(hu _).active bit ((hs bit).trans (by simp))⟩

lemma emitMsiWith_eq (onFail : ℕ → Core M → Core M) (lo hi data : U32) (bit : ℕ) (c : Core M) :
    emitMsiWith onFail lo hi data bit c = if msiAddr lo hi = 0 then c
      else match dmaWrite (msiAddr lo hi) (storeLe 4 data) c.bus with
        | (true,bus) => { c with bus := bus }
        | (false,bus) => onFail bit { c with bus := bus } := rfl

lemma emitMsiWith_signals {onFail : ℕ → Core M → Core M} {bit : ℕ} (hf : ∀ c, Signals c (onFail bit c))
    {c : Core M} {lo hi : U32} (hd : msiAddr lo hi ≠ 0 → msiAddr lo hi ∈ c.regs.doorbells) (data : U32) :
    Signals c (emitMsiWith onFail lo hi data bit c) := by
  rw [emitMsiWith_eq]
  by_cases ha : msiAddr lo hi = 0
  · rw [if_pos ha]
    exact .refl c
  · rw [if_neg ha]
    have hw : ∀ b bus, dmaWrite (msiAddr lo hi) (storeLe 4 data) c.bus = (b,bus) → Signals c { c with bus := bus } :=
      fun b bus h => ⟨rfl,fun _ h => h,.single ⟨_,hd ha,data,congrArg Prod.snd h⟩⟩
    split
    · next bus h => exact hw _ bus h
    · next bus h => exact (hw _ bus h).trans (hf _)

lemma mem_doorbells {r : Regs} {addr : U64} (h0 : addr ≠ 0)
    (h : addr = msiAddr r.gerrorIrqCfg0Lo r.gerrorIrqCfg0Hi ∨ addr = msiAddr r.eventqIrqCfg0Lo r.eventqIrqCfg0Hi ∨
      addr = msiAddr r.priqIrqCfg0Lo r.priqIrqCfg0Hi) : addr ∈ r.doorbells :=
  List.mem_filter.mpr ⟨by simpa using h,decide_eq_true h0⟩

lemma updateIrqLevelsBody_signals {setGerror : ℕ → Core M → Core M}
    (hs : ∀ bit c, bit < 32 → Signals c (setGerror bit c)) (c : Core M) :
    Signals c (updateIrqLevelsBody setGerror c) := by
  have he : ∀ (p : Bool) (c : Core M) (lo hi data : U32) (bit : ℕ), bit < 32 →
      (msiAddr lo hi ≠ 0 → msiAddr lo hi ∈ c.regs.doorbells) →
      Signals c (if p then emitMsiWith setGerror lo hi data bit c else c) := by
    intro p c lo hi data bit hb hd
    cases p with
    | false => exact .refl c
    | true => exact emitMsiWith_signals (fun c => hs bit c hb) hd data
  unfold updateIrqLevelsBody
  extract_lets gp ep pp gi ei pi c1 c2 c3 irq1 irq2 irq3 irq4
  have h1 : Signals c c1 := he _ c _ _ _ _ (by decide) fun h => mem_doorbells h (.inl rfl)
  have h2 : Signals c1 c2 := he _ c1 _ _ _ _ (by decide) fun h => mem_doorbells h (.inr (.inl rfl))
  have h3 : Signals c2 c3 := he _ c2 _ _ _ _ (by decide) fun h => mem_doorbells h (.inr (.inr rfl))
  exact ((h1.trans h2).trans h3).trans (.of_eq rfl rfl)

lemma updateIrqLevels_signals (c : Core M) : Signals c (updateIrqLevels c) := by
  have hf : ∀ n (c : Core M), Signals c (updateIrqLevelsFuel n c) := by
    intro n
    induction n with
    | zero => exact .refl
    | succ n ih => exact updateIrqLevelsBody_signals fun bit c hb => (setGerrorWith_signals ih hb c).1
  exact hf 4 c

lemma setGerror_signals {bit : ℕ} (hb : bit < 32) (c : Core M) :
    Signals c (setGerror bit c) ∧ (setGerror bit c).Active bit :=
  setGerrorWith_signals updateIrqLevels_signals hb c

def shortEventBytes (type sid : U32) (iova : U64) (info : U32) : List U8 :=
  [type.setWidth 8,0,0,0] ++ storeLe 4 sid ++ storeLe 8 iova ++ storeLe 4 info ++ List.replicate 12 0

def recordEvent (type sid : U32) (iova : U64) (info : U32) (c : Core M) : Core M := if !c.regs.eventqen then c
  else
    let log2size := queueLog2size c.regs.eventqBaseLo
    let prod := c.regs.eventqProd
    if queueFull prod c.regs.eventqCons log2size then setGerror gerrorBitEventqAbt c
    else
      let addr := recordAddr (outputQueueBase c.regs.eventqBaseLo c.regs.eventqBaseHi) prod log2size 32
      match dmaWrite addr (shortEventBytes type sid iova info) c.bus with
      | (false,bus) => setGerror gerrorBitEventqAbt { c with bus := bus }
      | (true,bus) =>
        updateIrqLevels { c with bus := bus, regs := { c.regs with eventqProd := nextProd prod log2size } }

end Core

inductive OutputQueue where
  | eventq | priq
  deriving DecidableEq

namespace OutputQueue
def enabled : OutputQueue → Regs → Bool
  | .eventq, r => r.eventqen
  | .priq, r => r.priqen

def log2size : OutputQueue → Regs → ℕ
  | .eventq, r => Core.queueLog2size r.eventqBaseLo
  | .priq, r => Core.queueLog2size r.priqBaseLo

def base : OutputQueue → Regs → U64
  | .eventq, r => Core.outputQueueBase r.eventqBaseLo r.eventqBaseHi
  | .priq, r => Core.outputQueueBase r.priqBaseLo r.priqBaseHi

def prod : OutputQueue → Regs → U32
  | .eventq, r => r.eventqProd
  | .priq, r => r.priqProd

def cons : OutputQueue → Regs → U32
  | .eventq, r => r.eventqCons
  | .priq, r => r.priqCons

def setProd : OutputQueue → U32 → Regs → Regs
  | .eventq, v, r => { r with eventqProd := v }
  | .priq, v, r => { r with priqProd := v }

def setCons : OutputQueue → U32 → Regs → Regs
  | .eventq, v, r => { r with eventqCons := v }
  | .priq, v, r => { r with priqCons := v }

def recordSize : OutputQueue → ℕ
  | .eventq => 32
  | .priq => 16

def abortBit : OutputQueue → ℕ
  | .eventq => Core.gerrorBitEventqAbt
  | .priq => Core.gerrorBitPriqAbt

def full (q : OutputQueue) (r : Regs) : Bool := Core.queueFull (q.prod r) (q.cons r) (q.log2size r)

def nextAddr (q : OutputQueue) (r : Regs) : U64 := Core.recordAddr (q.base r) (q.prod r) (q.log2size r) q.recordSize

def push (q : OutputQueue) (bytes : List U8) (c : Core M) : Core M := if !q.enabled c.regs then c
  else if q.full c.regs then Core.setGerror q.abortBit c
  else match dmaWrite (q.nextAddr c.regs) bytes c.bus with
    | (false,bus) => Core.setGerror q.abortBit { c with bus := bus }
    | (true,bus) => Core.updateIrqLevels
        { c with bus := bus, regs := q.setProd (Core.nextProd (q.prod c.regs) (q.log2size c.regs)) c.regs }

lemma abortBit_lt (q : OutputQueue) : q.abortBit < 32 := by
  cases q <;> decide

def accepts (q : OutputQueue) (bytes : List U8) (c : Core M) : Bool :=
  q.enabled c.regs && !q.full c.regs && (dmaWrite (q.nextAddr c.regs) bytes c.bus).1

variable {q : OutputQueue} {bytes : List U8} {c : Core M}

/-- A record that is taken is written and moves the producer index; what follows only signals. -/
lemma push_accepted (h : q.accepts bytes c = true) : Core.Signals { c with
      bus := (dmaWrite (q.nextAddr c.regs) bytes c.bus).2
      regs := q.setProd (Core.nextProd (q.prod c.regs) (q.log2size c.regs)) c.regs } (q.push bytes c) := by
  simp only [accepts,Bool.and_eq_true,Bool.not_eq_true'] at h
  obtain ⟨⟨hen,hf⟩,hok⟩ := h
  rw [push,hen,hf]
  simp only [Bool.not_true,Bool.false_eq_true,if_false]
  split
  · next heq => rw [heq] at hok; cases hok
  · next heq => rw [heq]; exact Core.updateIrqLevels_signals _

/-- A record an enabled queue does not take makes the abort error active; a slot's write was tried. -/
lemma push_refused (hen : q.enabled c.regs = true) (h : q.accepts bytes c = false) :
    (q.push bytes c).Active q.abortBit ∧ (Core.Signals c (q.push bytes c) ∨ q.full c.regs = false ∧
      Core.Signals { c with bus := (dmaWrite (q.nextAddr c.regs) bytes c.bus).2 } (q.push bytes c)) := by
  rw [push,hen]
  simp only [Bool.not_true,Bool.false_eq_true,if_false]
  split_ifs with hf
  · have hs := Core.setGerror_signals q.abortBit_lt c
    exact ⟨hs.2,.inl hs.1⟩
  · split
    · next bus heq =>
      have hs := Core.setGerror_signals q.abortBit_lt { c with bus := bus }
      rw [heq]
      exact ⟨hs.2,.inr ⟨Bool.eq_false_iff.mpr hf,hs.1⟩⟩
    · next heq => simp [accepts,hen,hf,heq] at h

lemma push_disabled (hen : q.enabled c.regs = false) (bytes : List U8) : q.push bytes c = c := by
  simp [push,hen]

end OutputQueue

namespace Core
def eventBytes (type sid ssid : U32) (iova : U64) (command : TlmCommand) (cls faultLevel stag : U32)
    (stall : Bool) : List U8 :=
  (eventWords type sid ssid iova command cls faultLevel stag stall).flatMap (storeLe 8)

def priBytes (sid : U32) (iova : U64) (flags : U32) : List U8 := storeLe 4 sid ++ storeLe 4 flags ++ storeLe 8 iova

/-- What the SMMU does on its own to its registers, to memory and to its lines. -/
inductive Report (M : Type) where
  /-- An access through the DMA socket. -/
  | bus (bus : M)
  | gerror (bit : ℕ)
  | secureGerror (bit : ℕ)
  | record (q : OutputQueue) (bytes : List U8)
  /-- The pulse at the end of a sync command. -/
  | sync
  | cmdqCons (cons : U32)
  | sCmdqCons (cons : U32)

def report (c : Core M) : Report M → Core M
  | .bus bus => { c with bus := bus }
  | .gerror bit => setGerror bit c
  | .secureGerror bit => setSecureGerror bit c
  | .record q bytes => q.push bytes c
  | .sync => { c with irq := c.irq.trigger .cmdSync }
  | .cmdqCons cons => { c with regs := { c.regs with cmdqCons := cons } }
  | .sCmdqCons cons => { c with regs := { c.regs with sCmdqCons := cons } }

def Reports : Core M → Core M → Prop := Relation.ReflTransGen fun c c' => ∃ r, c.report r = c'

namespace Reports
lemma refl (c : Core M) : Reports c c := Relation.ReflTransGen.refl

lemma single (c : Core M) (r : Report M) : Reports c (c.report r) := Relation.ReflTransGen.single ⟨r,rfl⟩

lemma trans {c1 c2 c3 : Core M} (h12 : Reports c1 c2) (h23 : Reports c2 c3) : Reports c1 c3 :=
  Relation.ReflTransGen.trans h12 h23

lemma invariant {I : Core M → Prop} (hre : ∀ c r, I c → I (c.report r)) {c c' : Core M} (h : Reports c c')
    (hc : I c) : I c' := by
  induction h with
  | refl => exact hc
  | tail _ hr ih =>
    obtain ⟨r,rfl⟩ := hr
    exact hre _ r ih

end Reports

lemma setCmdqErr_reports (cerror : U32) (c : Core M) : Reports c (setCmdqErr cerror c) :=
  (Reports.single c (.cmdqCons _)).trans (.single _ (.gerror _))

lemma setSecureCmdqErr_reports (cerror : U32) (c : Core M) : Reports c (setSecureCmdqErr cerror c) :=
  (Reports.single c (.sCmdqCons _)).trans (.single _ (.secureGerror _))

lemma syncMessage_reports {onFail : Core M → Core M} (hf : ∀ c, Reports c (onFail c)) (cmd : Cmd) (c : Core M) :
    Reports c (syncMessage onFail cmd c) := by
  simp only [syncMessage]
  split_ifs
  · exact .refl c
  · split
    · exact .single c (.bus _)
    · exact (Reports.single c (.bus _)).trans (hf _)

end Core

variable (topologyId : U32) (txn : Txn) (sid : U32)

lemma findSte_reports (s : Streams M) : Core.Reports s.core (findSte sid s).2.core := by
  have hb := fun bus => Core.Reports.single s.core (.bus bus)
  exact findSte_inv (P := fun s' => Core.Reports s.core s'.core) (.refl _) hb
    (fun bus => (hb bus).trans (.single _ (.gerror _))) (fun bus _ => hb bus)

lemma readCd_reports (ste : STE) (ssid : U32) (s : Streams M) :
    Core.Reports s.core (readCd sid ste ssid s).2.core := by
  have hb := fun bus => Core.Reports.single s.core (.bus bus)
  exact readCd_inv (P := fun s' => Core.Reports s.core s'.core) (.refl _) hb
    (fun bus => (hb bus).trans (.single _ (.gerror _))) (fun bus _ => hb bus)

variable (ssid : U32)

lemma reject_reports (type cls : U32) (s : Streams M) :
    Core.Reports s.core (reject txn sid ssid type cls s).2.core := .single _ (.record .eventq _)

lemma resolve_reports (s : Streams M) : Core.Reports s.core (resolve txn sid ssid s).2.core := by
  have hs := findSte_reports sid s
  refine resolve_inv (P := fun s' => Core.Reports s.core s'.core) (.refl _) hs ?_
    (fun type cls h => h.trans (reject_reports ..))
  intro ste s1 heq
  rw [heq] at hs
  exact hs.trans (readCd_reports sid ste ssid s1)

lemma faultAnswer_reports (config : Config) (req : TransReq) (s : Smmuv3 M) :
    Core.Reports s.streams.core (faultAnswer txn sid ssid config req s).2.streams.core := by
  unfold faultAnswer
  extract_lets
  split
  · exact .refl _
  · exact .single _ (.record .eventq _)

lemma walkAndCache_reports (isSecure : Bool) (t : Tables) (s : Smmuv3 M) :
    Core.Reports s.streams.core (walkAndCache txn sid ssid isSecure t s).2.streams.core := by
  rcases hw : walkTables s.pamax t.config (initialReq txn sid ssid t) s.bus with ⟨req,bus⟩
  have hb : Core.Reports s.streams.core (s.setBus bus).streams.core := .single _ (.bus bus)
  simp only [walkAndCache,hw]
  split_ifs
  · exact hb.trans (faultAnswer_reports ..)
  · exact hb

lemma smmuv3Translate_reports (isSecure : Bool) (s : Smmuv3 M) :
    Core.Reports s.streams.core (smmuv3Translate txn sid ssid isSecure s).2.streams.core := by
  have hr := resolve_reports txn sid ssid s.streams
  rw [smmuv3Translate]
  split
  · next heq => rw [heq] at hr; exact hr
  · next t st heq =>
    rw [heq] at hr
    dsimp only
    split
    · exact hr
    · exact hr.trans (walkAndCache_reports txn sid ssid isSecure t { s with streams := st })

lemma stallAndWait_reports (iova : U64) (faultType faultLevel cls : U32) (command : TlmCommand) (s : Smmuv3 M) :
    Core.Reports s.streams.core (stallAndWait sid ssid iova faultType faultLevel cls command s).2.streams.core :=
  .single _ (.record .eventq _)

lemma atsAnswer_reports (ats : AtsExtension) (te : IOMMUTLBEntry) (s : Smmuv3 M) :
    Core.Reports s.streams.core (atsAnswer topologyId txn ats te s).2.streams.core := by
  rw [atsAnswer]
  split
  · dsimp only
    split
    · exact .single _ (.record .priq _)
    · exact .refl _
  · exact .refl _

lemma transportAfter_reports (te : IOMMUTLBEntry) (s : Smmuv3 M) :
    Core.Reports s.streams.core (transportAfter topologyId txn te s).2.streams.core := by
  rw [transportAfter]
  split
  · exact stallAndWait_reports ..
  · split
    · exact atsAnswer_reports ..
    · split <;> exact .refl _

variable (s : Smmuv3 M)

lemma bTransport_reports : Core.Reports s.streams.core (bTransport topologyId txn s).2.streams.core := by
  rw [bTransport]
  split
  · exact .refl _
  · rcases ht : tbuTranslate topologyId txn s with ⟨te,s'⟩
    have htr : Core.Reports s.streams.core s'.streams.core := by
      have h := smmuv3Translate_reports txn topologyId (extractSubstreamId txn) (extractSecure txn) s
      rwa [show smmuv3Translate txn topologyId _ _ s = (te,s') from ht] at h
    exact htr.trans (transportAfter_reports ..)

lemma handleOp_reports (op : CmdOp) (c : Cmd) (s : Smmuv3 M) :
    Core.Reports s.streams.core (handleOp op c s).streams.core := by
  cases op with
  | resume =>
    rw [handleOp,handleCmdResume]
    split <;> exact .refl _
  | sync =>
    rw [handleOp,handleCmdSync]
    split_ifs
    · exact (Core.syncMessage_reports (fun c => .single c (.gerror _)) c _).trans (.single _ .sync)
    · exact .refl _
  | _ => exact .refl _

lemma handleSecureOp_reports {op : CmdOp} {c : Cmd} {s s' : Smmuv3 M} (h : handleSecureOp op c s = some s') :
    Core.Reports s.streams.core s'.streams.core := by
  rcases handleSecureOp_cases h with rfl | rfl | rfl
  · exact .refl _
  · exact .refl _
  · exact Core.syncMessage_reports (fun c => .single c (.secureGerror _)) c _

lemma consumeCmdq_reports : Core.Reports s.streams.core (consumeCmdq s).streams.core := by
  refine consumeCmdq_rel (R := fun s s' => Core.Reports s.streams.core s'.streams.core) (fun _ => .refl _) .trans
    (fun _ _ => .single _ (.bus _)) ?_ (fun _ _ => .single _ (.cmdqCons _)) (fun _ _ => Core.setCmdqErr_reports ..) s
  intro c s s' h
  rw [execCmd,Option.map_eq_some_iff] at h
  obtain ⟨op,-,rfl⟩ := h
  exact handleOp_reports op c s

lemma consumeSecureCmdq_reports : Core.Reports s.streams.core (consumeSecureCmdq s).streams.core := by
  refine consumeSecureCmdq_rel (R := fun s s' => Core.Reports s.streams.core s'.streams.core) (fun _ => .refl _) .trans
    (fun _ _ => .single _ (.bus _)) ?_ (fun _ _ => .single _ (.sCmdqCons _))
    (fun _ _ => Core.setSecureCmdqErr_reports ..) s
  intro c s s' h
  rw [execSecureCmd,Option.bind_eq_some_iff] at h
  obtain ⟨op,-,hop⟩ := h
  exact handleSecureOp_reports hop

end Qbox.Smmuv3
