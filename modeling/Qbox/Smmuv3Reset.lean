import Qbox.Smmuv3Irq

/-! What a reset leaves of the past: a run after it against one from a newly constructed SMMU in front of the same memory.
The first carries bits of `GBPA` and older line writes along, and every function commutes with carrying them. -/
namespace Qbox.Smmuv3
open MachineWord DmaSocket Core

variable {M : Type}

namespace IrqState
def withPast (w : List (IrqLine × Bool)) (s : IrqState) : IrqState := { s with writes := s.writes ++ w }

variable (w : List (IrqLine × Bool))

lemma write_withPast (line : IrqLine) (b : Bool) (s : IrqState) :
    (s.withPast w).write line b = (s.write line b).withPast w := by
  by_cases h : line ∈ s.bound
  · simp [write,withPast,h]
  · simp [write,withPast,h]

lemma trigger_withPast (line : IrqLine) (s : IrqState) :
    (s.withPast w).trigger line = (s.trigger line).withPast w := by
  simp [trigger,write_withPast]

lemma driveLine_withPast (line : IrqLine) (new : Bool) (s : IrqState) :
    (s.withPast w).driveLine line new = (s.driveLine line new).withPast w := by
  have hr : (s.withPast w).remember line new = (s.remember line new).withPast w := by
    cases line <;> rfl
  have hl : (s.withPast w).remembered line = s.remembered line := by
    cases line <;> rfl
  simp only [driveLine,drive,hl,hr,write_withPast]
  split_ifs <;> rfl

lemma level_withPast {w : List (IrqLine × Bool)} {line : IrqLine} (h : (w.lookup line).getD false = false)
    (s : IrqState) : (s.withPast w).level line = s.level line := by
  simp only [level,withPast,List.lookup_append]
  cases s.writes.lookup line with
  | none => exact h
  | some b => rfl

end IrqState

def Regs.withPast (x : U32) (r : Regs) : Regs := { r with gbpa := r.gbpa ^^^ x }

namespace Core
def withPast (x : U32) (w : List (IrqLine × Bool)) (c : Core M) : Core M := ⟨c.regs.withPast x,c.bus,c.irq.withPast w⟩

/-- The function commutes with carrying the past along. -/
abbrev Carries (x : U32) (w : List (IrqLine × Bool)) (f : Core M → Core M) : Prop :=
  ∀ c, f (c.withPast x w) = (f c).withPast x w

variable [DmaSocket M] {x : U32} {w : List (IrqLine × Bool)}

def messageIf (setGerror : ℕ → Core M → Core M) (pending : Bool) (prev : IrqState → Bool) (enabled : Regs → Bool)
    (cfg : Regs → U32 × U32 × U32) (bit : ℕ) (c : Core M) : Core M :=
  if pending && !prev c.irq && enabled c.regs then
    emitMsiWith setGerror (cfg c.regs).1 (cfg c.regs).2.1 (cfg c.regs).2.2 bit c
  else c

/-- The messages of `update_irq_levels`, with the pending flags. -/
def messages (setGerror : ℕ → Core M → Core M) (g e p : Bool) (c : Core M) : Core M :=
  messageIf setGerror p (·.prevPriqPending) (bit32 ·.irqCtrl 1)
    (fun r => (r.priqIrqCfg0Lo,r.priqIrqCfg0Hi,r.priqIrqCfg2)) gerrorBitMsiPriqAbt
    (messageIf setGerror e (·.prevEventqPending) (bit32 ·.irqCtrl 2)
      (fun r => (r.eventqIrqCfg0Lo,r.eventqIrqCfg0Hi,r.eventqIrqCfg2)) gerrorBitMsiEventqAbt
      (messageIf setGerror g (·.prevGerrorPending) (bit32 ·.irqCtrl 0)
        (fun r => (r.gerrorIrqCfg0Lo,r.gerrorIrqCfg0Hi,r.gerrorIrqCfg2)) gerrorBitMsiGerrorAbt c))

def secureMessages (g e : Bool) (c : Core M) : Core M :=
  messageIf setGerror e (·.prevSEventqPending) (bit32 ·.sIrqCtrl 2)
    (fun r => (r.sEventqIrqCfg0Lo,r.sEventqIrqCfg0Hi,r.sEventqIrqCfg2)) gerrorBitMsiEventqAbt
    (messageIf setGerror g (·.prevSGerrorPending) (bit32 ·.sIrqCtrl 0)
      (fun r => (r.sGerrorIrqCfg0Lo,r.sGerrorIrqCfg0Hi,r.sGerrorIrqCfg2)) gerrorBitMsiGerrorAbt c)

def driveLines (g e p : Bool) (level : IrqLine → Bool) (c : Core M) : Core M :=
  { c with irq := (((withPending g e p c.irq).driveLine .gerror (level .gerror)).driveLine .eventq
      (level .eventq)).driveLine .priq (level .priq) }

def driveSecureLines (g e gerrorIrq eventqIrq : Bool) (c : Core M) : Core M :=
  { c with irq := (IrqState.driveLine .sGerror gerrorIrq
      { c.irq with prevSGerrorPending := g, prevSEventqPending := e }).driveLine .sEventq eventqIrq }

lemma updateIrqLevelsBody_eq (setGerror : ℕ → Core M → Core M) (c : Core M) : updateIrqLevelsBody setGerror c =
      let g := decide (c.regs.gerror ^^^ c.regs.gerrorn ≠ 0)
      let e := decide (c.regs.eventqProd ≠ c.regs.eventqCons)
      let p := decide (c.regs.priqProd ≠ c.regs.priqCons)
      driveLines g e p c.regs.lineLevel (messages setGerror g e p c) := rfl

omit [DmaSocket M] in
lemma setGerrorWith_withPast {update : Core M → Core M} (h : Carries x w update) (bit : ℕ) :
    Carries x w (setGerrorWith update bit) := by
  intro c
  have hr : raisedGerror (c.withPast x w).regs.gerror (c.withPast x w).regs.gerrorn bit =
      raisedGerror c.regs.gerror c.regs.gerrorn bit := rfl
  rw [setGerrorWith,setGerrorWith,hr]
  cases raisedGerror c.regs.gerror c.regs.gerrorn bit with
  | none => rfl
  | some g => exact h { c with regs := { c.regs with gerror := g } }

lemma emitMsiWith_withPast {onFail : ℕ → Core M → Core M} (h : ∀ bit, Carries x w (onFail bit)) (lo hi data : U32)
    (bit : ℕ) : Carries x w (emitMsiWith onFail lo hi data bit) := by
  intro c
  rw [emitMsiWith_eq,emitMsiWith_eq]
  split_ifs
  · rfl
  · have hb : (c.withPast x w).bus = c.bus := rfl
    rw [hb]
    rcases dmaWrite (msiAddr lo hi) (storeLe 4 data) c.bus with ⟨_ | _,bus⟩
    · exact h bit { c with bus := bus }
    · rfl

lemma messageIf_withPast {setGerror : ℕ → Core M → Core M} (h : ∀ bit, Carries x w (setGerror bit))
    {prev : IrqState → Bool} (hp : ∀ s, prev (s.withPast w) = prev s) {enabled : Regs → Bool}
    (hen : ∀ r, enabled (r.withPast x) = enabled r) {cfg : Regs → U32 × U32 × U32}
    (hc : ∀ r, cfg (r.withPast x) = cfg r) (pending : Bool) (bit : ℕ) :
    Carries x w (messageIf setGerror pending prev enabled cfg bit) := by
  intro c
  have hi : prev (c.withPast x w).irq = prev c.irq := hp c.irq
  have hr : enabled (c.withPast x w).regs = enabled c.regs := hen c.regs
  have ha : cfg (c.withPast x w).regs = cfg c.regs := hc c.regs
  simp only [messageIf,hi,hr,ha,emitMsiWith_withPast h]
  split_ifs <;> rfl

lemma messages_withPast {setGerror : ℕ → Core M → Core M} (h : ∀ bit, Carries x w (setGerror bit)) (g e p : Bool) :
    Carries x w (messages setGerror g e p) := by
  intro c
  rw [messages,messageIf_withPast h (fun _ => rfl) (fun _ => rfl) (fun _ => rfl),
    messageIf_withPast h (fun _ => rfl) (fun _ => rfl) (fun _ => rfl),
    messageIf_withPast h (fun _ => rfl) (fun _ => rfl) (fun _ => rfl),messages]

omit [DmaSocket M] in
lemma driveLines_withPast (g e p : Bool) (level : IrqLine → Bool) :
    Carries (M := M) x w (driveLines g e p level) := by
  intro c
  have hp : withPending g e p (c.irq.withPast w) = (withPending g e p c.irq).withPast w := rfl
  simp only [driveLines,withPast,hp,IrqState.driveLine_withPast]

lemma updateIrqLevelsBody_withPast {setGerror : ℕ → Core M → Core M} (h : ∀ bit, Carries x w (setGerror bit)) :
    Carries x w (updateIrqLevelsBody setGerror) := by
  intro c
  have hl : (c.withPast x w).regs.lineLevel = c.regs.lineLevel := by
    funext line
    cases line <;> rfl
  rw [updateIrqLevelsBody_eq,updateIrqLevelsBody_eq,hl]
  exact (congrArg _ (messages_withPast h _ _ _ c)).trans (driveLines_withPast _ _ _ _ _)

lemma updateIrqLevels_withPast : Carries (M := M) x w updateIrqLevels := by
  have hf : ∀ n, Carries (M := M) x w (updateIrqLevelsFuel n) := by
    intro n
    induction n with
    | zero => exact fun _ => rfl
    | succ n ih => exact updateIrqLevelsBody_withPast (setGerrorWith_withPast ih)
  exact hf 4

lemma setGerror_withPast (bit : ℕ) : Carries (M := M) x w (setGerror bit) :=
  setGerrorWith_withPast updateIrqLevels_withPast bit

lemma updateSecureIrqLevels_withPast : Carries (M := M) x w updateSecureIrqLevels := by
  intro c
  have hm : ∀ g e, Carries (M := M) x w (secureMessages g e) := by
    intro g e c
    rw [secureMessages,messageIf_withPast setGerror_withPast (fun _ => rfl) (fun _ => rfl) (fun _ => rfl),
      messageIf_withPast setGerror_withPast (fun _ => rfl) (fun _ => rfl) (fun _ => rfl),secureMessages]
  have hd : ∀ g e gi ei, Carries (M := M) x w (driveSecureLines g e gi ei) := by
    intro g e gi ei c
    have hp : { c.irq.withPast w with prevSGerrorPending := g, prevSEventqPending := e } =
        IrqState.withPast w { c.irq with prevSGerrorPending := g, prevSEventqPending := e } := rfl
    simp [driveSecureLines,withPast,hp,IrqState.driveLine_withPast]
  exact (congrArg _ (hm _ _ c)).trans (hd _ _ _ _ _)

lemma setSecureGerror_withPast (bit : ℕ) : Carries (M := M) x w (setSecureGerror bit) := by
  intro c
  have hr : raisedGerror (c.withPast x w).regs.sGerror (c.withPast x w).regs.sGerrorn bit =
      raisedGerror c.regs.sGerror c.regs.sGerrorn bit := rfl
  rw [setSecureGerror,setSecureGerror,hr]
  cases raisedGerror c.regs.sGerror c.regs.sGerrorn bit with
  | none => rfl
  | some g => exact updateSecureIrqLevels_withPast { c with regs := { c.regs with sGerror := g } }

lemma push_withPast (q : OutputQueue) (bytes : List U8) : Carries (M := M) x w (q.push bytes) := by
  intro c
  have hen : q.enabled (c.regs.withPast x) = q.enabled c.regs := by cases q <;> rfl
  have hf : q.full (c.regs.withPast x) = q.full c.regs := by cases q <;> rfl
  have ha : q.nextAddr (c.regs.withPast x) = q.nextAddr c.regs := by cases q <;> rfl
  have hp : q.setProd (nextProd (q.prod (c.regs.withPast x)) (q.log2size (c.regs.withPast x)))
      (c.regs.withPast x) = (q.setProd (nextProd (q.prod c.regs) (q.log2size c.regs)) c.regs).withPast x := by
    cases q <;> rfl
  have hr : (c.withPast x w).regs = c.regs.withPast x := rfl
  have hb : (c.withPast x w).bus = c.bus := rfl
  rw [OutputQueue.push,OutputQueue.push,hr,hb,hen,hf,ha,hp]
  split_ifs
  · rfl
  · exact setGerror_withPast _ c
  · rcases dmaWrite (q.nextAddr c.regs) bytes c.bus with ⟨_ | _,bus⟩
    · exact setGerror_withPast _ { c with bus := bus }
    · exact updateIrqLevels_withPast { c with
        bus := bus, regs := q.setProd (nextProd (q.prod c.regs) (q.log2size c.regs)) c.regs }

end Core

section
variable {x : U32} {w : List (IrqLine × Bool)}

def Streams.withPast (x : U32) (w : List (IrqLine × Bool)) (s : Streams M) : Streams M := s.mapCore (·.withPast x w)

def withPast (x : U32) (w : List (IrqLine × Bool)) (s : Smmuv3 M) : Smmuv3 M := s.mapCore (·.withPast x w)

abbrev Streams.CarriesAnswer (x : U32) (w : List (IrqLine × Bool)) {α : Type} (f : Streams M → α × Streams M) : Prop :=
  ∀ s, f (s.withPast x w) = ((f s).1,(f s).2.withPast x w)

abbrev Carries (x : U32) (w : List (IrqLine × Bool)) (f : Smmuv3 M → Smmuv3 M) : Prop :=
  ∀ s, f (s.withPast x w) = (f s).withPast x w

abbrev CarriesAnswer (x : U32) (w : List (IrqLine × Bool)) {α : Type} (f : Smmuv3 M → α × Smmuv3 M) : Prop :=
  ∀ s, f (s.withPast x w) = ((f s).1,(f s).2.withPast x w)

lemma Streams.mapCore_withPast {f : Core M → Core M} (h : Core.Carries x w f) (s : Streams M) :
    (s.withPast x w).mapCore f = (s.mapCore f).withPast x w := by
  simp [Streams.withPast,Streams.mapCore,h]

lemma mapCore_withPast {f : Core M → Core M} (h : Core.Carries x w f) : Carries x w (mapCore f) := by
  intro s
  simp [withPast,mapCore,Streams.mapCore,h]

variable [DmaSocket M]

lemma findSte_withPast (sid : U32) : Streams.CarriesAnswer (M := M) x w (findSte sid) := by
  intro s
  have hc : (s.withPast x w).steCache = s.steCache := rfl
  have hl : locateSte sid (s.withPast x w).core.regs (s.withPast x w).core.bus =
      locateSte sid s.core.regs s.core.bus := rfl
  have hf := fun bus => Streams.mapCore_withPast (f := Core.setGerror gerrorBitSfmErr) (x := x) (w := w)
    (Core.setGerror_withPast _) (s.setBus bus)
  rw [findSte,findSte,hc,hl]
  cases s.steCache.find sid with
  | some ste => rfl
  | none =>
    rcases locateSte sid s.core.regs s.core.bus with ⟨_ | _ | addr,bus⟩
    · rfl
    · exact Prod.ext rfl (hf bus)
    · dsimp only
      rcases dmaRead addr 64 bus with ⟨_ | bytes,bus'⟩
      · exact Prod.ext rfl (hf bus')
      · rfl

lemma readCd_withPast (sid : U32) (ste : STE) (ssid : U32) :
    Streams.CarriesAnswer (M := M) x w (readCd sid ste ssid) := by
  intro s
  have hc : (s.withPast x w).cdCache = s.cdCache := rfl
  have hb : (s.withPast x w).core.bus = s.core.bus := rfl
  have hf := fun bus => Streams.mapCore_withPast (f := Core.setGerror gerrorBitSfmErr) (x := x) (w := w)
    (Core.setGerror_withPast _) (s.setBus bus)
  rw [readCd,readCd,hc,hb]
  cases s.cdCache.find (cdKey sid ssid) with
  | some ste => rfl
  | none =>
    rcases locateCd ste ssid s.core.bus with ⟨_ | _ | addr,bus⟩
    · rfl
    · exact Prod.ext rfl (hf bus)
    · dsimp only
      rcases dmaRead addr 64 bus with ⟨_ | bytes,bus'⟩
      · exact Prod.ext rfl (hf bus')
      · rfl

lemma mapCore_recordEventFull_withPast (type sid ssid : U32) (iova : U64) (command : TlmCommand)
    (cls faultLevel stag : U32) (stall : Bool) :
    Carries (M := M) x w (mapCore (Core.recordEventFull type sid ssid iova command cls faultLevel stag stall)) :=
  mapCore_withPast fun c => Core.push_withPast .eventq _ c

lemma mapCore_recordPri_withPast (sid : U32) (iova : U64) (flags : U32) :
    Carries (M := M) x w (mapCore (Core.recordPri sid iova flags)) :=
  mapCore_withPast fun c => Core.push_withPast .priq _ c

lemma reject_withPast (txn : Txn) (sid ssid type cls : U32) :
    Streams.CarriesAnswer (M := M) x w (reject txn sid ssid type cls) :=
  fun s => Prod.ext rfl (Streams.mapCore_withPast (fun c => Core.push_withPast .eventq _ c) s)

section
variable (hx : bit32 x 20 = false)
include hx

lemma gbpaAbort_withPast (r : Regs) : (r.withPast x).gbpaAbort = r.gbpaAbort := by
  simp only [Regs.gbpaAbort,Regs.withPast,bit32] at hx ⊢
  rw [BitVec.getLsbD_xor,hx,Bool.xor_false]

lemma resolve_withPast (txn : Txn) (sid ssid : U32) :
    Streams.CarriesAnswer (M := M) x w (resolve txn sid ssid) := by
  intro s
  have hen : (s.withPast x w).core.regs.smmuen = s.core.regs.smmuen := rfl
  rw [resolve,resolve,hen,findSte_withPast]
  split_ifs
  · rfl
  · rcases findSte sid s with ⟨_ | ste,s1⟩
    · have ha : (s1.withPast x w).core.regs.gbpaAbort = s1.core.regs.gbpaAbort := gbpaAbort_withPast hx _
      simp only [ha,reject_withPast]
      split_ifs <;> rfl
    · simp only [reject_withPast,readCd_withPast]
      split_ifs
      · rfl
      · rcases readCd sid ste ssid s1 with ⟨_ | cd,s2⟩
        · simp only [reject_withPast]
          split <;> rfl
        · split <;> rfl

omit hx in
lemma faultAnswer_withPast (txn : Txn) (sid ssid : U32) (config : Config) (req : TransReq) :
    CarriesAnswer (M := M) x w (faultAnswer txn sid ssid config req) := by
  intro s
  simp only [faultAnswer,mapCore_recordEventFull_withPast]
  split_ifs <;> rfl

omit hx in
lemma walkAndCache_withPast (txn : Txn) (sid ssid : U32) (isSecure : Bool) (t : Tables) :
    CarriesAnswer (M := M) x w (walkAndCache txn sid ssid isSecure t) := by
  intro s
  have hw : walkTables (s.withPast x w).pamax t.config (initialReq txn sid ssid t) (s.withPast x w).bus =
      walkTables s.pamax t.config (initialReq txn sid ssid t) s.bus := rfl
  rw [walkAndCache,walkAndCache,hw]
  rcases walkTables s.pamax t.config (initialReq txn sid ssid t) s.bus with ⟨req,bus⟩
  dsimp only
  split_ifs
  · exact faultAnswer_withPast txn sid ssid t.config req (s.setBus bus)
  · rfl

lemma smmuv3Translate_withPast (txn : Txn) (sid ssid : U32) (isSecure : Bool) :
    CarriesAnswer (M := M) x w (smmuv3Translate txn sid ssid isSecure) := by
  intro s
  have hr : resolve txn sid ssid (s.withPast x w).streams = _ := resolve_withPast hx txn sid ssid s.streams
  rw [smmuv3Translate,smmuv3Translate,hr]
  rcases resolve txn sid ssid s.streams with ⟨e | t,st⟩
  · rfl
  · have hl : iotlbLookup (lookupKey (tagsOf t isSecure
        (regs { s.withPast x w with streams := st.withPast x w }).e2h) txn.address)
          { s.withPast x w with streams := st.withPast x w } =
        iotlbLookup (lookupKey (tagsOf t isSecure (regs { s with streams := st }).e2h) txn.address)
          { s with streams := st } := rfl
    dsimp only
    rw [hl]
    cases iotlbLookup (lookupKey (tagsOf t isSecure (regs { s with streams := st }).e2h) txn.address)
      { s with streams := st } with
    | some e => rfl
    | none => exact walkAndCache_withPast txn sid ssid isSecure t { s with streams := st }

omit hx in
lemma stallAndWait_withPast (sid ssid : U32) (iova : U64) (faultType faultLevel cls : U32) (command : TlmCommand) :
    CarriesAnswer (M := M) x w (stallAndWait sid ssid iova faultType faultLevel cls command) :=
  fun s => Prod.ext rfl (mapCore_recordEventFull_withPast _ _ _ _ _ _ _ _ _
    { s with nextStag := s.nextStag+1, stalledTxns := s.stalledTxns.insert s.nextStag ⟨sid,ssid,false,false⟩ })

omit hx in
lemma atsAnswer_withPast (topologyId : U32) (txn : Txn) (ats : AtsExtension) (te : IOMMUTLBEntry) :
    CarriesAnswer (M := M) x w (atsAnswer topologyId txn ats te) := by
  intro s
  have hr : ((s.withPast x w).regs.priqen && (s.withPast x w).regs.pri) = (s.regs.priqen && s.regs.pri) := rfl
  simp only [atsAnswer,hr,mapCore_recordPri_withPast]
  split_ifs <;> rfl

omit hx in
lemma transportAfter_withPast (topologyId : U32) (txn : Txn) (te : IOMMUTLBEntry) :
    CarriesAnswer (M := M) x w (transportAfter topologyId txn te) := by
  intro s
  simp only [transportAfter,stallAndWait_withPast,atsAnswer_withPast]
  split_ifs
  · rfl
  · split <;> rfl
  · split <;> rfl

lemma bTransport_withPast (topologyId : U32) (txn : Txn) :
    CarriesAnswer (M := M) x w (bTransport topologyId txn) := by
  intro s
  simp only [bTransport,tbuTranslate,smmuv3Translate_withPast hx,transportAfter_withPast]
  split <;> rfl

lemma getDirectMemPtr_withPast (downstream : U64 → TlmCommand → DmiReply) (topologyId : U32)
    (txn : Txn) (dmi : TlmDmi) : CarriesAnswer (M := M) x w (getDirectMemPtr downstream topologyId txn dmi) := by
  intro s
  simp [getDirectMemPtr,tbuTranslate,smmuv3Translate_withPast hx]

end

omit [DmaSocket M] in
lemma trigger_withPast (line : IrqLine) :
    Core.Carries (M := M) x w fun c => { c with irq := c.irq.trigger line } := by
  intro c
  simp only [Core.withPast,IrqState.trigger_withPast]

lemma syncMessage_withPast {onFail : Core M → Core M} (h : Core.Carries x w onFail) (cmd : Cmd) :
    Core.Carries x w (syncMessage onFail cmd) := by
  intro c
  have hb : (c.withPast x w).bus = c.bus := rfl
  simp only [syncMessage,hb]
  split_ifs
  · rfl
  · rcases dmaWrite (cmd.word1 &&& 0x000FFFFFFFFFFFFC) (storeLe 4 ((cmd.word0 >>> 32).setWidth 32 : U32)) c.bus with
      ⟨_ | _,bus⟩
    · exact h { c with bus := bus }
    · rfl

lemma handleOp_withPast (op : CmdOp) (c : Cmd) : Carries (M := M) x w (handleOp op c) := by
  intro s
  cases op with
  | resume =>
    have hs : (s.withPast x w).stalledTxns = s.stalledTxns := rfl
    simp only [handleOp,handleCmdResume,hs]
    cases s.stalledTxns.lookup c.stag <;> rfl
  | sync =>
    simp only [handleOp,handleCmdSync]
    split_ifs
    · refine mapCore_withPast (fun core => ?_) s
      rw [syncMessage_withPast (Core.setGerror_withPast _)]
      exact trigger_withPast .cmdSync _
    · rfl
  | _ => rfl

lemma execCmd_withPast (c : Cmd) (s : Smmuv3 M) :
    execCmd c (s.withPast x w) = (execCmd c s).map (·.withPast x w) := by
  simp only [execCmd,handleOp_withPast,Option.map_map]
  rfl

lemma execSecureCmd_withPast (c : Cmd) (s : Smmuv3 M) :
    execSecureCmd c (s.withPast x w) = (execSecureCmd c s).map (·.withPast x w) := by
  rw [execSecureCmd,execSecureCmd]
  cases decodeOp c.opcode with
  | none => rfl
  | some op =>
    cases op with
    | sync =>
      simp only [Option.bind_some,handleSecureOp,mapCore_withPast (syncMessage_withPast (Core.setSecureGerror_withPast _) c)]
      split_ifs <;> rfl
    | _ => rfl

lemma consumeLoop_withPast {exec : Cmd → Smmuv3 M → Option (Smmuv3 M)}
    (h : ∀ c s, exec c (s.withPast x w) = (exec c s).map (·.withPast x w)) (base : U64) (log2size : ℕ) (prod : U32)
    (n : ℕ) (cons : U32) (s : Smmuv3 M) : consumeLoop exec base log2size prod n cons (s.withPast x w) =
      ((consumeLoop exec base log2size prod n cons s).1,(consumeLoop exec base log2size prod n cons s).2.1,
        (consumeLoop exec base log2size prod n cons s).2.2.withPast x w) := by
  induction n generalizing cons s with
  | zero => rfl
  | succ n ih =>
    have hb : (s.withPast x w).bus = s.bus := rfl
    rw [consumeLoop,consumeLoop,hb]
    split_ifs
    · rfl
    · generalize dmaRead _ 16 s.bus = r
      rcases r with ⟨_ | cmd,bus⟩
      · rfl
      · have hs : (s.withPast x w).setBus bus = (s.setBus bus).withPast x w := rfl
        dsimp only
        rw [hs,h]
        cases exec cmd (s.setBus bus) with
        | none => rfl
        | some s1 => exact ih _ s1

lemma consumeCmdq_withPast : Carries (M := M) x w consumeCmdq := by
  intro s
  have hr : (s.withPast x w).regs = s.regs.withPast x := rfl
  simp only [consumeCmdq,hr,Regs.withPast,consumeLoop_withPast execCmd_withPast]
  split_ifs
  · rfl
  · generalize consumeLoop execCmd _ _ _ _ _ s = r
    rcases r with ⟨cons,_ | cerror,s1⟩
    · rfl
    · exact mapCore_withPast (fun c => Core.setGerror_withPast _
        { c with regs := { c.regs with cmdqCons := withErr c.regs.cmdqCons cerror } })
          (s1.mapCore fun c => { c with regs := { c.regs with cmdqCons := cons } })

lemma consumeSecureCmdq_withPast : Carries (M := M) x w consumeSecureCmdq := by
  intro s
  have hr : (s.withPast x w).regs = s.regs.withPast x := rfl
  simp only [consumeSecureCmdq,hr,Regs.withPast,consumeLoop_withPast execSecureCmd_withPast]
  split_ifs
  · rfl
  · generalize consumeLoop execSecureCmd _ _ _ _ _ s = r
    rcases r with ⟨cons,_ | cerror,s1⟩
    · rfl
    · exact mapCore_withPast (fun c => Core.setSecureGerror_withPast _
        { c with regs := { c.regs with sCmdqCons := withErr c.regs.sCmdqCons cerror } })
          (s1.mapCore fun c => { c with regs := { c.regs with sCmdqCons := cons } })

lemma drainCmdq_withPast : Carries (M := M) x w drainCmdq := by
  intro s
  have hen : (s.withPast x w).regs.cmdqen = s.regs.cmdqen := rfl
  simp only [drainCmdq,hen,consumeCmdq_withPast]
  split_ifs <;> rfl

/-- A write of `GBPA` leaves nothing of its other bits. -/
lemma writeReg_withPast (reg : WriteReg) (v : U32) (s : Smmuv3 M) :
    writeReg reg v (s.withPast x w) = (writeReg reg v s).withPast (if reg = .gbpa then 0 else x) w := by
  cases reg with
  | gbpa =>
    have hz : ∀ r : Regs, r.withPast 0 = r := fun r => by simp [Regs.withPast]
    simp only [writeReg,withPast,mapRegs,mapCore,Streams.mapCore,if_true,Core.withPast,hz]
    rfl
  | cmdqProd | cmdqProdP1 => exact drainCmdq_withPast (s.mapRegs ({ · with cmdqProd := v }))
  | irqCtrl => exact mapCore_withPast Core.updateIrqLevels_withPast (s.mapRegs ({ · with irqCtrl := v }))
  | gerrorn => exact mapCore_withPast Core.updateIrqLevels_withPast (s.mapRegs ({ · with gerrorn := v }))
  | eventqCons => exact mapCore_withPast Core.updateIrqLevels_withPast (s.mapRegs ({ · with eventqCons := v }))
  | priqCons => exact mapCore_withPast Core.updateIrqLevels_withPast (s.mapRegs ({ · with priqCons := v }))
  | _ => rfl

end

/-- The registers of the messages and of the secure world. -/
inductive SideReg where
  | gerrorIrqCfg0Lo | gerrorIrqCfg0Hi | gerrorIrqCfg2
  | eventqIrqCfg0Lo | eventqIrqCfg0Hi | eventqIrqCfg2
  | priqIrqCfg0Lo | priqIrqCfg0Hi | priqIrqCfg2
  | sGerrorIrqCfg0Lo | sGerrorIrqCfg0Hi | sGerrorIrqCfg2
  | sEventqIrqCfg0Lo | sEventqIrqCfg0Hi | sEventqIrqCfg2
  | sIrqCtrl | sGerrorn | sEventqCons
  | sCmdqBaseLo | sCmdqBaseHi | sCmdqProd
  deriving DecidableEq

def Regs.storeSide (reg : SideReg) (v : U32) (r : Regs) : Regs := match reg with
  | .gerrorIrqCfg0Lo => { r with gerrorIrqCfg0Lo := v }
  | .gerrorIrqCfg0Hi => { r with gerrorIrqCfg0Hi := v }
  | .gerrorIrqCfg2 => { r with gerrorIrqCfg2 := v }
  | .eventqIrqCfg0Lo => { r with eventqIrqCfg0Lo := v }
  | .eventqIrqCfg0Hi => { r with eventqIrqCfg0Hi := v }
  | .eventqIrqCfg2 => { r with eventqIrqCfg2 := v }
  | .priqIrqCfg0Lo => { r with priqIrqCfg0Lo := v }
  | .priqIrqCfg0Hi => { r with priqIrqCfg0Hi := v }
  | .priqIrqCfg2 => { r with priqIrqCfg2 := v }
  | .sGerrorIrqCfg0Lo => { r with sGerrorIrqCfg0Lo := v }
  | .sGerrorIrqCfg0Hi => { r with sGerrorIrqCfg0Hi := v }
  | .sGerrorIrqCfg2 => { r with sGerrorIrqCfg2 := v }
  | .sEventqIrqCfg0Lo => { r with sEventqIrqCfg0Lo := v }
  | .sEventqIrqCfg0Hi => { r with sEventqIrqCfg0Hi := v }
  | .sEventqIrqCfg2 => { r with sEventqIrqCfg2 := v }
  | .sIrqCtrl => { r with sIrqCtrl := v }
  | .sGerrorn => { r with sGerrorn := v }
  | .sEventqCons => { r with sEventqCons := v }
  | .sCmdqBaseLo => { r with sCmdqBaseLo := v }
  | .sCmdqBaseHi => { r with sCmdqBaseHi := v }
  | .sCmdqProd => { r with sCmdqProd := v }

inductive HostAction (M : Type) where
  | write (reg : WriteReg) (v : U32)
  | writeSide (reg : SideReg) (v : U32)
  /-- `S_CR0` is written. -/
  | writeSCr0
  | readCmdqCons
  /-- `S_CMDQ_PROD` is written, or `S_CMDQ_CONS` read, with the secure queue enabled. -/
  | secureCommands
  /-- `S_INIT.INV_ALL`. -/
  | initInvAll
  | transport (tbu : ℕ) (txn : Txn)
  /-- A parked transaction whose event was notified goes on. -/
  | wake (tbu : ℕ) (txn : Txn) (stag : U32)
  | requestDmi (tbu : ℕ) (txn : Txn) (dmi : TlmDmi) (downstream : U64 → TlmCommand → DmiReply)
  /-- A debug transaction, or a translation through `GATOS_CTRL`. -/
  | translate (txn : Txn) (sid ssid : U32) (isSecure : Bool)
  /-- Memory changes. -/
  | memory (bus : M)

inductive HostReply where
  | none
  | read (v : U32)
  | sent (o : TransportOutcome)
  | granted (r : DmiReply)
  | translated (e : IOMMUTLBEntry)
  deriving DecidableEq

section
variable [DmaSocket M]

def writeSideReg (reg : SideReg) (v : U32) (s : Smmuv3 M) : Smmuv3 M := let s := s.mapRegs (Regs.storeSide reg v)
  match reg with
  | .sIrqCtrl | .sGerrorn | .sEventqCons => s.mapCore Core.updateSecureIrqLevels
  | _ => s

/-- `b_transport` after `stall_and_wait`: the entry is gone, and the transaction ends or is tried anew. -/
def resumeTransport (topologyId : U32) (txn : Txn) (stag : U32) (aborted : Bool) (s : Smmuv3 M) :
    TransportOutcome × Smmuv3 M :=
  let s := { s with stalledTxns := s.stalledTxns.erase stag }
  if aborted then (.addressError,s)
  else
    let (te,s) := tbuTranslate topologyId txn s
    transportAfter topologyId txn te s

def hostStep (a : HostAction M) (s : Smmuv3 M) : HostReply × Smmuv3 M := match a with
  | .write reg v => (.none,writeReg reg v s)
  | .writeSide reg v => (.none,writeSideReg reg v s)
  | .writeSCr0 => (.none,s.mapCore Core.updateSecureIrqLevels)
  | .readCmdqCons => (.read (readCmdqCons s).1,(readCmdqCons s).2)
  | .secureCommands => (.none,consumeSecureCmdq s)
  | .initInvAll => (.none,iotlbInvAll (clearCdCache (clearSteCache s)))
  | .transport i txn =>
    match s.tbus[i]? with
    | none => (.none,s)
    | some t => (.sent (bTransport t.topologyId txn s).1,(bTransport t.topologyId txn s).2)
  | .wake i txn stag =>
    match s.stalledTxns.lookup stag,s.tbus[i]? with
    | some ⟨_,_,aborted,true⟩,some t =>
      let (o,s) := resumeTransport t.topologyId txn stag aborted s
      (.sent o,s)
    | _,_ => (.none,s)
  | .requestDmi i txn dmi downstream =>
    match s.tbus[i]? with
    | none => (.none,s)
    | some t =>
      let (r,s) := getDirectMemPtr downstream t.topologyId txn dmi s
      (.granted r,s)
  | .translate txn sid ssid isSecure =>
    let (e,s) := smmuv3Translate txn sid ssid isSecure s
    (.translated e,s)
  | .memory bus => (.none,s.setBus bus)

def hostRun (l : List (HostAction M)) (s : Smmuv3 M) : Smmuv3 M := l.foldl (fun s a => (hostStep a s).2) s

/-- What shows of a state: memory, where messages and records go, and the levels of the lines. -/
def observe (s : Smmuv3 M) : M × List Bool :=
  (s.bus,[IrqLine.eventq,.priq,.cmdSync,.gerror,.sGerror,.sEventq].map s.streams.core.irq.level)

/-- The replies of a run, each with what shows before it, and what shows at the end. -/
def trace : List (HostAction M) → Smmuv3 M → List (HostReply × M × List Bool)
  | [], s => [(.none,observe s)]
  | a :: l, s => ((hostStep a s).1,observe s) :: trace l (hostStep a s).2

/-- A new SMMU with the parameters, the bindings and the memory of another, and the given `GBPA`. -/
def constructed (ato : Bool) (gbpa : U32) (s : Smmuv3 M) : Smmuv3 M := startOfSimulation ato {
    pamax := s.pamax
    iotlbSize := s.iotlbSize
    streams := { core := { regs := { gbpa := gbpa }, bus := s.bus, irq := { bound := s.streams.core.irq.bound } } }
    tbus := s.tbus }

/-- Nothing is kept that a falling reset line does not clear: no descriptor, translation, parked transaction, stall
tag, remembered interrupt or high line. -/
structure NothingKept (s : Smmuv3 M) : Prop where
  steCache : s.streams.steCache = .empty
  cdCache : s.streams.cdCache = .empty
  iotlb : s.iotlb = .empty
  stalledTxns : s.stalledTxns = ∅
  nextStag : s.nextStag = 1
  irq : s.streams.core.irq = { bound := s.streams.core.irq.bound, writes := s.streams.core.irq.writes }
  low : ∀ line, s.streams.core.irq.level line = false

variable {x : U32} {w : List (IrqLine × Bool)}

lemma writeSideReg_withPast (reg : SideReg) (v : U32) : Carries (M := M) x w (writeSideReg reg v) := by
  intro s
  cases reg with
  | sIrqCtrl => exact mapCore_withPast Core.updateSecureIrqLevels_withPast (s.mapRegs ({ · with sIrqCtrl := v }))
  | sGerrorn => exact mapCore_withPast Core.updateSecureIrqLevels_withPast (s.mapRegs ({ · with sGerrorn := v }))
  | sEventqCons => exact mapCore_withPast Core.updateSecureIrqLevels_withPast (s.mapRegs ({ · with sEventqCons := v }))
  | _ => rfl

section
variable (hx : bit32 x 20 = false)
include hx

lemma resumeTransport_withPast (topologyId : U32) (txn : Txn) (stag : U32) (aborted : Bool) :
    CarriesAnswer (M := M) x w (resumeTransport topologyId txn stag aborted) := by
  intro s
  have he : { s.withPast x w with stalledTxns := (s.withPast x w).stalledTxns.erase stag } =
      withPast x w { s with stalledTxns := s.stalledTxns.erase stag } := rfl
  simp only [resumeTransport,he,tbuTranslate,smmuv3Translate_withPast hx,transportAfter_withPast]
  split_ifs <;> rfl

/-- One step replies alike, and carries no more of the past along. -/
lemma hostStep_withPast (a : HostAction M) (s : Smmuv3 M) :
    ∃ x', bit32 x' 20 = false ∧ hostStep a (s.withPast x w) = ((hostStep a s).1,(hostStep a s).2.withPast x' w) := by
  have ht : (s.withPast x w).tbus = s.tbus := rfl
  cases a with
  | write reg v =>
    refine ⟨if reg = .gbpa then 0 else x,?_,Prod.ext rfl (writeReg_withPast reg v s)⟩
    split_ifs
    · rfl
    · exact hx
  | writeSide reg v => exact ⟨x,hx,Prod.ext rfl (writeSideReg_withPast reg v s)⟩
  | writeSCr0 => exact ⟨x,hx,Prod.ext rfl (mapCore_withPast Core.updateSecureIrqLevels_withPast s)⟩
  | readCmdqCons =>
    refine ⟨x,hx,?_⟩
    simp only [hostStep,readCmdqCons,drainCmdq_withPast]
    rfl
  | secureCommands => exact ⟨x,hx,Prod.ext rfl (consumeSecureCmdq_withPast s)⟩
  | initInvAll | memory bus => exact ⟨x,hx,rfl⟩
  | transport i txn =>
    refine ⟨x,hx,?_⟩
    simp only [hostStep,ht,bTransport_withPast hx]
    cases s.tbus[i]? <;> rfl
  | wake i txn stag =>
    refine ⟨x,hx,?_⟩
    have hs : (s.withPast x w).stalledTxns = s.stalledTxns := rfl
    simp only [hostStep,ht,hs,resumeTransport_withPast hx]
    split <;> rfl
  | requestDmi i txn dmi downstream =>
    refine ⟨x,hx,?_⟩
    simp only [hostStep,ht,getDirectMemPtr_withPast hx]
    cases s.tbus[i]? <;> rfl
  | translate txn sid ssid isSecure =>
    refine ⟨x,hx,?_⟩
    simp [hostStep,smmuv3Translate_withPast hx]

/-- Past writes that left the lines low do not show in a run. -/
lemma trace_withPast (hw : ∀ line, (w.lookup line).getD false = false)
    (l : List (HostAction M)) (s : Smmuv3 M) : trace l (s.withPast x w) = trace l s := by
  have ho : ∀ (x : U32) (s : Smmuv3 M), observe (s.withPast x w) = observe s := fun x s =>
    Prod.ext rfl (List.map_congr_left fun line _ => IrqState.level_withPast (hw line) _)
  induction l generalizing s x with
  | nil => rw [trace,trace,ho]
  | cons a l ih =>
    obtain ⟨x',hx',hs⟩ := hostStep_withPast hx a s
    rw [trace,trace,ho,hs,ih hx']

end

omit [DmaSocket M] in
/-- With nothing kept, the SMMU after the reset is the new one up to what it carries along. -/
lemma NothingKept.resetChanged_eq {s : Smmuv3 M} (h : s.NothingKept) (ato : Bool) (gbpa : U32) :
    ∃ x, bit32 x 20 = false ∧
      resetChanged ato false s = (constructed ato gbpa s).withPast x s.streams.core.irq.writes := by
  have hx : ∀ a b : U32, b ^^^ (a ^^^ b) = a := fun a b => by
    rw [BitVec.xor_comm a,← BitVec.xor_assoc,BitVec.xor_self,BitVec.zero_xor]
  refine ⟨(s.regs.gbpa ||| (1#32 <<< 20)) ^^^ (gbpa ||| (1#32 <<< 20)),by simp [bit32],?_⟩
  obtain ⟨hste,hcd,hi,hs,hst,hir,-⟩ := h
  rcases s with ⟨pamax,iotlbSize,⟨⟨regs,bus,irq⟩,steCache,cdCache⟩,iotlb,stalledTxns,nextStag,tbus⟩
  dsimp only at hste hcd hi hs hst hir
  subst hste hcd hi hs hst
  simp only [resetChanged,startOfSimulation,constructed,withPast,mapRegs,mapCore,Streams.mapCore,Core.withPast,Regs.reset,
    Regs.withPast,Bool.false_eq_true,if_false,hx,Smmuv3.regs]
  rw [hir]
  rfl

def faultingSmmu : Smmuv3 Ram := let s := sampleSmmu 5 []
  constructed true 0 { s with
    streams := { s.streams with core := { s.streams.core with irq := { bound := [.eventq] } } }
    tbus := [{ topologyId := 0 }] }

def faultOnce (doorbell : U32) : List (HostAction Ram) :=
  [.write .strtabBaseLo 0x1000,.write .strtabBaseCfg 1,.write .eventqBaseLo 0x9001,.writeSide .eventqIrqCfg0Lo doorbell,
    .writeSide .eventqIrqCfg2 1,.write .irqCtrl 4,.write .cr0 5,.transport 0 (readTxn 0x1000)]

def enableLate : List (HostAction Ram) :=
  [.writeSide .eventqIrqCfg0Lo 0xB000,.writeSide .eventqIrqCfg2 1,.write .eventqConsP1 1,.write .irqCtrl 4]

lemma parked_again : let past := resetChanged true true (hostRun (faultOnce 0xA000) faultingSmmu)
    (((trace (faultOnce 0xA000) (resetChanged true false past)).map Prod.fst).getD 7 .none,
      ((trace (faultOnce 0xA000) (constructed true 0 past)).map Prod.fst).getD 7 .none) =
        (.sent (.stalled 2),.sent (.stalled 1)) := by
  decide +kernel

end

end Qbox.Smmuv3
