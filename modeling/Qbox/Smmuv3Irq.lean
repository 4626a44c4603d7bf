import Qbox.Smmuv3Registers
import Qbox.Smmuv3Reporting
import Qbox.Smmuv3System

/-! The level of each interrupt line against the registers it stands for, over runs of
register writes, reports, transactions and resets. -/
namespace Qbox.Smmuv3
open MachineWord DmaSocket List

variable {M : Type}

def levelLines : List IrqLine := [.gerror,.eventq,.priq]

def Regs.lineLevel (r : Regs) : IrqLine → Bool
  | .gerror => decide (r.gerror ^^^ r.gerrorn ≠ 0) && bit32 r.irqCtrl 0
  | .eventq => decide (r.eventqProd ≠ r.eventqCons) && bit32 r.irqCtrl 2
  | .priq => decide (r.priqProd ≠ r.priqCons) && bit32 r.irqCtrl 1
  | .cmdSync | .sGerror | .sEventq => false

namespace IrqState
variable (s : IrqState)

/-- The level last written to a line; a line starts low. -/
def level (line : IrqLine) : Bool := (s.writes.lookup line).getD false

def remembered : IrqLine → Bool
  | .gerror => s.lastGerrorLevel
  | .eventq => s.lastEventqLevel
  | .priq => s.lastPriqLevel
  | .sGerror => s.lastSGerrorLevel
  | .sEventq => s.lastSEventqLevel
  | .cmdSync => false

def remember (line : IrqLine) (b : Bool) (s : IrqState) : IrqState := match line with
  | .gerror => { s with lastGerrorLevel := b }
  | .eventq => { s with lastEventqLevel := b }
  | .priq => { s with lastPriqLevel := b }
  | .sGerror => { s with lastSGerrorLevel := b }
  | .sEventq => { s with lastSEventqLevel := b }
  | .cmdSync => s

def driveLine (line : IrqLine) (new : Bool) (s : IrqState) : IrqState :=
  s.drive line (s.remembered line) new (remember line)

/-- The level lines are bound and the remembered levels are those on the lines. -/
def Tracks : Prop := ∀ line ∈ levelLines, line ∈ s.bound ∧ s.remembered line = s.level line

@[simp] lemma bound_write (line : IrqLine) (b : Bool) (s : IrqState) : (s.write line b).bound = s.bound := by
  rw [write]
  split_ifs <;> rfl

@[simp] lemma bound_remember (line : IrqLine) (b : Bool) (s : IrqState) : (s.remember line b).bound = s.bound := by
  cases line <;> rfl

@[simp] lemma level_remember (line line' : IrqLine) (b : Bool) (s : IrqState) :
    (s.remember line b).level line' = s.level line' := by
  cases line <;> rfl

variable {line : IrqLine}

lemma remembered_remember (hl : line ≠ .cmdSync) (line' : IrqLine) (b : Bool) (s : IrqState) :
    (s.remember line b).remembered line' = if line' = line then b else s.remembered line' := by
  cases line <;> cases line' <;> first | rfl | exact absurd rfl hl

@[simp] lemma remembered_write (line line' : IrqLine) (b : Bool) (s : IrqState) :
    (s.write line b).remembered line' = s.remembered line' := by
  rw [write]
  split_ifs
  · cases line' <;> rfl
  · rfl

lemma level_write_self {s : IrqState} (h : line ∈ s.bound) (b : Bool) : (s.write line b).level line = b := by
  simp [write,h,level]

lemma level_write_of_ne {line line' : IrqLine} (h : line' ≠ line) (b : Bool) (s : IrqState) :
    (s.write line b).level line' = s.level line' := by
  rw [write]
  split_ifs
  · simp [level,lookup_cons,beq_eq_false_iff_ne.mpr h]
  · rfl

lemma level_driveLine_of_ne {line line' : IrqLine} (h : line' ≠ line) (new : Bool) (s : IrqState) :
    (s.driveLine line new).level line' = s.level line' := by
  rw [driveLine,drive]
  split_ifs
  · rfl
  · rw [level_write_of_ne h,level_remember]

lemma Tracks.level_driveLine {s : IrqState} (h : s.Tracks) (hli : line ∈ levelLines) (new : Bool) :
    (s.driveLine line new).level line = new := by
  obtain ⟨hb,hl⟩ := h line hli
  rw [driveLine,drive]
  split_ifs with hs
  · rw [← hl,hs]
  · rw [level_write_self (by simpa using hb)]

lemma Tracks.driveLine {s : IrqState} (h : s.Tracks) (hl : line ≠ .cmdSync) (new : Bool) :
    (s.driveLine line new).Tracks := by
  intro line' hl'
  obtain ⟨hb,hle⟩ := h line' hl'
  by_cases hs : s.remembered line = new
  · rw [IrqState.driveLine,drive,if_pos hs]
    exact h line' hl'
  · rw [IrqState.driveLine,drive,if_neg hs]
    refine ⟨by simpa using hb,?_⟩
    rw [remembered_write,remembered_remember hl]
    split_ifs with heq
    · subst heq
      rw [level_write_self (by simpa using hb)]
    · rw [level_write_of_ne heq,level_remember,hle]

lemma level_trigger (hl : line ≠ .cmdSync) (s : IrqState) : (s.trigger .cmdSync).level line = s.level line := by
  rw [trigger,level_write_of_ne hl,level_write_of_ne hl]

lemma cmdSync_ne (h : line ∈ levelLines) : line ≠ .cmdSync := by
  rintro rfl
  revert h
  decide

end IrqState

namespace Core
def LinesFollow (c : Core M) : Prop := ∀ line ∈ levelLines, c.irq.level line = c.regs.lineLevel line

instance (c : Core M) : Decidable c.LinesFollow := inferInstanceAs (Decidable (∀ line ∈ levelLines, _))

/-- No message is configured, and the lines are bound and show what is remembered of them. -/
structure Wired (c : Core M) : Prop where
  noMsi : c.regs.doorbells = []
  tracks : c.irq.Tracks

def Follows (c : Core M) : Prop := c.Wired ∧ c.LinesFollow

lemma Follows.of_eq {c c' : Core M} (h : c.Follows) (hm : c'.regs.doorbells = c.regs.doorbells)
    (ht : c'.irq.Tracks) (hle : ∀ line ∈ levelLines, c'.irq.level line = c.irq.level line)
    (hr : ∀ line ∈ levelLines, c'.regs.lineLevel line = c.regs.lineLevel line) : c'.Follows := by
  refine ⟨⟨hm.trans h.1.noMsi,ht⟩,fun line hl => ?_⟩
  rw [hle line hl,hr line hl,h.2 line hl]

variable {c : Core M}

lemma Follows.linesFollow_iff (h : c.Follows) (r : Regs) :
    LinesFollow { c with regs := r } ↔ ∀ line ∈ levelLines, r.lineLevel line = c.regs.lineLevel line := by
  refine forall₂_congr fun line hl => ?_
  rw [h.2 line hl]
  exact eq_comm

lemma Follows.driveSecure (h : c.Follows) {line : IrqLine} (hl : line ∉ levelLines)
    (hs : line ≠ .cmdSync) (new : Bool) : Follows { c with irq := c.irq.driveLine line new } := by
  refine h.of_eq rfl (h.1.tracks.driveLine hs new) (fun line' hl' => ?_) (fun _ _ => rfl)
  have hne : line' ≠ line := fun heq => hl (heq ▸ hl')
  exact IrqState.level_driveLine_of_ne hne new c.irq

def withPending (g e p : Bool) (s : IrqState) : IrqState :=
  { s with prevGerrorPending := g, prevEventqPending := e, prevPriqPending := p }

lemma withPending_tracks {s : IrqState} (h : s.Tracks) (g e p : Bool) : (withPending g e p s).Tracks := by
  intro line hl
  have ht := h line hl
  cases line <;> exact ht

variable [DmaSocket M]

lemma emitMsiWith_of_doorbells_nil {lo hi : U32} (h : c.regs.doorbells = [])
    (hd : msiAddr lo hi ≠ 0 → msiAddr lo hi ∈ c.regs.doorbells) (onFail : ℕ → Core M → Core M) (data : U32)
    (bit : ℕ) : emitMsiWith onFail lo hi data bit c = c := by
  have hz : msiAddr lo hi = 0 := by
    by_contra hne
    exact absurd (h ▸ hd hne) not_mem_nil
  rw [emitMsiWith_eq,if_pos hz]

lemma updateIrqLevels_of_noMsi (h : c.regs.doorbells = []) : ∃ g e p, updateIrqLevels c = { c with
      irq := (((withPending g e p c.irq).driveLine .gerror (c.regs.lineLevel .gerror)).driveLine .eventq
        (c.regs.lineLevel .eventq)).driveLine .priq (c.regs.lineLevel .priq) } := by
  rw [updateIrqLevels,updateIrqLevelsFuel]
  unfold updateIrqLevelsBody
  extract_lets gp ep pp gi ei pi c1 c2 c3 irq0 irq1 irq2 irq3 irq4
  have h1 : c1 = c := ite_eq_right_iff.mpr fun _ =>
    emitMsiWith_of_doorbells_nil h (fun h => mem_doorbells h (.inl rfl)) _ _ _
  have h2 : c2 = c := by
    show (if _ then _ else c1) = c
    rw [h1]
    exact ite_eq_right_iff.mpr fun _ => emitMsiWith_of_doorbells_nil h (fun h => mem_doorbells h (.inr (.inl rfl))) _ _ _
  have h3 : c3 = c := by
    show (if _ then _ else c2) = c
    rw [h2]
    exact ite_eq_right_iff.mpr fun _ => emitMsiWith_of_doorbells_nil h (fun h => mem_doorbells h (.inr (.inr rfl))) _ _ _
  have hp : irq1 = withPending gp ep pp c.irq := by
    rw [← h3]
    rfl
  refine ⟨gp,ep,pp,?_⟩
  rw [← hp]
  show { c3 with irq := irq4 } = _
  rw [h3]
  rfl

/-- Updating the interrupts makes the lines follow, whatever the registers were. -/
lemma Wired.updateIrqLevels (h : c.Wired) : (updateIrqLevels c).Wired ∧ (updateIrqLevels c).LinesFollow := by
  obtain ⟨g,e,p,heq⟩ := updateIrqLevels_of_noMsi h.noMsi
  have ht := withPending_tracks h.tracks g e p
  have hg := ht.driveLine (by decide : IrqLine.gerror ≠ .cmdSync) (c.regs.lineLevel .gerror)
  have he := hg.driveLine (by decide : IrqLine.eventq ≠ .cmdSync) (c.regs.lineLevel .eventq)
  have hp := he.driveLine (by decide : IrqLine.priq ≠ .cmdSync) (c.regs.lineLevel .priq)
  rw [heq]
  refine ⟨⟨h.noMsi,hp⟩,?_⟩
  intro line hl
  rw [levelLines] at hl
  simp only [mem_cons,not_mem_nil,or_false] at hl
  rcases hl with rfl | rfl | rfl
  · rw [IrqState.level_driveLine_of_ne (by decide),IrqState.level_driveLine_of_ne (by decide)]
    exact ht.level_driveLine (by decide) _
  · rw [IrqState.level_driveLine_of_ne (by decide)]
    exact hg.level_driveLine (by decide) _
  · exact he.level_driveLine (by decide) _

section
variable (h : c.Follows)
include h

lemma Follows.setGerror (bit : ℕ) : (setGerror bit c).Follows := by
  rw [Core.setGerror,setGerrorWith]
  split
  · exact h
  · exact Wired.updateIrqLevels ⟨h.1.noMsi,h.1.tracks⟩

lemma Follows.emitMsi (lo hi data : U32) (bit : ℕ) :
    (emitMsiWith Core.setGerror lo hi data bit c).Follows := by
  have hb : ∀ bus, Follows { c with bus := bus } := fun _ => h.of_eq rfl h.1.tracks (fun _ _ => rfl) (fun _ _ => rfl)
  rw [emitMsiWith_eq]
  split_ifs
  · exact h
  · split
    · exact hb _
    · exact (hb _).setGerror bit

lemma Follows.updateSecureIrqLevels : (updateSecureIrqLevels c).Follows := by
  have he : ∀ (p : Bool) (c : Core M) (lo hi data : U32) (bit : ℕ), c.Follows →
      Follows (if p then emitMsiWith Core.setGerror lo hi data bit c else c) := by
    intro p c lo hi data bit hc
    split_ifs
    · exact hc.emitMsi lo hi data bit
    · exact hc
  unfold Core.updateSecureIrqLevels
  extract_lets gp ep gi ei c1 c2 irq0 irq1 irq2 irq3
  have h1 : c1.Follows := he _ c _ _ _ _ h
  have h2 : c2.Follows := he _ c1 _ _ _ _ h1
  have hp : Follows { c2 with irq := irq1 } := by
    refine h2.of_eq rfl (fun line hl => ?_) (fun _ _ => rfl) (fun _ _ => rfl)
    have ht := h2.1.tracks line hl
    cases line <;> exact ht
  have hg := hp.driveSecure (by decide : IrqLine.sGerror ∉ levelLines) (by decide) gi
  exact hg.driveSecure (by decide : IrqLine.sEventq ∉ levelLines) (by decide) ei

lemma Follows.push (q : OutputQueue) (bytes : List U8) : (q.push bytes c).Follows := by
  have hb : ∀ bus, Follows { c with bus := bus } := fun _ => h.of_eq rfl h.1.tracks (fun _ _ => rfl) (fun _ _ => rfl)
  rw [OutputQueue.push]
  split_ifs
  · exact h
  · exact h.setGerror _
  · split
    · exact (hb _).setGerror _
    · refine Wired.updateIrqLevels ⟨?_,h.1.tracks⟩
      cases q <;> exact h.1.noMsi

/-- Whatever the SMMU does on its own, the lines follow. -/
lemma Follows.report (r : Report M) : (c.report r).Follows := by
  cases r with
  | bus bus => exact h.of_eq rfl h.1.tracks (fun _ _ => rfl) (fun _ _ => rfl)
  | gerror bit => exact h.setGerror bit
  | secureGerror bit =>
    rw [Core.report,setSecureGerror]
    split
    · exact h
    · refine Follows.updateSecureIrqLevels (h.of_eq rfl h.1.tracks (fun _ _ => rfl) (fun line _ => ?_))
      cases line <;> rfl
  | record q bytes => exact h.push q bytes
  | sync =>
    refine h.of_eq rfl (fun line hl => ?_) (fun line hl => ?_) (fun _ _ => rfl)
    · obtain ⟨hb,hle⟩ := h.1.tracks line hl
      rw [Core.report,IrqState.level_trigger (IrqState.cmdSync_ne hl)]
      exact ⟨by simpa [IrqState.trigger] using hb,by simpa [IrqState.trigger] using hle⟩
    · exact IrqState.level_trigger (IrqState.cmdSync_ne hl) c.irq
  | cmdqCons cons | sCmdqCons cons =>
    exact h.of_eq rfl h.1.tracks (fun _ _ => rfl) (fun line _ => by cases line <;> rfl)

end

lemma Follows.reports {c c' : Core M} (h : c.Follows) (hr : Reports c c') : c'.Follows :=
  hr.invariant (fun _ r hc => hc.report r) h

end Core

variable [DmaSocket M]

/-- What happens to the SMMU while the addresses of the messages stay as they are. -/
inductive IrqAction (M : Type) where
  | write (reg : WriteReg) (v : U32)
  | readCmdqCons
  /-- An event, a page request, a command error, or memory that changes. -/
  | report (r : Core.Report M)
  | transport (tbu : ℕ) (txn : Txn)
  | requestDmi (tbu : ℕ) (txn : Txn) (dmi : TlmDmi) (downstream : U64 → TlmCommand → DmiReply)
  | secureCommands
  | reset (level : Bool)

variable (ato : Bool) (s : Smmuv3 M)

def irqStep : IrqAction M → Smmuv3 M
  | .write reg v => writeReg reg v s
  | .readCmdqCons => (readCmdqCons s).2
  | .report r => s.mapCore (·.report r)
  | .transport i txn => transport i txn s
  | .requestDmi i txn dmi downstream => requestDmi i txn dmi downstream s
  | .secureCommands => consumeSecureCmdq s
  | .reset level => resetChanged ato level s

/-- A write through the page-1 alias keeps the queue as empty or filled, unless its interrupt is off; reset is
released when no line is to be high. -/
def KeepsLevels : IrqAction M → Prop
  | .write reg v =>
    (reg = .eventqConsP1 → bit32 s.regs.irqCtrl 2 = true →
      (s.regs.eventqProd = v ↔ s.regs.eventqProd = s.regs.eventqCons)) ∧
    (reg = .priqConsP1 → bit32 s.regs.irqCtrl 1 = true → (s.regs.priqProd = v ↔ s.regs.priqProd = s.regs.priqCons))
  | .reset level => level = false → ∀ line ∈ levelLines, s.regs.lineLevel line = false
  | .readCmdqCons | .report _ | .transport _ _ | .requestDmi _ _ _ _ | .secureCommands => True

instance (s : Smmuv3 M) : (a : IrqAction M) → Decidable (KeepsLevels s a)
  | .write _ _ => inferInstanceAs (Decidable (_ ∧ _))
  | .reset _ => inferInstanceAs (Decidable (_ → _))
  | .readCmdqCons | .report _ | .transport _ _ | .requestDmi _ _ _ _ | .secureCommands =>
    inferInstanceAs (Decidable True)

def LinesFollow (s : Smmuv3 M) : Prop := s.streams.core.LinesFollow

instance (s : Smmuv3 M) : Decidable s.LinesFollow := inferInstanceAs (Decidable (Core.LinesFollow _))

lemma drainCmdq_reports : Core.Reports s.streams.core (drainCmdq s).streams.core := by
  rw [drainCmdq]
  split_ifs
  · exact consumeCmdq_reports s
  · exact .refl _

lemma transport_reports (i : ℕ) (txn : Txn) (s : Smmuv3 M) :
    Core.Reports s.streams.core (transport i txn s).streams.core := by
  rw [transport]
  split
  · exact .refl _
  · exact bTransport_reports ..

lemma requestDmi_reports (i : ℕ) (txn : Txn) (dmi : TlmDmi) (downstream : U64 → TlmCommand → DmiReply)
    (s : Smmuv3 M) : Core.Reports s.streams.core (requestDmi i txn dmi downstream s).streams.core := by
  rw [requestDmi]
  split
  · exact .refl _
  · next t _ =>
    have ht := smmuv3Translate_reports txn t.topologyId (extractSubstreamId txn) (extractSecure txn) s
    dsimp only
    split_ifs <;> exact ht

lemma doorbells_store (reg : WriteReg) (v : U32) (r : Regs) : (r.store reg v).doorbells = r.doorbells := by
  cases reg <;> rfl

def levelRegs : List WriteReg := [.irqCtrl,.gerrorn,.eventqCons,.priqCons,.eventqConsP1,.priqConsP1]

lemma lineLevel_store {reg : WriteReg} (hr : reg ∉ levelRegs) (v : U32) (r : Regs) (line : IrqLine) :
    (r.store reg v).lineLevel line = r.lineLevel line := by
  cases reg <;> first | rfl | exact absurd (by decide) hr

lemma lineLevel_reset (r : Regs) (line : IrqLine) : (r.reset ato).lineLevel line = false := by
  cases line <;> simp [Regs.lineLevel,Regs.reset]

lemma doorbells_reset (r : Regs) : (r.reset ato).doorbells = [] := by
  simp [Regs.doorbells,Regs.reset,msiAddr]

/-- A write of a register, except through the alias of a consumer index, lets the lines follow. -/
lemma writeReg_follows {s : Smmuv3 M} (h : s.streams.core.Follows) {reg : WriteReg} (he : reg ≠ .eventqConsP1)
    (hp : reg ≠ .priqConsP1) (v : U32) : (writeReg reg v s).streams.core.Follows := by
  have hw : (s.mapRegs (Regs.store reg v)).streams.core.Wired :=
    ⟨(doorbells_store reg v s.regs).trans h.1.noMsi,h.1.tracks⟩
  by_cases hl : reg ∈ levelRegs
  · simp only [levelRegs,mem_cons,not_mem_nil,or_false,he,hp] at hl
    rcases hl with rfl | rfl | rfl | rfl <;> exact hw.updateIrqLevels
  · have hs : (s.mapRegs (Regs.store reg v)).streams.core.Follows :=
      ⟨hw,(h.linesFollow_iff _).mpr fun line _ => lineLevel_store hl v s.regs line⟩
    have hd := hs.reports (drainCmdq_reports _)
    cases reg <;> first | exact hs | exact hd | exact absurd (by decide) hl

lemma queueLevel_eq_iff {prod cons v : U32} {enabled : Bool} :
    (decide (prod ≠ v) && enabled) = (decide (prod ≠ cons) && enabled) ↔
      (enabled = true → (prod = v ↔ prod = cons)) := by
  cases enabled with
  | false | true => simp

/-- One step: the lines are still wired, and they follow exactly when the step keeps their levels. -/
lemma irqStep_spec {s : Smmuv3 M} (h : s.streams.core.Follows) (a : IrqAction M) :
    (irqStep ato s a).streams.core.Wired ∧ (LinesFollow (irqStep ato s a) ↔ KeepsLevels s a) := by
  have hf : ∀ s' : Smmuv3 M, s'.streams.core.Follows → s'.streams.core.Wired ∧ (LinesFollow s' ↔ True) :=
    fun s' hs' => ⟨hs'.1,iff_true_intro hs'.2⟩
  cases a with
  | write reg v =>
    rw [KeepsLevels]
    by_cases hev : reg = .eventqConsP1
    · subst hev
      refine ⟨⟨h.1.noMsi,h.1.tracks⟩,(h.linesFollow_iff _).trans ?_⟩
      rw [← queueLevel_eq_iff]
      simp only [levelLines,forall_mem_cons]
      exact ⟨fun hl => ⟨fun _ => hl.2.1,nofun⟩,fun hl => ⟨rfl,hl.1 trivial,rfl,nofun⟩⟩
    · by_cases hpr : reg = .priqConsP1
      · subst hpr
        refine ⟨⟨h.1.noMsi,h.1.tracks⟩,(h.linesFollow_iff _).trans ?_⟩
        rw [← queueLevel_eq_iff,← queueLevel_eq_iff]
        simp only [levelLines,forall_mem_cons]
        exact ⟨fun hl => ⟨nofun,fun _ => hl.2.2.1⟩,fun hl => ⟨rfl,rfl,hl.2 trivial,nofun⟩⟩
      · have hw := writeReg_follows h hev hpr v
        exact ⟨hw.1,fun _ => ⟨fun he => absurd he hev,fun hp => absurd hp hpr⟩,fun _ => hw.2⟩
  | readCmdqCons => exact hf _ (h.reports (drainCmdq_reports s))
  | report r => exact hf _ (h.report r)
  | transport i txn => exact hf _ (h.reports (transport_reports i txn s))
  | requestDmi i txn dmi downstream => exact hf _ (h.reports (requestDmi_reports i txn dmi downstream s))
  | secureCommands => exact hf _ (h.reports (consumeSecureCmdq_reports s))
  | reset level =>
    cases level with
    | true => exact ⟨h.1,fun _ => nofun,fun _ => h.2⟩
    | false =>
      refine ⟨⟨doorbells_reset ato s.regs,h.1.tracks⟩,(h.linesFollow_iff _).trans ?_⟩
      refine ⟨fun hl _ line hli => ?_,fun hl line hli => ?_⟩
      · rw [regs,← hl line hli]
        exact lineLevel_reset ato s.regs line
      · exact (lineLevel_reset ato s.regs line).trans (hl rfl line hli).symm

omit [DmaSocket M] in
lemma startOfSimulation_follows (ato : Bool) {s : Smmuv3 M} {bound : List IrqLine}
    (hi : s.streams.core.irq = { bound := bound }) (hb : ∀ line ∈ levelLines, line ∈ bound) :
    (startOfSimulation ato s).streams.core.Follows := by
  have ht : s.streams.core.irq.Tracks := by
    rw [hi]
    intro line hl
    exact ⟨hb line hl,by cases line <;> rfl⟩
  refine ⟨⟨doorbells_reset ato s.regs,ht⟩,fun line _ => Eq.trans ?_ (lineLevel_reset ato s.regs line).symm⟩
  show s.streams.core.irq.level line = false
  rw [hi]
  rfl

/-- The lines follow in every state of a run from power-on exactly when every step keeps their levels. -/
theorem lines_follow_iff {ato : Bool} {s : Smmuv3 M} {bound : List IrqLine}
    (hirq : s.streams.core.irq = { bound := bound }) (hbound : ∀ line ∈ levelLines, line ∈ bound)
    (l : List (IrqAction M)) :
    (∀ l', l' <+: l → LinesFollow (l'.foldl (irqStep ato) (startOfSimulation ato s))) ↔
      GuardedRun.Along (irqStep ato) KeepsLevels (startOfSimulation ato s) l := by
  obtain ⟨hw,hf⟩ := startOfSimulation_follows ato hirq hbound
  exact GuardedRun.forall_prefix_iff_along (J := fun s : Smmuv3 M => s.streams.core.Wired)
    (fun s a hj hi _ => (irqStep_spec ato ⟨hj,hi⟩ a).1) (fun s a hj hi => (irqStep_spec ato ⟨hj,hi⟩ a).2) hw hf l

def boundSmmu : Smmuv3 Ram where
  pamax := 48
  iotlbSize := 256
  streams := { core := { regs := {}, bus := ⟨[],[]⟩, irq := { bound := levelLines } } }

def raiseEvent : List (IrqAction Ram) :=
  [.write .cr0 4,.write .irqCtrl 4,.report (.record .eventq (List.replicate 32 0))]

theorem lines_follow_consumed_event :
    (raiseEvent.foldl (irqStep true) (startOfSimulation true boundSmmu)).streams.core.irq.level .eventq = true ∧
      ∀ l', l' <+: raiseEvent++[IrqAction.write .eventqCons 1] →
        LinesFollow (l'.foldl (irqStep true) (startOfSimulation true boundSmmu)) :=
  ⟨by decide +kernel,(lines_follow_iff rfl (fun _ h => h) _).mpr (by decide +kernel)⟩

/-- A consumer index that catches up through the alias, or a reset, leaves the line high. -/
theorem lines_stay_high :
    ¬ LinesFollow ((raiseEvent++[IrqAction.write .eventqConsP1 1]).foldl (irqStep true) (startOfSimulation true boundSmmu)) ∧
      ¬ LinesFollow ((raiseEvent++[IrqAction.reset true,IrqAction.reset false]).foldl (irqStep true)
        (startOfSimulation true boundSmmu)) :=
  ⟨by decide +kernel,by decide +kernel⟩

end Qbox.Smmuv3
