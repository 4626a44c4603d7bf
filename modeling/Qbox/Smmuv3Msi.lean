import Qbox.OptionSpec
import Qbox.Smmuv3Irq

/-! Message-signalled interrupts of the SMMUv3: one call of `update_irq_levels`, which enters itself when a message
fails. -/
namespace Qbox.Smmuv3
open MachineWord DmaSocket List Option Core

/-- The conditions that messages are sent for, in the order of `update_irq_levels`. -/
inductive MsiSource where
  | gerror | eventq | priq
  deriving DecidableEq

namespace MsiSource

instance : Fintype MsiSource := ⟨{.gerror,.eventq,.priq},fun x => by cases x <;> decide⟩

def all : List MsiSource := [.gerror,.eventq,.priq]

def line : MsiSource → IrqLine
  | .gerror => .gerror
  | .eventq => .eventq
  | .priq => .priq

def abortBit : MsiSource → ℕ
  | .gerror => gerrorBitMsiGerrorAbt
  | .eventq => gerrorBitMsiEventqAbt
  | .priq => gerrorBitMsiPriqAbt

lemma abortBit_lt (x : MsiSource) : x.abortBit < 32 := by
  cases x <;> decide

def index : MsiSource → ℕ
  | .gerror => 0
  | .eventq => 1
  | .priq => 2

end MsiSource

namespace Regs
variable (r : Regs)

def pending : MsiSource → Bool
  | .gerror => decide (r.gerror ^^^ r.gerrorn ≠ 0)
  | .eventq => decide (r.eventqProd ≠ r.eventqCons)
  | .priq => decide (r.priqProd ≠ r.priqCons)

def irqEnabled : MsiSource → Bool
  | .gerror => bit32 r.irqCtrl 0
  | .eventq => bit32 r.irqCtrl 2
  | .priq => bit32 r.irqCtrl 1

def msiCfg0 : MsiSource → U32 × U32
  | .gerror => (r.gerrorIrqCfg0Lo,r.gerrorIrqCfg0Hi)
  | .eventq => (r.eventqIrqCfg0Lo,r.eventqIrqCfg0Hi)
  | .priq => (r.priqIrqCfg0Lo,r.priqIrqCfg0Hi)

def msiData : MsiSource → U32
  | .gerror => r.gerrorIrqCfg2
  | .eventq => r.eventqIrqCfg2
  | .priq => r.priqIrqCfg2

def doorbell (x : MsiSource) : U64 := msiAddr (r.msiCfg0 x).1 (r.msiCfg0 x).2

lemma lineLevel_line (x : MsiSource) : r.lineLevel x.line = (r.pending x && r.irqEnabled x) := by
  cases x <;> rfl

end Regs

def IrqState.prevPending (s : IrqState) : MsiSource → Bool
  | .gerror => s.prevGerrorPending
  | .eventq => s.prevEventqPending
  | .priq => s.prevPriqPending

/-- The end of `update_irq_levels`: the flags and the lines are set from the values fixed at its start. -/
def IrqState.settle (r : Regs) (s : IrqState) : IrqState := ((({ s with
    prevGerrorPending := r.pending .gerror
    prevEventqPending := r.pending .eventq
    prevPriqPending := r.pending .priq }).driveLine .gerror
      (r.pending .gerror && r.irqEnabled .gerror)).driveLine .eventq
      (r.pending .eventq && r.irqEnabled .eventq)).driveLine .priq (r.pending .priq && r.irqEnabled .priq)

lemma IrqState.prevPending_driveLine (line : IrqLine) (new : Bool) (s : IrqState) (x : MsiSource) :
    (s.driveLine line new).prevPending x = s.prevPending x := by
  have hw : ∀ (b : Bool) (s : IrqState), (s.write line b).prevPending x = s.prevPending x := by
    intro b s
    rw [write]
    split_ifs
    · cases x <;> rfl
    · rfl
  have hr : (s.remember line new).prevPending x = s.prevPending x := by
    cases line <;> cases x <;> rfl
  rw [driveLine,drive]
  split_ifs
  · rfl
  · rw [hw,hr]

lemma IrqState.remembered_driveLine {line : IrqLine} (hl : line ≠ .cmdSync) (new : Bool) (s : IrqState)
    (line' : IrqLine) : (s.driveLine line new).remembered line' = if line' = line then new else s.remembered line' := by
  rw [driveLine,drive]
  split_ifs with hs heq heq
  · rw [heq,hs]
  · rfl
  · rw [remembered_write,remembered_remember hl,if_pos heq]
  · rw [remembered_write,remembered_remember hl,if_neg heq]

@[simp] lemma IrqState.prevPending_settle (r : Regs) (s : IrqState) (x : MsiSource) :
    (s.settle r).prevPending x = r.pending x := by
  simp only [settle,prevPending_driveLine]
  cases x <;> rfl

lemma IrqState.remembered_settle (r : Regs) (s : IrqState) (x : MsiSource) :
    (s.settle r).remembered x.line = r.lineLevel x.line := by
  rw [Regs.lineLevel_line,settle,remembered_driveLine (by decide),remembered_driveLine (by decide),
    remembered_driveLine (by decide)]
  cases x <;> rfl

/-- The registers and lines, and the messages written for each condition since it was last false. -/
structure MsiTrace (M : Type) where
  core : Core M
  sent : MsiSource → ℕ

namespace MsiTrace
variable {M : Type} (update : MsiTrace M → Option (MsiTrace M))

def setGerror (bit : ℕ) (t : MsiTrace M) : Option (MsiTrace M) :=
  match raisedGerror t.core.regs.gerror t.core.regs.gerrorn bit with
  | none => some t
  | some g => update { t with core := { t.core with regs := { t.core.regs with gerror := g } } }

def settle (r : Regs) (t : MsiTrace M) : MsiTrace M := { t with core := { t.core with irq := t.core.irq.settle r } }

variable (t : MsiTrace M)

/-- A message goes out for the condition if `update_irq_levels` is called now. -/
def Armed (x : MsiSource) : Bool :=
  t.core.regs.pending x && !t.core.irq.prevPending x && t.core.regs.irqEnabled x && decide (t.core.regs.doorbell x ≠ 0)

/-- Errors only become active and messages are only added; the other registers stay. -/
structure Grows (t t' : MsiTrace M) : Prop where
  regs : t'.core.regs = { t.core.regs with gerror := t'.core.regs.gerror }
  active : ∀ bit, t.core.Active bit → t'.core.Active bit
  sent : ∀ x, t.sent x ≤ t'.sent x

/-- The state after an error that was not active is raised. -/
def raise (bit : ℕ) (t : MsiTrace M) : MsiTrace M :=
  { t with core := { t.core with regs := { t.core.regs with gerror := t.core.regs.gerror ^^^ (1#32 <<< bit) } } }

def withBus (bus : M) (t : MsiTrace M) : MsiTrace M := { t with core := { t.core with bus := bus } }

def inactive : ℕ := MsiSource.all.countP fun x => decide (¬t.core.Active x.abortBit)

/-- No failed message sends another again or misses an error: the queues' messages go only while an error is pending
or errors are not signalled, and of two the later one's failure is reported. -/
def MsiSafe : Prop := (∀ x ≠ MsiSource.gerror, t.Armed x = true →
    t.core.regs.pending .gerror = true ∨ t.core.regs.irqEnabled .gerror = false) ∧
  ∀ x y, x.index < y.index → t.Armed x = true → t.Armed y = true → t.core.Active y.abortBit

def SameCore (u : MsiTrace M) : Prop := u.core.regs = t.core.regs ∧ u.core.irq = t.core.irq

/-- At most one message is added for each condition that one goes out for. -/
def SentOnce (t' : MsiTrace M) : Prop := ∀ x, t'.sent x ≤ t.sent x+if t.Armed x then 1 else 0

section
variable {update : MsiTrace M → Option (MsiTrace M)} {t t' t'' u : MsiTrace M} {x y : MsiSource} {bit : ℕ}

lemma setGerror_of_active (h : t.core.Active bit) : setGerror update bit t = some t := by
  have hn : raisedGerror t.core.regs.gerror t.core.regs.gerrorn bit = none := if_pos h
  rw [setGerror,hn]

lemma setGerror_of_not_active (h : ¬t.core.Active bit) : setGerror update bit t = update (t.raise bit) := by
  have hs : raisedGerror t.core.regs.gerror t.core.regs.gerrorn bit =
      some (t.core.regs.gerror ^^^ (1#32 <<< bit)) := if_neg h
  rw [setGerror,hs]
  rfl

lemma active_raise (hb : bit < 32) (h : ¬t.core.Active bit) (i : ℕ) :
    (t.raise bit).core.Active i ↔ t.core.Active i ∨ i = bit := by
  have hs := raisedGerror_spec hb (if_neg h) i
  simp [Core.Active,raise,hs]

lemma pending_gerror_of_active (h : t.core.Active bit) : t.core.regs.pending .gerror = true := by
  refine decide_eq_true fun hz => ?_
  rw [Core.Active,hz] at h
  simp [bit32] at h

lemma Grows.refl (t : MsiTrace M) : Grows t t := ⟨rfl,fun _ h => h,fun _ => le_rfl⟩

lemma Grows.trans (h1 : Grows t t') (h2 : Grows t' t'') : Grows t t'' :=
  ⟨by rw [h2.regs,h1.regs],fun bit h => h2.active bit (h1.active bit h),fun x => (h1.sent x).trans (h2.sent x)⟩

lemma Grows.pending (h : Grows t t') (hx : x ≠ .gerror) : t'.core.regs.pending x = t.core.regs.pending x := by
  rw [h.regs]
  cases x
  · exact absurd rfl hx
  all_goals rfl

lemma Grows.pending_gerror (h : Grows t t') (hp : t.core.regs.pending .gerror = true) :
    t'.core.regs.pending .gerror = true := by
  have hne := of_decide_eq_true hp
  obtain ⟨bit,hb⟩ : ∃ bit, (t.core.regs.gerror ^^^ t.core.regs.gerrorn).getLsbD bit = true := by
    by_contra ha
    exact hne (BitVec.eq_of_getLsbD_eq fun i _ => by simpa using fun hi => ha ⟨i,hi⟩)
  exact pending_gerror_of_active (h.active bit hb)

lemma Grows.irqEnabled (h : Grows t t') (x : MsiSource) : t'.core.regs.irqEnabled x = t.core.regs.irqEnabled x := by
  rw [h.regs]
  cases x <;> rfl

lemma grows_raise (hb : bit < 32) (h : ¬t.core.Active bit) : Grows t (t.raise bit) :=
  ⟨rfl,fun i hi => (active_raise hb h i).mpr (.inl hi),fun _ => le_rfl⟩

lemma grows_settle (r : Regs) (t : MsiTrace M) : Grows t (settle r t) := ⟨rfl,fun _ h => h,fun _ => le_rfl⟩

lemma Grows.inactive_le (h : Grows t t') : t'.inactive ≤ t.inactive :=
  countP_mono_left fun x _ hx => by
    simp only [decide_eq_true_eq] at hx ⊢
    exact fun ha => hx (h.active _ ha)

lemma inactive_raise_lt (h : ¬t.core.Active x.abortBit) : (t.raise x.abortBit).inactive < t.inactive := by
  have hr := active_raise x.abortBit_lt h
  have hi : ∀ y : MsiSource, y.abortBit = x.abortBit ↔ y = x := by
    intro y
    cases x <;> cases y <;> decide
  simp only [inactive,MsiSource.all,countP_cons,countP_nil,hr,hi]
  cases x <;> simp [h]

lemma inactive_lt (t : MsiTrace M) : t.inactive < 4 := Nat.lt_succ_of_le countP_le_length

lemma SameCore.armed (h : SameCore t u) (x : MsiSource) : u.Armed x = t.Armed x := by
  rw [Armed,Armed,h.1,h.2]

lemma SameCore.active (h : SameCore t u) (bit : ℕ) : u.core.Active bit ↔ t.core.Active bit := by
  rw [Core.Active,Core.Active,h.1]

lemma Armed.pending (h : t.Armed x = true) : t.core.regs.pending x = true := by
  simp only [Armed,Bool.and_eq_true] at h
  exact h.1.1.1

lemma armed_raise (hs : SameCore t u) (hb : bit < 32) (ha : ¬t.core.Active bit) (bus : M)
    (h : y = .gerror → t.core.regs.pending .gerror = true ∨ t.core.regs.irqEnabled .gerror = false) :
    ((u.withBus bus).raise bit).Armed y = t.Armed y := by
  have hbu : ¬(u.withBus bus).core.Active bit := fun hu => ha ((hs.active _).mp hu)
  have hpe := pending_gerror_of_active ((active_raise hb hbu bit).mpr (.inr rfl))
  obtain ⟨hr,hi⟩ := hs
  have hre : ∀ p : Bool, (p && !((u.withBus bus).raise bit).core.irq.prevPending y &&
      ((u.withBus bus).raise bit).core.regs.irqEnabled y &&
        decide (((u.withBus bus).raise bit).core.regs.doorbell y ≠ 0)) =
      (p && !t.core.irq.prevPending y && t.core.regs.irqEnabled y && decide (t.core.regs.doorbell y ≠ 0)) := by
    intro p
    rw [← hr,← hi]
    cases y <;> rfl
  rw [Armed,hre,Armed]
  cases y with
  | gerror =>
    rcases h rfl with hp | hen
    · rw [hpe,hp]
    · simp [hen]
  | eventq | priq => rw [← hr]; rfl

lemma MsiSafe.raise (hsa : t.MsiSafe) (hs : SameCore t u) (harmed : t.Armed x = true)
    (ha : ¬t.core.Active x.abortBit) (bus : M) : ((u.withBus bus).raise x.abortBit).MsiSafe ∧
      ∀ y, ((u.withBus bus).raise x.abortBit).Armed y = t.Armed y := by
  have hb := fun hu => ha ((hs.active _).mp hu)
  have hr := active_raise x.abortBit_lt hb
  have he : t.core.regs.pending .gerror = true ∨ t.core.regs.irqEnabled .gerror = false := by
    by_cases hx : x = .gerror
    · exact .inl (hx ▸ Armed.pending harmed)
    · exact hsa.1 x hx harmed
  have harm : ∀ y, ((u.withBus bus).raise x.abortBit).Armed y = t.Armed y :=
    fun y => armed_raise hs x.abortBit_lt ha bus fun _ => he
  refine ⟨⟨fun y _ _ => .inl ?_,fun y z hyz hy hz => ?_⟩,harm⟩
  · exact pending_gerror_of_active ((hr _).mpr (.inr rfl))
  · rw [harm] at hy hz
    exact (hr _).mpr (.inl ((hs.active _).mpr (hsa.2 y z hyz hy hz)))

/-- In a safe state no message goes out before one whose failure is an error. -/
lemma MsiSafe.not_armed (hs : t.MsiSafe) (hxy : x.index < y.index) (harmed : t.Armed y = true)
    (ha : ¬t.core.Active y.abortBit) : t.Armed x = false := by
  by_contra hx
  exact ha (hs.2 x y hxy (by simpa using hx) harmed)

end

variable [DmaSocket M]

def emitMsi (x : MsiSource) (t : MsiTrace M) : Option (MsiTrace M) := if t.core.regs.doorbell x = 0 then some t
  else match dmaWrite (t.core.regs.doorbell x) (storeLe 4 (t.core.regs.msiData x)) t.core.bus with
    | (true,bus) =>
      some { core := { t.core with bus := bus }, sent := Function.update t.sent x (t.sent x+1) }
    | (false,bus) => setGerror update x.abortBit { t with core := { t.core with bus := bus } }

/-- The message of one condition, sent when the condition has become true. -/
def attempt (r : Regs) (x : MsiSource) (t : MsiTrace M) : Option (MsiTrace M) :=
  if r.pending x && !t.core.irq.prevPending x && t.core.regs.irqEnabled x then emitMsi update x t else some t

/-- `update_irq_levels` with at most so many calls inside one another. -/
def updateIrqLevels : ℕ → MsiTrace M → Option (MsiTrace M)
  | 0, _ => none
  | n+1, t =>
    (MsiSource.all.foldlM (fun u x => attempt (updateIrqLevels n) t.core.regs x u) t).map (settle t.core.regs)

def msiWrite (x : MsiSource) (t : MsiTrace M) : Bool × M :=
  dmaWrite (t.core.regs.doorbell x) (storeLe 4 (t.core.regs.msiData x)) t.core.bus

/-- What a call leaves: the registers and the lines as `update_irq_levels` sets them. -/
structure Updated (n : ℕ) (t t' : MsiTrace M) : Prop where
  core : t'.core = updateIrqLevelsFuel n t.core
  grows : Grows t t'
  prevPending : ∀ x, t'.core.irq.prevPending x = t.core.regs.pending x
  remembered : ∀ x : MsiSource, t'.core.irq.remembered x.line = t.core.regs.lineLevel x.line

section
variable {update : MsiTrace M → Option (MsiTrace M)} {t t' u u' : MsiTrace M} {x y : MsiSource} {n bit : ℕ}

lemma updateIrqLevels_eq_some (h : updateIrqLevels (n+1) t = some t') :
    ∃ t1 t2 t3, attempt (updateIrqLevels n) t.core.regs .gerror t = some t1 ∧
      attempt (updateIrqLevels n) t.core.regs .eventq t1 = some t2 ∧
        attempt (updateIrqLevels n) t.core.regs .priq t2 = some t3 ∧ t' = settle t.core.regs t3 := by
  obtain ⟨t3,hf,rfl⟩ := map_eq_some_iff.mp h
  obtain ⟨t1,h1,hf⟩ := bind_eq_some_iff.mp hf
  obtain ⟨t2,h2,hf⟩ := bind_eq_some_iff.mp hf
  obtain ⟨_,h3,hl⟩ := bind_eq_some_iff.mp hf
  cases hl
  exact ⟨t1,t2,_,h1,h2,h3,rfl⟩

lemma attempt_of_quiet {r : Regs}
    (h : (r.pending x && !t.core.irq.prevPending x && t.core.regs.irqEnabled x) = false) :
    attempt update r x t = some t := by
  rw [attempt,if_neg (by rw [h]; exact Bool.false_ne_true)]

lemma attempt_of_not_armed (h : t.Armed x = false) : attempt update t.core.regs x t = some t := by
  rw [attempt]
  split_ifs with hg
  · rw [Armed,hg,Bool.true_and,decide_eq_false_iff_not,not_not] at h
    rw [emitMsi,if_pos h]
  · rfl

lemma attempt_of_armed (h : t.Armed x = true) : attempt update t.core.regs x t = if (msiWrite x t).1 then
      some { t.withBus (msiWrite x t).2 with sent := Function.update t.sent x (t.sent x+1) }
    else setGerror update x.abortBit (t.withBus (msiWrite x t).2) := by
  rw [Armed,Bool.and_eq_true,decide_eq_true_eq] at h
  rw [attempt,if_pos h.1,emitMsi,if_neg h.2,msiWrite]
  cases dmaWrite (t.core.regs.doorbell x) (storeLe 4 (t.core.regs.msiData x)) t.core.bus with
  | mk ok bus => cases ok <;> rfl

section
variable {f : Core M → Core M}
  (hupdate : ∀ t, Gives (t.inactive < n) (update t) fun t' => t'.core = f t.core ∧ Grows t t')

include hupdate

omit [DmaSocket M] in
lemma setGerror_spec (x : MsiSource) (t : MsiTrace M) :
    Gives (t.inactive ≤ n) (setGerror update x.abortBit t) fun t' =>
      t'.core = setGerrorWith f x.abortBit t.core ∧ Grows t t' ∧ t'.core.Active x.abortBit := by
  rw [setGerrorWith]
  by_cases ha : t.core.Active x.abortBit
  · have hn : raisedGerror t.core.regs.gerror t.core.regs.gerrorn x.abortBit = none := if_pos ha
    rw [setGerror_of_active ha,hn]
    exact .pure ⟨rfl,.refl t,ha⟩
  · have hs : raisedGerror t.core.regs.gerror t.core.regs.gerrorn x.abortBit = some _ := if_neg ha
    rw [setGerror_of_not_active ha,hs]
    refine (hupdate _).mono (inactive_raise_lt ha).trans_le ?_
    rintro t' ⟨hc,hg⟩
    refine ⟨hc,?_,?_⟩
    · exact (grows_raise x.abortBit_lt ha).trans hg
    · exact hg.active _ ((active_raise x.abortBit_lt ha _).mpr (.inr rfl))

lemma emitMsi_spec (x : MsiSource) (t : MsiTrace M) : Gives (t.inactive ≤ n) (emitMsi update x t) fun t' =>
    t'.core = emitMsiWith (setGerrorWith f) (t.core.regs.msiCfg0 x).1 (t.core.regs.msiCfg0 x).2
      (t.core.regs.msiData x) x.abortBit t.core ∧ Grows t t' := by
  rw [emitMsi,Regs.doorbell,emitMsiWith_eq]
  split_ifs
  · exact .pure ⟨rfl,.refl t⟩
  · rcases dmaWrite (msiAddr (t.core.regs.msiCfg0 x).1 (t.core.regs.msiCfg0 x).2)
      (storeLe 4 (t.core.regs.msiData x)) t.core.bus with ⟨_ | _,bus⟩
    · exact (setGerror_spec hupdate x (t.withBus bus)).mono id fun t' ⟨hc,hg,_⟩ =>
        ⟨hc,hg.regs,hg.active,hg.sent⟩
    · refine .pure ⟨rfl,rfl,fun _ hb => hb,fun y => ?_⟩
      show t.sent y ≤ Function.update t.sent x (t.sent x+1) y
      by_cases hy : y = x
      · rw [hy,Function.update_self]
        exact Nat.le_succ _
      · rw [Function.update_of_ne hy]

lemma attempt_spec (r : Regs) (x : MsiSource) (t : MsiTrace M) :
    Gives (t.inactive ≤ n) (attempt update r x t) fun t' => t'.core =
      (if r.pending x && !t.core.irq.prevPending x && t.core.regs.irqEnabled x then
        emitMsiWith (setGerrorWith f) (t.core.regs.msiCfg0 x).1 (t.core.regs.msiCfg0 x).2
          (t.core.regs.msiData x) x.abortBit t.core
      else t.core) ∧ Grows t t' := by
  rw [attempt]
  split_ifs
  · exact emitMsi_spec hupdate x t
  · exact .pure ⟨rfl,.refl t⟩

end

/-- A call returns, since each one inside has one more abort error, and does what `update_irq_levels` does. -/
lemma updateIrqLevels_updated (t : MsiTrace M) : Gives (t.inactive < n) (updateIrqLevels n t) (Updated n t) := by
  induction n generalizing t with
  | zero => exact Nat.not_lt_zero _
  | succ n ih =>
    have ha := attempt_spec fun t => (ih t).mono id fun t' h => ⟨h.core,h.grows⟩
    simp only [updateIrqLevels,MsiSource.all,foldlM_cons,foldlM_nil,bind_eq_bind]
    refine (ha t.core.regs .gerror t).elim (fun hn hlt => hn (Nat.le_of_lt_succ hlt)) fun t1 ⟨hc1,hg1⟩ => ?_
    rw [bind_some]
    refine (ha t.core.regs .eventq t1).elim
      (fun hn hlt => hn (hg1.inactive_le.trans (Nat.le_of_lt_succ hlt))) fun t2 ⟨hc2,hg2⟩ => ?_
    rw [bind_some]
    refine (ha t.core.regs .priq t2).elim
      (fun hn hlt => hn ((hg1.trans hg2).inactive_le.trans (Nat.le_of_lt_succ hlt))) fun t3 ⟨hc3,hg3⟩ => ?_
    refine .pure ⟨?_,((hg1.trans hg2).trans hg3).trans (grows_settle _ _),IrqState.prevPending_settle _ _,
      IrqState.remembered_settle _ _⟩
    rw [updateIrqLevelsFuel]
    unfold updateIrqLevelsBody
    extract_lets gp ep pp gi ei pi c1 c2 c3 irq0 irq1 irq2 irq3 irq4
    have e1 := hc1
    have e2 : t2.core = c2 := by
      rw [hc2,e1]
      rfl
    have e3 : t3.core = c3 := by
      rw [hc3,e2]
      rfl
    show { t3.core with irq := t3.core.irq.settle t.core.regs } = { c3 with irq := irq4 }
    rw [e3]
    rfl

lemma updated (h : updateIrqLevels n t = some t') : Updated n t t' := (updateIrqLevels_updated t).result h

lemma attempt_grows {r : Regs} (h : attempt (updateIrqLevels n) r x t = some t') : Grows t t' :=
  ((attempt_spec (fun t => (updateIrqLevels_updated t).mono id fun _ h => ⟨h.core,h.grows⟩) r x t).result h).2

/-- One message of a call. Unless it fails with an inactive error, nothing is changed after it. -/
lemma attempt_cases (hs : SameCore t u) (h : attempt update t.core.regs x u = some u') :
    (SameCore t u' ∧ ∀ y, u'.sent y ≤ u.sent y+if y = x ∧ t.Armed x then 1 else 0) ∨
      t.Armed x = true ∧ ¬t.core.Active x.abortBit ∧ ∃ bus, update ((u.withBus bus).raise x.abortBit) = some u' := by
  rw [← hs.1] at h
  cases harmed : u.Armed x with
  | false =>
    rw [attempt_of_not_armed harmed] at h
    cases h
    exact .inl ⟨hs,fun _ => Nat.le_add_right ..⟩
  | true =>
    rw [attempt_of_armed harmed] at h
    rw [hs.armed] at harmed
    split_ifs at h
    · cases h
      refine .inl ⟨hs,fun y => ?_⟩
      show Function.update u.sent x (u.sent x+1) y ≤ _
      by_cases hy : y = x
      · simp [hy,harmed]
      · simp [hy]
    · by_cases ha : t.core.Active x.abortBit
      · have hb : (u.withBus (msiWrite x u).2).core.Active x.abortBit := (hs.active _).mpr ha
        rw [setGerror_of_active hb] at h
        cases h
        exact .inl ⟨hs,fun _ => Nat.le_add_right ..⟩
      · have hb : ¬(u.withBus (msiWrite x u).2).core.Active x.abortBit := fun hu => ha ((hs.active _).mp hu)
        rw [setGerror_of_not_active hb] at h
        exact .inr ⟨harmed,ha,_,h⟩

lemma attempt_after_update {bus : M} (hs : SameCore t u)
    (h : updateIrqLevels n ((u.withBus bus).raise bit) = some t') (hx : x ≠ .gerror) :
    attempt update t.core.regs x t' = some t' := by
  refine attempt_of_quiet ?_
  have hpr := (updated h).prevPending x
  have hp : ((u.withBus bus).raise bit).core.regs.pending x = t.core.regs.pending x := by
    rw [← hs.1]
    cases x
    · exact absurd rfl hx
    all_goals rfl
  rw [hpr,hp]
  cases t.core.regs.pending x <;> rfl

/-- In a safe state a call adds at most one message for each condition, whatever writes fail. -/
lemma MsiSafe.sentOnce (hs : t.MsiSafe) (h : updateIrqLevels n t = some t') : SentOnce t t' := by
  induction n generalizing t t' with
  | zero => cases h
  | succ n ih =>
    obtain ⟨t1,t2,t3,h1,h2,h3,rfl⟩ := updateIrqLevels_eq_some h
    -- A call inside this one is entered with every message of it still to be sent.
    have hi : ∀ {u u' : MsiTrace M} {x : MsiSource} {bus : M}, SameCore t u → (∀ y, u.sent y ≤ t.sent y) →
        t.Armed x = true → ¬t.core.Active x.abortBit →
          updateIrqLevels n ((u.withBus bus).raise x.abortBit) = some u' → SentOnce t u' := by
      intro u u' x bus hsa hse harmed ha hc y
      obtain ⟨hs',harm⟩ := hs.raise hsa harmed ha bus
      have hle := ih hs' hc y
      rw [harm] at hle
      exact hle.trans (Nat.add_le_add_right (hse y) _)
    have hs0 : SameCore t t := ⟨rfl,rfl⟩
    show SentOnce t t3
    rcases attempt_cases hs0 h1 with ⟨hs1,hse1⟩ | ⟨harmed,ha,bus,hc⟩
    · rcases attempt_cases hs1 h2 with ⟨hs2,hse2⟩ | ⟨harmed,ha,bus,hc⟩
      · rcases attempt_cases hs2 h3 with ⟨hsa3,hs3⟩ | ⟨harmed,ha,bus,hc⟩
        · intro y
          have hy1 := hse1 y
          have hy2 := hse2 y
          have hy3 := hs3 y
          cases y <;> simp at hy1 hy2 hy3 ⊢ <;> omega
        · have hg : t.Armed .gerror = false := hs.not_armed (by decide) harmed ha
          have he : t.Armed .eventq = false := hs.not_armed (by decide) harmed ha
          refine hi hs2 (fun y => (hse2 y).trans ?_) harmed ha hc
          simpa [he] using (hse1 y).trans (by simp [hg])
      · have hg : t.Armed .gerror = false := hs.not_armed (by decide) harmed ha
        rw [attempt_after_update hs1 hc (by decide)] at h3
        cases h3
        exact hi hs1 (fun y => (hse1 y).trans (by simp [hg])) harmed ha hc
    · rw [attempt_after_update hs0 hc (by decide)] at h2
      cases h2
      rw [attempt_after_update hs0 hc (by decide)] at h3
      cases h3
      exact hi hs0 (fun _ => le_rfl) harmed ha hc

lemma updateIrqLevels_of_not_armed (h : ∀ x, t.Armed x = false) :
    updateIrqLevels (n+1) t = some (settle t.core.regs t) := by
  simp [updateIrqLevels,MsiSource.all,attempt_of_not_armed (h _)]

lemma MsiSafe.levels (hs : t.MsiSafe) (h : updateIrqLevels n t = some t') (x : MsiSource) :
    t'.core.irq.remembered x.line = t'.core.regs.lineLevel x.line := by
  have hg := (updated h).grows
  rw [(updated h).remembered,Regs.lineLevel_line,Regs.lineLevel_line,hg.irqEnabled]
  by_cases hx : x = .gerror
  · subst hx
    cases hen : t.core.regs.irqEnabled .gerror with
    | false => simp
    | true =>
      cases hp : t.core.regs.pending .gerror with
      | true => rw [hg.pending_gerror hp]
      | false =>
        have hq : ∀ x, t.Armed x = false := by
          intro x
          by_contra harmed
          rw [Bool.not_eq_false] at harmed
          by_cases hx : x = .gerror
          · rw [hx] at harmed
            cases hp.symm.trans (Armed.pending harmed)
          · rcases hs.1 x hx harmed with hpe | ho
            · cases hp.symm.trans hpe
            · cases hen.symm.trans ho
        cases n with
        | zero => cases h
        | succ n =>
          rw [updateIrqLevels_of_not_armed hq] at h
          cases h
          rw [← hp]
          rfl
  · rw [hg.pending hx]

lemma attempt_failed (hs : SameCore t u) (harmed : t.Armed x = true) (hf : (msiWrite x u).1 = false)
    (h : attempt (updateIrqLevels n) t.core.regs x u = some u') : u'.core.Active x.abortBit := by
  rw [← hs.1,attempt_of_armed ((hs.armed x).trans harmed),hf] at h
  have hsp := setGerror_spec (fun t => (updateIrqLevels_updated (n := n) t).mono id fun _ h => ⟨h.core,h.grows⟩) x
    (u.withBus (msiWrite x u).2)
  exact (hsp.result h).2.2

lemma sent_of_first (h : updateIrqLevels (n+1) t = some t') (harmed : t.Armed x = true)
    (hf : ∀ z, z.index < x.index → t.Armed z = false) (hok : (msiWrite x t).1 = true) : t.sent x+1 ≤ t'.sent x := by
  obtain ⟨t1,t2,t3,h1,h2,h3,rfl⟩ := updateIrqLevels_eq_some h
  have hc : ∀ u, attempt (updateIrqLevels n) t.core.regs x t = some u → u.sent x = t.sent x+1 := by
    intro u hu
    rw [attempt_of_armed harmed,if_pos hok] at hu
    cases hu
    exact Function.update_self ..
  show t.sent x+1 ≤ t3.sent x
  cases x with
  | gerror =>
    rw [← hc t1 h1]
    exact ((attempt_grows h2).trans (attempt_grows h3)).sent _
  | eventq =>
    rw [attempt_of_not_armed (hf .gerror (by decide))] at h1
    cases h1
    rw [← hc t2 h2]
    exact (attempt_grows h3).sent _
  | priq =>
    rw [attempt_of_not_armed (hf .gerror (by decide))] at h1
    cases h1
    rw [attempt_of_not_armed (hf .eventq (by decide))] at h2
    cases h2
    exact (hc t3 h3).ge

/-- A message that fails makes the call send the first one again. -/
lemma sent_again (hs : SameCore t u) (harmed : t.Armed y = true) (ha : ¬t.core.Active y.abortBit)
    (hfa : (msiWrite y u).1 = false) (h : attempt (updateIrqLevels (n+1)) t.core.regs y u = some u')
    (hx : ((u.withBus (msiWrite y u).2).raise y.abortBit).Armed x = true)
    (hf : ∀ z, z.index < x.index → ((u.withBus (msiWrite y u).2).raise y.abortBit).Armed z = false)
    (hok : (msiWrite x ((u.withBus (msiWrite y u).2).raise y.abortBit)).1 = true) : u.sent x+1 ≤ u'.sent x := by
  have hb : ¬(u.withBus (msiWrite y u).2).core.Active y.abortBit := fun hu => ha ((hs.active _).mp hu)
  rw [← hs.1,attempt_of_armed ((hs.armed y).trans harmed),hfa] at h
  have hc := (setGerror_of_not_active hb).symm.trans h
  have hse := sent_of_first hc hx hf hok
  exact hse

end

end MsiTrace
end Qbox.Smmuv3
