import Qbox.Smmuv3Msi

/-! How often messages are sent for one condition and what the lines show, over runs of events, errors, acknowledgements
and changes of the enables with any pattern of failing messages. -/
namespace Qbox.Smmuv3
namespace MsiTrace
open MachineWord DmaSocket

variable {M : Type} [DmaSocket M] (t : MsiTrace M)

/-- Every call of `update_irq_levels` returns, at most three deep, and does what the model says. -/
lemma updateIrqLevels_spec : ∃ t', updateIrqLevels 4 t = some t' ∧ t'.core = Core.updateIrqLevels t.core := by
  obtain ⟨t',ht'⟩ := Option.isSome_iff_exists.mp ((updateIrqLevels_updated t).isSome t.inactive_lt)
  exact ⟨t',ht',(updated ht').core⟩

/-- An event, a request, an error, an acknowledgement or new enables call `update_irq_levels`; other changes do not.
-/
inductive Action (M : Type) where
  | update (r : Regs) (bus : M)
  | quiet (r : Regs) (bus : M)

def store (r : Regs) (t : MsiTrace M) : MsiTrace M :=
  { core := { t.core with regs := r }, sent := fun x => if r.pending x then t.sent x else 0 }

def step : Action M → MsiTrace M
  | .update r bus => (updateIrqLevels 4 ((t.store r).withBus bus)).getD t
  | .quiet r bus => (t.store r).withBus bus

def start (r : Regs) (irq : IrqState) (bus : M) : MsiTrace M := ⟨⟨r,bus,irq⟩,fun _ => 0⟩

/-- At most one message has been written for each condition since it became true. -/
def Once : Prop := ∀ x, t.sent x ≤ 1

def Driven : Prop := ∀ x : MsiSource, t.core.irq.remembered x.line = t.core.regs.lineLevel x.line

/-- The action ends right, whatever messages fail in it. -/
def Right : Action M → Prop
  | .update r _ => ∀ bus, (t.step (.update r bus)).Once ∧ (t.step (.update r bus)).Driven
  | .quiet r bus => (t.step (.quiet r bus)).Once

def SafeAction : Action M → Prop
  | .update r _ => (t.store r).MsiSafe
  | .quiet _ _ => True

/-- A message has been written only for a condition that is true and known to be, and only one. -/
structure Counted (t : MsiTrace M) : Prop where
  once : t.Once
  known : ∀ x, t.core.irq.prevPending x = false → t.sent x = 0
  true : ∀ x, t.core.regs.pending x = false → t.sent x = 0

section
variable {t t' : MsiTrace M} {x : MsiSource}

omit [DmaSocket M] in
lemma Counted.store (h : t.Counted) (r : Regs) (bus : M) : ((t.store r).withBus bus).Counted where
  once x := by
    show (if r.pending x then t.sent x else 0) ≤ 1
    split_ifs
    · exact h.once x
    · exact Nat.zero_le 1
  known x hx := by
    show (if r.pending x then t.sent x else 0) = 0
    rw [h.known x hx,ite_self]
  true x hx := by
    show (if r.pending x then t.sent x else 0) = 0
    rw [if_neg (by rw [show r.pending x = false from hx]; exact Bool.false_ne_true)]

lemma Counted.update (h : t.Counted) (hs : SentOnce t t') (ht' : updateIrqLevels 4 t = some t') : t'.Counted := by
  have hgr := (updated ht').grows
  have hi : ∀ x, t.core.regs.pending x = false → t'.sent x = 0 := by
    intro x hx
    have harmed : t.Armed x = false := by simp [Armed,hx]
    simpa [harmed,h.true x hx] using hs x
  refine ⟨fun x => ?_,fun x hx => ?_,fun x hx => ?_⟩
  · have hx := hs x
    cases harmed : t.Armed x with
    | false =>
      rw [harmed] at hx
      exact hx.trans (h.once x)
    | true =>
      have hpr : t.core.irq.prevPending x = false := by
        simp only [Armed,Bool.and_eq_true,Bool.not_eq_true'] at harmed
        exact harmed.1.1.2
      simpa [harmed,h.known x hpr] using hx
  · rw [(updated ht').prevPending] at hx
    exact hi x hx
  · refine hi x ?_
    by_cases hg : x = .gerror
    · subst hg
      by_contra hp
      rw [Bool.not_eq_false] at hp
      cases hx.symm.trans (hgr.pending_gerror hp)
    · rw [← hx,hgr.pending hg]

lemma step_update (t : MsiTrace M) (r : Regs) (bus : M) :
    updateIrqLevels 4 ((t.store r).withBus bus) = some (t.step (.update r bus)) := by
  obtain ⟨t',ht',-⟩ := updateIrqLevels_spec ((t.store r).withBus bus)
  rw [step,ht']
  rfl

lemma Counted.step (h : t.Counted) {a : Action M} (ha : t.SafeAction a) : (t.step a).Counted := by
  cases a with
  | quiet r bus => exact h.store r bus
  | update r bus =>
    have hs : ((t.store r).withBus bus).MsiSafe := ha
    exact (h.store r bus).update (hs.sentOnce (step_update t r bus)) (step_update t r bus)

lemma SafeAction.right (h : t.Counted) {a : Action M} (ha : t.SafeAction a) : t.Right a := by
  cases a with
  | quiet r bus => exact (h.store r bus).once
  | update r bus =>
    intro bus'
    have hs : ((t.store r).withBus bus').MsiSafe := ha
    have hc : (t.step (.update r bus')).Counted := h.step ha
    exact ⟨hc.once,hs.levels (step_update t r bus')⟩

end

/-- The outcomes of the writes to come; when they are used up a write fails. -/
structure Script where
  outcomes : List Bool

instance : DmaSocket Script where
  dmaRead _ _ m := (none,m)
  dmaWrite _ _ m := (m.outcomes.headD false,⟨m.outcomes.tail⟩)

lemma msiWrite_of_cons {u : MsiTrace Script} {x : MsiSource} {ok : Bool} {rest : List Bool}
    (h : u.core.bus = ⟨ok :: rest⟩) : msiWrite x u = (ok,⟨rest⟩) := by
  show (u.core.bus.outcomes.headD false,(⟨u.core.bus.outcomes.tail⟩ : Script)) = _
  rw [h]
  rfl

section
variable {t t' : MsiTrace Script} {x y : MsiSource} {n : ℕ}

/-- A queue's message fails while no error is pending: the line of the errors is left low. -/
lemma not_driven_of_first_error (hx : x ≠ .gerror) (harmed : t.Armed x = true)
    (hp : t.core.regs.pending .gerror = false) (hen : t.core.regs.irqEnabled .gerror = true)
    (hb : t.core.bus = ⟨[]⟩) (h : updateIrqLevels (n+1) t = some t') : ¬t'.Driven := by
  intro hd
  have hl := hd .gerror
  rw [(updated h).remembered,Regs.lineLevel_line,Regs.lineLevel_line,hp,Bool.false_and,
    (updated h).grows.irqEnabled,hen,Bool.and_true] at hl
  obtain ⟨t1,t2,t3,h1,h2,h3,rfl⟩ := updateIrqLevels_eq_some h
  have hg : t.Armed .gerror = false := by simp [Armed,hp]
  have hf : ∀ z, (msiWrite z t).1 = false := by
    intro z
    show t.core.bus.outcomes.headD false = false
    rw [hb]
    rfl
  rw [attempt_of_not_armed hg] at h1
  cases h1
  have hs : SameCore t t := ⟨rfl,rfl⟩
  have hpe : t3.core.regs.pending .gerror = true := by
    cases he : t.Armed .eventq with
    | true =>
      have ha := attempt_failed hs he (hf _) h2
      exact (attempt_grows h3).pending_gerror (pending_gerror_of_active ha)
    | false =>
      rw [attempt_of_not_armed he] at h2
      cases h2
      cases x with
      | gerror => exact absurd rfl hx
      | eventq => cases he.symm.trans harmed
      | priq => exact pending_gerror_of_active (attempt_failed hs harmed (hf _) h3)
  cases hl.trans hpe

lemma attempt_written {update : MsiTrace Script → Option (MsiTrace Script)} {u u' : MsiTrace Script}
    {rest : List Bool} (hs : SameCore t u) (hb : u.core.bus = ⟨(if t.Armed x then [true] else [])++rest⟩)
    (h : attempt update t.core.regs x u = some u') : SameCore t u' ∧ u'.core.bus = ⟨rest⟩ ∧
      (∀ z, u.sent z ≤ u'.sent z) ∧ (t.Armed x = true → 1 ≤ u'.sent x) := by
  rw [← hs.1] at h
  cases harmed : t.Armed x with
  | false =>
    rw [harmed] at hb
    rw [attempt_of_not_armed ((hs.armed x).trans harmed)] at h
    cases h
    exact ⟨hs,hb,fun _ => le_rfl,nofun⟩
  | true =>
    rw [harmed] at hb
    rw [attempt_of_armed ((hs.armed x).trans harmed),msiWrite_of_cons hb] at h
    cases h
    refine ⟨hs,rfl,fun z => ?_,fun _ => by simp⟩
    show u.sent z ≤ Function.update u.sent x (u.sent x+1) z
    rw [Function.update_apply]
    split_ifs with hz
    · rw [hz]
      exact Nat.le_succ _
    · exact le_rfl

lemma two_le_sent {u u' : MsiTrace Script} {rest : List Bool} (hs : SameCore t u) (hse : 1 ≤ u.sent x)
    (harmed : t.Armed y = true) (ha : ¬t.core.Active y.abortBit) (hx : t.Armed x = true)
    (hf : ∀ z, z.index < x.index → t.Armed z = false)
    (he : t.core.regs.pending .gerror = true ∨ t.core.regs.irqEnabled .gerror = false)
    (hb : u.core.bus = ⟨false :: true :: rest⟩)
    (h : attempt (updateIrqLevels (n+1)) t.core.regs y u = some u') : 2 ≤ u'.sent x := by
  have hw : msiWrite y u = (false,⟨true :: rest⟩) := msiWrite_of_cons hb
  have harm := fun z => armed_raise (y := z) hs y.abortBit_lt ha (msiWrite y u).2 fun _ => he
  have hag := sent_again hs harmed ha (by rw [hw]) h ((harm x).trans hx)
    (fun z hz => (harm z).trans (hf z hz)) (by rw [hw]; rfl)
  omega

section
variable (hxy : x.index < y.index) (hx : t.Armed x = true)
include hxy hx

lemma exists_first : ∃ z, z.index < y.index ∧ t.Armed z = true ∧
    ∀ w, w.index < z.index → t.Armed w = false := by
  cases hg : t.Armed .gerror with
  | true => exact ⟨.gerror,(Nat.zero_le _).trans_lt hxy,hg,fun w hw => absurd hw (Nat.not_lt_zero _)⟩
  | false =>
    refine ⟨x,hxy,hx,fun w hw => ?_⟩
    cases w with
    | gerror => exact hg
    | eventq => cases x <;> cases y <;> simp [MsiSource.index] at hw hxy
    | priq => cases x <;> simp [MsiSource.index] at hw

/-- Of two messages the later one's failure is not reported: one is written twice for some outcomes. -/
lemma exists_sent_twice (hy : t.Armed y = true)
    (ha : ¬t.core.Active y.abortBit)
    (he : t.core.regs.pending .gerror = true ∨ t.core.regs.irqEnabled .gerror = false) :
    ∃ bus, ∀ t', updateIrqLevels (n+2) (t.withBus bus) = some t' → ∃ z, 2 ≤ t'.sent z := by
  have hsa : ∀ bus, SameCore t (t.withBus bus) := fun _ => ⟨rfl,rfl⟩
  obtain ⟨z,hzy,hz,hf⟩ := exists_first hxy hx
  cases y with
  | gerror => exact absurd hxy (Nat.not_lt_zero _)
  | eventq =>
    refine ⟨⟨(if t.Armed .gerror then [true] else [])++[false,true]⟩,fun t' h => ⟨z,?_⟩⟩
    obtain ⟨t1,t2,t3,h1,h2,h3,rfl⟩ := updateIrqLevels_eq_some h
    obtain ⟨hs1,hb1,hl1,ho1⟩ := attempt_written (hsa _) rfl h1
    have hs : 1 ≤ t1.sent z := by
      cases z <;> simp [MsiSource.index] at hzy
      exact ho1 hz
    have ht := two_le_sent hs1 hs hy ha hz hf he hb1 h2
    exact ht.trans ((attempt_grows h3).sent _)
  | priq =>
    refine ⟨⟨(if t.Armed .gerror then [true] else [])++((if t.Armed .eventq then [true] else [])++[false,true])⟩,
      fun t' h => ⟨z,?_⟩⟩
    obtain ⟨t1,t2,t3,h1,h2,h3,rfl⟩ := updateIrqLevels_eq_some h
    obtain ⟨hs1,hb1,hl1,ho1⟩ := attempt_written (hsa _) rfl h1
    obtain ⟨hs2,hb2,hl2,ho2⟩ := attempt_written hs1 hb1 h2
    have hs : 1 ≤ t2.sent z := by
      cases z with
      | gerror => exact (ho1 hz).trans (hl2 _)
      | eventq => exact ho2 hz
      | priq => exact absurd hzy (lt_irrefl _)
    have ht := two_le_sent hs2 hs hy ha hz hf he hb2 h3
    exact ht

end

/-- A call that is not safe goes wrong for some outcomes of the writes. -/
lemma not_right_of_not_safe {r : Regs} (h : ¬(t.store r).MsiSafe) (bus : Script) : ¬t.Right (.update r bus) := by
  intro hr
  by_cases hm : ∃ x ≠ MsiSource.gerror, (t.store r).Armed x = true ∧ r.pending .gerror = false ∧
      r.irqEnabled .gerror = true
  · obtain ⟨x,hx,harmed,hp,hen⟩ := hm
    have harmed' : ((t.store r).withBus ⟨[]⟩).Armed x = true := harmed
    exact not_driven_of_first_error hx harmed' hp hen rfl (step_update t r ⟨[]⟩) (hr ⟨[]⟩).2
  · have he : ∀ x ≠ MsiSource.gerror, (t.store r).Armed x = true →
        r.pending .gerror = true ∨ r.irqEnabled .gerror = false := by
      intro x hx harmed
      by_contra hn
      rw [not_or,Bool.not_eq_true,Bool.not_eq_false] at hn
      exact hm ⟨x,hx,harmed,hn⟩
    apply h
    refine ⟨he,fun x y hxy hx hy => ?_⟩
    by_contra ha
    have hne : y ≠ .gerror := fun hg => absurd (hg ▸ hxy) (Nat.not_lt_zero _)
    obtain ⟨bus',ht⟩ := exists_sent_twice hxy hx hy ha (he y hne hy)
    obtain ⟨z,hz⟩ := ht _ (step_update t r bus')
    exact absurd ((hr bus').1 z) (by omega)

end

section
variable {t t' u u' : MsiTrace Script} {x : MsiSource} {rest : List Bool}

/-- The writes of the messages succeed; a call makes three at most. -/
def Action.Written : Action Script → Prop
  | .update _ bus => ∃ rest, bus.outcomes = true :: true :: true :: rest
  | .quiet _ _ => True

lemma attempt_of_true {update : MsiTrace Script → Option (MsiTrace Script)} (hs : SameCore t u)
    (hb : u.core.bus = ⟨true :: rest⟩) (h : attempt update t.core.regs x u = some u') :
    SameCore t u' ∧ (u'.core.bus = ⟨true :: rest⟩ ∨ u'.core.bus = ⟨rest⟩) ∧
      ∀ y, u'.sent y ≤ u.sent y+if y = x ∧ t.Armed x then 1 else 0 := by
  rw [← hs.1] at h
  cases harmed : t.Armed x with
  | false =>
    rw [attempt_of_not_armed ((hs.armed x).trans harmed)] at h
    cases h
    exact ⟨hs,.inl hb,fun _ => Nat.le_add_right ..⟩
  | true =>
    rw [attempt_of_armed ((hs.armed x).trans harmed),msiWrite_of_cons hb] at h
    cases h
    refine ⟨hs,.inr rfl,fun y => ?_⟩
    show Function.update u.sent x (u.sent x+1) y ≤ _
    by_cases hy : y = x
    · simp [hy]
    · simp [hy]

lemma sentOnce_of_written {n : ℕ} (hbu : t.core.bus = ⟨true :: true :: true :: rest⟩)
    (h : updateIrqLevels (n+1) t = some t') : SentOnce t t' ∧ t'.core.regs = t.core.regs := by
  obtain ⟨t1,t2,t3,h1,h2,h3,rfl⟩ := updateIrqLevels_eq_some h
  obtain ⟨hs1,hb1,hse1⟩ := attempt_of_true ⟨rfl,rfl⟩ hbu h1
  obtain ⟨r1,hr1⟩ : ∃ r1, t1.core.bus = ⟨true :: true :: r1⟩ := by
    rcases hb1 with hb | hb
    · exact ⟨_,hb⟩
    · exact ⟨_,hb⟩
  obtain ⟨hs2,hb2,hse2⟩ := attempt_of_true hs1 hr1 h2
  obtain ⟨r2,hr2⟩ : ∃ r2, t2.core.bus = ⟨true :: r2⟩ := by
    rcases hb2 with hb | hb
    · exact ⟨_,hb⟩
    · exact ⟨_,hb⟩
  obtain ⟨hs3,-,hse3⟩ := attempt_of_true hs2 hr2 h3
  refine ⟨fun y => ?_,hs3.1⟩
  have hy1 := hse1 y
  have hy2 := hse2 y
  have hy3 := hse3 y
  show t3.sent y ≤ _
  cases y <;> simp at hy1 hy2 hy3 ⊢ <;> omega

/-- The action leaves the counts and, if it calls `update_irq_levels`, the lines right. -/
def EndsRight (t : MsiTrace Script) : Action Script → Prop
  | .update r bus => (t.step (.update r bus)).Once ∧ (t.step (.update r bus)).Driven
  | .quiet r bus => (t.step (.quiet r bus)).Once

lemma Action.Written.endsRight {a : Action Script} (ha : a.Written) (h : t.Counted) :
    t.EndsRight a ∧ (t.step a).Counted := by
  cases a with
  | quiet r bus => exact ⟨(h.store r bus).once,h.store r bus⟩
  | update r bus =>
    obtain ⟨rest,hre⟩ := ha
    have hb := congrArg Script.mk hre
    have hs := step_update t r bus
    obtain ⟨hse,hr⟩ := sentOnce_of_written hb hs
    have hc := (h.store r bus).update hse hs
    refine ⟨⟨hc.once,fun x => ?_⟩,hc⟩
    rw [(updated hs).remembered,hr]

lemma SafeAction.endsRight {a : Action Script} (ha : t.SafeAction a) (h : t.Counted) :
    t.EndsRight a ∧ (t.step a).Counted := by
  refine ⟨?_,h.step ha⟩
  have hr := ha.right h
  cases a with
  | quiet r bus => exact hr
  | update r bus => exact hr bus

end

lemma right_iff {t : MsiTrace Script} (h : t.Counted) (a : Action Script) : t.Right a ↔ t.SafeAction a := by
  refine ⟨fun hr => ?_,fun hs => hs.right h⟩
  cases a with
  | quiet r bus => trivial
  | update r bus =>
    by_contra hs
    exact not_right_of_not_safe hs bus hr

omit [DmaSocket M] in
lemma start_counted (r : Regs) (irq : IrqState) (bus : M) : (start r irq bus).Counted :=
  ⟨fun _ => Nat.zero_le 1,fun _ _ => rfl,fun _ _ => rfl⟩

/-- Every call of `update_irq_levels` returns. Along a run, whatever fails, at most one message is written for a
condition while it is true and the lines are as asked, exactly when every call is safe; and in a call in which no
message fails. -/
theorem msi_once_iff (r : Regs) (irq : IrqState) (bus : Script) (l : List (Action Script)) :
    (∀ t : MsiTrace Script, ∃ t', updateIrqLevels 4 t = some t' ∧ t'.core = Core.updateIrqLevels t.core) ∧
    (GuardedRun.Along step Right (start r irq bus) l ↔ GuardedRun.Along step SafeAction (start r irq bus) l) ∧
    (GuardedRun.Along step (fun t a => t.SafeAction a ∨ a.Written) (start r irq bus) l →
      GuardedRun.Along step EndsRight (start r irq bus) l) := by
  have hst := start_counted r irq bus
  refine ⟨updateIrqLevels_spec,?_,?_⟩
  · exact GuardedRun.along_iff_along (fun t a h hs => h.step hs) (fun t a h => right_iff h a) hst
  · refine GuardedRun.along_mono (fun t a h ha => ?_) hst
    rcases ha with hs | hw
    · exact hs.endsRight h
    · exact hw.endsRight h

/-- The first event's message fails, which is an error: its message is written, and the errors' line stays low.
Acknowledging the event writes it again. -/
theorem msi_sent_again : let r : Regs := { irqCtrl := 5, gerrorIrqCfg0Lo := 0x1000, eventqIrqCfg0Lo := 0x2000 }
    let event : MsiTrace Script := (start r {} ⟨[]⟩).step (.update { r with eventqProd := 1 } ⟨[false,true,true]⟩)
    let ack := event.step (.update { event.core.regs with eventqCons := 1 } ⟨[true]⟩)
    (event.core.regs.gerror = 0x20 ∧ event.core.irq.remembered .gerror = false ∧
      event.core.regs.lineLevel .gerror = true ∧ event.sent .gerror = 1) ∧ ack.sent .gerror = 2 := by
  decide +kernel

end MsiTrace
end Qbox.Smmuv3
