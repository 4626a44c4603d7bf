import Qbox.QuantumKeeper
import Qbox.MachineWord

/-! `tlm_quantumkeeper_multi_rolling`: the inherited `sync` with the overridden `time_to_sync` in its wait
condition, which asks the SystemC thread for the time while the keeper's mutex is held. -/
namespace Qbox.QuantumKeeper
/-- Where the external thread is in `time_to_sync`: to notify, in `m_sem.wait()`, or to return. -/
inductive Budget where
  | asking | waiting | answered
  deriving DecidableEq, Repr

inductive Activity (Time : Type) where
  | current
  | future (delay : Time)
  | nothing
  deriving DecidableEq, Repr

/-- The keeper with the derived class's members; `timeOutstanding` and `timePending`: `m_time_ev` before and after the
update. -/
structure Rolling (Time : Type) extends Keeper Time where
  budget : Budget
  timeOutstanding : Bool
  timePending : Bool
  nextTime : Time
  sem : ℕ

variable {Time : Type} [AddCommGroup Time] [LinearOrder Time]

namespace Rolling
def started (quantum now : Time) (onSysc : Bool) : Rolling Time where
  toKeeper := (Keeper.constructed quantum now).start onSysc
  budget := .asking
  timeOutstanding := false
  timePending := false
  nextTime := 0
  sem := 0

variable (r : Rolling Time) (activity : Activity Time)

/-- `get_next_time`, with what it notifies. -/
def getNextTime : Time × Keeper Time := if r.status ≠ .running then (0,r.toKeeper)
  else match activity with
    | .current => (0,r.toKeeper.notifyTick true)
    | .future delay => (min delay (r.now+r.quantum-r.localTime),r.toKeeper)
    | .nothing => (r.now+r.quantum-r.localTime,r.toKeeper)

/-- `get_time_from_systemc`, run for `m_time_ev`. -/
def getTimeFromSystemc : Rolling Time := {r with
    toKeeper := (r.getNextTime activity).2
    nextTime := (r.getNextTime activity).1
    timePending := false
    sem := r.sem+1}

/-- The next step of `time_to_sync`, called in the wait condition of `sync`. -/
def continueBudget : Rolling Time := match r.budget with
  | .asking => {r with budget := .waiting, timeOutstanding := true}
  | .waiting => {r with budget := .answered, sem := r.sem-1}
  | .answered =>
    if r.nextTime = 0 then {r with budget := .asking, external := .syncWaiting, mutex := none}
    else {r with budget := .asking, external := .returning false}

lemma continueBudget_frame : r.continueBudget.handler = r.handler ∧ r.continueBudget.status = r.status := by
  unfold continueBudget
  cases r.budget with
  | answered => by_cases hz : r.nextTime = 0 <;> simp [hz]
  | _ => exact ⟨rfl,rfl⟩

lemma getNextTime_keeper :
    (r.getNextTime activity).2 = r.toKeeper ∨ (r.getNextTime activity).2 = r.toKeeper.notifyTick true := by
  unfold getNextTime
  split
  · exact .inl rfl
  · cases activity with
    | current => exact .inr rfl
    | _ => exact .inl rfl

/-- The steps of the inherited keeper, and those of `m_time_ev`. -/
inductive Action (Time : Type) where
  | inherited (a : QuantumKeeper.Action Time)
  | updateTime
  | getTime (activity : Activity Time)

def step (r : Rolling Time) : Action Time → Rolling Time
  | .inherited .continueExternal =>
    if r.external = .syncBudget then r.continueBudget
    else {r with toKeeper := QuantumKeeper.step r.toKeeper .continueExternal}
  | .inherited a => {r with toKeeper := QuantumKeeper.step r.toKeeper a}
  | .updateTime => {r with timeOutstanding := false, timePending := true}
  | .getTime activity => r.getTimeFromSystemc activity

/-- `m_sem.wait()` returns once the count is not zero; the SystemC thread does nothing else in `timehandler`. -/
def Enabled (r : Rolling Time) : Action Time → Prop
  | .inherited a =>
    QuantumKeeper.Enabled r.toKeeper a ∧
      (a matches .continueExternal → r.external = .syncBudget → r.budget = .waiting → r.sem ≠ 0)
  | .updateTime => r.handler = .idle ∧ r.timeOutstanding = true
  | .getTime _ => r.handler = .idle ∧ r.timePending = true

instance (r : Rolling Time) (a : Action Time) : Decidable (Enabled r a) := by
  cases a <;> simp only [Enabled] <;> infer_instance

/-- The external thread waits on `m_sem` with the mutex, for which the SystemC thread waits. -/
def Deadlocked : Prop := (r.mutex = some .external ∧ r.external = .syncBudget ∧ r.budget = .waiting ∧ r.sem = 0) ∧
    r.handler = .entered

instance (r : Rolling Time) : Decidable (Deadlocked r) := inferInstanceAs (Decidable ((_ ∧ _ ∧ _ ∧ _) ∧ _))

/-- The external thread is in `sync` with the mutex, and SystemC has not yet told it the time. -/
def Unanswered : Prop := r.status = .running ∧
    (r.external = .syncNotify ∨ r.external = .syncTimeout ∨ r.external = .syncStatus ∨
      r.external = .syncBudget ∧ (r.budget = .asking ∨ r.budget = .waiting ∧ r.sem = 0))

/-- `timehandler` does not start while the external thread is unanswered, nor `sync` take the mutex before a waiting
`timehandler`. -/
def Apart : Action Time → Prop
  | .inherited .fire => ¬Unanswered r
  | .inherited .sync => r.handler = .entered → r.status ≠ .running
  | .inherited (.wake _) => r.handler = .entered → r.status ≠ .running
  | _ => True

def holdsMutex : External Time → Bool
  | .syncNotify | .syncStatus | .syncBudget | .syncTimeout | .returning _ => true
  | _ => false

/-- Who holds the mutex, and that each `m_time_ev` is on its way to the thread that waits. -/
structure Consistent (r : Rolling Time) : Prop where
  external : holdsMutex r.external = true → r.mutex = some .external
  handler : r.handler = .locked ∨ r.handler = .rearm → r.mutex = some .timehandler
  running : r.external = .syncBudget → r.status = .running
  resting : r.external ≠ .syncBudget → r.budget = .asking
  requests : r.timeOutstanding.toNat+r.timePending.toNat+r.sem = if r.budget = .waiting then 1 else 0

namespace Consistent
variable {r : Rolling Time}

lemma started (quantum now : Time) (onSysc : Bool) : Consistent (Rolling.started quantum now onSysc) := by
  refine ⟨?_,?_,?_,fun _ => rfl,rfl⟩ <;>
    simp [Rolling.started,Keeper.start,Keeper.constructed,holdsMutex]

section

omit [AddCommGroup Time] [LinearOrder Time]

section
variable (h : Consistent r) (hm : r.mutex ≠ some .external)
include h hm

lemma not_holds : holdsMutex r.external = false :=
  Bool.eq_false_iff.mpr fun hh => hm (h.external hh)

lemma ne_syncBudget : r.external ≠ .syncBudget := by
  intro hb
  have hh := h.not_holds hm
  simp [hb,holdsMutex] at hh

end

lemma inherited {k : Keeper Time} (h : Consistent r) (hb : r.external ≠ .syncBudget)
    (he : holdsMutex k.external = true → k.mutex = some .external)
    (hh : k.handler = .locked ∨ k.handler = .rearm → k.mutex = some .timehandler)
    (hr : k.external = .syncBudget → k.status = .running) : Consistent {r with toKeeper := k} :=
  ⟨he,hh,hr,fun _ => h.resting hb,h.requests⟩

lemma lock {place : External Time} (h : Consistent r) (hp : place ≠ .syncBudget) (hm : r.mutex = none)
    (hb : r.external ≠ .syncBudget) : Consistent {r with external := place, mutex := some .external} := by
  refine h.inherited hb (fun _ => rfl) (fun hh => ?_) fun heq => absurd heq hp
  have hhe := h.handler hh
  simp [hm] at hhe

end

section
variable (h : Consistent r)
include h

lemma continueExternal (hb : r.external ≠ .syncBudget) :
    Consistent {r with toKeeper := r.toKeeper.continueExternal} := by
  have he := h.external
  have hh := h.handler
  cases hp : r.external with
  | syncBudget => exact absurd hp hb
  | syncStatus =>
    by_cases hr : r.status = .running <;>
      apply h.inherited hb <;> simp_all [Keeper.continueExternal,holdsMutex]
  | _ => apply h.inherited hb <;> simp_all [Keeper.continueExternal,holdsMutex]

lemma continueHandler (hm : r.handler = .entered → r.mutex = none)
    (hi : r.handler ≠ .idle) : Consistent {r with toKeeper := r.toKeeper.continueHandler} := by
  obtain ⟨-,-,hs,he,-⟩ := continueHandler_frame (s := r.toKeeper)
  have ho : r.mutex ≠ some .external := by
    have hh := h.handler
    cases hp : r.handler <;> simp_all
  have hof := h.not_holds ho
  refine h.inherited (h.ne_syncBudget ho) ?_ ?_ ?_
  · rw [he,hof]
    simp
  · have hh := h.handler
    cases hp : r.handler with
    | locked =>
      by_cases hr : r.status = .running <;> by_cases hlt : r.now < r.localTime <;>
        simp [Keeper.continueHandler,hp,hr,hlt,hh (.inl hp)]
    | _ => simp_all [Keeper.continueHandler]
  · rw [he]
    exact fun heq => absurd heq (h.ne_syncBudget ho)

lemma continueBudget (hb : r.external = .syncBudget)
    (hs : r.budget = .waiting → r.sem ≠ 0) : Consistent r.continueBudget := by
  have hr := h.requests
  have hm := h.external (by simp [hb,holdsMutex])
  unfold Rolling.continueBudget
  cases hp : r.budget with
  | asking =>
    simp only [hp,reduceCtorEq,if_false] at hr
    refine ⟨h.external,h.handler,h.running,fun hne => absurd hb hne,?_⟩
    simp only [if_true,Bool.toNat_true]
    omega
  | waiting =>
    simp only [hp,if_true] at hr
    refine ⟨h.external,h.handler,h.running,fun hne => absurd hb hne,?_⟩
    have hpo := hs hp
    simp only [reduceCtorEq,if_false]
    omega
  | answered =>
    simp only [hp,reduceCtorEq,if_false] at hr
    have hh := h.handler
    by_cases hz : r.nextTime = 0
    · simp only [hz,if_true]
      exact ⟨by simp [holdsMutex],by simp_all,by simp,fun _ => rfl,by simpa using hr⟩
    · simp only [hz,if_false]
      exact ⟨fun _ => hm,h.handler,by simp,fun _ => rfl,by simpa using hr⟩

lemma getTimeFromSystemc (hp : r.timePending = true) (activity : Activity Time) :
    Consistent (r.getTimeFromSystemc activity) := by
  have hr := h.requests
  have hs : r.timeOutstanding.toNat+false.toNat+(r.sem+1) = if r.budget = .waiting then 1 else 0 := by
    rw [← hr,hp]
    simp only [Bool.toNat_true,Bool.toNat_false]
    omega
  unfold Rolling.getTimeFromSystemc
  obtain hk | hk := r.getNextTime_keeper activity
  · rw [hk]
    exact ⟨h.external,h.handler,h.running,h.resting,hs⟩
  · rw [hk]
    exact ⟨by simpa using h.external,by simpa using h.handler,by simpa using h.running,by simpa using h.resting,hs⟩

end

lemma step {a : Action Time} (h : Consistent r) (ha : Enabled r a) : Consistent (Rolling.step r a) := by
  have hre : r.external = .ready → r.external ≠ .syncBudget := fun heq => by simp [heq]
  cases a with
  | updateTime =>
    have hr := h.requests
    rw [ha.2,Bool.toNat_true] at hr
    have hon : 1+r.timePending.toNat+r.sem ≤ 1 := by
      rw [hr]
      split <;> simp
    have hm : false.toNat+true.toNat+r.sem = if r.budget = .waiting then 1 else 0 := by
      rw [← hr,Bool.toNat_true,Bool.toNat_false]
      omega
    exact ⟨h.external,h.handler,h.running,h.resting,hm⟩
  | getTime activity => exact h.getTimeFromSystemc ha.2 activity
  | inherited a =>
    obtain ⟨ha,hs⟩ := ha
    cases a with
    | continueExternal =>
      by_cases hb : r.external = .syncBudget
      · simpa [Rolling.step,hb] using h.continueBudget hb (by simpa [hb] using hs)
      · simpa [Rolling.step,hb,QuantumKeeper.step] using h.continueExternal hb
    | continueHandler => exact h.continueHandler ha.2 ha.1
    | sync => exact h.lock (by simp) ha.2 (hre ha.1)
    | wake timeout =>
      cases timeout <;> exact h.lock (by simp) ha.2 (by simp [ha.1])
    | set t =>
      refine h.inherited (hre ha.1) ?_ h.handler ?_ <;>
        by_cases hle : r.localTime ≤ t+r.now <;> simp [QuantumKeeper.step,hle,holdsMutex]
    | stop =>
      have ho : r.mutex ≠ some .external := by simp [ha.2]
      refine h.inherited (h.ne_syncBudget ho) ?_ ?_ fun heq => absurd ?_ (h.ne_syncBudget ho)
      · simpa [QuantumKeeper.step] using h.external
      · simpa [QuantumKeeper.step] using h.handler
      · simpa [QuantumKeeper.step] using heq
    | fire => exact ⟨h.external,by simp [Rolling.step,QuantumKeeper.step],h.running,h.resting,h.requests⟩
    | inc t | advance t | update => exact ⟨h.external,h.handler,h.running,h.resting,h.requests⟩

end Consistent

section
variable {r : Rolling Time}

omit [AddCommGroup Time] [LinearOrder Time] in
lemma Consistent.sem_eq_zero (h : Consistent r) (hb : r.budget ≠ .waiting) : r.sem = 0 := by
  have hr := h.requests
  simp only [hb,if_false] at hr
  omega

omit [AddCommGroup Time] [LinearOrder Time] in
lemma Deadlocked.unanswered (h : Consistent r) (hr : Deadlocked r) : Unanswered r := by
  obtain ⟨⟨-,hb,hw,hs⟩,-⟩ := hr
  exact ⟨h.running hb,.inr (.inr (.inr ⟨hb,.inr ⟨hw,hs⟩⟩))⟩

lemma step_continueExternal_frame : (step r (.inherited .continueExternal)).handler = r.handler ∧
      (step r (.inherited .continueExternal)).status = r.status := by
  by_cases hb : r.external = .syncBudget
  · simpa [step,hb] using r.continueBudget_frame
  · obtain ⟨-,-,-,hh,hs⟩ := continueExternal_frame (s := r.toKeeper)
    simpa [step,hb,QuantumKeeper.step] using ⟨hh,hs⟩

/-- The external thread gets unanswered only by taking the mutex. -/
lemma not_unanswered_continueExternal (hr : ¬Unanswered r) :
    ¬Unanswered (step r (.inherited .continueExternal)) := by
  by_cases hru : r.status = .running
  · cases hp : r.external with
    | syncBudget =>
      cases hb : r.budget with
      | asking => exact absurd ⟨hru,by simp [hp,hb]⟩ hr
      | waiting => simp [step,hp,Rolling.continueBudget,hb,Unanswered]
      | answered =>
        by_cases hz : r.nextTime = 0 <;>
          simp [step,hp,Rolling.continueBudget,hb,hz,Unanswered]
    | syncNotify | syncStatus | syncTimeout => exact absurd ⟨hru,by simp [hp]⟩ hr
    | _ => simp [step,hp,QuantumKeeper.step,Keeper.continueExternal,Unanswered]
  · rintro ⟨hs,-⟩
    exact hru ((step_continueExternal_frame (r := r)).2 ▸ hs)

/-- A step that keeps the two threads apart does not let `timehandler` wait for an unanswered thread. -/
lemma apart_step {a : Action Time} (ha : Enabled r a) (hap : Apart r a)
    (hr : r.handler = .entered → ¬Unanswered r) : (step r a).handler = .entered → ¬Unanswered (step r a) := by
  cases a with
  | updateTime => exact fun he => by simp [step,ha.1] at he
  | getTime activity =>
    intro he
    obtain hk | hk := r.getNextTime_keeper activity <;>
      simp [step,getTimeFromSystemc,hk,ha.1] at he
  | inherited a =>
    cases a with
    | fire => exact fun _ => hap
    | sync | wake timeout =>
      intro he hun
      exact hap he hun.1
    | continueExternal =>
      intro he
      exact not_unanswered_continueExternal (hr ((step_continueExternal_frame (r := r)).1 ▸ he))
    | continueHandler =>
      intro he
      exact absurd he (continueHandler_ne_entered _)
    | set t =>
      intro _
      by_cases hle : r.localTime ≤ t+r.now <;> simp [step,QuantumKeeper.step,hle,Unanswered]
    | stop => exact fun _ hun => by simp [step,QuantumKeeper.step,Unanswered] at hun
    | inc t | advance t | update => exact hr

lemma deadlock_of_asking (h : Consistent r) (hen : r.handler = .entered) (hb : r.external = .syncBudget)
    (ha : r.budget = .asking) : ∃ t, GuardedRun step Enabled r t ∧ Deadlocked t := by
  have he : Enabled r (.inherited .continueExternal) := ⟨⟨by simp [hb],by simp [hb]⟩,by simp [ha]⟩
  refine ⟨_,GuardedRun.refl.tail he,?_⟩
  have hm := h.external (by simp [hb,holdsMutex])
  simpa [step,hb,continueBudget,ha,Deadlocked] using ⟨⟨hm,h.sem_eq_zero (by simp [ha])⟩,hen⟩

lemma deadlock_of_sync (h : Consistent r) (hen : r.handler = .entered) (hr : r.status = .running)
    (hp : r.external = .syncStatus ∨ r.external = .syncNotify ∨ r.external = .syncTimeout) :
    ∃ t, GuardedRun step Enabled r t ∧ Deadlocked t := by
  have hs : ∀ {r : Rolling Time}, Consistent r → r.handler = .entered → r.status = .running →
      r.external = .syncStatus → ∃ t, GuardedRun step Enabled r t ∧ Deadlocked t := by
    intro r h hen hr hp
    have he : Enabled r (.inherited .continueExternal) := by simp [Enabled,QuantumKeeper.Enabled,hp]
    have ha := h.resting (by simp [hp])
    obtain ⟨t,hru,hd⟩ := deadlock_of_asking (h.step he)
      ((step_continueExternal_frame).1.trans hen)
      (by simp [step,hp,QuantumKeeper.step,Keeper.continueExternal,hr])
      (by simpa [step,hp] using ha)
    exact ⟨t,(GuardedRun.refl.tail he).trans hru,hd⟩
  obtain hp | hp := hp
  · exact hs h hen hr hp
  · have he : Enabled r (.inherited .continueExternal) := by
      obtain hp | hp := hp <;> simp [Enabled,QuantumKeeper.Enabled,hp]
    obtain ⟨t,hru,hd⟩ := hs (h.step he) ((step_continueExternal_frame).1.trans hen)
      ((step_continueExternal_frame).2.trans hr)
      (by obtain hp | hp := hp <;>
        simp [step,hp,QuantumKeeper.step,Keeper.continueExternal])
    exact ⟨t,(GuardedRun.refl.tail he).trans hru,hd⟩

lemma deadlock_of_unanswered (h : Consistent r) (he : r.handler = .entered) (hr : Unanswered r) :
    ∃ t, GuardedRun step Enabled r t ∧ Deadlocked t := by
  obtain ⟨hru,hn | ht | hs | ⟨hb,ha | ⟨hw,hse⟩⟩⟩ := hr
  · exact deadlock_of_sync h he hru (.inr (.inl hn))
  · exact deadlock_of_sync h he hru (.inr (.inr ht))
  · exact deadlock_of_sync h he hru (.inl hs)
  · exact deadlock_of_asking h he hb ha
  · have hm := h.external (by simp [hb,holdsMutex])
    exact ⟨r,.refl,⟨hm,hb,hw,hse⟩,he⟩

/-- A step that does not keep the threads apart leaves `timehandler` waiting for an unanswered one. -/
lemma unanswered_of_not_apart {a : Action Time} (hn : ¬Apart r a) :
    (step r a).handler = .entered ∧ Unanswered (step r a) := by
  cases a with
  | inherited a =>
    cases a with
    | fire => exact ⟨rfl,not_not.mp hn⟩
    | sync =>
      obtain ⟨he,hr⟩ := Classical.not_imp.mp hn
      exact ⟨he,not_not.mp hr,.inl rfl⟩
    | wake timeout =>
      obtain ⟨he,hr⟩ := Classical.not_imp.mp hn
      refine ⟨he,not_not.mp hr,?_⟩
      cases timeout <;> simp [step,QuantumKeeper.step]
    | _ => exact absurd trivial hn
  | _ => exact absurd trivial hn

end

/-- While the two threads are kept apart there is no deadlock; from every state in which a step does not, one can be
reached after it. -/
theorem rolling_deadlock_iff (quantum now : Time) (onSysc : Bool) :
    (∀ r, GuardedRun step (fun r a => Enabled r a ∧ Apart r a) (started quantum now onSysc) r → ¬Deadlocked r) ∧
      ∀ r a, GuardedRun step Enabled (started quantum now onSysc) r → Enabled r a → ¬Apart r a →
        ∃ t, GuardedRun step Enabled (step r a) t ∧ Deadlocked t := by
  constructor
  · intro r hr hd
    have hi := hr.invariant (I := fun r => Consistent r ∧ (r.handler = .entered → ¬Unanswered r))
        (fun t a ht ha => ⟨ht.1.step ha.1,apart_step ha.1 ha.2 ht.2⟩)
        ⟨.started quantum now onSysc,by simp [started,Keeper.start,Keeper.constructed]⟩
    exact hi.2 hd.2 (hd.unanswered hi.1)
  · intro r a hr ha hn
    have hc := hr.invariant (fun _ _ ht ha => Consistent.step ht ha) (.started quantum now onSysc)
    obtain ⟨he,hu⟩ := unanswered_of_not_apart hn
    exact deadlock_of_unanswered (hc.step ha) he hu

/-- The keeper starts suspended. `sync` takes the mutex and notifies `m_tick`, and `timehandler` waits for the mutex
before `get_time_from_systemc` can run. -/
def firstSync : List (Action ℤ) :=
  [.inherited .fire,.inherited .continueHandler,.inherited .continueHandler,.inherited .sync,
    .inherited .continueExternal,.inherited .continueExternal,.inherited .continueExternal,
    .inherited .update,.inherited .fire]

theorem rolling_deadlock_reached : GuardedRun.Along step Enabled (started 1 0 true) firstSync ∧
      Deadlocked (firstSync.foldl step (started 1 0 true)) := by
  decide

section
variable (r : Rolling U64) (onSysc : Bool) (activity : Activity U64)

/-- `time_to_sync`: computed on the SystemC thread, or there for the thread that waits on `m_sem`. -/
def timeToSync : U64 := if onSysc then (r.getNextTime activity).1 else (r.getTimeFromSystemc activity).nextTime

/-- `tlm_quantumkeeper_multi_quantum::time_to_sync`. -/
def quantumTimeToSync : U64 := if r.localTime ≤ r.now+r.quantum then r.now+r.quantum-r.localTime else 0

def budgetBound : ℕ := r.now.toNat+r.quantum.toNat-r.localTime.toNat

lemma quantumTimeToSync_le : r.quantumTimeToSync.toNat ≤ r.budgetBound := by
  unfold quantumTimeToSync budgetBound
  split <;> bv_omega

/-- The difference wraps exactly when the local time is beyond the boundary. -/
lemma boundary_le_iff : (r.now+r.quantum-r.localTime).toNat ≤ r.budgetBound ↔
    r.localTime.toNat ≤ r.now.toNat+r.quantum.toNat := by
  unfold budgetBound
  bv_omega

/-- The rolling budget is within the quantum unless the local time is beyond the boundary and nothing is due now. -/
theorem timeToSync_le_iff (hr : r.status = .running) : r.quantumTimeToSync.toNat ≤ r.budgetBound ∧
    ((r.timeToSync onSysc activity).toNat ≤ r.budgetBound ↔ activity = .current ∨ activity = .future 0 ∨
      r.localTime.toNat ≤ r.now.toNat+r.quantum.toNat) := by
  refine ⟨r.quantumTimeToSync_le,?_⟩
  have ht : r.timeToSync onSysc activity = (r.getNextTime activity).1 := ite_self _
  rw [ht]
  have hb := r.boundary_le_iff
  cases activity with
  | current => simp [getNextTime,hr]
  | nothing => simpa [getNextTime,hr] using hb
  | future d =>
    have hd : d = 0 ↔ d.toNat = 0 := by bv_omega
    have hm (a b : U64) : (min a b).toNat = min a.toNat b.toNat := Monotone.map_min fun _ _ h => h
    simp only [getNextTime,hr,ne_eq,not_true_eq_false,if_false,hm,Activity.future.injEq,reduceCtorEq,false_or,hd]
    unfold budgetBound at hb ⊢
    omega

end

def beyondQuantum : Rolling U64 := {started 10 0 true with localTime := 11}

theorem timeToSync_le_iff_started : (started (10 : U64) 0 true).status = .running ∧
    ((started (10 : U64) 0 true).timeToSync false .nothing).toNat ≤ 10 := by
  refine ⟨rfl,?_⟩
  exact (timeToSync_le_iff _ false .nothing rfl).2.mpr (by decide)

theorem timeToSync_wraps : beyondQuantum.status = .running ∧ beyondQuantum.budgetBound = 0 ∧
    beyondQuantum.quantumTimeToSync = 0 ∧ beyondQuantum.timeToSync true .nothing = 0xFFFFFFFFFFFFFFFF ∧
    beyondQuantum.timeToSync false (.future 7) = 7 := by
  decide

end Rolling
end Qbox.QuantumKeeper
