import Qbox.GuardedRun
import Qbox.KernelEvent

/-! `tlm_quantumkeeper_multithread`: an external thread's `inc`, `set` and `sync` against the SystemC kernel,
with `timehandler` holding SystemC behind the local time. -/
namespace Qbox.QuantumKeeper
/-- `jobstates`, without the debugging values. -/
inductive Jobstate where
  | none | running | stopped
  deriving DecidableEq, Repr

/-- Where the external thread is; in `sync` it holds the mutex except in `syncWaiting`. -/
inductive External (Time : Type) where
  | ready
  | setStore (t : Time)
  | setNotify
  | syncNotify
  | syncStatus
  | syncBudget
  | syncWaiting
  | syncTimeout
  | returning (stopped : Bool)
  deriving DecidableEq, Repr

/-- Where `timehandler` is. Between `locked` and `rearm` it has found the local time ahead. -/
inductive Handler where
  | idle | entered | locked | rearm
  deriving DecidableEq, Repr

inductive Holder where
  | external | timehandler
  deriving DecidableEq, Repr

/-- The keeper and the kernel: the SystemC time `now`, the notification `tick`, and whether one of zero delay is
`outstanding`. -/
structure Keeper (Time : Type) where
  quantum : Time
  localTime : Time
  status : Jobstate
  mutex : Option Holder
  external : External Time
  now : Time
  suspended : Bool
  tick : Option Time
  outstanding : Bool
  handler : Handler

variable {Time : Type} [AddCommGroup Time] [LinearOrder Time]

namespace Keeper
def constructed (quantum now : Time) : Keeper Time where
  quantum := quantum
  localTime := now
  status := .none
  mutex := none
  external := .ready
  now := now
  suspended := false
  tick := none
  outstanding := false
  handler := .idle

variable (s : Keeper Time)

/-- `m_tick.notify(SC_ZERO_TIME)`, from the SystemC thread or from another one. -/
def notifyTick (onSysc : Bool) : Keeper Time :=
  if onSysc then {s with tick := KernelEvent.notify s.tick s.now} else {s with outstanding := true}

section

omit [AddCommGroup Time]

variable (s : Keeper Time) (onSysc : Bool)

@[simp] lemma notifyTick_external : (s.notifyTick onSysc).external = s.external := by cases onSysc <;> rfl

@[simp] lemma notifyTick_mutex : (s.notifyTick onSysc).mutex = s.mutex := by cases onSysc <;> rfl

@[simp] lemma notifyTick_handler : (s.notifyTick onSysc).handler = s.handler := by cases onSysc <;> rfl

@[simp] lemma notifyTick_status : (s.notifyTick onSysc).status = s.status := by cases onSysc <;> rfl

end

def start (onSysc : Bool) : Keeper Time := {s with status := .running}.notifyTick onSysc

def timeToSync : Time := let q := s.now+(s.quantum+s.quantum)
  if s.localTime ≤ q then q-s.localTime else 0

/-- The next step of the external thread in `set` or `sync`. -/
def continueExternal : Keeper Time := match s.external with
  | .ready => s
  | .setStore t => {s with localTime := t+s.now, external := .setNotify}
  | .setNotify => {s with external := .ready}.notifyTick false
  | .syncNotify => {s with external := .syncStatus}.notifyTick false
  | .syncStatus => {s with external := if s.status = .running then .syncBudget else .returning true}
  | .syncBudget =>
    if s.timeToSync = 0 then {s with external := .syncWaiting, mutex := none}
    else {s with external := .returning false}
  | .syncWaiting => s
  | .syncTimeout => {s with external := .syncStatus}.notifyTick false
  | .returning _ => {s with external := .ready, mutex := none}

/-- The next step of `timehandler`. -/
def continueHandler : Keeper Time := match s.handler with
  | .idle => s
  | .entered => {s with handler := .locked, mutex := some .timehandler}
  | .locked =>
    if s.status ≠ .running then {s with handler := .idle, mutex := none, suspended := false}
    else if s.now < s.localTime then {s with handler := .rearm, suspended := false}
    else {s with handler := .idle, mutex := none, suspended := true}
  | .rearm =>
    -- the local time is read again, and may have grown since the comparison
    {s with
      handler := .idle
      mutex := none
      tick := KernelEvent.notify s.tick (s.now+min (s.localTime-s.now) s.quantum)}

end Keeper

/-- The calls of the external thread, `stop` from a third one, and the kernel. -/
inductive Action (Time : Type) where
  | inc (t : Time)
  | set (t : Time)
  | sync
  | continueExternal
  | wake (timeout : Bool)
  | stop
  | advance (t : Time)
  | update
  | fire
  | continueHandler

variable (s : Keeper Time)

def step : Action Time → Keeper Time
  | .inc t => {s with localTime := s.localTime+t}
  | .set t => {s with external := if s.localTime ≤ t+s.now then .setStore t else .setNotify}
  | .sync => {s with external := .syncNotify, mutex := some .external}
  | .continueExternal => s.continueExternal
  | .wake timeout =>
    {s with external := if timeout then .syncTimeout else .syncStatus, mutex := some .external}
  | .stop => {s with status := .stopped}.notifyTick false
  | .advance t => {s with now := t}
  | .update => {s with tick := KernelEvent.notify s.tick s.now, outstanding := false}
  | .fire => {s with tick := none, handler := .entered}
  | .continueHandler => s.continueHandler

/-- Delays are not negative, a lock is taken when free, and time passes only while no process runs, SystemC is not
suspended and `m_tick` is not passed. -/
def Enabled : Action Time → Prop
  | .inc t => s.external = .ready ∧ 0 ≤ t
  | .set t => s.external = .ready ∧ 0 ≤ t
  | .sync => s.external = .ready ∧ s.mutex = none
  | .continueExternal => s.external ≠ .ready ∧ s.external ≠ .syncWaiting
  | .wake _ => s.external = .syncWaiting ∧ s.mutex = none
  | .stop => s.status ≠ .stopped ∧ s.mutex = none
  | .advance t =>
    s.handler = .idle ∧ s.suspended = false ∧ s.now ≤ t ∧ KernelEvent.Before s.tick t
  | .update => s.handler = .idle ∧ s.outstanding = true
  | .fire => s.handler = .idle ∧ s.tick = some s.now
  | .continueHandler => s.handler ≠ .idle ∧ (s.handler = .entered → s.mutex = none)

instance (s : Keeper Time) (a : Action Time) : Decidable (Enabled s a) := by
  cases a <;> simp only [Enabled] <;> infer_instance

/-- A running keeper between calls, SystemC not ahead, suspended or about to run `timehandler`. -/
structure Armed (s : Keeper Time) : Prop where
  status : s.status = .running
  external : s.external = .ready
  handler : s.handler = .idle
  mutex : s.mutex = none
  behind : s.now ≤ s.localTime
  armed : s.suspended = true ∨ ∃ u, s.tick = some u ∧ u ≤ s.localTime

/-- SystemC is not ahead of a running keeper, and its suspension, `m_tick`, or `timehandler` stops it. -/
structure Behind (s : Keeper Time) : Prop where
  behind : s.now ≤ s.localTime
  armed : s.handler = .idle → s.suspended = true ∨ ∃ u, s.tick = some u ∧ u ≤ s.localTime
  rearm : s.handler = .rearm → s.now < s.localTime

/-- What the external thread knows at the places where it has looked at the time or at the status. -/
def Known : Prop := match s.external with
  | .setStore t => s.localTime ≤ t+s.now
  | .returning stopped => if stopped then s.status ≠ .running else s.localTime < s.now+(s.quantum+s.quantum)
  | _ => True

omit [AddCommGroup Time] in
lemma Behind.forward {s s' : Keeper Time} (h : Behind s) (hn : s'.now = s.now)
    (hl : s.localTime ≤ s'.localTime) (ht : s'.tick = s.tick) (hs : s'.suspended = s.suspended)
    (hh : s'.handler = s.handler) : Behind s' := by
  refine ⟨hn ▸ h.behind.trans hl,fun hi => ?_,fun hr => ?_⟩
  · rw [hh] at hi
    rw [hs,ht]
    exact (h.armed hi).imp_right fun ⟨u,hu,hle⟩ => ⟨u,hu,hle.trans hl⟩
  · rw [hh] at hr
    exact hn ▸ (h.rearm hr).trans_le hl

section
variable {s : Keeper Time}

lemma continueExternal_frame : s.continueExternal.now = s.now ∧ s.continueExternal.tick = s.tick ∧
    s.continueExternal.suspended = s.suspended ∧ s.continueExternal.handler = s.handler ∧
    s.continueExternal.status = s.status := by
  unfold Keeper.continueExternal
  split
  case h_6 => split_ifs <;> exact ⟨rfl,rfl,rfl,rfl,rfl⟩
  all_goals exact ⟨rfl,rfl,rfl,rfl,rfl⟩

lemma continueExternal_localTime (hk : Known s) : s.localTime ≤ s.continueExternal.localTime := by
  unfold Keeper.continueExternal
  split
  case h_2 t he => simpa [Known,he] using hk
  case h_6 => split <;> exact le_rfl
  all_goals exact le_rfl

lemma continueHandler_frame : s.continueHandler.now = s.now ∧ s.continueHandler.localTime = s.localTime ∧
    s.continueHandler.status = s.status ∧ s.continueHandler.external = s.external ∧
    s.continueHandler.quantum = s.quantum := by
  unfold Keeper.continueHandler
  split
  case h_3 => split_ifs <;> exact ⟨rfl,rfl,rfl,rfl,rfl⟩
  all_goals exact ⟨rfl,rfl,rfl,rfl,rfl⟩

/-- SystemC stops at the notification of `m_tick`, which is no later than the local time. -/
lemma Behind.advance {t : Time} (h : Behind s) (ha : Enabled s (.advance t)) : Behind (step s (.advance t)) := by
  obtain ⟨hi,hr,-,hb⟩ := ha
  have harmed := h.armed hi
  obtain ⟨u,hu,hle⟩ : ∃ u, s.tick = some u ∧ u ≤ s.localTime := by simpa [hr] using harmed
  exact ⟨(hb u hu).trans hle,fun _ => harmed,by simp [step,hi]⟩

lemma status_of_step_running (a : Action Time) (h : (step s a).status = .running) : s.status = .running := by
  cases a with
  | continueExternal => rwa [step,continueExternal_frame.2.2.2.2] at h
  | continueHandler => rwa [step,continueHandler_frame.2.2.1] at h
  | stop => simp [step] at h
  | _ => exact h

lemma continueHandler_ne_entered (s : Keeper Time) : s.continueHandler.handler ≠ .entered := by
  unfold Keeper.continueHandler
  split
  case h_1 hi => simp [hi]
  case h_3 => split_ifs <;> simp
  all_goals simp

/-- A budget that is not zero puts the local time below the next two quanta. -/
lemma localTime_lt_of_timeToSync (h : s.timeToSync ≠ 0) : s.localTime < s.now+(s.quantum+s.quantum) := by
  unfold Keeper.timeToSync at h
  by_cases hle : s.localTime ≤ s.now+(s.quantum+s.quantum)
  · refine lt_of_le_of_ne hle fun heq => h ?_
    simp [heq]
  · simp [hle] at h

lemma known_continueExternal : Known s.continueExternal := by
  unfold Keeper.continueExternal
  split
  case h_5 => by_cases hr : s.status = .running <;> simp [Known,hr]
  case h_6 =>
    by_cases hb : s.timeToSync = 0
    · simp [Known,hb]
    · simpa [Known,hb] using localTime_lt_of_timeToSync hb
  case h_1 he => simp [Known,he]
  case h_7 he => simp [Known,he]
  all_goals trivial

end

section
variable [IsOrderedAddMonoid Time] {s : Keeper Time}

lemma localTime_le_step (hk : Known s) (a : Action Time) (ha : Enabled s a) :
    s.localTime ≤ (step s a).localTime := by
  cases a with
  | inc t => exact le_add_of_nonneg_right ha.2
  | continueExternal => exact continueExternal_localTime hk
  | continueHandler => exact continueHandler_frame.2.1.ge
  | _ => exact le_rfl

/-- `timehandler` suspends SystemC, or arms `m_tick` no later than the local time. -/
lemma Behind.continueHandler (hs : s.status = .running) (h : Behind s) : Behind s.continueHandler := by
  obtain ⟨hn,hl,-⟩ := continueHandler_frame (s := s)
  refine ⟨by rw [hn,hl]; exact h.behind,?_,?_⟩
  · cases hh : s.handler with
    | idle => simpa [Keeper.continueHandler,hh] using h.armed hh
    | entered => simp [Keeper.continueHandler,hh]
    | locked => by_cases hlt : s.now < s.localTime <;> simp [Keeper.continueHandler,hh,hs,hlt]
    | rearm =>
      intro _
      obtain ⟨u,hu,hle⟩ := KernelEvent.notify_le s.tick (s.now+min (s.localTime-s.now) s.quantum)
      refine .inr ⟨u,by simpa [Keeper.continueHandler,hh] using hu,?_⟩
      rw [hl]
      calc u ≤ s.now+min (s.localTime-s.now) s.quantum := hle
        _ ≤ s.now+(s.localTime-s.now) := by gcongr; exact min_le_left _ _
        _ = s.localTime := by abel
  · cases hh : s.handler with
    | idle | entered | rearm => simp [Keeper.continueHandler,hh]
    | locked => by_cases hlt : s.now < s.localTime <;> simp [Keeper.continueHandler,hh,hs,hlt]

lemma Behind.step {a : Action Time} (hs : (QuantumKeeper.step s a).status = .running) (hk : Known s) (h : Behind s)
    (ha : Enabled s a) : Behind (QuantumKeeper.step s a) := by
  have hl := localTime_le_step hk a ha
  cases a with
  | continueExternal =>
    obtain ⟨hn,ht,hsu,hh,-⟩ := continueExternal_frame (s := s)
    exact h.forward hn hl ht hsu hh
  | stop => simp [QuantumKeeper.step] at hs
  | advance t => exact h.advance ha
  | update =>
    obtain ⟨u,hu,hle⟩ := KernelEvent.notify_le s.tick s.now
    exact ⟨h.behind,fun _ => .inr ⟨u,hu,hle.trans h.behind⟩,h.rearm⟩
  | fire => exact ⟨h.behind,by simp [QuantumKeeper.step],by simp [QuantumKeeper.step]⟩
  | continueHandler => exact h.continueHandler (status_of_step_running _ hs)
  | _ => exact h.forward rfl hl rfl rfl rfl

lemma Known.forward {s' : Keeper Time} (h : Known s) (he : s'.external = s.external)
    (hl : s'.localTime = s.localTime) (hq : s'.quantum = s.quantum) (hn : s.now ≤ s'.now)
    (hs : s'.status = .running → s.status = .running) : Known s' := by
  unfold Known at h ⊢
  rw [he]
  split
  · next t hse =>
    rw [hse] at h
    calc s'.localTime = s.localTime := hl
      _ ≤ t+s.now := h
      _ ≤ t+s'.now := by gcongr
  · next stopped hr =>
    rw [hr] at h
    cases stopped with
    | true => exact fun hru => h (hs hru)
    | false =>
      calc s'.localTime = s.localTime := hl
        _ < s.now+(s.quantum+s.quantum) := h
        _ ≤ s'.now+(s'.quantum+s'.quantum) := by rw [hq]; gcongr
  · trivial

lemma Known.step {a : Action Time} (h : Known s) (ha : Enabled s a) : Known (QuantumKeeper.step s a) := by
  cases a with
  | inc t => simp [Known,QuantumKeeper.step,ha.1]
  | set t => by_cases hle : s.localTime ≤ t+s.now <;> simp [Known,QuantumKeeper.step,hle]
  | sync => trivial
  | continueExternal => exact known_continueExternal
  | wake timeout => cases timeout <;> trivial
  | stop => exact h.forward rfl rfl rfl le_rfl (by simp [QuantumKeeper.step])
  | advance t => exact h.forward rfl rfl rfl ha.2.2.1 id
  | update | fire => exact h.forward rfl rfl rfl le_rfl id
  | continueHandler =>
    obtain ⟨hn,hl,hs,he,hq⟩ := continueHandler_frame (s := s)
    exact h.forward he hl hq hn.ge (fun hr => hs ▸ hr)

lemma safe_of_run {s₀ : Keeper Time} (h₀ : Armed s₀) (h : GuardedRun step Enabled s₀ s) :
    (s.status = .running → Behind s) ∧ Known s := by
  refine h.invariant (I := fun s => (s.status = .running → Behind s) ∧ Known s) (fun t a ht ha => ?_) ?_
  · refine ⟨fun hs => ?_,ht.2.step ha⟩
    exact (ht.1 (status_of_step_running a hs)).step hs ht.2 ha
  · exact ⟨fun _ => ⟨h₀.behind,fun _ => h₀.armed,by simp [h₀.handler]⟩,by simp [Known,h₀.external]⟩

/-- While the keeper runs SystemC is never ahead of the local time, which never goes back; and `sync` returns less
than two quanta ahead, unless stopped. -/
theorem systemc_behind_keeper {s₀ : Keeper Time} (h₀ : Armed s₀) (h : GuardedRun step Enabled s₀ s) :
    (s.status = .running → s.now ≤ s.localTime) ∧ (∀ a, Enabled s a → s.localTime ≤ (step s a).localTime) ∧
      (s.external = .returning true → s.status ≠ .running) ∧
      (s.external = .returning false → s.localTime < s.now+(s.quantum+s.quantum)) := by
  obtain ⟨hb,hk⟩ := safe_of_run h₀ h
  refine ⟨fun hs => (hb hs).behind,fun a ha => localTime_le_step hk a ha,?_,?_⟩
  · intro hr
    simpa [Known,hr] using hk
  · intro hr
    simpa [Known,hr] using hk

end

omit [AddCommGroup Time] in
lemma armed_start {s : Keeper Time} (he : s.external = .ready) (hh : s.handler = .idle)
    (hm : s.mutex = none) (hn : s.now ≤ s.localTime) : Armed (s.start true) := by
  refine ⟨rfl,he,hh,hm,hn,.inr ?_⟩
  obtain ⟨u,hu,hle⟩ := KernelEvent.notify_le s.tick s.now
  exact ⟨u,hu,hle.trans hn⟩

/-- SystemC is suspended, the external thread moves two quanta ahead and waits, SystemC follows by one, and it wakes.
-/
def firstQuantum : List (Action ℤ) :=
  [.fire,.continueHandler,.continueHandler,.inc 2,.sync,.continueExternal,.continueExternal,.continueExternal,
    .update,.fire,.continueHandler,.continueHandler,.continueHandler,.advance 1,.wake false,.continueExternal,
    .continueExternal]

def afterFirstQuantum : Keeper ℤ := firstQuantum.foldl step ((Keeper.constructed 1 0).start true)

theorem systemc_behind_keeper_firstQuantum :
    (afterFirstQuantum.external = .returning false ∧ afterFirstQuantum.now = 1) ∧
      (afterFirstQuantum.status = .running → afterFirstQuantum.now ≤ afterFirstQuantum.localTime) ∧
      (∀ a, Enabled afterFirstQuantum a → afterFirstQuantum.localTime ≤ (step afterFirstQuantum a).localTime) ∧
      (afterFirstQuantum.external = .returning true → afterFirstQuantum.status ≠ .running) ∧
      (afterFirstQuantum.external = .returning false →
        afterFirstQuantum.localTime < afterFirstQuantum.now+(afterFirstQuantum.quantum+afterFirstQuantum.quantum)) :=
  ⟨by decide,systemc_behind_keeper (armed_start rfl rfl rfl le_rfl) (GuardedRun.refl.foldl (by decide))⟩

/-- `start` from another thread leaves a request; until the update SystemC may overtake the local time. -/
theorem systemc_overtakes_started : ((Keeper.constructed 1 0).start false : Keeper ℤ).status = .running ∧
      ((Keeper.constructed 1 0).start false : Keeper ℤ).now ≤ ((Keeper.constructed 1 0).start false).localTime ∧
      Enabled ((Keeper.constructed 1 0).start false : Keeper ℤ) (.advance 5) ∧
      ¬(step ((Keeper.constructed 1 0).start false : Keeper ℤ) (.advance 5)).now ≤
        (step ((Keeper.constructed 1 0).start false) (.advance 5)).localTime := by
  decide

end Qbox.QuantumKeeper
