import Qbox.GuardedRun
import Qbox.KernelEvent

/-! Two `sc_sync_window` objects with the TLM-quantum policy that are bound to each other, each on its own
kernel. -/
namespace Qbox
open List

variable {Time : Type}

/-- `sc_sync_window::window`. -/
@[ext] structure Window (Time : Type) where
  fromTime : Time
  toTime : Time
  deriving DecidableEq, Repr

namespace SyncWindow
/-- One `sc_sync_window` and its kernel. An event holds the time at which it is due. -/
structure Side (Time : Type) where
  now : Time
  window : Window Time
  incoming : Window Time
  updateRequested : Bool
  suspended : Bool
  sweepEv : Option Time
  stepEv : Option Time
  updateEv : Bool

/-- The two sides and the windows on their way to each of them, the oldest first. -/
structure Pair (Time : Type) where
  side : Bool → Side Time
  inFlight : Bool → List (Window Time)

section
variable [AddCommMonoid Time] [LinearOrder Time] (q : Time) (s : Pair Time) (x : Side Time)

/-- What a side sends to the other one: `{ now, now + policy.quantum() }`. -/
def Side.announcement : Window Time := ⟨x.now,x.now+q⟩

/-- `step_helper`, with the windows it sends. -/
def Side.stepHelper : Side Time × List (Window Time) :=
  if x.window.toTime ≤ x.now then ({x with suspended := true},[x.announcement q])
  else ({x with suspended := false, stepEv := some x.window.toTime},[])

@[simp] lemma Side.stepHelper_window : (x.stepHelper q).1.window = x.window := by
  unfold stepHelper
  split <;> rfl

@[simp] lemma Side.stepHelper_incoming : (x.stepHelper q).1.incoming = x.incoming := by
  unfold stepHelper
  split <;> rfl

@[simp] lemma Side.stepHelper_updateRequested : (x.stepHelper q).1.updateRequested = x.updateRequested := by
  unfold stepHelper
  split <;> rfl

/-- `sweep_helper`, with the windows it sends. -/
def Side.sweepHelper : Side Time × List (Window Time) := (x,[x.announcement q])

/-- `update`, in the kernel's update phase. -/
def Side.update : Side Time := {x with
    updateRequested := false
    window := x.incoming
    sweepEv := if x.now < x.incoming.fromTime then KernelEvent.notify x.sweepEv x.incoming.fromTime else none
    updateEv := true}

/-- `async_set_window`, from the other side's thread. -/
def Side.asyncSetWindow (w : Window Time) : Side Time := {x with
    incoming := w
    updateRequested := x.updateRequested || decide (w ≠ x.window)}

/-- The state after both constructors: the other side at time zero, the step event due at once. -/
def initial : Pair Time where
  side := fun _ => {
    now := 0
    window := ⟨0,q⟩
    incoming := ⟨0,0⟩
    updateRequested := false
    suspended := false
    sweepEv := none
    stepEv := some 0
    updateEv := false }
  inFlight := fun _ => []

/-- Time passes, `step_helper` or `sweep_helper` runs, the requested update is made, or the oldest window is taken. -/
inductive Action (Time : Type) where
  | advance (b : Bool) (t : Time)
  | step (b : Bool) (byStep byUpdate : Bool)
  | sweep (b : Bool)
  | update (b : Bool)
  | deliver (b : Bool)

def Pair.put (b : Bool) (x : Side Time) (ws : List (Window Time)) : Pair Time where
  side := Function.update s.side b x
  inFlight := Function.update s.inFlight (!b) (s.inFlight (!b) ++ ws)

/-- The events that made `step_helper` runnable are no longer pending. -/
def Side.fired (byStep byUpdate : Bool) : Side Time := {x with
    stepEv := if byStep then none else x.stepEv
    updateEv := !byUpdate && x.updateEv}

def step : Action Time → Pair Time
  | .advance b t => s.put b {s.side b with now := t} []
  | .step b byStep byUpdate =>
    let next := ((s.side b).fired byStep byUpdate).stepHelper q
    s.put b next.1 next.2
  | .sweep b =>
    let next := {s.side b with sweepEv := none}.sweepHelper q
    s.put b next.1 next.2
  | .update b => s.put b (s.side b).update []
  | .deliver b =>
    match s.inFlight b with
    | [] => s
    | w :: ws =>
      { side := Function.update s.side b ((s.side b).asyncSetWindow w)
        inFlight := Function.update s.inFlight b ws }

/-- A suspended kernel does not advance, time does not pass a pending event or a zero-time notification. The step
event may fire early. -/
def Enabled : Action Time → Prop
  | .advance b t =>
    (s.side b).suspended = false ∧ (s.side b).updateEv = false ∧ (s.side b).now ≤ t ∧
      KernelEvent.Before (s.side b).stepEv t ∧ KernelEvent.Before (s.side b).sweepEv t
  | .step b byStep byUpdate =>
    (byStep || byUpdate) = true ∧ (byStep = true → (s.side b).stepEv.isSome = true) ∧
      (byUpdate = true → (s.side b).updateEv = true)
  | .sweep b => (s.side b).sweepEv = some (s.side b).now
  | .update b => (s.side b).updateRequested = true
  | .deliver b => s.inFlight b ≠ []

instance (s : Pair Time) (a : Action Time) : Decidable (Enabled s a) := by
  cases a <;> simp only [Enabled] <;> infer_instance

/-- The runs of the two objects. -/
abbrev Reachable : Prop := GuardedRun (step q) Enabled (initial q) s

end

/-- The windows a side has taken or is going to take, the oldest first. -/
def Side.known (x : Side Time) (msgs : List (Window Time)) : List (Window Time) :=
  x.window :: ((if x.updateRequested then [x.incoming] else []) ++ msgs)

/-- A side stays inside its window, and unless it is suspended, an event stops it at the end of it. -/
structure Side.Inside [LE Time] (x : Side Time) : Prop where
  within : x.now ≤ x.window.toTime
  armed : x.suspended = true ∨ x.updateEv = true ∨ ∃ t, x.stepEv = some t ∧ t ≤ x.window.toTime
  stopped : x.suspended = true → x.updateEv = true ∨ x.window.toTime ≤ x.now

namespace Side.Inside
variable [LinearOrder Time] {x : Side Time}

lemma advance {t : Time} (h : x.Inside) (hr : x.suspended = false) (hup : x.updateEv = false)
    (hs : KernelEvent.Before x.stepEv t) : Side.Inside {x with now := t} := by
  obtain ⟨u,hu,hto⟩ : ∃ u, x.stepEv = some u ∧ u ≤ x.window.toTime := by simpa [hr,hup] using h.armed
  exact ⟨(hs u hu).trans hto,h.armed,by simp [hr]⟩

lemma stepHelper [AddCommMonoid Time] {q : Time} (h : x.Inside) (byStep byUpdate : Bool) :
    (((x.fired byStep byUpdate).stepHelper q).1).Inside := by
  by_cases hto : x.window.toTime ≤ x.now
  · refine ⟨?_,?_,?_⟩ <;> simp [Side.stepHelper,Side.fired,hto,h.within]
  · refine ⟨?_,?_,?_⟩ <;> simp [Side.stepHelper,Side.fired,hto,h.within]

lemma update (h : x.Inside) (hl : x.window.toTime ≤ x.incoming.toTime) : x.update.Inside :=
  ⟨h.within.trans hl,.inr (.inl rfl),fun _ => .inl rfl⟩

end Side.Inside

section
variable [AddCommMonoid Time] [LinearOrder Time] {q : Time}

/-- The windows known to `x` come from a sender now at `t`; suspended, it has announced that last. -/
structure Linked (q t : Time) (suspended : Bool) (x : Side Time) (msgs : List (Window Time)) : Prop where
  ordered : (x.known msgs).Pairwise fun w v => w.fromTime ≤ v.fromTime
  sent : ∀ w ∈ x.known msgs, w.toTime = w.fromTime+q ∧ w.fromTime ≤ t
  announced : suspended = true → (x.known msgs).getLast? = some ⟨t,t+q⟩

/-- Both sides are inside their windows, and each is linked to the other. -/
def Consistent (q : Time) (s : Pair Time) : Prop :=
  ∀ b, (s.side b).Inside ∧ Linked q (s.side (!b)).now (s.side (!b)).suspended (s.side b) (s.inFlight b)

namespace Linked
variable {t u : Time} {suspended : Bool} {x : Side Time} {msgs : List (Window Time)}

section
variable (h : Linked q t suspended x msgs)
include h

lemma later (htu : t ≤ u) : Linked q u false x msgs where
  ordered := h.ordered
  sent := fun w hw => ⟨(h.sent w hw).1,(h.sent w hw).2.trans htu⟩
  announced := by simp

lemma send (suspended' : Bool) : Linked q t suspended' x (msgs ++ [⟨t,t+q⟩]) := by
  have hk : x.known (msgs ++ [⟨t,t+q⟩]) = x.known msgs ++ [⟨t,t+q⟩] := by simp [Side.known]
  refine ⟨?_,?_,?_⟩
  · rw [hk,pairwise_append]
    refine ⟨h.ordered,pairwise_singleton _ _,fun w hw v hv => ?_⟩
    obtain rfl := mem_singleton.mp hv
    exact (h.sent w hw).2
  · intro w hw
    rw [hk,mem_append,mem_singleton] at hw
    obtain hw | rfl := hw
    · exact h.sent w hw
    · exact ⟨rfl,le_refl t⟩
  · intro _
    rw [hk,getLast?_concat]

omit h in
lemma congr {y : Side Time} (h : Linked q t suspended x msgs) (hw : y.window = x.window)
    (hi : y.incoming = x.incoming) (hr : y.updateRequested = x.updateRequested) : Linked q t suspended y msgs := by
  have hk : y.known msgs = x.known msgs := by simp only [Side.known,hw,hi,hr]
  exact ⟨hk ▸ h.ordered,hk ▸ h.sent,hk ▸ h.announced⟩

omit h in
lemma sublist {y : Side Time} {msgs' : List (Window Time)} (h : Linked q t suspended x msgs)
    (hsu : (y.known msgs').Sublist (x.known msgs))
    (hl : (y.known msgs').getLast? = (x.known msgs).getLast?) : Linked q t suspended y msgs' where
  ordered := h.ordered.sublist hsu
  sent := fun w hw => h.sent w (hsu.subset hw)
  announced := fun hs => by rw [hl,h.announced hs]

lemma update (hr : x.updateRequested = true) :
    Linked q t suspended x.update msgs := by
  apply h.sublist <;> simp [Side.known,Side.update,hr]

end

lemma deliver {w : Window Time} (h : Linked q t suspended x (w :: msgs)) :
    Linked q t suspended (x.asyncSetWindow w) msgs := by
  by_cases hr : x.updateRequested = true
  · apply h.sublist <;> simp [Side.known,Side.asyncSetWindow,hr]
  · by_cases hw : w = x.window
    · subst hw
      apply h.sublist <;> simp [Side.known,Side.asyncSetWindow,hr]
    · apply h.sublist <;> simp [Side.known,Side.asyncSetWindow,hr,hw]

end Linked

/-- One side changes and sends windows: the other sees its time, its suspension and what it sends. -/
lemma Consistent.put {s : Pair Time} (h : Consistent q s) {b : Bool} {x : Side Time}
    {ws : List (Window Time)} (hi : x.Inside)
    (hr : Linked q (s.side (!b)).now (s.side (!b)).suspended x (s.inFlight b))
    (hs : Linked q x.now x.suspended (s.side (!b)) (s.inFlight (!b) ++ ws)) : Consistent q (s.put b x ws) := by
  intro c
  by_cases hc : c = b
  · subst hc
    simpa [Pair.put] using ⟨hi,hr⟩
  · obtain rfl : c = !b := by cases b <;> cases c <;> simp_all
    simpa [Pair.put] using ⟨(h (!b)).1,hs⟩

lemma consistent_initial (hq : 0 ≤ q) : Consistent q (initial q) := by
  intro b
  refine ⟨⟨hq,.inr (.inr ⟨0,rfl,hq⟩),by simp [initial]⟩,⟨?_,?_,?_⟩⟩ <;> simp [initial,Side.known]

/-- Nothing is left that could wake side `b`: no window on its way, no update to make, no update event. -/
def Quiet (s : Pair Time) (b : Bool) : Prop :=
  (s.side b).suspended = true ∧ s.inFlight b = [] ∧ (s.side b).updateRequested = false ∧ (s.side b).updateEv = false

/-- A quiet side is a quantum past the other one where that is suspended too. -/
lemma Consistent.quantum_le {s : Pair Time} (h : Consistent q s) {b : Bool} (hb : Quiet s b)
    (ho : (s.side (!b)).suspended = true) : (s.side (!b)).now+q ≤ (s.side b).now := by
  obtain ⟨hs,hm,hr,hu⟩ := hb
  have hl := (h b).2.announced ho
  have hw : (s.side b).window = ⟨(s.side (!b)).now,(s.side (!b)).now+q⟩ := by
    simpa [Side.known,hm,hr] using hl
  have hst := (h b).1.stopped hs
  simpa [hu,hw] using hst

section
variable [IsOrderedCancelAddMonoid Time]

lemma Linked.window_le_incoming {t : Time} {suspended : Bool} {x : Side Time} {msgs : List (Window Time)}
    (h : Linked q t suspended x msgs) (hr : x.updateRequested = true) : x.window.toTime ≤ x.incoming.toTime := by
  have hk : x.known msgs = x.window :: x.incoming :: msgs := by simp [Side.known,hr]
  have hw := h.sent x.window (by simp [hk])
  have hi := h.sent x.incoming (by simp [hk])
  have hle : x.window.fromTime ≤ x.incoming.fromTime := by
    have ho := h.ordered
    rw [hk,pairwise_cons] at ho
    exact ho.1 x.incoming (by simp)
  calc x.window.toTime = x.window.fromTime+q := hw.1
    _ ≤ x.incoming.fromTime+q := by gcongr
    _ = x.incoming.toTime := hi.1.symm

lemma Consistent.step {s : Pair Time} (h : Consistent q s) (a : Action Time) (ha : Enabled s a) :
    Consistent q (SyncWindow.step q s a) := by
  cases a with
  | advance b t =>
    obtain ⟨hr,hu,hn,hs,-⟩ := ha
    refine h.put ((h b).1.advance hr hu hs) ((h b).2.congr rfl rfl rfl) ?_
    have hl := (h (!b)).2
    simp only [Bool.not_not,hr] at hl
    simpa [hr] using hl.later hn
  | step b byStep byUpdate =>
    have hl := (h (!b)).2
    have hre : Linked q (s.side (!b)).now (s.side (!b)).suspended
        (((s.side b).fired byStep byUpdate).stepHelper q).1 (s.inFlight b) := by
      apply (h b).2.congr <;> simp [Side.fired]
    refine h.put ((h b).1.stepHelper byStep byUpdate) hre ?_
    by_cases hto : (s.side b).window.toTime ≤ (s.side b).now
    · simpa [Side.stepHelper,Side.fired,hto,Side.announcement] using hl.send true
    · simpa [Side.stepHelper,Side.fired,hto] using hl.later le_rfl
  | sweep b =>
    have hl := (h (!b)).2
    simp only [Bool.not_not] at hl
    exact h.put ⟨(h b).1.within,(h b).1.armed,(h b).1.stopped⟩ ((h b).2.congr rfl rfl rfl) (hl.send _)
  | update b =>
    have hl := (h (!b)).2
    refine h.put ((h b).1.update ((h b).2.window_le_incoming ha)) ((h b).2.update ha) ?_
    simpa [Side.update] using hl
  | deliver b =>
    cases hm : s.inFlight b with
    | nil => exact absurd hm ha
    | cons w ws =>
      have hl := (h b).2
      rw [hm] at hl
      intro c
      by_cases hc : c = b
      · subst hc
        simpa [SyncWindow.step,hm] using
          ⟨⟨(h c).1.within,(h c).1.armed,(h c).1.stopped⟩,hl.deliver⟩
      · obtain rfl : c = !b := by cases b <;> cases c <;> simp_all
        have ho := h (!b)
        simpa [SyncWindow.step,hm,Side.asyncSetWindow] using ho

lemma consistent_of_reachable (hq : 0 ≤ q) {s : Pair Time} (h : Reachable q s) : Consistent q s :=
  h.invariant (fun _ a hs ha => hs.step a ha) (consistent_initial hq)

lemma Consistent.now_le {s : Pair Time} (h : Consistent q s) (b : Bool) : (s.side b).now ≤ (s.side (!b)).now+q := by
  have hw := (h b).2.sent (s.side b).window (by simp [Side.known])
  calc (s.side b).now ≤ (s.side b).window.toTime := (h b).1.within
    _ = (s.side b).window.fromTime+q := hw.1
    _ ≤ (s.side (!b)).now+q := by gcongr; exact hw.2

/-- The kernels are never more than a quantum apart, nor both suspended with nothing to wake one. -/
theorem syncWindow_pair (hq : 0 < q) {s : Pair Time} (h : Reachable q s) :
    ((s.side false).now ≤ (s.side true).now+q ∧ (s.side true).now ≤ (s.side false).now+q) ∧
      ¬((s.side false).suspended = true ∧ (s.side true).suspended = true ∧ (∀ b, s.inFlight b = []) ∧
        ∀ b, (s.side b).updateRequested = false ∧ (s.side b).updateEv = false) := by
  have hc := consistent_of_reachable hq.le h
  refine ⟨⟨hc.now_le false,hc.now_le true⟩,?_⟩
  rintro ⟨hf,ht,hm,hp⟩
  have h₁ := hc.quantum_le ⟨hf,hm false,hp false⟩ ht
  have h₂ := hc.quantum_le ⟨ht,hm true,hp true⟩ hf
  have hlt : (s.side true).now < (s.side true).now+q := lt_add_of_pos_right _ hq
  exact absurd (h₁.trans (le_of_lt (lt_add_of_pos_right _ hq)) |>.trans h₂) (not_le.mpr hlt)

end
end

def parted : Pair ℕ :=
  [.step false true false,.advance false 1,.step false true false,.deliver true].foldl (step 1) (initial 1)

lemma parted_reachable : Reachable 1 parted := GuardedRun.refl.foldl (by decide)

theorem syncWindow_pair_parted : ((parted.side false).suspended = true ∧ (parted.side true).updateRequested = true) ∧
      ((parted.side false).now ≤ (parted.side true).now+1 ∧ (parted.side true).now ≤ (parted.side false).now+1) ∧
      ¬((parted.side false).suspended = true ∧ (parted.side true).suspended = true ∧ (∀ b, parted.inFlight b = []) ∧
        ∀ b, (parted.side b).updateRequested = false ∧ (parted.side b).updateEv = false) :=
  ⟨by decide,syncWindow_pair Nat.one_pos parted_reachable⟩

end SyncWindow
end Qbox
