import Qbox.McipsThreads

/-! `shutdown_cleanup` beside the vCPU threads that run `vcpu_tb_exec_cond` and `cpu_end_delta_quota` through
`dispatch_userdata`. The shutdown does not take `m_mcips_mutex`, so its stores fall between any two steps of a callback. -/
namespace Qbox.McipsPlugin
variable {Time : Type} [AddCommMonoid Time] [LinearOrder Time]

/-- Where a vCPU thread is: in guest code, in `dispatch_userdata`, in `vcpu_tb_exec_cond` until `waiting`, then in
`cpu_end_delta_quota`. -/
inductive Phase where
  | guest
  | entering
  | counted
  | dispatched
  | tested
  | waiting
  | locked
  | checked
  | accounting (active : ℕ)
  | rebalancing
  | balancing (active : ℕ)
  | sending
  | leaving
  | aborted
  deriving DecidableEq, Repr

def Phase.exposed : Phase → Bool
  | .tested | .waiting | .locked | .checked => true
  | _ => false

def Phase.fired : Phase → Bool
  | .entering | .counted | .dispatched | .tested => true
  | _ => false

def Phase.holds : Phase → Bool
  | .locked | .checked | .accounting _ | .rebalancing | .balancing _ | .sending => true
  | _ => false

lemma Phase.fired_of_holds {p : Phase} (h : p.holds = true) : p.fired = false := by
  cases p <;> first | rfl | simp [holds] at h

/-- Where `shutdown_cleanup` is. -/
inductive Cleanup where
  | outside
  | entered
  | flagged
  | cleared
  | draining
  | drained
  deriving DecidableEq, Repr

/-- The plugin and its handle under shutdown; `tripped`: the assertion of `cpu_end_delta_quota` has failed. -/
structure Teardown (Time : Type) [AddCommMonoid Time] [LinearOrder Time] where
  plugin : Plugin Time
  shutdown : Bool
  alive : Bool
  refcount : ℕ
  mutex : Option ℕ
  threads : ℕ → Phase
  cleanup : Cleanup
  tripped : Bool

/-- vCPU `i` executes a block or fires its quota callback; a thread or the shutdown takes a step. -/
inductive TeardownAction where
  | execTb (i n : ℕ)
  | fire (i : ℕ)
  | proceed (i : ℕ)
  | cleanup
  deriving DecidableEq, Repr

namespace Plugin
variable (s : Plugin Time)

/-- The time accounting of `cpu_end_delta_quota` with the active vCPU that it has loaded. -/
def accountLoaded (i active : ℕ) : Plugin Time := let deltaTime := s.cpuDeltaTime i
  let s := if active = i then s.addQemuTime deltaTime else s
  s.modify i fun v => {v with cpuTime := v.cpuTime+deltaTime, deltaInsn := 0}

/-- The pauses and resumptions of `rebalance_and_sync` with the active vCPU that it has loaded. -/
def balance (i active : ℕ) : Plugin Time := let t := {s with active := some active}
  {(t.pauseIfAhead i t.qemuTimeNow t.computeThreshold).resumeIfBehind t.qemuTimeNow t.computeThreshold with
    active := s.active}

end Plugin

namespace Teardown
variable (τ : Teardown Time)

@[simps plugin mutex tripped] def goto (i : ℕ) (p : Phase) : Teardown Time := {τ with threads := Function.update τ.threads i p}

def unlock (i : ℕ) : Teardown Time := {τ with mutex := none}.goto i .leaving

/-- The next step of the thread of vCPU `i`. -/
def advance (i : ℕ) : Phase → Teardown Time
  | .guest => τ
  | .entering => {τ with refcount := τ.refcount+1}.goto i .counted
  | .counted => τ.goto i (if τ.alive then .dispatched else .leaving)
  | .dispatched => τ.goto i (if τ.shutdown then .leaving else .tested)
  | .tested =>
    if τ.plugin.status i ≠ .running then τ.goto i .leaving
    else if (τ.plugin.vcpus i).deltaInsn < τ.plugin.config.globalQuantum then
      {τ with plugin := {τ.plugin with failed := true}}.goto i .aborted
    else τ.goto i .waiting
  | .waiting => {τ with mutex := some i}.goto i .locked
  | .locked => if τ.plugin.status i ≠ .running then τ.unlock i else τ.goto i .checked
  | .checked =>
    match τ.plugin.active with
    | none => {τ with plugin := {τ.plugin with failed := true}, tripped := true}.goto i .aborted
    | some active => τ.goto i (.accounting active)
  | .accounting active => {τ with plugin := τ.plugin.accountLoaded i active}.goto i .rebalancing
  | .rebalancing =>
    match τ.plugin.active with
    | none => {τ with plugin := τ.plugin.detachSyncWindow}.unlock i
    | some active => τ.goto i (.balancing active)
  | .balancing active =>
    if τ.plugin.computeThreshold = 0 then τ.unlock i
    else {τ with plugin := τ.plugin.balance i active}.goto i .sending
  | .sending => {τ with plugin := τ.plugin.setSystemcWindow}.unlock i
  | .leaving => {τ with refcount := τ.refcount-1}.goto i .guest
  | .aborted => τ

/-- The next step of `shutdown_cleanup`. -/
def clean : Cleanup → Teardown Time
  | .outside => if τ.shutdown then τ else {τ with cleanup := .entered}
  | .entered => {τ with shutdown := true, cleanup := .flagged}
  | .flagged => {τ with plugin := {τ.plugin with active := none}, cleanup := .cleared}
  | .cleared => {τ with alive := false, cleanup := if τ.alive then .draining else .drained}
  | .draining => {τ with cleanup := .drained}
  | .drained => {τ with plugin := τ.plugin.detachSyncWindow, cleanup := .outside}

def step : TeardownAction → Teardown Time
  | .execTb i n => {τ with plugin := τ.plugin.execTb i n}
  | .fire i => τ.goto i (if τ.alive then .entering else .guest)
  | .proceed i => τ.advance i (τ.threads i)
  | .cleanup => τ.clean τ.cleanup

/-- A thread runs on, or fires the callback once its quota is met; the mutex is taken when free; the shutdown waits
for the callbacks. -/
def Enabled : TeardownAction → Prop
  | .execTb i _ => τ.threads i = .guest
  | .fire i => τ.threads i = .guest ∧ τ.plugin.config.globalQuantum ≤ (τ.plugin.vcpus i).deltaInsn
  | .proceed i => τ.threads i ≠ .guest ∧ τ.threads i ≠ .aborted ∧ (τ.threads i = .waiting → τ.mutex = none)
  | .cleanup => τ.cleanup = .draining → τ.refcount = 0

instance (a : TeardownAction) : Decidable (τ.Enabled a) := by
  cases a <;> simp only [Enabled] <;> infer_instance

/-- The active vCPU is cleared only when no thread is between its test of `m_shutdown` and its load. -/
def Unexposed : TeardownAction → Prop
  | .cleanup => τ.cleanup = .flagged → ∀ i, (τ.threads i).exposed = false
  | _ => True

def initial (s : Plugin Time) : Teardown Time where
  plugin := s
  shutdown := false
  alive := true
  refcount := 0
  mutex := none
  threads := fun _ => .guest
  cleanup := .outside
  tripped := false

def hasCleared : Bool := match τ.cleanup with
  | .outside => τ.shutdown
  | .entered | .flagged => false
  | .cleared | .draining | .drained => true

end Teardown

namespace Plugin
variable {s : Plugin Time}

lemma accountLoaded_config (i active : ℕ) : (s.accountLoaded i active).config = s.config := by
  simp only [accountLoaded,modify_config]
  split <;> rfl

lemma accountLoaded_vcpus_of_ne {i k : ℕ} (active : ℕ) (hki : k ≠ i) :
    (s.accountLoaded i active).vcpus k = s.vcpus k := by
  by_cases ha : active = i <;> simp [accountLoaded,hki,ha]

lemma accountLoaded_active (i active : ℕ) : (s.accountLoaded i active).active = s.active := by
  simp only [accountLoaded,modify_active]
  split <;> rfl

lemma accountLoaded_status (i active k : ℕ) : (s.accountLoaded i active).status k = s.status k := by
  by_cases hki : k = i <;> by_cases ha : active = i <;> simp [accountLoaded,status_def,hki,ha]

lemma execTb_status (i n k : ℕ) : (s.execTb i n).status k = s.status k := by
  by_cases hki : k = i <;> simp [execTb,status_def,hki]

lemma steady_balance (i active : ℕ) :
    Steady {s with active := some active} {s.balance i active with active := some active} := by
  have h := (steady_pauseIfAhead {s with active := some active} i
    {s with active := some active}.qemuTimeNow {s with active := some active}.computeThreshold).trans
    (steady_resumeIfBehind _ {s with active := some active}.qemuTimeNow {s with active := some active}.computeThreshold)
  exact ⟨h.config,h.numVcpus,h.window,h.qemuTime,h.qemuTimeNs,rfl,h.wdLastTickQemuTime,h.initialized,h.failed,
    h.insnPerSecond,h.deltaInsn,h.cpuTime,h.idle⟩

lemma foldl_resumeOne_running {k : ℕ} (t u : Time) (l : List ℕ) (hk : s.status k = .running) :
    (l.foldl (resumeOne t u) s).status k = .running := by
  induction l generalizing s with
  | nil => exact hk
  | cons i l ih =>
    apply ih
    unfold resumeOne
    split
    · by_cases hki : k = i
      · simp [resumeVcpu,status_def,hki]
      · simpa [resumeVcpu,status_def,hki] using hk
    · exact hk

lemma balance_running {i k : ℕ} (active : ℕ) (hki : k ≠ i) (hk : s.status k = .running) :
    (s.balance i active).status k = .running := by
  refine foldl_resumeOne_running _ _ _ ?_
  unfold pauseIfAhead
  split
  · simpa [status_def,hki] using hk
  · exact hk

/-- What a critical section may do: pause and resume vCPUs, account instructions, exchange windows. -/
structure Framed (s : Plugin Time) (i : ℕ) (s' : Plugin Time) : Prop where
  config : s'.config = s.config
  active : s'.active = s.active
  idle : ∀ k, s'.status k = .idle ↔ s.status k = .idle
  deltaInsn : ∀ k, k ≠ i → (s'.vcpus k).deltaInsn = (s.vcpus k).deltaInsn

lemma Steady.framed {s' : Plugin Time} (h : Steady s s') (i : ℕ) : Framed s i s' :=
  ⟨h.config,h.active,h.idle,fun k _ => h.deltaInsn k⟩

lemma framed_accountLoaded (i active : ℕ) : Framed s i (s.accountLoaded i active) where
  config := accountLoaded_config i active
  active := accountLoaded_active i active
  idle := fun k => by rw [accountLoaded_status]
  deltaInsn := fun k hk => by rw [accountLoaded_vcpus_of_ne active hk]

lemma framed_balance (i active : ℕ) : Framed s i (s.balance i active) :=
  ⟨(steady_balance i active).config,rfl,(steady_balance i active).idle,fun k _ => (steady_balance i active).deltaInsn k⟩

def Covered (s : Plugin Time) : Prop := s.active = none → ∀ i, s.status i = .idle

lemma Covered.framed {i : ℕ} {s' : Plugin Time} (h : Covered s) (hs : Framed s i s') : Covered s' :=
  fun hn k => (hs.idle k).mpr (h (hs.active ▸ hn) k)

end Plugin

namespace Teardown
variable {τ : Teardown Time}

@[simp] lemma goto_threads (i k : ℕ) (p : Phase) : (τ.goto i p).threads k = if k = i then p else τ.threads k :=
  Function.update_apply ..

/-- What a step of vCPU `i`'s thread can do. Outside the critical section it moves on, past the test of `m_shutdown`
only with the flag clear; it fails its quota check, takes the mutex, moves on, gives it back, or fails the assertion.
-/
inductive Moved (τ : Teardown Time) (i : ℕ) : Teardown Time → Prop where
  | free {n : ℕ} {p : Phase} (hi : (τ.threads i).holds = false) (hp : p.holds = false)
      (hfired : p.fired = true → (τ.threads i).fired = true)
      (hexposed : p.exposed = true → (τ.threads i).exposed = true ∨ τ.shutdown = false) :
      Moved τ i ({τ with refcount := n}.goto i p)
  | short (hi : τ.threads i = .tested) (hquota : (τ.plugin.vcpus i).deltaInsn < τ.plugin.config.globalQuantum) :
      Moved τ i ({τ with plugin := {τ.plugin with failed := true}}.goto i .aborted)
  | lock (hi : τ.threads i = .waiting) : Moved τ i ({τ with mutex := some i}.goto i .locked)
  | held {s : Plugin Time} {p : Phase} (hi : (τ.threads i).holds = true) (hp : p.holds = true)
      (hs : τ.plugin.Framed i s)
      (hexposed : p.exposed = true → (τ.threads i).exposed = true ∧ s.status i = .running) :
      Moved τ i ({τ with plugin := s}.goto i p)
  | unlock {s : Plugin Time} (hi : (τ.threads i).holds = true) (hs : τ.plugin.Framed i s) :
      Moved τ i ({τ with plugin := s}.unlock i)
  | trip (hi : τ.threads i = .checked) (hactive : τ.plugin.active = none) :
      Moved τ i ({τ with plugin := {τ.plugin with failed := true}, tripped := true}.goto i .aborted)

lemma moved_advance {i : ℕ} (hg : τ.threads i ≠ .guest) (ha : τ.threads i ≠ .aborted) :
    Moved τ i (τ.advance i (τ.threads i)) := by
  have hs : τ.plugin.Framed i τ.plugin := (Plugin.Steady.refl _).framed i
  cases hi : τ.threads i with
  | guest => exact absurd hi hg
  | entering => exact .free (by simp [hi,Phase.holds]) rfl (by simp [hi,Phase.fired]) (by simp [Phase.exposed])
  | counted =>
    simp only [Teardown.advance]
    split
    · exact .free (by simp [hi,Phase.holds]) rfl (by simp [hi,Phase.fired]) (by simp [Phase.exposed])
    · exact .free (by simp [hi,Phase.holds]) rfl (by simp [Phase.fired]) (by simp [Phase.exposed])
  | dispatched =>
    simp only [Teardown.advance]
    split
    · exact .free (by simp [hi,Phase.holds]) rfl (by simp [Phase.fired]) (by simp [Phase.exposed])
    · next hsh =>
      exact .free (by simp [hi,Phase.holds]) rfl (by simp [hi,Phase.fired]) fun _ => .inr (by simpa using hsh)
  | tested =>
    simp only [Teardown.advance]
    split
    · exact .free (by simp [hi,Phase.holds]) rfl (by simp [Phase.fired]) (by simp [Phase.exposed])
    · split
      · next hq => exact .short hi hq
      · exact .free (by simp [hi,Phase.holds]) rfl (by simp [Phase.fired]) fun _ => .inl (by simp [hi,Phase.exposed])
  | waiting => exact .lock hi
  | locked =>
    simp only [Teardown.advance]
    split
    · exact .unlock (by simp [hi,Phase.holds]) hs
    · next hr =>
      exact .held (by simp [hi,Phase.holds]) rfl hs fun _ => ⟨by simp [hi,Phase.exposed],not_not.mp hr⟩
  | checked =>
    simp only [Teardown.advance]
    split
    · next hac => exact .trip hi hac
    · exact .held (by simp [hi,Phase.holds]) rfl hs (by simp [Phase.exposed])
  | accounting active =>
    exact .held (by simp [hi,Phase.holds]) rfl (Plugin.framed_accountLoaded i active) (by simp [Phase.exposed])
  | rebalancing =>
    simp only [Teardown.advance]
    split
    · exact .unlock (by simp [hi,Phase.holds]) (τ.plugin.steady_detachSyncWindow.framed i)
    · exact .held (by simp [hi,Phase.holds]) rfl hs (by simp [Phase.exposed])
  | balancing active =>
    simp only [Teardown.advance]
    split
    · exact .unlock (by simp [hi,Phase.holds]) hs
    · exact .held (by simp [hi,Phase.holds]) rfl (Plugin.framed_balance i active) (by simp [Phase.exposed])
  | sending => exact .unlock (by simp [hi,Phase.holds]) (τ.plugin.steady_setSystemcWindow.framed i)
  | leaving => exact .free (by simp [hi,Phase.holds]) rfl (by simp [Phase.fired]) (by simp [Phase.exposed])
  | aborted => exact absurd hi ha

section
/-- The thread in the critical section holds the mutex, and a callback that fired has met its quota. -/
structure Exclusive (τ : Teardown Time) : Prop where
  owner : ∀ i, (τ.threads i).holds = true → τ.mutex = some i
  holder : ∀ i, τ.mutex = some i → (τ.threads i).holds = true ∨ τ.tripped = true
  quota : ∀ i, (τ.threads i).fired = true → τ.plugin.config.globalQuantum ≤ (τ.plugin.vcpus i).deltaInsn

lemma exclusive_initial (s : Plugin Time) : Exclusive (initial s) :=
  ⟨by simp [initial,Phase.holds],by simp [initial],by simp [initial,Phase.fired]⟩

section
variable (h : Exclusive τ)
include h

lemma Exclusive.eq_of_holds {i k : ℕ} (hi : (τ.threads i).holds = true)
    (hk : (τ.threads k).holds = true) : k = i :=
  Option.some.inj ((h.owner k hk).symm.trans (h.owner i hi))

lemma Exclusive.goto {i : ℕ} {p : Phase} (hh : p.holds = (τ.threads i).holds)
    (hf : p.fired = true → τ.plugin.config.globalQuantum ≤ (τ.plugin.vcpus i).deltaInsn) :
    Exclusive (τ.goto i p) := by
  refine ⟨fun k hk => ?_,fun k hk => ?_,fun k hk => ?_⟩
  · by_cases hki : k = i
    · subst hki
      exact h.owner k (by simpa [hh] using hk)
    · exact h.owner k (by simpa [hki] using hk)
  · by_cases hki : k = i
    · subst hki
      simpa [hh] using h.holder k hk
    · simpa [hki] using h.holder k hk
  · by_cases hki : k = i
    · subst hki
      exact hf (by simpa using hk)
    · exact h.quota k (by simpa [hki] using hk)

lemma Exclusive.unlock {i : ℕ} (hi : (τ.threads i).holds = true) : Exclusive (τ.unlock i) := by
  refine ⟨fun k hk => ?_,by simp [Teardown.unlock,Teardown.goto],fun k hk => ?_⟩
  · by_cases hki : k = i
    · simp [Teardown.unlock,hki,Phase.holds] at hk
    · exact absurd (h.eq_of_holds hi (by simpa [Teardown.unlock,hki] using hk)) hki
  · by_cases hki : k = i
    · simp [Teardown.unlock,hki,Phase.fired] at hk
    · exact h.quota k (by simpa [Teardown.unlock,hki] using hk)

lemma Exclusive.lock {i : ℕ} (hf : τ.mutex = none) :
    Exclusive ({τ with mutex := some i}.goto i .locked) := by
  refine ⟨fun k hk => ?_,fun k hk => ?_,fun k hk => ?_⟩
  · by_cases hki : k = i
    · simp [Teardown.goto,hki]
    · have hk' := h.owner k (by simpa [hki] using hk)
      simp [hf] at hk'
  · have hki : i = k := by simpa [Teardown.goto] using hk
    simp [hki,Phase.holds]
  · by_cases hki : k = i
    · simp [hki,Phase.fired] at hk
    · exact h.quota k (by simpa [hki] using hk)

lemma Exclusive.setPlugin {i : ℕ} (hi : (τ.threads i).holds = true) {s : Plugin Time}
    (hs : τ.plugin.Framed i s) : Exclusive {τ with plugin := s} := by
  refine ⟨h.owner,h.holder,fun k hk => ?_⟩
  have hki : k ≠ i := by
    rintro rfl
    simp [Phase.fired_of_holds hi] at hk
  simpa [hs.config,hs.deltaInsn k hki] using h.quota k hk

lemma Exclusive.setRefcount (n : ℕ) : Exclusive {τ with refcount := n} :=
  ⟨h.owner,h.holder,h.quota⟩

end

lemma Exclusive.moved {τ' : Teardown Time} (h : Exclusive τ) {i : ℕ} (hl : τ.threads i = .waiting → τ.mutex = none)
    (hm : Moved τ i τ') : Exclusive τ' := by
  cases hm with
  | free hi hp hfi he => exact (h.setRefcount _).goto (hp.trans hi.symm) fun hf => h.quota i (hfi hf)
  | short hi hq => exact absurd (h.quota i (by simp [hi,Phase.fired])) (not_le.mpr hq)
  | lock hi => exact h.lock (hl hi)
  | held hi hp hs he =>
    exact (h.setPlugin hi hs).goto (hp.trans hi.symm) (by simp [Phase.fired_of_holds hp])
  | unlock hi hs => exact (h.setPlugin hi hs).unlock hi
  | trip hi ha =>
    -- the mutex stays with a thread that is no longer in the critical section
    refine ⟨fun k hk => ?_,by simp,fun k hk => ?_⟩
    · by_cases hki : k = i
      · simp [hki,Phase.holds] at hk
      · exact h.owner k (by simpa [hki] using hk)
    · by_cases hki : k = i
      · simp [hki,Phase.fired] at hk
      · exact h.quota k (by simpa [hki] using hk)

lemma Exclusive.clean (h : Exclusive τ) (c : Cleanup) : Exclusive (τ.clean c) := by
  cases c with
  | outside =>
    simp only [Teardown.clean]
    split <;> exact ⟨h.owner,h.holder,h.quota⟩
  | drained =>
    have hs := τ.plugin.steady_detachSyncWindow
    refine ⟨h.owner,h.holder,fun k hk => ?_⟩
    simpa [Teardown.clean,hs.config,hs.deltaInsn] using h.quota k hk
  | _ => exact ⟨h.owner,h.holder,h.quota⟩

lemma Exclusive.step (h : Exclusive τ) {a : TeardownAction} (ha : τ.Enabled a) : Exclusive (τ.step a) := by
  cases a with
  | execTb i n =>
    have hg : τ.threads i = .guest := ha
    refine ⟨h.owner,h.holder,fun k hk => ?_⟩
    have hf : (τ.threads k).fired = true := hk
    have hki : k ≠ i := fun heq => by simp [heq,hg,Phase.fired] at hf
    simpa [Teardown.step,Plugin.execTb,hki] using h.quota k hf
  | fire i =>
    simp only [Teardown.step]
    split <;> exact h.goto (by simp [ha.1,Phase.holds]) fun _ => ha.2
  | proceed i => exact h.moved ha.2.2 (moved_advance ha.1 ha.2.1)
  | cleanup => exact h.clean τ.cleanup

end

section
/-- There is an active vCPU until it is cleared; then no thread is going to load it. -/
structure Safe (τ : Teardown Time) : Prop where
  covered : τ.hasCleared = false → τ.plugin.Covered
  unexposed : τ.hasCleared = true → ∀ i, (τ.threads i).exposed = false
  flag : τ.cleanup = .flagged ∨ τ.hasCleared = true → τ.shutdown = true
  running : ∀ i, τ.threads i = .checked → τ.plugin.status i = .running
  untripped : τ.tripped = false

variable {s : Plugin Time} {i : ℕ} {p : Phase}

lemma safe_initial (h : s.Covered) : Safe (initial s) where
  covered := fun _ => h
  unexposed := by simp [hasCleared,initial]
  flag := by simp [hasCleared,initial]
  running := by simp [initial]
  untripped := rfl

section
variable (h : Safe τ)
include h

lemma Safe.goto (he : τ.hasCleared = true → p.exposed = false)
    (hr : p = .checked → τ.plugin.status i = .running) : Safe (τ.goto i p) where
  covered := h.covered
  unexposed := fun hc k => by
    by_cases hki : k = i
    · simpa [hki] using he hc
    · simpa [hki] using h.unexposed hc k
  flag := h.flag
  running := fun k hk => by
    by_cases hki : k = i
    · subst hki
      exact hr (by simpa using hk)
    · exact h.running k (by simpa [hki] using hk)
  untripped := h.untripped

lemma Safe.setRefcount (n : ℕ) : Safe {τ with refcount := n} :=
  ⟨h.covered,h.unexposed,h.flag,h.running,h.untripped⟩

lemma Safe.setMutex (o : Option ℕ) : Safe {τ with mutex := o} :=
  ⟨h.covered,h.unexposed,h.flag,h.running,h.untripped⟩

lemma Safe.hasCleared_eq_false (hi : (τ.threads i).exposed = true) : τ.hasCleared = false := by
  by_contra hc
  simp [h.unexposed (by simpa using hc) i] at hi

/-- The thread in the critical section moves on; nobody else is between status check and load. -/
lemma Safe.held (hex : Exclusive τ) (hi : (τ.threads i).holds = true) (hs : τ.plugin.Framed i s)
    (he : p.exposed = true → (τ.threads i).exposed = true ∧ s.status i = .running) :
    Safe ({τ with plugin := s}.goto i p) where
  covered := fun hc => Plugin.Covered.framed (h.covered hc) hs
  unexposed := fun hc k => by
    by_cases hki : k = i
    · have hn := h.unexposed hc i
      simpa [hki,hn] using he
    · simpa [hki] using h.unexposed hc k
  flag := h.flag
  running := fun k hk => by
    by_cases hki : k = i
    · have hp : p = .checked := by simpa [hki] using hk
      exact hki ▸ (he (by simp [hp,Phase.exposed])).2
    · have hch : τ.threads k = .checked := by simpa [hki] using hk
      exact absurd (hex.eq_of_holds hi (by simp [hch,Phase.holds])) hki
  untripped := h.untripped

/-- The assertion of `cpu_end_delta_quota` holds: its vCPU is running, and so there is an active one. -/
lemma Safe.active_ne_none (hi : τ.threads i = .checked) : τ.plugin.active ≠ none := by
  intro hn
  have hil := h.covered (h.hasCleared_eq_false (i := i) (by simp [hi,Phase.exposed])) hn i
  simp [h.running i hi] at hil

end

lemma Safe.moved {τ' : Teardown Time} (h : Safe τ) (hex : Exclusive τ) (hm : Moved τ i τ') : Safe τ' := by
  have hcl := h.hasCleared_eq_false (i := i)
  cases hm with
  | free hi hp hfi he =>
    refine (h.setRefcount _).goto (fun hc => ?_) fun heq => by simp [heq,Phase.holds] at hp
    have hc : τ.hasCleared = true := hc
    rw [← Bool.not_eq_true]
    intro hpe
    rcases he hpe with ht | hsh
    · simp [hcl ht] at hc
    · simp [h.flag (.inr hc)] at hsh
  | short hi hq =>
    have hf : Safe {τ with plugin := {τ.plugin with failed := true}} :=
      ⟨h.covered,h.unexposed,h.flag,h.running,h.untripped⟩
    exact hf.goto (by simp [Phase.exposed]) (by simp)
  | lock hi =>
    have hn := hcl (by simp [hi,Phase.exposed])
    exact (h.setMutex (some i)).goto (fun hc => absurd hc (by simpa [hasCleared] using hn)) (by simp)
  | held hi hp hs he => exact h.held hex hi hs he
  | unlock hi hs => exact (h.held hex hi hs (by simp [Phase.exposed])).setMutex none
  | trip hi ha => exact absurd ha (h.active_ne_none hi)

lemma Safe.clean (h : Safe τ) (hg : τ.cleanup = .flagged → ∀ i, (τ.threads i).exposed = false) :
    Safe (τ.clean τ.cleanup) := by
  have hf := h.flag
  cases hc : τ.cleanup with
  | outside =>
    simp only [Teardown.clean]
    split
    · exact h
    · next hs =>
      have hn : τ.hasCleared = false := by simpa [hasCleared,hc] using hs
      exact ⟨fun _ => h.covered hn,by simp [hasCleared],by simp [hasCleared],h.running,h.untripped⟩
  | entered =>
    have hn : τ.hasCleared = false := by simp [hasCleared,hc]
    exact ⟨fun _ => h.covered hn,by simp [hasCleared,Teardown.clean],fun _ => rfl,h.running,h.untripped⟩
  | flagged =>
    exact ⟨by simp [hasCleared,Teardown.clean],fun _ => hg hc,fun _ => hf (.inl hc),h.running,h.untripped⟩
  | cleared =>
    have hcl : τ.hasCleared = true := by simp [hasCleared,hc]
    refine ⟨fun hn => ?_,fun _ => h.unexposed hcl,fun _ => hf (.inr hcl),h.running,h.untripped⟩
    cases ha : τ.alive <;> simp [hasCleared,Teardown.clean,ha] at hn
  | draining =>
    have hcl : τ.hasCleared = true := by simp [hasCleared,hc]
    exact ⟨by simp [hasCleared,Teardown.clean],fun _ => h.unexposed hcl,fun _ => hf (.inr hcl),h.running,h.untripped⟩
  | drained =>
    have hcl : τ.hasCleared = true := by simp [hasCleared,hc]
    have hs := hf (.inr hcl)
    refine ⟨by simp [hasCleared,Teardown.clean,hs],fun _ => h.unexposed hcl,fun _ => hs,?_,h.untripped⟩
    intro i hi
    have hch : τ.threads i = .checked := hi
    simpa [hch,Phase.exposed] using h.unexposed hcl i

lemma Safe.step (h : Safe τ) (hex : Exclusive τ) {a : TeardownAction} (ha : τ.Enabled a) (hg : τ.Unexposed a) :
    Safe (τ.step a) := by
  cases a with
  | execTb i n =>
    refine ⟨fun hc hn k => ?_,h.unexposed,h.flag,fun k hk => ?_,h.untripped⟩
    · exact (Plugin.execTb_status i n k).trans (h.covered hc hn k)
    · exact (Plugin.execTb_status i n k).trans (h.running k hk)
  | fire i =>
    simp only [Teardown.step]
    split <;> exact h.goto (by simp [Phase.exposed]) (by simp)
  | proceed i => exact h.moved hex (moved_advance ha.1 ha.2.1)
  | cleanup => exact h.clean hg

end

def Leads (τ : Teardown Time) (P : Teardown Time → Prop) : Prop :=
  ∃ τ', GuardedRun Teardown.step Teardown.Enabled τ τ' ∧ P τ'

lemma Leads.of_advance {P : Teardown Time → Prop} {i : ℕ} {p : Phase} (hi : τ.threads i = p)
    (hp : p ≠ .guest ∧ p ≠ .aborted ∧ (p = .waiting → τ.mutex = none)) (h : Leads (τ.advance i p) P) : Leads τ P := by
  have ha : τ.Enabled (.proceed i) := by
    subst hi
    exact hp
  have hs : τ.step (.proceed i) = τ.advance i p := by simp only [Teardown.step,hi]
  obtain ⟨τ',hr,hP⟩ := h
  rw [← hs] at hr
  exact ⟨τ',(GuardedRun.refl.tail ha).trans hr,hP⟩

section
def Trips (τ : Teardown Time) : Prop := Leads τ fun τ' => τ'.tripped = true

/-- The active vCPU has been cleared before the thread of the running vCPU `i` loads it. -/
structure Doomed (τ : Teardown Time) (i : ℕ) : Prop where
  active : τ.plugin.active = none
  running : τ.plugin.status i = .running
  exposed : (τ.threads i).exposed = true
  quota : τ.threads i = .tested → τ.plugin.config.globalQuantum ≤ (τ.plugin.vcpus i).deltaInsn

variable {i j : ℕ}

lemma trips_checked (ha : τ.plugin.active = none) (hi : τ.threads i = .checked) : Trips τ := by
  refine Leads.of_advance hi (by simp) ⟨_,.refl,?_⟩
  simp [Teardown.advance,ha]

lemma trips_locked (ha : τ.plugin.active = none) (hi : τ.threads i = .locked)
    (hr : τ.plugin.status i = .running) : Trips τ := by
  refine Leads.of_advance hi (by simp) ?_
  rw [Teardown.advance,if_neg (not_not.mpr hr)]
  exact trips_checked (i := i) ha (by simp)

section
variable (h : Doomed τ i)
include h

lemma Doomed.trips (hf : (τ.threads i).holds = false → τ.mutex = none) : Trips τ := by
  have hw : ∀ τ : Teardown Time, τ.plugin.active = none → τ.plugin.status i = .running → τ.mutex = none →
      τ.threads i = .waiting → Trips τ := by
    intro τ ha hr hm hi
    exact Leads.of_advance hi (by simp [hm]) (trips_locked ha (by simp [Teardown.advance]) hr)
  have he := h.exposed
  cases hi : τ.threads i with
  | tested =>
    refine Leads.of_advance hi (by simp) ?_
    rw [Teardown.advance,if_neg (not_not.mpr h.running),if_neg (not_lt.mpr (h.quota hi))]
    exact hw _ h.active h.running (hf (by simp [hi,Phase.holds])) (by simp)
  | waiting => exact hw τ h.active h.running (hf (by simp [hi,Phase.holds])) hi
  | locked => exact trips_locked h.active hi h.running
  | checked => exact trips_checked h.active hi
  | _ => simp [hi,Phase.exposed] at he

lemma Doomed.unlock (hij : i ≠ j) : Trips (τ.unlock j) := by
  have hd : Doomed (τ.unlock j) i := ⟨h.active,h.running,by simpa [Teardown.unlock,hij] using h.exposed,
      fun hi => h.quota (by simpa [Teardown.unlock,hij] using hi)⟩
  exact hd.trips fun _ => rfl

lemma Doomed.goto (hij : i ≠ j) (p : Phase) : Doomed (τ.goto j p) i :=
  ⟨h.active,h.running,by simpa [hij] using h.exposed,fun hi => h.quota (by simpa [hij] using hi)⟩

lemma Doomed.setPlugin {s : Plugin Time} (hc : s.config = τ.plugin.config)
    (ha : s.active = τ.plugin.active) (hr : s.status i = .running)
    (hin : (s.vcpus i).deltaInsn = (τ.plugin.vcpus i).deltaInsn) : Doomed {τ with plugin := s} i :=
  ⟨ha.trans h.active,hr,h.exposed,fun hi => by simpa [hc,hin] using h.quota hi⟩

lemma Doomed.agrees {s : Plugin Time} (hs : Plugin.Agrees τ.plugin s) :
    Doomed {τ with plugin := s} i :=
  h.setPlugin hs.config hs.active (by rw [Plugin.status_def,hs.vcpus]; exact h.running) (by rw [hs.vcpus])

lemma Doomed.trips_rebalancing (hij : i ≠ j) (hj : τ.threads j = .rebalancing) : Trips τ := by
  refine Leads.of_advance hj (by simp) ?_
  simp only [Teardown.advance,h.active]
  exact (h.agrees (Plugin.agrees_detachSyncWindow _)).unlock hij

lemma Doomed.trips_sending (hij : i ≠ j) (hj : τ.threads j = .sending) : Trips τ :=
  Leads.of_advance hj (by simp) ((h.agrees (Plugin.agrees_setSystemcWindow _)).unlock hij)

lemma Doomed.trips_busy (hij : i ≠ j) (hj : (τ.threads j).holds = true) : Trips τ := by
  cases hp : τ.threads j with
  | locked =>
    by_cases hr : τ.plugin.status j = .running
    · exact trips_locked h.active hp hr
    · refine Leads.of_advance hp (by simp) ?_
      rw [Teardown.advance,if_pos hr]
      exact h.unlock hij
  | checked => exact trips_checked h.active hp
  | accounting active =>
    refine Leads.of_advance hp (by simp) ?_
    have hpl := h.setPlugin (Plugin.accountLoaded_config j active) (Plugin.accountLoaded_active j active)
        (by rw [Plugin.accountLoaded_status,h.running]) (by rw [Plugin.accountLoaded_vcpus_of_ne active hij])
    exact (hpl.goto hij .rebalancing).trips_rebalancing hij (by simp)
  | rebalancing => exact h.trips_rebalancing hij hp
  | balancing active =>
    refine Leads.of_advance hp (by simp) ?_
    have hs := Plugin.steady_balance (s := τ.plugin) j active
    have hpl : Doomed {τ with plugin := τ.plugin.balance j active} i :=
      h.setPlugin hs.config rfl (Plugin.balance_running active hij h.running) (hs.deltaInsn i)
    simp only [Teardown.advance]
    split
    · exact h.unlock hij
    · exact (hpl.goto hij .sending).trips_sending hij (by simp)
  | sending => exact h.trips_sending hij hp
  | _ => simp [hp,Phase.holds] at hj

end

/-- Once the active vCPU has been cleared under the thread of a running vCPU, the assertion can fail. -/
lemma Exclusive.trips (h : Exclusive τ) (hi : Doomed τ i) : Trips τ := by
  cases hm : τ.mutex with
  | none => exact hi.trips fun _ => hm
  | some j =>
    rcases h.holder j hm with hj | ht
    · by_cases hij : i = j
      · subst hij
        exact hi.trips (by simp [hj])
      · exact hi.trips_busy hij hj
    · exact ⟨τ,.refl,ht⟩

end
end Teardown

/-- While the shutdown clears the active vCPU only with no thread between its test of `m_shutdown` and its load, the
assertion never fails; where it clears it under a running vCPU's thread, it can. -/
theorem quota_assertion_unexposed {config : Config Time} {numVcpus : ℕ} {rates : ℕ → ℕ} {s : Plugin Time}
    (hs : GuardedRun step Allowed (.initial config numVcpus rates) s) :
    (∀ τ, GuardedRun Teardown.step (fun τ a => τ.Enabled a ∧ τ.Unexposed a) (.initial s) τ → τ.tripped = false) ∧
      ∀ τ i, GuardedRun Teardown.step Teardown.Enabled (.initial s) τ → τ.cleanup = .flagged →
        (τ.threads i).exposed = true → τ.plugin.status i = .running →
        ∃ τ', GuardedRun Teardown.step Teardown.Enabled (τ.step .cleanup) τ' ∧ τ'.tripped = true := by
  refine ⟨fun τ h => ?_,fun τ i h hf he hr => ?_⟩
  · have hin := h.invariant (I := fun τ => τ.Exclusive ∧ τ.Safe)
        (fun τ a hτ ha => ⟨hτ.1.step ha.1,hτ.2.step hτ.1 ha.1 ha.2⟩)
        ⟨Teardown.exclusive_initial s,Teardown.safe_initial (led_of_run hs).allIdle⟩
    exact hin.2.untripped
  · have hex := h.invariant (fun τ a hτ ha => hτ.step ha) (Teardown.exclusive_initial s)
    have hc : τ.step .cleanup = {τ with plugin := {τ.plugin with active := none}, cleanup := .cleared} := by
      simp [Teardown.step,Teardown.clean,hf]
    have hd : (τ.step .cleanup).Doomed i := by
      rw [hc]
      refine ⟨rfl,hr,he,fun hi => ?_⟩
      have ht : τ.threads i = .tested := hi
      exact hex.quota i (by simp [ht,Phase.fired])
    exact (hex.step (by simp [Teardown.Enabled,hf])).trips hd

def bothInit : List (Action ℚ) := [.vcpuInit 0 2,.vcpuInit 1 2]

def twoRunning : Plugin ℚ := bothInit.foldl step twoVcpus

def clearedBeforeQuota : List TeardownAction :=
  [.execTb 0 1000,.cleanup,.cleanup,.cleanup,.fire 0,.proceed 0,.proceed 0,.proceed 0]

/-- It sees the flag and leaves. -/
theorem quota_assertion_unexposed_before :
    (clearedBeforeQuota.foldl Teardown.step (.initial twoRunning)).threads 0 = .leaving ∧
      (clearedBeforeQuota.foldl Teardown.step (.initial twoRunning)).tripped = false := by
  have hr : GuardedRun step Allowed twoVcpus twoRunning := GuardedRun.refl.foldl (by decide +kernel)
  have he : GuardedRun.Along Teardown.step Teardown.Enabled (.initial twoRunning) clearedBeforeQuota := by
    decide +kernel
  have hu : GuardedRun.Along Teardown.step Teardown.Unexposed (.initial twoRunning) clearedBeforeQuota :=
    ⟨trivial,fun _ _ => rfl,fun _ _ => rfl,fun _ _ => rfl,trivial,trivial,trivial,trivial,trivial⟩
  exact ⟨by decide +kernel,(quota_assertion_unexposed hr).1 _
    (GuardedRun.refl.foldl (GuardedRun.along_and.mpr ⟨he,hu⟩))⟩

def clearedUnderQuota : List TeardownAction :=
  [.execTb 0 1000,.fire 0,.proceed 0,.proceed 0,.proceed 0,.cleanup,.cleanup,.cleanup,.proceed 0,.proceed 0,.proceed 0,
    .proceed 0]

/-- It takes the mutex, finds its vCPU running and no active one, and its assertion fails. -/
theorem quota_assertion_tripped : GuardedRun.Along step Allowed twoVcpus bothInit ∧
      GuardedRun.Along Teardown.step Teardown.Enabled (.initial twoRunning) clearedUnderQuota ∧
      (clearedUnderQuota.foldl Teardown.step (.initial twoRunning)).tripped = true := by
  decide +kernel

end Qbox.McipsPlugin
