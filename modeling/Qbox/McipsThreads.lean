import Qbox.McipsActive

/-! The threads of `McipsPlugin`, one load or store at a time: `get_qemu_clock` reads without the mutex, between the writes
of the callbacks. A callback that nobody interrupts is one step of the plugin. -/
namespace Qbox.McipsPlugin
open Plugin

variable {Time : Type} [AddCommMonoid Time] [LinearOrder Time]

/-- What the holder of `m_mcips_mutex` does next. A vCPU's callbacks run on its own thread. -/
inductive Critical (Time : Type) where
  | quotaBase (i : ℕ) (delta : Time)
  | quotaDelta (i : ℕ) (delta : Time)
  | idleBase (i : ℕ) (delta : Time)
  | idleSelect (i : ℕ) (delta : Time)
  | idleNew (i j : ℕ)
  | idleOwn (i : ℕ)
  | resumeTime (i : ℕ)
  | resumeBase (i : ℕ) (now : Time)
  | resumeActive (i : ℕ)
  | rebalance (i : ℕ)
  | tickBase (j : ℕ) (current : Time)
  | tickTime (j : ℕ) (current : Time)

def Critical.owner : Critical Time → Option ℕ
  | .quotaBase i _ | .quotaDelta i _ | .idleBase i _ | .idleSelect i _ | .idleNew i _ | .idleOwn i | .resumeTime i
  | .resumeBase i _ | .resumeActive i | .rebalance i => some i
  | .tickBase _ _ | .tickTime _ _ => none

/-- Where a caller of `get_qemu_clock` is, with what it has loaded. -/
inductive Caller (Time : Type) where
  | outside
  | loadedActive (active : Option ℕ)
  | loadedBase (active : Option ℕ) (base : Time)
  deriving DecidableEq

/-- The plugin with its threads: `adding i` is about to be stored, `returned c` what caller `c` has got. -/
structure Threads (Time : Type) [AddCommMonoid Time] [LinearOrder Time] where
  plugin : Plugin Time
  critical : Option (Critical Time)
  adding : ℕ → Option ℕ
  callers : ℕ → Caller Time
  returned : ℕ → List Time
  scTime : Time

namespace Plugin
def setStatuses (s : Plugin Time) (run : ℕ → Bool) : Plugin Time := {s with vcpus := fun k => {s.vcpus k with
    status := if (s.vcpus k).status = .idle then .idle else if run k then .running else .paused}}

def booted (config : Config Time) (numVcpus : ℕ) (rates : ℕ → ℕ) : Plugin Time :=
  (List.range numVcpus).foldl (fun s i => s.vcpuInit i numVcpus) (.initial config numVcpus rates)

def clockValue (s : Plugin Time) (scTime : Time) (active : Option ℕ) (base : Time) : Time := match active with
  | none => if 0 < base then max base scTime else base
  | some j => base+s.cpuDeltaTime j

end Plugin

namespace Threads
variable (s : Plugin Time)

/-- The write of the holder of the mutex, with the decisions of a rebalance. -/
def write (run : ℕ → Bool) : Critical Time → Plugin Time
  | .quotaBase i delta => if s.active = some i then s.addQemuTime delta else s
  | .quotaDelta i delta => s.modify i fun v => {v with cpuTime := v.cpuTime+delta, deltaInsn := 0}
  | .idleBase _ delta => s.addQemuTime delta
  | .idleSelect i delta =>
    let s := s.modify i fun v => {v with cpuTime := v.cpuTime+delta}
    {s with active := s.selectActiveVcpu}
  | .idleNew _ j => s.modify j fun v =>
      {v with cpuTime := s.qemuTime, deltaInsn := 0, status := if v.status = .paused then .running else v.status}
  | .idleOwn i => s.modify i fun v => {v with deltaInsn := 0}
  | .resumeTime _ => s
  | .resumeBase _ now => if s.qemuTime < now then {s with qemuTime := now}.syncQemuTimeNs else s
  | .resumeActive i => {s.modify i fun v => {v with cpuTime := s.qemuTime} with active := some i}
  | .rebalance _ => s.setStatuses run
  | .tickBase _ _ => s.addQemuTime s.config.quantum
  | .tickTime j current =>
    {s.modify j fun v => {v with cpuTime := v.cpuTime+s.config.quantum} with wdLastTickQemuTime := current}

/-- What the holder does after its write to `s`. A resume has read the time of SystemC. -/
def next (scTime : Time) : Critical Time → Option (Critical Time)
  | .quotaBase i delta => some (.quotaDelta i delta)
  | .quotaDelta i _ => some (.rebalance i)
  | .idleBase i delta => some (.idleSelect i delta)
  | .idleSelect i _ => some (s.active.elim (.idleOwn i) (.idleNew i))
  | .idleNew i _ => some (.idleOwn i)
  | .idleOwn i => some (.rebalance i)
  | .resumeTime i => some (.resumeBase i scTime)
  | .resumeBase i _ => some (.resumeActive i)
  | .resumeActive _ => none
  | .rebalance _ => none
  | .tickBase j current => some (.tickTime j current)
  | .tickTime _ _ => none

/-- The entry into a callback: the plugin, and what its thread does next if it keeps the mutex. -/
def enterQuota (i : ℕ) : Plugin Time × Option (Critical Time) :=
  if s.status i = .running then (s,some (.quotaBase i (s.cpuDeltaTime i))) else (s,none)

def enterIdle (i : ℕ) : Plugin Time × Option (Critical Time) := if s.status i = .running then
    (s.modify i fun v => {v with status := .idle},
      some (if s.active = some i then .idleBase i (s.cpuDeltaTime i) else .idleOwn i))
  else (s,none)

def enterResume (i : ℕ) : Plugin Time × Option (Critical Time) := match s.status i with
  | .idle =>
    (s.modify i fun v => {v with status := .running, cpuTime := s.qemuTimeNow},
      if s.active = none then some (.resumeTime i) else none)
  | .paused => (s,some (.rebalance i))
  | .running => (s,none)

def enterTick : Plugin Time × Option (Critical Time) := match s.active with
  | none => (s,none)
  | some j =>
    if s.qemuTimeNow = s.wdLastTickQemuTime ∧ 0 < s.config.quantum then (s,some (.tickBase j s.qemuTimeNow))
    else ({s with wdLastTickQemuTime := s.qemuTimeNow},none)

end Threads

/-- The steps of all threads. `load` and `store` are the inline addition of a vCPU's instructions. -/
inductive ThreadAction (Time : Type) where
  | load (i n : ℕ)
  | store (i : ℕ)
  | quota (i : ℕ)
  | idle (i : ℕ)
  | resume (i : ℕ)
  | tick
  | receiveWindow (w : Window Time) (run : ℕ → Bool)
  | proceed (run : ℕ → Bool)
  | advance (t : Time)
  | clockActive (c : ℕ)
  | clockBase (c : ℕ)
  | clockReturn (c : ℕ)

namespace Threads
variable (σ : Threads Time)

def enter (e : Plugin Time × Option (Critical Time)) : Threads Time := {σ with plugin := e.1, critical := e.2}

def step : ThreadAction Time → Threads Time
  | .load i n => {σ with adding := Function.update σ.adding i (some ((σ.plugin.vcpus i).deltaInsn+n))}
  | .store i =>
    {σ with
      plugin := σ.plugin.modify i fun v => {v with deltaInsn := (σ.adding i).getD v.deltaInsn}
      adding := Function.update σ.adding i none}
  | .quota i => σ.enter (enterQuota σ.plugin i)
  | .idle i => σ.enter (enterIdle σ.plugin i)
  | .resume i => σ.enter (enterResume σ.plugin i)
  | .tick => σ.enter (enterTick σ.plugin)
  | .receiveWindow w run => {σ with plugin := {σ.plugin with window := w}.setStatuses run}
  | .proceed run =>
    match σ.critical with
    | none => σ
    | some c => σ.enter (write σ.plugin run c,next (write σ.plugin run c) σ.scTime c)
  | .advance t => {σ with scTime := t}
  | .clockActive c => {σ with callers := Function.update σ.callers c (.loadedActive σ.plugin.active)}
  | .clockBase c =>
    match σ.callers c with
    | .loadedActive a => {σ with callers := Function.update σ.callers c (.loadedBase a σ.plugin.qemuTimeNs)}
    | _ => σ
  | .clockReturn c =>
    match σ.callers c with
    | .loadedBase a b =>
      {σ with
        callers := Function.update σ.callers c .outside
        returned := Function.update σ.returned c (σ.returned c ++ [σ.plugin.clockValue σ.scTime a b])}
    | _ => σ

/-- A callback takes the mutex when free and runs on its own thread, SystemC time does not go back, and a caller goes
on. -/
def Enabled : ThreadAction Time → Prop
  | .load i _ => σ.adding i = none ∧ (∀ c ∈ σ.critical, c.owner ≠ some i)
  | .store i => σ.adding i ≠ none
  | .quota i => σ.critical.isNone = true ∧ σ.adding i = none
  | .idle i => σ.critical.isNone = true ∧ σ.adding i = none
  | .resume i => σ.critical.isNone = true ∧ σ.adding i = none
  | .tick => σ.critical.isNone = true
  | .receiveWindow _ _ => σ.critical.isNone = true
  | .proceed _ => σ.critical.isSome = true
  | .advance t => σ.scTime ≤ t
  | .clockActive c => σ.callers c = .outside
  | .clockBase c => (σ.callers c matches .loadedActive _) = true
  | .clockReturn c => (σ.callers c matches .loadedBase _ _) = true

instance (a : ThreadAction Time) : Decidable (σ.Enabled a) := by
  cases a <;> simp only [Enabled] <;> infer_instance

def initial (config : Config Time) (numVcpus : ℕ) (rates : ℕ → ℕ) (scTime : Time) : Threads Time where
  plugin := .booted config numVcpus rates
  critical := none
  adding := fun _ => none
  callers := fun _ => .outside
  returned := fun _ => []
  scTime := scTime

end Threads

namespace Plugin

end Plugin

namespace Threads
variable {σ : Threads Time}

/-- Where the mutex is held, what its holder has read is still true. -/
def Stage (s : Plugin Time) : Critical Time → Prop
  | .quotaBase i delta => delta = s.cpuDeltaTime i
  | .idleBase i delta => s.active = some i ∧ delta = s.cpuDeltaTime i ∧ s.status i = .idle
  | .idleSelect i _ => s.status i = .idle
  | .idleNew i j => s.active = some j ∧ j ≠ i
  | .idleOwn i => s.active ≠ some i
  | .resumeTime _ | .resumeBase _ _ => s.active = none
  | _ => True

/-- Between steps the shadow is the QEMU time, an addition stores no less than is there, and no vCPU adds while its
thread holds the mutex. -/
structure Sane (σ : Threads Time) : Prop where
  shadow : σ.plugin.qemuTimeNs = σ.plugin.qemuTime
  adding : ∀ i v, σ.adding i = some v → (σ.plugin.vcpus i).deltaInsn ≤ v
  owner : ∀ c ∈ σ.critical, ∀ i, c.owner = some i → σ.adding i = none
  stage : ∀ c ∈ σ.critical, Stage σ.plugin c

section
variable {s : Plugin Time} {scTime : Time} {run : ℕ → Bool} {c : Critical Time}

lemma cpuDeltaTime_modify_of_ne {i j : ℕ} (hji : j ≠ i) (f : VCPUTime Time → VCPUTime Time) :
    (s.modify i f).cpuDeltaTime j = s.cpuDeltaTime j := by
  simp [Plugin.cpuDeltaTime,hji]

lemma cpuDeltaTime_modify {i : ℕ} {f : VCPUTime Time → VCPUTime Time}
    (hi : (f (s.vcpus i)).deltaInsn = (s.vcpus i).deltaInsn)
    (hr : (f (s.vcpus i)).insnPerSecond = (s.vcpus i).insnPerSecond) (j : ℕ) :
    (s.modify i f).cpuDeltaTime j = s.cpuDeltaTime j := by
  by_cases hji : j = i
  · simp [Plugin.cpuDeltaTime,hji,hi,hr]
  · exact cpuDeltaTime_modify_of_ne hji f

lemma write_shadow (h : s.qemuTimeNs = s.qemuTime) : (write s run c).qemuTimeNs = (write s run c).qemuTime := by
  cases c with
  | quotaBase i delta | resumeBase i now =>
    simp only [write]
    split
    · rfl
    · exact h
  | idleBase i delta | tickBase j current => rfl
  | _ => exact h

lemma write_deltaInsn_le (k : ℕ) : ((write s run c).vcpus k).deltaInsn ≤ (s.vcpus k).deltaInsn := by
  cases c with
  | quotaBase i delta | resumeBase i now =>
    simp only [write]
    split <;> exact le_rfl
  | quotaDelta i delta | idleSelect i delta | idleOwn i | resumeActive i => by_cases hki : k = i <;> simp [write,hki]
  | idleNew i j | tickTime j current => by_cases hkj : k = j <;> simp [write,hkj]
  | _ => exact le_rfl

lemma next_owner : ∀ c' ∈ next s scTime c, c'.owner = c.owner := by
  cases c with
  | idleSelect i delta => cases ha : s.active <;> simp [next,ha,Critical.owner]
  | _ => simp [next,Critical.owner]

/-- What the holder has read stays true until its next write. -/
lemma stage_next (h : Stage s c) : ∀ c' ∈ next (write s run c) scTime c, Stage (write s run c) c' := by
  cases c with
  | idleBase i delta => simpa [next,Stage,write,status_def] using h.2.2
  | idleSelect i delta =>
    have hi : (s.modify i fun v => {v with cpuTime := v.cpuTime+delta}).status i = .idle := by
      simpa [Stage,status_def] using h
    cases hs : (s.modify i fun v => {v with cpuTime := v.cpuTime+delta}).selectActiveVcpu with
    | none => simp [next,Stage,write,hs]
    | some j =>
      have hne : j ≠ i := by
        intro hji
        have hm := List.mem_of_head? hs
        simp [Plugin.nonIdle,hji,hi] at hm
      simpa [next,Stage,write,hs] using hne
  | idleNew i j => simpa [next,Stage,write,h.1] using h.2
  | resumeTime i => simpa [next,Stage,write] using h
  | _ => simp [next,Stage]

end

section
lemma Sane.enter {e : Plugin Time × Option (Critical Time)} (h : Sane σ) (hs : e.1.qemuTimeNs = e.1.qemuTime)
    (hi : ∀ i, (e.1.vcpus i).deltaInsn ≤ (σ.plugin.vcpus i).deltaInsn)
    (ho : ∀ c ∈ e.2, ∀ i, c.owner = some i → σ.adding i = none) (hst : ∀ c ∈ e.2, Stage e.1 c) : Sane (σ.enter e) :=
  ⟨hs,fun i v hv => (hi i).trans (h.adding i v hv),ho,hst⟩

lemma Sane.enterQuota {i : ℕ} (h : Sane σ) (hi : σ.adding i = none) : Sane (σ.enter (enterQuota σ.plugin i)) := by
  unfold Threads.enterQuota
  split
  · refine h.enter h.shadow (fun _ => le_rfl) ?_ ?_
    · simpa [Critical.owner] using hi
    · simp [Stage]
  · exact h.enter h.shadow (fun _ => le_rfl) (by simp) (by simp)

lemma Sane.enterIdle {i : ℕ} (h : Sane σ) (hi : σ.adding i = none) : Sane (σ.enter (enterIdle σ.plugin i)) := by
  unfold Threads.enterIdle
  split
  · refine h.enter h.shadow (fun k => ?_) ?_ ?_
    · by_cases hki : k = i <;> simp [hki]
    · by_cases ha : σ.plugin.active = some i <;> simpa [ha,Critical.owner] using hi
    · have hd : σ.plugin.cpuDeltaTime i =
          (σ.plugin.modify i fun v => {v with status := .idle}).cpuDeltaTime i := (cpuDeltaTime_modify rfl rfl i).symm
      by_cases ha : σ.plugin.active = some i <;> simp [ha,Stage,status_def,← hd]
  · exact h.enter h.shadow (fun _ => le_rfl) (by simp) (by simp)

lemma Sane.enterResume {i : ℕ} (h : Sane σ) (hi : σ.adding i = none) : Sane (σ.enter (enterResume σ.plugin i)) := by
  unfold Threads.enterResume
  split
  · refine h.enter h.shadow (fun k => ?_) ?_ ?_
    · by_cases hki : k = i <;> simp [hki]
    · by_cases ha : σ.plugin.active = none <;> simp [ha,Critical.owner,hi]
    · by_cases ha : σ.plugin.active = none <;> simp [ha,Stage]
  · exact h.enter h.shadow (fun _ => le_rfl) (by simpa [Critical.owner] using hi) (by simp [Stage])
  · exact h.enter h.shadow (fun _ => le_rfl) (by simp) (by simp)

lemma Sane.enterTick (h : Sane σ) : Sane (σ.enter (enterTick σ.plugin)) := by
  unfold Threads.enterTick
  split
  · exact h.enter h.shadow (fun _ => le_rfl) (by simp) (by simp)
  · split
    · exact h.enter h.shadow (fun _ => le_rfl) (by simp [Critical.owner]) (by simp [Stage])
    · exact h.enter h.shadow (fun _ => le_rfl) (by simp) (by simp)

lemma Sane.proceed (h : Sane σ) (run : ℕ → Bool) : Sane (σ.step (.proceed run)) := by
  cases hc : σ.critical with
  | none => simpa [Threads.step,hc] using h
  | some c =>
    simp only [Threads.step,hc]
    refine h.enter (write_shadow h.shadow) (fun i => write_deltaInsn_le i) (fun c' hc' i hi => ?_) ?_
    · exact h.owner c hc i (next_owner c' hc' ▸ hi)
    · exact stage_next (h.stage c hc)

lemma Stage.modify {s : Plugin Time} {c : Critical Time} {i : ℕ} {f : VCPUTime Time → VCPUTime Time}
    (h : Stage s c) (ho : c.owner ≠ some i) (hst : (f (s.vcpus i)).status = (s.vcpus i).status) :
    Stage (s.modify i f) c := by
  have hs : ∀ k, (s.modify i f).status k = s.status k := by
    intro k
    by_cases hki : k = i <;> simp [status_def,hki,hst]
  cases c with
  | quotaBase k delta =>
    have hki : k ≠ i := by simpa [Critical.owner] using ho
    exact h.trans (cpuDeltaTime_modify_of_ne hki f).symm
  | idleBase k delta =>
    have hki : k ≠ i := by simpa [Critical.owner] using ho
    exact ⟨h.1,h.2.1.trans (cpuDeltaTime_modify_of_ne hki f).symm,(hs k).trans h.2.2⟩
  | idleSelect k delta => exact (hs k).trans h
  | _ => exact h

lemma Sane.step {a : ThreadAction Time} (h : Sane σ) (ha : σ.Enabled a) : Sane (σ.step a) := by
  cases a with
  | load i n =>
    refine ⟨h.shadow,fun k v hv => ?_,fun c hc k hk => ?_,h.stage⟩
    · by_cases hki : k = i
      · subst hki
        have heq : (σ.plugin.vcpus k).deltaInsn+n = v := by simpa [Threads.step] using hv
        simp [Threads.step,← heq]
      · exact h.adding k v (by simpa [Threads.step,hki] using hv)
    · have hki : k ≠ i := fun heq => ha.2 c hc (heq ▸ hk)
      simpa [Threads.step,hki] using h.owner c hc k hk
  | store i =>
    refine ⟨h.shadow,fun k v hv => ?_,fun c hc k hk => ?_,fun c hc => ?_⟩
    · by_cases hki : k = i
      · simp [Threads.step,hki] at hv
      · simpa [Threads.step,hki] using h.adding k v (by simpa [Threads.step,hki] using hv)
    · by_cases hki : k = i
      · simp [Threads.step,hki]
      · simpa [Threads.step,hki] using h.owner c hc k hk
    · exact (h.stage c hc).modify (fun ho => ha (h.owner c hc i ho)) rfl
  | quota i => exact h.enterQuota ha.2
  | idle i => exact h.enterIdle ha.2
  | resume i => exact h.enterResume ha.2
  | tick => exact h.enterTick
  | receiveWindow w run =>
    have hcr : σ.critical = none := by simpa [Enabled] using ha
    exact ⟨h.shadow,h.adding,h.owner,by simp [Threads.step,hcr]⟩
  | proceed run => exact h.proceed run
  | advance t | clockActive c => exact ⟨h.shadow,h.adding,h.owner,h.stage⟩
  | clockBase c | clockReturn c =>
    simp only [Threads.step]
    split <;> exact ⟨h.shadow,h.adding,h.owner,h.stage⟩

end

lemma sane_initial (config : Config Time) (numVcpus : ℕ) (rates : ℕ → ℕ) (scTime : Time) :
    Sane (initial config numVcpus rates scTime) := by
  have hb : ∀ (l : List ℕ) (s : Plugin Time), s.qemuTimeNs = s.qemuTime →
      (l.foldl (fun s i => s.vcpuInit i numVcpus) s).qemuTimeNs =
        (l.foldl (fun s i => s.vcpuInit i numVcpus) s).qemuTime := by
    intro l
    induction l with
    | nil => exact fun s hs => hs
    | cons i l ih => exact fun s hs => ih _ hs
  exact ⟨hb _ _ rfl,by simp [initial],by simp [initial],by simp [initial]⟩

end Threads

namespace Plugin
/-- Equal but for the exchange with SystemC and what is recorded. -/
structure Agrees (s s' : Plugin Time) : Prop where
  config : s'.config = s.config
  numVcpus : s'.numVcpus = s.numVcpus
  window : s'.window = s.window
  qemuTime : s'.qemuTime = s.qemuTime
  qemuTimeNs : s'.qemuTimeNs = s.qemuTimeNs
  active : s'.active = s.active
  vcpus : s'.vcpus = s.vcpus
  wdLastTickQemuTime : s'.wdLastTickQemuTime = s.wdLastTickQemuTime

variable {s : Plugin Time}

lemma agrees_detachSyncWindow (s : Plugin Time) : Agrees s s.detachSyncWindow := by
  unfold detachSyncWindow
  split <;> exact ⟨rfl,rfl,rfl,rfl,rfl,rfl,rfl,rfl⟩

lemma agrees_setSystemcWindow (s : Plugin Time) : Agrees s s.setSystemcWindow := by
  unfold setSystemcWindow
  split <;> exact ⟨rfl,rfl,rfl,rfl,rfl,rfl,rfl,rfl⟩

end Plugin

end Qbox.McipsPlugin
