import Qbox.SyncWindow
import Mathlib.Data.List.MinMax
import Mathlib.Algebra.Order.Field.Rat

/-! `McipsPlugin`: the callbacks that move vCPUs between idle, paused and running, elect the active vCPU and
keep the QEMU time. Each callback is one step, as under `m_mcips_mutex`. -/
namespace Qbox.McipsPlugin
variable {Time : Type}

/-- `vCPUTimeStatus`. -/
inductive Status where
  | idle | paused | running
  deriving DecidableEq, Repr

/-- `vCPUTime`, an entry of the scoreboard. -/
@[ext] structure VCPUTime (Time : Type) where
  insnPerSecond : ℕ
  deltaInsn : ℕ
  cpuTime : Time
  status : Status

/-- What is fixed at the end of the elaboration, and the time of instructions at a rate. -/
structure Config (Time : Type) [AddCommMonoid Time] [LinearOrder Time] where
  quantum : Time
  quantum_nonneg : 0 ≤ quantum
  globalQuantum : ℕ
  maxTime : Time
  insnTime : ℕ → ℕ → Time
  insnTime_zero : ∀ rate, insnTime 0 rate = 0
  insnTime_mono : ∀ rate, Monotone fun n => insnTime n rate

def Config.exact (quantum : ℚ) (h : 0 ≤ quantum) : Config ℚ where
  quantum := quantum
  quantum_nonneg := h
  globalQuantum := (quantum*1000000000).floor.toNat
  maxTime := 1000000000
  insnTime := fun n rate => n/rate
  insnTime_zero := by simp
  insnTime_mono := fun rate n m hnm => by simp only; gcongr

/-- A vCPU that is taken from paused to running, with the times and the threshold of that moment. -/
structure Resumption (Time : Type) where
  vcpu : ℕ
  isActive : Bool
  qemuTime : Time
  cpuTime : Time
  threshold : Time
  deriving DecidableEq, Repr

/-- The members of the plugin; `resumed` lists the resumptions, `failed` an assertion that did not hold. -/
structure Plugin (Time : Type) [AddCommMonoid Time] [LinearOrder Time] where
  config : Config Time
  numVcpus : ℕ
  window : Window Time
  qemuTime : Time
  qemuTimeNs : Time
  active : Option ℕ
  vcpus : ℕ → VCPUTime Time
  attached : Bool
  sent : Window Time
  wdLastTickQemuTime : Time
  initialized : ℕ → Bool
  resumed : List (Resumption Time)
  failed : Bool

variable [AddCommMonoid Time] [LinearOrder Time]

namespace Plugin
def initial (config : Config Time) (numVcpus : ℕ) (rates : ℕ → ℕ) : Plugin Time where
  config := config
  numVcpus := numVcpus
  window := ⟨0,config.quantum⟩
  qemuTime := 0
  qemuTimeNs := 0
  active := none
  vcpus := fun i => ⟨rates i,0,0,.idle⟩
  attached := true
  sent := ⟨0,config.quantum⟩
  wdLastTickQemuTime := 0
  initialized := fun _ => false
  resumed := []
  failed := false

section
variable (s : Plugin Time) (i : ℕ)

def status : Status := (s.vcpus i).status

def cpuDeltaTime : Time := s.config.insnTime (s.vcpus i).deltaInsn (s.vcpus i).insnPerSecond

def cpuTimeNow : Time := if s.status i = .idle then (s.vcpus i).cpuTime else (s.vcpus i).cpuTime+s.cpuDeltaTime i

def qemuTimeNow : Time := match s.active with
  | none => s.qemuTime
  | some i => s.qemuTime+s.cpuDeltaTime i

def nonIdle : List ℕ := (List.range s.numVcpus).filter fun i => s.status i ≠ .idle

def slowestNoneIdleCpu : Option ℕ := s.nonIdle.argmin s.cpuTimeNow

def computeThreshold : Time := match s.slowestNoneIdleCpu with
  | none => 0
  | some i => min s.window.toTime (s.cpuTimeNow i+s.config.quantum)

def MayRun (currentQemuTime threshold : Time) : Prop :=
  s.active = some i ∧ currentQemuTime ≤ threshold ∨ s.active ≠ some i ∧ s.cpuTimeNow i ≤ currentQemuTime

instance (i : ℕ) (currentQemuTime threshold : Time) : Decidable (s.MayRun i currentQemuTime threshold) :=
  inferInstanceAs (Decidable (_ ∧ _ ∨ _ ∧ _))

end

section
variable (s : Plugin Time) (i : ℕ)

@[simps config numVcpus window qemuTime qemuTimeNs active initialized resumed failed]
def modify (f : VCPUTime Time → VCPUTime Time) : Plugin Time :=
  {s with vcpus := Function.update s.vcpus i (f (s.vcpus i))}

def syncQemuTimeNs : Plugin Time := {s with qemuTimeNs := s.qemuTime}

/-- `m_qemu_time += t`, with its shadow. -/
@[simps! config numVcpus window qemuTime active initialized resumed failed]
def addQemuTime (t : Time) : Plugin Time := {s with qemuTime := s.qemuTime+t}.syncQemuTimeNs

def attachSyncWindow : Plugin Time := {s with attached := true}

/-- `detach_sync_window`, which opens the window first. -/
def detachSyncWindow : Plugin Time :=
  if s.attached then {s with attached := false, sent := ⟨s.qemuTime,s.config.maxTime⟩} else s

def setSystemcWindow : Plugin Time :=
  if s.attached then {s with sent := ⟨s.qemuTimeNow,s.qemuTimeNow+s.config.quantum⟩} else s

def resumption : Resumption Time := ⟨i,s.active = some i,s.qemuTimeNow,s.cpuTimeNow i,s.computeThreshold⟩

/-- `cpu_execution_status = RUNNING` of a paused vCPU and `qemu_plugin_cpu_resume`. -/
def resumeVcpu : Plugin Time :=
  {s.modify i fun v => {v with status := .running} with resumed := s.resumed ++ [s.resumption i]}

def pauseIfAhead (currentQemuTime threshold : Time) : Plugin Time :=
  if s.status i = .running ∧ (s.active = some i ∧ threshold < currentQemuTime ∨
      s.active ≠ some i ∧ currentQemuTime < s.cpuTimeNow i) then
    s.modify i fun v => {v with status := .paused}
  else s

/-- One round of the loop of `resume_if_behind`. -/
def resumeOne (currentQemuTime threshold : Time) (s : Plugin Time) (i : ℕ) : Plugin Time :=
  if s.status i = .paused ∧ s.MayRun i currentQemuTime threshold then s.resumeVcpu i else s

def resumeIfBehind (currentQemuTime threshold : Time) : Plugin Time :=
  (List.range s.numVcpus).foldl (resumeOne currentQemuTime threshold) s

def rebalanceAndSync (vcpu : Option ℕ) : Plugin Time := match s.active with
  | none => s.detachSyncWindow
  | some _ =>
    let threshold := s.computeThreshold
    if threshold = 0 then s
    else
      let currentQemuTime := s.qemuTimeNow
      let paused := vcpu.elim s fun i => s.pauseIfAhead i currentQemuTime threshold
      (paused.resumeIfBehind currentQemuTime threshold).setSystemcWindow

end

section
variable (s : Plugin Time) (i : ℕ)

/-- `vcpu_init`, where QEMU has `current` vCPUs. -/
def vcpuInit (current : ℕ) : Plugin Time := let s := {s with numVcpus := max s.numVcpus current}
  let s := s.modify i fun v => ⟨if v.insnPerSecond = 0 then 1000000000 else v.insnPerSecond,0,0,.running⟩
  {s with
    active := if s.active = none then some i else s.active
    initialized := Function.update s.initialized i true}

/-- The inline addition of `vcpu_tb_trans`: a translated block of `n` instructions is executed. -/
def execTb (n : ℕ) : Plugin Time := s.modify i fun v => {v with deltaInsn := v.deltaInsn+n}

/-- The time accounting of `cpu_end_delta_quota`. -/
def accountQuota : Plugin Time := let deltaTime := s.cpuDeltaTime i
  let s := if s.active = some i then s.addQemuTime deltaTime else s
  s.modify i fun v => {v with cpuTime := v.cpuTime+deltaTime, deltaInsn := 0}

/-- `cpu_end_delta_quota`, with its assertion. -/
def cpuEndDeltaQuota : Plugin Time := if s.status i ≠ .running then s
  else if s.active = none then {s with failed := true}
  else (s.accountQuota i).rebalanceAndSync (some i)

/-- `vcpu_tb_exec_cond`, with its assertion. -/
def vcpuTbExecCond : Plugin Time := if s.status i ≠ .running then s
  else if (s.vcpus i).deltaInsn < s.config.globalQuantum then {s with failed := true}
  else s.cpuEndDeltaQuota i

/-- The choice of `select_active_vcpu`. -/
def selectActiveVcpu : Option ℕ := s.nonIdle.head?

/-- The time accounting of `vcpu_idle` for the active vCPU. -/
def accountIdle : Plugin Time := let delta := s.cpuDeltaTime i
  (s.addQemuTime delta).modify i fun v => {v with cpuTime := v.cpuTime+delta}

def takeOver (j : ℕ) : Plugin Time :=
  let s := {s with active := some j}.modify j fun v => {v with cpuTime := s.qemuTime, deltaInsn := 0}
  if s.status j = .paused then s.resumeVcpu j else s

/-- `vcpu_idle` of the active vCPU hands its role over. -/
def handOver : Plugin Time := let s := s.accountIdle i
  match s.selectActiveVcpu with
  | none => {s with active := none}.detachSyncWindow
  | some j => s.takeOver j

def vcpuIdle : Plugin Time := match s.status i with
  | .running =>
    let s := s.modify i fun v => {v with status := .idle}
    let s := if s.active = some i then s.handOver i else s
    (s.modify i fun v => {v with deltaInsn := 0}).rebalanceAndSync none
  | .paused => s
  | .idle => s

/-- The first vCPU to wake up brings the QEMU time up to the SystemC time and becomes the active one. -/
def becomeActive (scNow : Time) : Plugin Time :=
  let s := if s.qemuTime < scNow then {s with qemuTime := scNow}.syncQemuTimeNs else s
  let s := s.modify i fun v => {v with cpuTime := s.qemuTime}
  ({s with active := some i}.attachSyncWindow).setSystemcWindow

/-- `vcpu_resume` at the SystemC time `scNow`. -/
def vcpuResume (scNow : Time) : Plugin Time := match s.status i with
  | .idle =>
    let s := s.modify i fun v => {v with status := .running, cpuTime := s.qemuTimeNow}
    if s.active = none then s.becomeActive i scNow else s
  | .paused =>
    if s.computeThreshold ≠ 0 ∧ s.MayRun i s.qemuTimeNow s.computeThreshold then s.resumeVcpu i else s
  | .running => s

/-- `receive_window_cb`. -/
def receiveWindow (w : Window Time) : Plugin Time := let s := {s with window := w}
  match s.active with
  | none => s.rebalanceAndSync none
  | some j =>
    let s := if s.status j = .paused ∧ s.computeThreshold ≠ 0 ∧ s.qemuTimeNow ≤ s.computeThreshold then
      s.resumeVcpu j else s
    s.setSystemcWindow

/-- `idle_tick_method`. -/
def idleTick : Plugin Time := match s.active with
  | none => s
  | some j =>
    let currentQemuTime := s.qemuTimeNow
    let s := if currentQemuTime = s.wdLastTickQemuTime ∧ 0 < s.config.quantum then
      ((s.addQemuTime s.config.quantum).modify j fun v =>
        {v with cpuTime := v.cpuTime+s.config.quantum}).setSystemcWindow else s
    {s with wdLastTickQemuTime := currentQemuTime}

end
end Plugin

inductive Action (Time : Type) where
  | vcpuInit (i current : ℕ)
  | execTb (i n : ℕ)
  | vcpuTbExecCond (i : ℕ)
  | vcpuIdle (i : ℕ)
  | vcpuResume (i : ℕ) (scNow : Time)
  | receiveWindow (w : Window Time)
  | idleTick

variable (s : Plugin Time)

def step : Action Time → Plugin Time
  | .vcpuInit i current => s.vcpuInit i current
  | .execTb i n => s.execTb i n
  | .vcpuTbExecCond i => s.vcpuTbExecCond i
  | .vcpuIdle i => s.vcpuIdle i
  | .vcpuResume i scNow => s.vcpuResume i scNow
  | .receiveWindow w => s.receiveWindow w
  | .idleTick => s.idleTick

/-- QEMU initialises a vCPU at time zero, with an index in range; other callbacks come later, the quota's when it is
met. -/
def Allowed : Action Time → Prop
  | .vcpuInit i current => i < current ∧ s.qemuTime = 0
  | .execTb i _ => s.initialized i = true
  | .vcpuTbExecCond i => s.initialized i = true ∧ s.config.globalQuantum ≤ (s.vcpus i).deltaInsn
  | .vcpuIdle i => s.initialized i = true
  | .vcpuResume i _ => s.initialized i = true
  | .receiveWindow _ => True
  | .idleTick => True

instance (s : Plugin Time) (a : Action Time) : Decidable (Allowed s a) := by
  cases a <;> simp only [Allowed] <;> infer_instance

def Once : Action Time → Prop
  | .vcpuInit i _ => s.initialized i = false
  | _ => True

instance (s : Plugin Time) (a : Action Time) : Decidable (Once s a) := by
  cases a <;> simp only [Once] <;> infer_instance

namespace Plugin
section
variable (s : Plugin Time) (i : ℕ) (f : VCPUTime Time → VCPUTime Time)

@[simp] lemma modify_vcpus (j : ℕ) : (s.modify i f).vcpus j = if j = i then f (s.vcpus i) else s.vcpus j :=
  Function.update_apply ..

lemma status_def : s.status i = (s.vcpus i).status := rfl

variable (t : Time)

@[simp] lemma addQemuTime_vcpus : (s.addQemuTime t).vcpus = s.vcpus := rfl

end

/-- Nothing changes but what is sent to SystemC and who of the vCPUs that are not idle may run. -/
structure Steady (s s' : Plugin Time) : Prop where
  config : s'.config = s.config
  numVcpus : s'.numVcpus = s.numVcpus
  window : s'.window = s.window
  qemuTime : s'.qemuTime = s.qemuTime
  qemuTimeNs : s'.qemuTimeNs = s.qemuTimeNs
  active : s'.active = s.active
  wdLastTickQemuTime : s'.wdLastTickQemuTime = s.wdLastTickQemuTime
  initialized : s'.initialized = s.initialized
  failed : s'.failed = s.failed
  insnPerSecond : ∀ i, (s'.vcpus i).insnPerSecond = (s.vcpus i).insnPerSecond
  deltaInsn : ∀ i, (s'.vcpus i).deltaInsn = (s.vcpus i).deltaInsn
  cpuTime : ∀ i, (s'.vcpus i).cpuTime = (s.vcpus i).cpuTime
  idle : ∀ i, s'.status i = .idle ↔ s.status i = .idle

namespace Steady
variable {s s' s'' : Plugin Time}

lemma refl (s : Plugin Time) : Steady s s :=
  ⟨rfl,rfl,rfl,rfl,rfl,rfl,rfl,rfl,rfl,fun _ => rfl,fun _ => rfl,fun _ => rfl,fun _ => Iff.rfl⟩

section
variable (h : Steady s s')
include h

lemma trans (h' : Steady s' s'') : Steady s s'' where
  config := h'.config.trans h.config
  numVcpus := h'.numVcpus.trans h.numVcpus
  window := h'.window.trans h.window
  qemuTime := h'.qemuTime.trans h.qemuTime
  qemuTimeNs := h'.qemuTimeNs.trans h.qemuTimeNs
  active := h'.active.trans h.active
  wdLastTickQemuTime := h'.wdLastTickQemuTime.trans h.wdLastTickQemuTime
  initialized := h'.initialized.trans h.initialized
  failed := h'.failed.trans h.failed
  insnPerSecond := fun i => (h'.insnPerSecond i).trans (h.insnPerSecond i)
  deltaInsn := fun i => (h'.deltaInsn i).trans (h.deltaInsn i)
  cpuTime := fun i => (h'.cpuTime i).trans (h.cpuTime i)
  idle := fun i => (h'.idle i).trans (h.idle i)

lemma cpuDeltaTime (i : ℕ) : s'.cpuDeltaTime i = s.cpuDeltaTime i := by
  simp [Plugin.cpuDeltaTime,h.config,h.deltaInsn,h.insnPerSecond]

lemma cpuTimeNow (i : ℕ) : s'.cpuTimeNow i = s.cpuTimeNow i := by
  simp [Plugin.cpuTimeNow,h.idle,h.cpuTime,h.cpuDeltaTime]

lemma qemuTimeNow : s'.qemuTimeNow = s.qemuTimeNow := by
  simp [Plugin.qemuTimeNow,h.active,h.qemuTime,h.cpuDeltaTime]

lemma nonIdle : s'.nonIdle = s.nonIdle := by
  simp [Plugin.nonIdle,h.numVcpus,h.idle]

lemma computeThreshold : s'.computeThreshold = s.computeThreshold := by
  have hs : s'.slowestNoneIdleCpu = s.slowestNoneIdleCpu := by
    have ht := funext h.cpuTimeNow
    rw [Plugin.slowestNoneIdleCpu,Plugin.slowestNoneIdleCpu,h.nonIdle,ht]
  simp [Plugin.computeThreshold,hs,h.window,h.cpuTimeNow,h.config]

end

end Steady

section
variable (s : Plugin Time)

lemma steady_attachSyncWindow : Steady s s.attachSyncWindow :=
  ⟨rfl,rfl,rfl,rfl,rfl,rfl,rfl,rfl,rfl,fun _ => rfl,fun _ => rfl,fun _ => rfl,fun _ => Iff.rfl⟩

lemma steady_detachSyncWindow : Steady s s.detachSyncWindow := by
  unfold detachSyncWindow
  split
  · exact ⟨rfl,rfl,rfl,rfl,rfl,rfl,rfl,rfl,rfl,fun _ => rfl,fun _ => rfl,fun _ => rfl,fun _ => Iff.rfl⟩
  · exact .refl s

lemma steady_setSystemcWindow : Steady s s.setSystemcWindow := by
  unfold setSystemcWindow
  split
  · exact ⟨rfl,rfl,rfl,rfl,rfl,rfl,rfl,rfl,rfl,fun _ => rfl,fun _ => rfl,fun _ => rfl,fun _ => Iff.rfl⟩
  · exact .refl s

lemma steady_setStatus {i : ℕ} (hi : s.status i ≠ .idle) {status : Status} (hs : status ≠ .idle) :
    Steady s (s.modify i fun v => {v with status := status}) := by
  refine ⟨rfl,rfl,rfl,rfl,rfl,rfl,rfl,rfl,rfl,?_,?_,?_,?_⟩
  · intro j
    by_cases hj : j = i <;> simp [hj]
  · intro j
    by_cases hj : j = i <;> simp [hj]
  · intro j
    by_cases hj : j = i <;> simp [hj]
  · intro j
    by_cases hj : j = i
    · simpa [hj,status_def,hs] using hi
    · simp [hj,status_def]

lemma steady_resumeVcpu {i : ℕ} (hi : s.status i = .paused) : Steady s (s.resumeVcpu i) := by
  have hr : Status.running ≠ .idle := by simp
  have h := s.steady_setStatus (i := i) (by simp [hi]) hr
  exact ⟨h.config,h.numVcpus,h.window,h.qemuTime,h.qemuTimeNs,h.active,h.wdLastTickQemuTime,h.initialized,h.failed,
    h.insnPerSecond,h.deltaInsn,h.cpuTime,h.idle⟩

lemma steady_pauseIfAhead (i : ℕ) (t u : Time) : Steady s (s.pauseIfAhead i t u) := by
  unfold pauseIfAhead
  split
  · next h => exact s.steady_setStatus (by simp [h.1]) (by simp)
  · exact .refl s

lemma steady_resumeOne (t u : Time) (i : ℕ) : Steady s (resumeOne t u s i) := by
  unfold resumeOne
  split
  · next h => exact s.steady_resumeVcpu h.1
  · exact .refl s

lemma steady_foldl_resumeOne (t u : Time) (l : List ℕ) : Steady s (l.foldl (resumeOne t u) s) := by
  induction l generalizing s with
  | nil => exact .refl s
  | cons i l ih => exact (s.steady_resumeOne t u i).trans (ih _)

lemma steady_resumeIfBehind (t u : Time) : Steady s (s.resumeIfBehind t u) := s.steady_foldl_resumeOne t u _

lemma steady_rebalanceAndSync (vcpu : Option ℕ) : Steady s (s.rebalanceAndSync vcpu) := by
  unfold rebalanceAndSync
  split
  · exact s.steady_detachSyncWindow
  · dsimp only
    split
    · exact .refl s
    · refine Steady.trans ?_ ((steady_resumeIfBehind _ _ _).trans (steady_setSystemcWindow _))
      cases vcpu with
      | none => exact .refl s
      | some i => exact s.steady_pauseIfAhead i _ _

end
end Plugin

end Qbox.McipsPlugin
