import Qbox.McipsPlugin

/-! The active vCPU: there is one exactly when a vCPU is not idle, and it carries the QEMU time. -/
namespace Qbox.McipsPlugin
variable {Time : Type} [AddCommMonoid Time] [LinearOrder Time]

namespace Plugin
/-- Only vCPUs that have been initialised are in use, and their indices are below the number of vCPUs. -/
structure Enrolled (s : Plugin Time) : Prop where
  bounded : ∀ i, s.initialized i = true → i < s.numVcpus
  fresh : ∀ i, s.initialized i = false → s.status i = .idle

/-- Some vCPU is active while one is not idle; it is not idle, and its time is the QEMU time. -/
structure Led (s : Plugin Time) : Prop extends Enrolled s where
  allIdle : s.active = none → ∀ i, s.status i = .idle
  leader : ∀ i, s.active = some i → s.status i ≠ .idle ∧ (s.vcpus i).cpuTime = s.qemuTime

section
variable {s : Plugin Time}

lemma Enrolled.mem_nonIdle (h : Enrolled s) (i : ℕ) : i ∈ s.nonIdle ↔ s.status i ≠ .idle := by
  simp only [nonIdle,List.mem_filter,List.mem_range,decide_eq_true_eq,and_iff_right_iff_imp]
  intro hi
  exact h.bounded i (Bool.not_eq_false _ |>.mp fun hf => hi (h.fresh i hf))

lemma Enrolled.selectActiveVcpu (h : Enrolled s) : (s.selectActiveVcpu = none → ∀ i, s.status i = .idle) ∧
      ∀ j, s.selectActiveVcpu = some j → s.status j ≠ .idle := by
  constructor
  · intro hn i
    by_contra hi
    rw [Plugin.selectActiveVcpu,List.head?_eq_none_iff] at hn
    simpa [hn] using (h.mem_nonIdle i).mpr hi
  · intro j hj
    exact (h.mem_nonIdle j).mp (List.mem_of_head? hj)

lemma Enrolled.frame {s' : Plugin Time} (h : Enrolled s) (hn : s'.numVcpus = s.numVcpus)
    (hin : s'.initialized = s.initialized)
    (hil : ∀ i, s.initialized i = false → s'.status i = s.status i) : Enrolled s' := by
  refine ⟨fun i hi => ?_,fun i hi => ?_⟩
  · rw [hn]
    exact h.bounded i (hin ▸ hi)
  · rw [hin] at hi
    rw [hil i hi,h.fresh i hi]

end

namespace Led
variable {s : Plugin Time}

lemma initial (config : Config Time) (numVcpus : ℕ) (rates : ℕ → ℕ) : Led (Plugin.initial config numVcpus rates) :=
  ⟨⟨by simp [Plugin.initial],fun _ _ => rfl⟩,fun _ _ => rfl,by simp [Plugin.initial]⟩

/-- The active vCPU moves with the QEMU time, the others as they like, while nobody starts or stops being idle. -/
lemma moved {s' : Plugin Time} (h : Led s) (hnu : s'.numVcpus = s.numVcpus)
    (hin : s'.initialized = s.initialized) (ha : s'.active = s.active)
    (hil : ∀ i, s'.status i = .idle ↔ s.status i = .idle)
    (ht : ∀ i, s.active = some i → (s'.vcpus i).cpuTime = s'.qemuTime) : Led s' where
  bounded := fun i hi => hnu ▸ h.bounded i (hin ▸ hi)
  fresh := fun i hi => (hil i).mpr (h.fresh i (hin ▸ hi))
  allIdle := fun hn i => (hil i).mpr (h.allIdle (ha ▸ hn) i)
  leader := fun i hi =>
    have hi' := ha ▸ hi
    ⟨fun heq => (h.leader i hi').1 ((hil i).mp heq),ht i hi'⟩

lemma steady {s' : Plugin Time} (h : Led s) (hs : Steady s s') : Led s' :=
  h.moved hs.numVcpus hs.initialized hs.active hs.idle fun i hi => by
    rw [hs.cpuTime,hs.qemuTime,(h.leader i hi).2]

section
variable (h : Led s)
include h

lemma execTb (i n : ℕ) : Led (s.execTb i n) := by
  refine h.moved rfl rfl rfl (fun j => ?_) fun j hj => ?_
  · by_cases hji : j = i <;> simp [Plugin.execTb,status_def,hji]
  · by_cases hji : j = i <;> simpa [Plugin.execTb,hji] using (h.leader j hj).2

lemma clearDelta (i : ℕ) : Led (s.modify i fun v => {v with deltaInsn := 0}) := by
  refine h.moved rfl rfl rfl (fun j => ?_) fun j hj => ?_
  · by_cases hji : j = i <;> simp [status_def,hji]
  · by_cases hji : j = i <;> simpa [hji] using (h.leader j hj).2

lemma vcpuInit {i current : ℕ} (hi : i < current) (hz : s.qemuTime = 0) :
    Led (s.vcpuInit i current) := by
  refine ⟨⟨fun j hj => ?_,fun j hj => ?_⟩,fun hn => ?_,fun j hj => ?_⟩
  · by_cases hji : j = i
    · subst hji
      exact lt_max_of_lt_right hi
    · have hin : s.initialized j = true := by simpa [Plugin.vcpuInit,hji] using hj
      exact lt_max_of_lt_left (h.bounded j hin)
  · by_cases hji : j = i
    · simp [Plugin.vcpuInit,hji] at hj
    · have hin : s.initialized j = false := by simpa [Plugin.vcpuInit,hji] using hj
      simpa [Plugin.vcpuInit,status_def,hji] using h.fresh j hin
  · by_cases ha : s.active = none <;> simp [Plugin.vcpuInit,ha] at hn
  · by_cases hji : j = i
    · simp [Plugin.vcpuInit,status_def,hji,hz]
    · have ha : s.active = some j := by
        cases hs : s.active with
        | none =>
          have heq : i = j := by simpa [Plugin.vcpuInit,hs] using hj
          exact absurd heq.symm hji
        | some k => simpa [Plugin.vcpuInit,hs] using hj
      simpa [Plugin.vcpuInit,status_def,hji] using h.leader j ha

lemma accountQuota (i : ℕ) : Led (s.accountQuota i) := by
  have hf : (s.accountQuota i).numVcpus = s.numVcpus ∧ (s.accountQuota i).initialized = s.initialized ∧
      (s.accountQuota i).active = s.active := by
    unfold Plugin.accountQuota
    split <;> exact ⟨rfl,rfl,rfl⟩
  refine h.moved hf.1 hf.2.1 hf.2.2 (fun j => ?_) fun j hj => ?_
  · by_cases hji : j = i <;> by_cases hi : s.active = some i <;> simp [Plugin.accountQuota,hi,status_def,hji]
  · by_cases hi : s.active = some i
    · obtain rfl : i = j := by simpa [hi] using hj
      simp [Plugin.accountQuota,hi,(h.leader i hi).2]
    · have hji : j ≠ i := fun heq => hi (heq ▸ hj)
      simpa [Plugin.accountQuota,hi,hji] using (h.leader j hj).2

lemma vcpuTbExecCond (i : ℕ) (hq : s.config.globalQuantum ≤ (s.vcpus i).deltaInsn) :
    Led (s.vcpuTbExecCond i) ∧ (s.vcpuTbExecCond i).failed = s.failed := by
  unfold Plugin.vcpuTbExecCond Plugin.cpuEndDeltaQuota
  by_cases hr : s.status i = .running
  · have ha : s.active ≠ none := fun hn => by
      have hi := h.allIdle hn i
      simp [hr] at hi
    have hs := steady_rebalanceAndSync (s.accountQuota i) (some i)
    have hf : (s.accountQuota i).failed = s.failed := by
      unfold Plugin.accountQuota
      split <;> rfl
    simp only [hr,ne_eq,not_true_eq_false,if_false,not_lt.mpr hq,ha]
    exact ⟨(h.accountQuota i).steady hs,hs.failed.trans hf⟩
  · simpa [hr] using h

omit h in
lemma takeOver {j : ℕ} (h : Enrolled s) (hj : s.status j ≠ .idle) : Led (s.takeOver j) := by
  have hl : Led ({s with active := some j}.modify j fun v => {v with cpuTime := s.qemuTime, deltaInsn := 0}) := by
    refine ⟨h.frame rfl rfl fun i _ => ?_,by simp,fun i hi => ?_⟩
    · by_cases hij : i = j <;> simp [status_def,hij]
    · obtain rfl : j = i := by simpa using hi
      simpa [status_def] using hj
  unfold Plugin.takeOver
  dsimp only
  split
  · next hp => exact hl.steady (steady_resumeVcpu _ hp)
  · exact hl

omit h in
lemma handOver (h : Enrolled s) (i : ℕ) : Led (s.handOver i) := by
  have ha : Enrolled (s.accountIdle i) := by
    refine h.frame rfl rfl fun j _ => ?_
    by_cases hji : j = i <;> simp [Plugin.accountIdle,status_def,hji]
  obtain ⟨hn,hso⟩ := ha.selectActiveVcpu
  unfold Plugin.handOver
  dsimp only
  split
  · next hs =>
    refine Led.steady ?_ (steady_detachSyncWindow _)
    exact ⟨⟨ha.bounded,ha.fresh⟩,fun _ => hn hs,by simp⟩
  · next j hs => exact takeOver ha (hso j hs)

lemma vcpuIdle (i : ℕ) : Led (s.vcpuIdle i) := by
  unfold Plugin.vcpuIdle
  split
  · next hr =>
    have he : Enrolled (s.modify i fun v => {v with status := .idle}) := by
      refine ⟨h.bounded,fun j hj => ?_⟩
      by_cases hji : j = i
      · simp [status_def,hji]
      · simpa [status_def,hji] using h.fresh j hj
    refine Led.steady (clearDelta ?_ i) (steady_rebalanceAndSync _ none)
    split
    · exact handOver he i
    · next ho =>
      refine ⟨he,fun hn => ?_,fun j hj => ?_⟩
      · have hi := h.allIdle hn i
        simp [hr] at hi
      · have hji : j ≠ i := fun heq => ho (heq ▸ hj)
        simpa [status_def,hji] using h.leader j hj
  · exact h
  · exact h

omit h in
lemma becomeActive {i : ℕ} (h : Enrolled s) (hi : s.status i ≠ .idle) (scNow : Time) :
    Led (s.becomeActive i scNow) := by
  have hl : ∀ {t : Plugin Time}, Enrolled t → t.status i ≠ .idle →
      Led {t.modify i fun v => {v with cpuTime := t.qemuTime} with active := some i} := by
    intro t ht hti
    refine ⟨ht.frame rfl rfl fun j _ => ?_,by simp,fun j hj => ?_⟩
    · by_cases hji : j = i <;> simp [status_def,hji]
    · obtain rfl : i = j := by simpa using hj
      simpa [status_def] using hti
  unfold Plugin.becomeActive
  refine Led.steady (Led.steady ?_ (steady_attachSyncWindow _)) (steady_setSystemcWindow _)
  split
  · exact hl ⟨h.bounded,h.fresh⟩ hi
  · exact hl h hi

lemma vcpuResume {i : ℕ} (hi : s.initialized i = true) (scNow : Time) : Led (s.vcpuResume i scNow) := by
  unfold Plugin.vcpuResume
  split
  · next hil =>
    have hf : ∀ j, s.initialized j = false → j ≠ i := fun j hj heq => by simp [heq,hi] at hj
    have he : Enrolled (s.modify i fun v => {v with status := .running, cpuTime := s.qemuTimeNow}) :=
      h.toEnrolled.frame rfl rfl fun j hj => by simp [status_def,hf j hj]
    dsimp only
    split
    · exact becomeActive he (by simp [status_def]) scNow
    · next ha =>
      refine ⟨he,fun hn => absurd hn ha,fun j hj => ?_⟩
      have hji : j ≠ i := fun heq => (h.leader j hj).1 (heq ▸ hil)
      simpa [status_def,hji] using h.leader j hj
  · next hp =>
    split
    · exact h.steady (steady_resumeVcpu _ hp)
    · exact h
  · exact h

lemma receiveWindow (w : Window Time) : Led (s.receiveWindow w) := by
  have hw : Led {s with window := w} := ⟨⟨h.bounded,h.fresh⟩,h.allIdle,h.leader⟩
  unfold Plugin.receiveWindow
  dsimp only
  split
  · exact hw.steady (steady_rebalanceAndSync _ none)
  · next j hj =>
    refine Led.steady ?_ (steady_setSystemcWindow _)
    split
    · next hp => exact hw.steady (steady_resumeVcpu _ hp.1)
    · exact hw

lemma idleTick : Led s.idleTick := by
  unfold Plugin.idleTick
  split
  · exact h
  · next j hj =>
    have hb : Led ((s.addQemuTime s.config.quantum).modify j fun v =>
        {v with cpuTime := v.cpuTime+s.config.quantum}) := by
      refine h.moved rfl rfl rfl (fun i => ?_) fun i hi => ?_
      · by_cases hij : i = j <;> simp [status_def,hij]
      · obtain rfl : j = i := by simpa [hj] using hi
        simp [(h.leader j hj).2]
    have hti : ∀ {t : Plugin Time} (u : Time), Led t → Led {t with wdLastTickQemuTime := u} :=
      fun _ ht => ⟨⟨ht.bounded,ht.fresh⟩,ht.allIdle,ht.leader⟩
    apply hti
    split
    · exact hb.steady (steady_setSystemcWindow _)
    · exact h

lemma step (a : Action Time) (ha : Allowed s a) : Led (McipsPlugin.step s a) := by
  cases a with
  | vcpuInit i current => exact h.vcpuInit ha.1 ha.2
  | execTb i n => exact h.execTb i n
  | vcpuTbExecCond i => exact (h.vcpuTbExecCond i ha.2).1
  | vcpuIdle i => exact h.vcpuIdle i
  | vcpuResume i scNow => exact h.vcpuResume ha scNow
  | receiveWindow w => exact h.receiveWindow w
  | idleTick => exact h.idleTick

end

end Led
end Plugin

lemma led_of_run {config : Config Time} {numVcpus : ℕ} {rates : ℕ → ℕ} {s : Plugin Time}
    (h : GuardedRun step Allowed (Plugin.initial config numVcpus rates) s) : s.Led :=
  h.invariant (fun _ a hs ha => hs.step a ha) (.initial config numVcpus rates)

/-- Between callbacks there is no active vCPU exactly if all are idle; the active one is not, and its time is the QEMU
time. -/
theorem active_vcpu_leads {config : Config Time} {numVcpus : ℕ} {rates : ℕ → ℕ} {s : Plugin Time}
    (h : GuardedRun step Allowed (Plugin.initial config numVcpus rates) s) :
    (s.active = none ↔ ∀ i, s.initialized i = true → s.status i = .idle) ∧
      ∀ i, s.active = some i → s.status i ≠ .idle ∧ (s.vcpus i).cpuTime = s.qemuTime := by
  have hl := led_of_run h
  refine ⟨⟨fun hn i _ => hl.allIdle hn i,fun hil => ?_⟩,hl.leader⟩
  cases ha : s.active with
  | none => rfl
  | some i =>
    have hi := (hl.leader i ha).1
    have hin := Bool.not_eq_false _ |>.mp fun hf => hi (hl.fresh i hf)
    exact absurd (hil i hin) hi
lemma micro_nonneg : (0 : ℚ) ≤ 1/1000000 := by norm_num

def twoVcpus : Plugin ℚ := .initial (.exact (1/1000000) micro_nonneg) 2 fun _ => 0

def handOverRun : List (Action ℚ) :=
  [.vcpuInit 0 2,.vcpuInit 1 2,.execTb 0 1000,.vcpuTbExecCond 0,.execTb 0 500,.vcpuIdle 0]

theorem active_vcpu_leads_handOverRun : ((handOverRun.foldl step twoVcpus).active = some 1 ∧
      (handOverRun.foldl step twoVcpus).qemuTime = 3/2000000) ∧ ((handOverRun.foldl step twoVcpus).active = none ↔
      ∀ i, (handOverRun.foldl step twoVcpus).initialized i = true →
        (handOverRun.foldl step twoVcpus).status i = .idle) ∧
      ∀ i, (handOverRun.foldl step twoVcpus).active = some i → (handOverRun.foldl step twoVcpus).status i ≠ .idle ∧
          ((handOverRun.foldl step twoVcpus).vcpus i).cpuTime = (handOverRun.foldl step twoVcpus).qemuTime :=
  ⟨by decide +kernel,active_vcpu_leads (GuardedRun.refl.foldl (by decide +kernel))⟩

end Qbox.McipsPlugin
