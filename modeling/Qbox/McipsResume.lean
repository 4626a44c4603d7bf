import Qbox.McipsHandOver

/-! Every resumption of a paused vCPU, and which of them happen inside its window. -/
namespace Qbox.McipsPlugin
open List

variable {Time : Type} [AddCommMonoid Time] [LinearOrder Time]

/-- The QEMU time is within the threshold for the active vCPU; any other is not ahead of the QEMU time. -/
def Resumption.InWindow (r : Resumption Time) : Prop :=
  if r.isActive then r.qemuTime ≤ r.threshold else r.cpuTime ≤ r.qemuTime

instance (r : Resumption Time) : Decidable r.InWindow := by
  unfold Resumption.InWindow
  infer_instance

namespace Plugin
variable {s s' s'' : Plugin Time}

/-- The resumptions `e` are what `s'` has more, and every vCPU no longer paused is among them. -/
structure Logs (s s' : Plugin Time) (e : List (Resumption Time)) : Prop where
  resumed : s'.resumed = s.resumed ++ e
  complete : ∀ k, s.status k = .paused → s'.status k = .paused ∨ ∃ r ∈ e, r.vcpu = k

/-- The resumptions between two states are all inside the window exactly if `P`. -/
def Records (s s' : Plugin Time) (P : Prop) : Prop := ∃ e, Logs s s' e ∧ ((∀ r ∈ e, r.InWindow) ↔ P)

namespace Records
variable {P Q : Prop}

lemma congr (h : Records s s' P) (hPQ : P ↔ Q) : Records s s' Q := by
  obtain ⟨e,he,hP⟩ := h
  exact ⟨e,he,hP.trans hPQ⟩

lemma trans (h : Records s s' P) (h' : Records s' s'' Q) : Records s s'' (P ∧ Q) := by
  obtain ⟨e,he,hP⟩ := h
  obtain ⟨e',he',hQ⟩ := h'
  refine ⟨e ++ e',⟨by rw [he'.resumed,he.resumed,List.append_assoc],fun k hk => ?_⟩,?_⟩
  · obtain hp | ⟨r,hr,hrk⟩ := he.complete k hk
    · exact (he'.complete k hp).imp_right fun ⟨r,hr,hrk⟩ => ⟨r,mem_append_right e hr,hrk⟩
    · exact .inr ⟨r,mem_append_left e' hr,hrk⟩
  · simp only [forall_mem_append,hP,hQ]

lemma quiet (hr : s'.resumed = s.resumed) (hp : ∀ k, s.status k = .paused → s'.status k = .paused) :
    Records s s' True :=
  ⟨[],⟨by simp [hr],fun k hk => .inl (hp k hk)⟩,by simp⟩

lemma refl (s : Plugin Time) : Records s s True := quiet rfl fun _ hk => hk

lemma resumeVcpu (i : ℕ) : Records s (s.resumeVcpu i) (s.resumption i).InWindow := by
  refine ⟨[s.resumption i],⟨rfl,fun k hk => ?_⟩,by simp⟩
  by_cases hki : k = i
  · exact .inr ⟨s.resumption i,by simp,hki.symm⟩
  · left
    simpa [Plugin.resumeVcpu,status_def,hki] using hk

end Records

lemma resumption_inWindow_iff (i : ℕ) : (s.resumption i).InWindow ↔ s.MayRun i s.qemuTimeNow s.computeThreshold := by
  by_cases ha : s.active = some i <;> simp [Resumption.InWindow,resumption,MayRun,ha]

section
lemma records_setSystemcWindow : Records s s.setSystemcWindow True := by
  unfold setSystemcWindow
  split
  · exact .quiet rfl fun _ hk => hk
  · exact .refl s

lemma records_detachSyncWindow : Records s s.detachSyncWindow True := by
  unfold detachSyncWindow
  split
  · exact .quiet rfl fun _ hk => hk
  · exact .refl s

variable (i : ℕ)

lemma records_pauseIfAhead (t u : Time) : Records s (s.pauseIfAhead i t u) True := by
  unfold pauseIfAhead
  split
  · refine .quiet rfl fun k hk => ?_
    by_cases hki : k = i
    · simp [status_def,hki]
    · simpa [status_def,hki] using hk
  · exact .refl s

/-- `resume_if_behind` compares with a QEMU time and a threshold that do not change on the way. -/
lemma records_foldl_resumeOne {t u : Time} (ht : t = s.qemuTimeNow) (hu : u = s.computeThreshold) (l : List ℕ) :
    Records s (l.foldl (resumeOne t u) s) True := by
  induction l generalizing s with
  | nil => exact .refl s
  | cons i l ih =>
    have hs := s.steady_resumeOne t u i
    have hr := ih (ht.trans hs.qemuTimeNow.symm) (hu.trans hs.computeThreshold.symm)
    have ho : Records s (resumeOne t u s i) True := by
      unfold resumeOne
      split
      · next h =>
        refine (Records.resumeVcpu i).congr (iff_true_intro ?_)
        rw [resumption_inWindow_iff,← ht,← hu]
        exact h.2
      · exact .refl s
    exact (ho.trans hr).congr (and_self_iff)

lemma records_rebalanceAndSync (vcpu : Option ℕ) : Records s (s.rebalanceAndSync vcpu) True := by
  unfold rebalanceAndSync
  split
  · exact records_detachSyncWindow
  · dsimp only
    split
    · exact .refl s
    · have hs : Steady s (vcpu.elim s fun i => s.pauseIfAhead i s.qemuTimeNow s.computeThreshold) := by
        cases vcpu with
        | none => exact .refl s
        | some i => exact s.steady_pauseIfAhead i _ _
      have hp : Records s (vcpu.elim s fun i => s.pauseIfAhead i s.qemuTimeNow s.computeThreshold) True := by
        cases vcpu with
        | none => exact .refl s
        | some i => exact records_pauseIfAhead i _ _
      have hr := records_foldl_resumeOne hs.qemuTimeNow.symm hs.computeThreshold.symm
        (List.range (vcpu.elim s fun i => s.pauseIfAhead i s.qemuTimeNow s.computeThreshold).numVcpus)
      exact ((hp.trans hr).trans records_setSystemcWindow).congr (by simp)

lemma records_vcpuTbExecCond : Records s (s.vcpuTbExecCond i) True := by
  have hf : Records s {s with failed := true} True := .quiet rfl fun _ hk => hk
  have ha : Records s (s.accountQuota i) True := by
    unfold accountQuota
    refine .quiet (by split <;> rfl) fun k hk => ?_
    by_cases hki : k = i <;> by_cases hac : s.active = some i <;> simpa [status_def,hki,hac] using hk
  unfold vcpuTbExecCond cpuEndDeltaQuota
  split_ifs
  · exact .refl s
  · exact hf
  · exact hf
  · exact (ha.trans (records_rebalanceAndSync _)).congr (and_self_iff)

lemma records_execTb (n : ℕ) : Records s (s.execTb i n) True := by
  refine .quiet rfl fun k hk => ?_
  by_cases hki : k = i <;> simpa [execTb,status_def,hki] using hk

lemma records_vcpuInit {i current : ℕ} (hi : s.status i = .idle) : Records s (s.vcpuInit i current) True := by
  refine .quiet rfl fun k hk => ?_
  have hki : k ≠ i := fun heq => by simp [heq,hi] at hk
  simpa [vcpuInit,status_def,hki] using hk

lemma records_becomeActive (scNow : Time) : Records s (s.becomeActive i scNow) True := by
  have ha : ∀ {t : Plugin Time}, Records t
      ({t.modify i fun v => {v with cpuTime := t.qemuTime} with active := some i}.attachSyncWindow) True := by
    intro t
    refine .quiet rfl fun k hk => ?_
    by_cases hki : k = i <;> simpa [attachSyncWindow,status_def,hki] using hk
  unfold becomeActive
  dsimp only
  split
  · have hs : Records s ({s with qemuTime := scNow}.syncQemuTimeNs) True := .quiet rfl fun _ hk => hk
    exact ((hs.trans ha).trans records_setSystemcWindow).congr (by simp)
  · exact (ha.trans records_setSystemcWindow).congr (by simp)

lemma records_vcpuResume (scNow : Time) : Records s (s.vcpuResume i scNow) True := by
  unfold vcpuResume
  split
  · next hi =>
    have hw : Records s (s.modify i fun v => {v with status := .running, cpuTime := s.qemuTimeNow}) True := by
      refine .quiet rfl fun k hk => ?_
      have hki : k ≠ i := fun heq => by simp [heq,hi] at hk
      simpa [status_def,hki] using hk
    dsimp only
    split
    · exact (hw.trans (records_becomeActive i scNow)).congr (by simp)
    · exact hw
  · split
    · next h => exact (Records.resumeVcpu i).congr (iff_true_intro ((resumption_inWindow_iff i).mpr h.2))
    · exact .refl s
  · exact .refl s

lemma records_receiveWindow (w : Window Time) : Records s (s.receiveWindow w) True := by
  have hw : Records s {s with window := w} True := .quiet rfl fun _ hk => hk
  unfold receiveWindow
  dsimp only
  split
  · exact (hw.trans (records_rebalanceAndSync none)).congr (by simp)
  · next j hj =>
    split
    · next h =>
      have hr : Records {s with window := w} ({s with window := w}.resumeVcpu j) True :=
        (Records.resumeVcpu j).congr (iff_true_intro ((resumption_inWindow_iff j).mpr (.inl ⟨hj,h.2.2⟩)))
      exact ((hw.trans hr).trans records_setSystemcWindow).congr (by simp)
    · exact (hw.trans records_setSystemcWindow).congr (by simp)

lemma records_idleTick : Records s s.idleTick True := by
  unfold idleTick
  split
  · exact .refl s
  · next j hj =>
    have ht : ∀ {t : Plugin Time} (u : Time), Records t {t with wdLastTickQemuTime := u} True :=
      fun _ => .quiet rfl fun _ hk => hk
    dsimp only
    split
    · have hb : Records s ((s.addQemuTime s.config.quantum).modify j fun v =>
          {v with cpuTime := v.cpuTime+s.config.quantum}) True := by
        refine .quiet rfl fun k hk => ?_
        by_cases hkj : k = j <;> simpa [status_def,hkj] using hk
      exact ((hb.trans records_setSystemcWindow).trans (ht _)).congr (by simp)
    · exact ht _

end

section
variable {i j : ℕ}

lemma le_computeThreshold_iff [IsOrderedAddMonoid Time] (hne : s.nonIdle ≠ []) (t : Time) :
    t ≤ s.computeThreshold ↔ t ≤ s.window.toTime ∧ ∀ k ∈ s.nonIdle, t ≤ s.cpuTimeNow k+s.config.quantum := by
  cases hs : s.slowestNoneIdleCpu with
  | none => exact absurd (argmin_eq_none.mp hs) hne
  | some m =>
    have hme := argmin_mem hs
    simp only [computeThreshold,hs,le_min_iff]
    refine and_congr_right fun _ => ⟨fun hm k hk => hm.trans ?_,fun h => h m hme⟩
    gcongr
    exact le_of_mem_argmin hk hs

/-- Where a paused vCPU takes over, the QEMU time is within SystemC's window and a quantum of every other vCPU that is
not idle. -/
def WithinThreshold (s : Plugin Time) : Action Time → Prop
  | .vcpuIdle i => s.status i = .running → s.active = some i → ∀ j, s.successor i = some j → s.status j = .paused →
        s.qemuTime+s.cpuDeltaTime i ≤ s.window.toTime ∧
          ∀ k ∈ s.nonIdle, k ≠ i → k ≠ j → s.qemuTime+s.cpuDeltaTime i ≤ s.cpuTimeNow k+s.config.quantum
  | _ => True

def electedAt (s : Plugin Time) (j : ℕ) : Plugin Time :=
  {s with active := some j}.modify j fun v => {v with cpuTime := s.qemuTime, deltaInsn := 0}

lemma records_takeOver (j : ℕ) :
    Records s (s.takeOver j) (s.status j = .paused → ((s.electedAt j).resumption j).InWindow) := by
  have he : Records s (s.electedAt j) True := by
    refine .quiet rfl fun k hk => ?_
    by_cases hkj : k = j <;> simpa [electedAt,status_def,hkj] using hk
  have hs : (s.electedAt j).status j = s.status j := by simp [electedAt,status_def]
  have ht : s.takeOver j =
      if s.status j = .paused then (s.electedAt j).resumeVcpu j else s.electedAt j := by
    rw [← hs]
    rfl
  rw [ht]
  split
  · next hp => exact (he.trans (Records.resumeVcpu j)).congr (by simp [hp])
  · next hp => exact he.congr (by simp [hp])

lemma electedAt_vcpus (k : ℕ) : (s.electedAt j).vcpus k =
    if k = j then {s.vcpus j with cpuTime := s.qemuTime, deltaInsn := 0} else s.vcpus k := by
  simp [electedAt]

lemma electedAt_nonIdle : (s.electedAt j).nonIdle = s.nonIdle := by
  have hs : ∀ k, (s.electedAt j).status k = s.status k := by
    intro k
    by_cases hkj : k = j <;> simp [status_def,electedAt_vcpus,hkj]
  simp only [nonIdle,hs]
  rfl

lemma electedAt_qemuTimeNow : (s.electedAt j).qemuTimeNow = s.qemuTime := by
  simp [qemuTimeNow,cpuDeltaTime,electedAt,Config.insnTime_zero]

lemma electedAt_cpuTimeNow (hj : s.status j ≠ .idle) : (s.electedAt j).cpuTimeNow j = s.qemuTime := by
  rw [status_def] at hj
  simp [cpuTimeNow,status_def,cpuDeltaTime,electedAt_vcpus,hj,Config.insnTime_zero]

/-- At a hand-over the new active vCPU is inside its window exactly if the QEMU time is within the threshold. -/
lemma electedAt_inWindow_iff [IsOrderedAddMonoid Time] (hj : s.successor i = some j) :
    (((s.settled i).electedAt j).resumption j).InWindow ↔ s.qemuTime+s.cpuDeltaTime i ≤ s.window.toTime ∧
        ∀ k ∈ s.nonIdle, k ≠ i → k ≠ j → s.qemuTime+s.cpuDeltaTime i ≤ s.cpuTimeNow k+s.config.quantum := by
  have hji := successor_ne hj
  have hn : ((s.settled i).electedAt j).nonIdle = s.nonIdle.filter (· ≠ i) := electedAt_nonIdle.trans nonIdle_settled
  have hm := mem_of_head? hj
  have he : ((s.settled i).electedAt j).cpuTimeNow j = s.qemuTime+s.cpuDeltaTime i := by
    have hs : (s.settled i).status j ≠ .idle := by
      simpa [status_def,settled_vcpus,hji] using successor_nonIdle hj
    rw [electedAt_cpuTimeNow hs,settled_qemuTime]
  have ho : ∀ k, k ≠ i → k ≠ j → ((s.settled i).electedAt j).cpuTimeNow k = s.cpuTimeNow k :=
    fun k hki hkj => cpuTimeNow_congr rfl (by simp [electedAt_vcpus,settled_vcpus,hki,hkj])
  have hw : ((s.settled i).electedAt j).window = s.window := rfl
  have hc : ((s.settled i).electedAt j).config = s.config := rfl
  have ha : (((s.settled i).electedAt j).resumption j).InWindow ↔
      ((s.settled i).electedAt j).qemuTimeNow ≤ ((s.settled i).electedAt j).computeThreshold := by
    simp [Resumption.InWindow,resumption,electedAt]
  rw [ha,electedAt_qemuTimeNow,settled_qemuTime,le_computeThreshold_iff (hn ▸ ne_nil_of_mem hm),hn,hw,hc]
  refine and_congr_right fun _ => ⟨fun h k hk hki hkj => ?_,fun h k hk => ?_⟩
  · rw [← ho k hki hkj]
    exact h k (by simp [hk,hki])
  · obtain ⟨hk,hki⟩ := mem_filter.mp hk
    have hki' : k ≠ i := by simpa using hki
    by_cases hkj : k = j
    · rw [hkj,he]
      exact le_add_of_nonneg_right s.config.quantum_nonneg
    · rw [ho k hki' hkj]
      exact h k hk hki' hkj

lemma records_idled [IsOrderedAddMonoid Time] (hi : s.status i = .running) :
    Records s (s.idled i) (WithinThreshold s (.vcpuIdle i)) := by
  have hp : ∀ k, s.status k = .paused → k ≠ i := fun k hk heq => by simp [heq,hi] at hk
  have hc : ∀ {t : Plugin Time}, Records t (t.modify i fun v => {v with deltaInsn := 0}) True := by
    intro t
    refine .quiet rfl fun k hk => ?_
    by_cases hki : k = i <;> simpa [status_def,hki] using hk
  by_cases ha : s.active = some i
  · have hs : Records s (s.settled i) True := by
      refine .quiet rfl fun k hk => ?_
      simpa [status_def,settled_vcpus,hp k hk] using hk
    cases hj : s.successor i with
    | none =>
      rw [idled_of_last ha hj]
      have hl : Records (s.settled i) {s.settled i with active := none} True := .quiet rfl fun _ hk => hk
      have hal := ((hs.trans hl).trans records_detachSyncWindow).trans hc
      exact hal.congr (by simp [WithinThreshold,hi,ha,hj])
    | some j =>
      rw [idled_of_successor ha hj]
      have hal := (hs.trans (records_takeOver j)).trans hc
      have hst : (s.settled i).status j = s.status j := by
        simp [status_def,settled_vcpus,successor_ne hj]
      refine hal.congr ?_
      rw [electedAt_inWindow_iff hj,hst]
      simp [WithinThreshold,hi,ha,hj]
  · rw [idled_of_not_active ha]
    have hil : Records s (s.modify i fun v => {v with status := .idle}) True := by
      refine .quiet rfl fun k hk => ?_
      simpa [status_def,hp k hk] using hk
    exact (hil.trans hc).congr (by simp [WithinThreshold,ha])

/-- A step's resumptions are inside the window exactly if its hand-over is within the threshold. -/
lemma records_step [IsOrderedAddMonoid Time] (hs : s.Led) (a : Action Time) (ho : Once s a) :
    Records s (step s a) (WithinThreshold s a) := by
  cases a with
  | vcpuInit i current => exact records_vcpuInit (hs.fresh i ho)
  | execTb i n => exact records_execTb i n
  | vcpuTbExecCond i => exact records_vcpuTbExecCond i
  | vcpuIdle i =>
    by_cases hi : s.status i = .running
    · rw [step,vcpuIdle_running hi]
      exact ((records_idled hi).trans (records_rebalanceAndSync none)).congr (by simp)
    · rw [step,vcpuIdle_of_not_running hi]
      exact (Records.refl s).congr (by simp [WithinThreshold,hi])
  | vcpuResume i scNow => exact records_vcpuResume i scNow
  | receiveWindow w => exact records_receiveWindow w
  | idleTick => exact records_idleTick

end

end Plugin

section
variable [IsOrderedAddMonoid Time] {config : Config Time} {numVcpus : ℕ} {rates : ℕ → ℕ} {l : List (Action Time)}

lemma resumed_inWindow_iff {s : Plugin Time} (hs : s.Led)
    (hl : GuardedRun.Along step (fun s a => Allowed s a ∧ Once s a) s l) :
    (∀ r ∈ (l.foldl step s).resumed, r.InWindow) ↔
      (∀ r ∈ s.resumed, r.InWindow) ∧ GuardedRun.Along step Plugin.WithinThreshold s l := by
  induction l generalizing s with
  | nil => simp [GuardedRun.Along]
  | cons a l ih =>
    obtain ⟨e,he,hw⟩ := Plugin.records_step hs a hl.1.2
    rw [foldl_cons,ih (hs.step a hl.1.1) hl.2,he.resumed,forall_mem_append,hw,and_assoc]
    rfl

/-- In a run every paused vCPU is resumed inside its window exactly if every hand-over to one is within the threshold;
and one that a step finds paused stays so or is among its resumptions. -/
theorem resumed_inside_iff (hl : GuardedRun.Along step (fun s a => Allowed s a ∧ Once s a)
      (Plugin.initial config numVcpus rates) l) :
    ((∀ r ∈ (l.foldl step (Plugin.initial config numVcpus rates)).resumed, r.InWindow) ↔
      GuardedRun.Along step Plugin.WithinThreshold (Plugin.initial config numVcpus rates) l) ∧
    GuardedRun.Along step (fun s a => ∀ k, s.status k = .paused → (step s a).status k ≠ .paused →
      ∃ r ∈ (step s a).resumed.drop s.resumed.length, r.vcpu = k) (Plugin.initial config numVcpus rates) l := by
  have hle := Plugin.Led.initial config numVcpus rates
  constructor
  · rw [resumed_inWindow_iff hle hl]
    simp [Plugin.initial]
  · refine (GuardedRun.along_congr
      (fun s a hs ha => hs.step a ha.1) (fun s a hs ha => iff_of_true ?_ ha) hle hl).mpr hl
    intro k hk hk'
    obtain ⟨e,he,-⟩ := Plugin.records_step hs a ha.2
    rw [he.resumed,drop_left]
    exact (he.complete k hk).resolve_left hk'

end

/-- As `takeOverAhead`, but the active vCPU becomes idle half a quantum past the end of its window. -/
def takeOverLate : List (Action ℚ) :=
  [.vcpuInit 0 2,.vcpuInit 1 2,.execTb 0 1000,.vcpuTbExecCond 0,.execTb 1 1000,.vcpuTbExecCond 1,.execTb 1 1000,
    .vcpuTbExecCond 1,.execTb 0 500,.vcpuIdle 0]

/-- The successor is resumed at 1.5 us, with the threshold at 1 us. -/
theorem resumed_outside_window : GuardedRun.Along step (fun s a => Allowed s a ∧ Once s a) twoVcpus takeOverLate ∧
      (takeOverLate.foldl step twoVcpus).resumed = [⟨1,true,3/2000000,3/2000000,1/1000000⟩] ∧
      ¬∀ r ∈ (takeOverLate.foldl step twoVcpus).resumed, r.InWindow := by
  decide +kernel

/-- With a new window from SystemC in between, the hand-over is within the threshold. -/
theorem resumed_inside_newWindow :
    ((∀ r ∈ ((takeOverLate.insertIdx 9 (.receiveWindow ⟨1/1000000,2/1000000⟩)).foldl step twoVcpus).resumed, r.InWindow) ↔
      GuardedRun.Along step Plugin.WithinThreshold twoVcpus
        (takeOverLate.insertIdx 9 (.receiveWindow ⟨1/1000000,2/1000000⟩))) ∧
    GuardedRun.Along step (fun s a => ∀ k, s.status k = .paused → (step s a).status k ≠ .paused →
      ∃ r ∈ (step s a).resumed.drop s.resumed.length, r.vcpu = k) twoVcpus
      (takeOverLate.insertIdx 9 (.receiveWindow ⟨1/1000000,2/1000000⟩)) :=
  resumed_inside_iff (by decide +kernel)
end Qbox.McipsPlugin
