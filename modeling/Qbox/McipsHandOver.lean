import Qbox.McipsActive

/-! Handing the active role over, and when a vCPU's own time goes back. -/
namespace Qbox.McipsPlugin
open List GuardedRun

variable {Time : Type} [AddCommMonoid Time] [LinearOrder Time]

namespace Plugin
section
variable {s : Plugin Time} {i j k : ℕ}

def successor (s : Plugin Time) (i : ℕ) : Option ℕ := (s.nonIdle.filter (· ≠ i)).head?

lemma successor_ne (h : s.successor i = some j) : j ≠ i := by
  have hj := mem_of_head? h
  simpa using (mem_filter.mp hj).2

lemma successor_nonIdle (h : s.successor i = some j) : s.status j ≠ .idle := by
  have hj := mem_of_head? h
  simpa [nonIdle] using (mem_filter.mp (mem_filter.mp hj).1).2

def settled (s : Plugin Time) (i : ℕ) : Plugin Time := (s.modify i fun v => {v with status := .idle}).accountIdle i

lemma settled_vcpus : (s.settled i).vcpus k = if k = i then
    {s.vcpus i with status := .idle, cpuTime := (s.vcpus i).cpuTime+s.cpuDeltaTime i} else s.vcpus k := by
  by_cases hki : k = i <;> simp [settled,accountIdle,cpuDeltaTime,hki]

lemma settled_qemuTime : (s.settled i).qemuTime = s.qemuTime+s.cpuDeltaTime i := by
  simp [settled,accountIdle,cpuDeltaTime]

lemma nonIdle_settled : (s.settled i).nonIdle = s.nonIdle.filter (· ≠ i) := by
  have hs : ∀ k, (s.settled i).status k ≠ .idle ↔ k ≠ i ∧ s.status k ≠ .idle := by
    intro k
    by_cases hki : k = i <;> simp [status_def,settled_vcpus,hki]
  simp only [nonIdle,List.filter_filter]
  apply filter_congr
  intro k _
  rw [Bool.eq_iff_iff]
  simp [hs]

lemma selectActiveVcpu_settled : (s.settled i).selectActiveVcpu = s.successor i := by
  rw [selectActiveVcpu,nonIdle_settled,successor]

def idled (s : Plugin Time) (i : ℕ) : Plugin Time := let s := s.modify i fun v => {v with status := .idle}
  let s := if s.active = some i then s.handOver i else s
  s.modify i fun v => {v with deltaInsn := 0}

lemma vcpuIdle_running (h : s.status i = .running) : s.vcpuIdle i = (s.idled i).rebalanceAndSync none := by
  simp [vcpuIdle,h,idled]

lemma vcpuIdle_of_not_running (h : s.status i ≠ .running) : s.vcpuIdle i = s := by
  unfold vcpuIdle
  split <;> simp_all

lemma idled_of_successor (ha : s.active = some i) (hj : s.successor i = some j) :
    s.idled i = ((s.settled i).takeOver j).modify i fun v => {v with deltaInsn := 0} := by
  have hs := selectActiveVcpu_settled.trans hj
  rw [settled] at hs
  simp [idled,modify_active,ha,handOver,hs,settled]

lemma idled_of_last (ha : s.active = some i) (hj : s.successor i = none) :
    s.idled i = ({s.settled i with active := none}.detachSyncWindow).modify i fun v => {v with deltaInsn := 0} := by
  have hs := selectActiveVcpu_settled.trans hj
  rw [settled] at hs
  simp [idled,modify_active,ha,handOver,hs,settled]

lemma idled_of_not_active (ha : s.active ≠ some i) :
    s.idled i = (s.modify i fun v => {v with status := .idle}).modify i fun v => {v with deltaInsn := 0} := by
  simp [idled,modify_active,ha]

lemma takeOver_vcpus : (s.takeOver j).vcpus k = if k = j then {s.vcpus j with
      cpuTime := s.qemuTime
      deltaInsn := 0
      status := if s.status j = .paused then .running else s.status j} else s.vcpus k := by
  by_cases hp : s.status j = .paused
  · rw [status_def] at hp
    by_cases hkj : k = j <;> simp [takeOver,status_def,hp,resumeVcpu,hkj]
  · rw [status_def] at hp
    by_cases hkj : k = j <;> simp [takeOver,status_def,hp,hkj]

lemma takeOver_config : (s.takeOver j).config = s.config := by
  unfold takeOver
  dsimp only
  split <;> rfl

lemma detachSyncWindow_vcpus : s.detachSyncWindow.vcpus = s.vcpus := by
  unfold detachSyncWindow
  split <;> rfl

lemma idled_config : (s.idled i).config = s.config := by
  by_cases ha : s.active = some i
  · cases hj : s.successor i with
    | none =>
      rw [idled_of_last ha hj]
      exact (steady_detachSyncWindow _).config
    | some j =>
      rw [idled_of_successor ha hj]
      exact takeOver_config
  · rw [idled_of_not_active ha]
    rfl

lemma idled_idle : (s.idled i).status i = .idle := by
  by_cases ha : s.active = some i
  · cases hj : s.successor i with
    | none => simp [idled_of_last ha hj,status_def,detachSyncWindow_vcpus,settled_vcpus]
    | some j =>
      simp [idled_of_successor ha hj,status_def,takeOver_vcpus,settled_vcpus,(successor_ne hj).symm]
  · simp [idled_of_not_active ha,status_def]

lemma idled_vcpus_of_ne (hki : k ≠ i) (hkj : s.active = some i → s.successor i ≠ some k) :
    (s.idled i).vcpus k = s.vcpus k := by
  by_cases ha : s.active = some i
  · cases hj : s.successor i with
    | none => simp [idled_of_last ha hj,detachSyncWindow_vcpus,settled_vcpus,hki]
    | some j =>
      have hkj' : k ≠ j := fun heq => hkj ha (heq ▸ hj)
      simp [idled_of_successor ha hj,takeOver_vcpus,settled_vcpus,hki,hkj']
  · simp [idled_of_not_active ha,hki]

lemma idled_vcpus_successor (ha : s.active = some i) (hj : s.successor i = some j) : (s.idled i).vcpus j =
      {s.vcpus j with cpuTime := s.qemuTime+s.cpuDeltaTime i, deltaInsn := 0, status := .running} := by
  have hji := successor_ne hj
  have hr : (if (s.settled i).status j = .paused then .running else (s.settled i).status j) = Status.running := by
    have hn := successor_nonIdle hj
    rw [status_def] at hn
    cases hs : (s.vcpus j).status <;> simp_all [status_def,settled_vcpus]
  rw [idled_of_successor ha hj,modify_vcpus,if_neg hji,takeOver_vcpus,if_pos rfl,hr,settled_qemuTime,
    settled_vcpus,if_neg hji]

end

section
variable {s : Plugin Time} {i j k : ℕ}

/-- No vCPU's own time goes back, as long as it does not become idle. -/
def NoBack (s s' : Plugin Time) : Prop :=
  ∀ k, s.status k ≠ .idle → s'.status k ≠ .idle → s.cpuTimeNow k ≤ s'.cpuTimeNow k

/-- Where the active vCPU becomes idle, the vCPU that takes over is not ahead of it. -/
def NotAhead (s : Plugin Time) : Action Time → Prop
  | .vcpuIdle i => s.status i = .running → s.active = some i →
      ∀ j, s.successor i = some j → s.cpuTimeNow j ≤ s.qemuTime+s.cpuDeltaTime i
  | _ => True

lemma NoBack.steady {s' s'' : Plugin Time} (h : NoBack s s') (hs : Steady s' s'') : NoBack s s'' := by
  intro k hk hk''
  rw [hs.cpuTimeNow]
  exact h k hk fun heq => hk'' ((hs.idle k).mpr heq)

lemma cpuTimeNow_congr {s' : Plugin Time} (hc : s'.config = s.config) (hk : s'.vcpus k = s.vcpus k) :
    s'.cpuTimeNow k = s.cpuTimeNow k := by
  have hs : s'.status k = s.status k := congrArg VCPUTime.status hk
  rw [cpuTimeNow,cpuTimeNow,cpuDeltaTime,cpuDeltaTime,hs,hc,hk]

lemma noBack_of_ne {s' : Plugin Time} (hc : s'.config = s.config) (hne : ∀ k, k ≠ i → s'.vcpus k = s.vcpus k)
    (hi : s.status i ≠ .idle → s.cpuTimeNow i ≤ s'.cpuTimeNow i) : NoBack s s' := by
  intro k hk _
  by_cases hki : k = i
  · subst hki
    exact hi hk
  · exact (cpuTimeNow_congr hc (hne k hki)).ge

lemma noBack_idled_iff (hi : s.status i = .running) : NoBack s (s.idled i) ↔ NotAhead s (.vcpuIdle i) := by
  have hs : ∀ j, s.active = some i → s.successor i = some j →
      (s.idled i).cpuTimeNow j = s.qemuTime+s.cpuDeltaTime i := by
    intro j ha hj
    have hv := idled_vcpus_successor ha hj
    simp [cpuTimeNow,status_def,cpuDeltaTime,hv,idled_config,Config.insnTime_zero]
  constructor
  · intro h _ ha j hj
    have hr : (s.idled i).status j ≠ .idle := by simp [status_def,idled_vcpus_successor ha hj]
    exact (h j (successor_nonIdle hj) hr).trans_eq (hs j ha hj)
  · intro h k hk hk'
    have hki : k ≠ i := fun heq => hk' (heq ▸ idled_idle)
    by_cases hkj : s.active = some i ∧ s.successor i = some k
    · rw [hs k hkj.1 hkj.2]
      exact h hi hkj.1 k hkj.2
    · have hv := idled_vcpus_of_ne hki fun ha heq => hkj ⟨ha,heq⟩
      exact (cpuTimeNow_congr idled_config hv).ge

lemma noBack_execTb [IsOrderedAddMonoid Time] (i n : ℕ) : NoBack s (s.execTb i n) := by
  refine noBack_of_ne (i := i) rfl (fun k hki => by simp [execTb,hki]) fun hi => ?_
  have hm := s.config.insnTime_mono (s.vcpus i).insnPerSecond (Nat.le_add_right (s.vcpus i).deltaInsn n)
  rw [status_def] at hi
  simp only [cpuTimeNow,status_def,cpuDeltaTime,execTb,modify_vcpus,modify_config,if_true,hi,if_false]
  gcongr

lemma noBack_accountQuota (i : ℕ) : NoBack s (s.accountQuota i) := by
  have hc : (s.accountQuota i).config = s.config := by
    unfold accountQuota
    split <;> rfl
  have hv : (s.accountQuota i).vcpus i =
      {s.vcpus i with cpuTime := (s.vcpus i).cpuTime+s.cpuDeltaTime i, deltaInsn := 0} := by
    by_cases ha : s.active = some i <;> simp [accountQuota,ha]
  refine noBack_of_ne (i := i) hc (fun k hki => ?_) fun hi => ?_
  · by_cases ha : s.active = some i <;> simp [accountQuota,ha,hki]
  · rw [status_def] at hi
    simp [cpuTimeNow,status_def,cpuDeltaTime,hv,hc,hi,Config.insnTime_zero]

lemma noBack_vcpuTbExecCond (i : ℕ) : NoBack s (s.vcpuTbExecCond i) := by
  have hs : NoBack s s := fun k _ _ => le_rfl
  have hf : NoBack s {s with failed := true} := fun k _ _ => le_rfl
  unfold vcpuTbExecCond cpuEndDeltaQuota
  split_ifs with h₁ h₂ h₃
  · exact hs
  · exact hf
  · exact hf
  · exact (noBack_accountQuota i).steady (steady_rebalanceAndSync _ _)

lemma noBack_vcpuInit {current : ℕ} (hi : s.status i = .idle) : NoBack s (s.vcpuInit i current) :=
  noBack_of_ne rfl (fun k hki => by simp [vcpuInit,hki]) fun hne => absurd hi hne

lemma noBack_becomeActive (hi : s.status i = .idle) (scNow : Time) :
    NoBack s ((s.modify i fun v => {v with status := .running, cpuTime := s.qemuTimeNow}).becomeActive i scNow) := by
  unfold becomeActive
  refine NoBack.steady (NoBack.steady ?_ (steady_attachSyncWindow _)) (steady_setSystemcWindow _)
  split
  · exact noBack_of_ne rfl (fun k hki => by simp [syncQemuTimeNs,hki]) fun hne => absurd hi hne
  · exact noBack_of_ne rfl (fun k hki => by simp [hki]) fun hne => absurd hi hne

lemma noBack_vcpuResume (i : ℕ) (scNow : Time) : NoBack s (s.vcpuResume i scNow) := by
  have hs : NoBack s s := fun k _ _ => le_rfl
  unfold vcpuResume
  split
  · next hi =>
    dsimp only
    split
    · exact noBack_becomeActive hi scNow
    · exact noBack_of_ne rfl (fun k hki => by simp [hki]) fun hne => absurd hi hne
  · next hp =>
    split
    · exact hs.steady (steady_resumeVcpu _ hp)
    · exact hs
  · exact hs

lemma noBack_receiveWindow (w : Window Time) : NoBack s (s.receiveWindow w) := by
  have hw : NoBack s {s with window := w} := fun k _ _ => le_rfl
  unfold receiveWindow
  dsimp only
  split
  · exact hw.steady (steady_rebalanceAndSync _ _)
  · refine NoBack.steady ?_ (steady_setSystemcWindow _)
    split
    · next hp => exact hw.steady (steady_resumeVcpu _ hp.1)
    · exact hw

lemma noBack_idleTick [IsOrderedAddMonoid Time] : NoBack s s.idleTick := by
  have hs : NoBack s s := fun k _ _ => le_rfl
  have hti : ∀ {t : Plugin Time} (u : Time), NoBack s t → NoBack s {t with wdLastTickQemuTime := u} := fun _ ht => ht
  unfold idleTick
  split
  · exact hs
  · next j hj =>
    apply hti
    split
    · refine NoBack.steady ?_ (steady_setSystemcWindow _)
      refine noBack_of_ne (i := j) rfl (fun k hkj => by simp [hkj]) fun hi => ?_
      rw [status_def] at hi
      simp only [cpuTimeNow,status_def,cpuDeltaTime,modify_vcpus,modify_config,addQemuTime_vcpus,addQemuTime_config,
        if_true,hi,if_false]
      gcongr
      exact le_add_of_nonneg_right s.config.quantum_nonneg
    · exact hs

/-- A step moves a time back exactly if the active vCPU becomes idle and its successor is ahead of it. -/
lemma noBack_step_iff [IsOrderedAddMonoid Time] (hs : s.Led) (a : Action Time) (ho : Once s a) :
    NoBack s (step s a) ↔ NotAhead s a := by
  cases a with
  | vcpuInit i current => exact iff_of_true (noBack_vcpuInit (hs.fresh i ho)) trivial
  | execTb i n => exact iff_of_true (noBack_execTb i n) trivial
  | vcpuTbExecCond i => exact iff_of_true (noBack_vcpuTbExecCond i) trivial
  | vcpuIdle i =>
    by_cases hi : s.status i = .running
    · rw [step,vcpuIdle_running hi,← noBack_idled_iff hi]
      have hst := steady_rebalanceAndSync (s.idled i) none
      refine ⟨fun h k hk hk' => ?_,fun h => h.steady hst⟩
      have hb := h k hk fun heq => hk' ((hst.idle k).mp heq)
      rwa [hst.cpuTimeNow] at hb
    · refine iff_of_true ?_ fun hr => absurd hr hi
      rw [step,vcpuIdle_of_not_running hi]
      exact fun k _ _ => le_rfl
  | vcpuResume i scNow => exact iff_of_true (noBack_vcpuResume i scNow) trivial
  | receiveWindow w => exact iff_of_true (noBack_receiveWindow w) trivial
  | idleTick => exact iff_of_true noBack_idleTick trivial

/-- While a vCPU is not idle, its time does not go back over any number of steps. -/
lemma cpuTimeNow_le_foldl {l : List (Action Time)} (h : GuardedRun.Along step (fun s a => NoBack s (step s a)) s l)
    (hk : ∀ l', l' <+: l → (l'.foldl step s).status k ≠ .idle) : s.cpuTimeNow k ≤ (l.foldl step s).cpuTimeNow k := by
  induction l generalizing s with
  | nil => exact le_rfl
  | cons a l ih =>
    have hn := h.1 k (hk [] nil_prefix) (hk [a] (by simp))
    have hr := ih h.2 fun l' hl' => hk (a :: l') (by simpa using hl')
    exact hn.trans hr

end

end Plugin

section
variable [IsOrderedAddMonoid Time] {config : Config Time} {numVcpus : ℕ} {rates : ℕ → ℕ} {l : List (Action Time)}

/-- In a run no vCPU's time goes back over a step exactly if none takes over that is ahead of the active one; then not
over any part of the run in which it is not idle either. -/
theorem cpuTime_back_iff (hl : GuardedRun.Along step (fun s a => Allowed s a ∧ Once s a)
      (Plugin.initial config numVcpus rates) l) :
    (GuardedRun.Along step (fun s a => s.NoBack (step s a)) (Plugin.initial config numVcpus rates) l ↔
      GuardedRun.Along step Plugin.NotAhead (Plugin.initial config numVcpus rates) l) ∧
    (GuardedRun.Along step Plugin.NotAhead (Plugin.initial config numVcpus rates) l → ∀ l₁ l₂ k, l₁ ++ l₂ <+: l →
        (∀ l', l' <+: l₂ → (l'.foldl step (l₁.foldl step (Plugin.initial config numVcpus rates))).status k ≠ .idle) →
        (l₁.foldl step (Plugin.initial config numVcpus rates)).cpuTimeNow k ≤
          ((l₁ ++ l₂).foldl step (Plugin.initial config numVcpus rates)).cpuTimeNow k) := by
  have hi := along_congr (J := Plugin.Led) (P := fun s a => s.NoBack (step s a))
    (fun s a hs ha => hs.step a ha.1) (fun s a hs ha => Plugin.noBack_step_iff hs a ha.2)
    (Plugin.Led.initial config numVcpus rates) hl
  refine ⟨hi,fun h l₁ l₂ k hsu hk => ?_⟩
  obtain ⟨l₃,rfl⟩ := hsu
  have hal := hi.mpr h
  rw [along_append,along_append] at hal
  rw [foldl_append]
  exact Plugin.cpuTimeNow_le_foldl hal.1.2 hk

end

def takeOverAhead : List (Action ℚ) := [.vcpuInit 0 2,.vcpuInit 1 2,.execTb 1 1000,.vcpuTbExecCond 1,.vcpuIdle 0]

/-- Its time goes back from 1 us to zero, while it is paused and then running. -/
theorem cpuTime_goes_back : GuardedRun.Along step (fun s a => Allowed s a ∧ Once s a) twoVcpus takeOverAhead ∧
      (takeOverAhead.dropLast.foldl step twoVcpus).status 1 = .paused ∧
      (takeOverAhead.foldl step twoVcpus).status 1 = .running ∧
      (takeOverAhead.dropLast.foldl step twoVcpus).cpuTimeNow 1 = 1/1000000 ∧
      (takeOverAhead.foldl step twoVcpus).cpuTimeNow 1 = 0 := by
  decide +kernel

/-- In `handOverRun` the successor is behind. -/
theorem cpuTime_back_iff_handOverRun : (GuardedRun.Along step (fun s a => s.NoBack (step s a)) twoVcpus handOverRun ↔
      GuardedRun.Along step Plugin.NotAhead twoVcpus handOverRun) ∧
    (GuardedRun.Along step Plugin.NotAhead twoVcpus handOverRun → ∀ l₁ l₂ k, l₁ ++ l₂ <+: handOverRun →
        (∀ l', l' <+: l₂ → (l'.foldl step (l₁.foldl step twoVcpus)).status k ≠ .idle) →
        (l₁.foldl step twoVcpus).cpuTimeNow k ≤ ((l₁ ++ l₂).foldl step twoVcpus).cpuTimeNow k) :=
  cpuTime_back_iff (by decide +kernel)
end Qbox.McipsPlugin
