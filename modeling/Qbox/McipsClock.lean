import Qbox.McipsThreads

/-! The clock that `get_qemu_clock` gives: its value is put together from several loads, and goes back where these fall
between the writes of an update. -/
namespace Qbox.McipsPlugin
open List Function Plugin

variable {Time : Type} [AddCommMonoid Time] [LinearOrder Time]

namespace Threads
variable (σ : Threads Time)

def updating (σ : Threads Time) : Bool := match σ.critical with
  | some (.quotaDelta i _) => σ.plugin.active = some i
  | some (.idleSelect _ _) | some (.idleNew _ _) | some (.resumeBase _ _) | some (.resumeActive _) => true
  | _ => false

def beginning (σ : Threads Time) : Bool := match σ.critical with
  | some (.quotaBase i _) => σ.plugin.active = some i
  | some (.idleBase _ _) | some (.resumeTime _) => true
  | _ => false

/-- No call of `get_qemu_clock` overlaps an update of the clock. -/
def Undisturbed : ThreadAction Time → Prop
  | .clockActive _ => σ.updating = false
  | .proceed _ => σ.beginning = true → ∀ c, σ.callers c = .outside
  | _ => True

def clock : Time := σ.plugin.clockValue σ.scTime σ.plugin.active σ.plugin.qemuTimeNs

def base : Time := match σ.critical with
  | some (.resumeBase _ now) => max σ.plugin.qemuTimeNs now
  | _ => σ.plugin.qemuTimeNs

def floor : Time := if σ.updating then σ.base else σ.clock

end Threads

namespace Plugin
variable {s s' : Plugin Time}

lemma cpuDeltaTime_nonneg (j : ℕ) : 0 ≤ s.cpuDeltaTime j := by
  rw [← s.config.insnTime_zero (s.vcpus j).insnPerSecond]
  exact s.config.insnTime_mono _ (Nat.zero_le _)

lemma cpuDeltaTime_le {j : ℕ} (hc : s'.config = s.config)
    (hr : (s'.vcpus j).insnPerSecond = (s.vcpus j).insnPerSecond)
    (hi : (s.vcpus j).deltaInsn ≤ (s'.vcpus j).deltaInsn) : s.cpuDeltaTime j ≤ s'.cpuDeltaTime j := by
  rw [cpuDeltaTime,cpuDeltaTime,hc,hr]
  exact s.config.insnTime_mono _ hi

lemma clockValue_mono [IsOrderedAddMonoid Time] {scTime scTime' base base' : Time} {active : Option ℕ}
    (hsc : scTime ≤ scTime') (hb : base ≤ base') (hd : ∀ j, active = some j → s.cpuDeltaTime j ≤ s'.cpuDeltaTime j) :
    s.clockValue scTime active base ≤ s'.clockValue scTime' active base' := by
  cases active with
  | none =>
    simp only [clockValue]
    by_cases hp : 0 < base
    · rw [if_pos hp,if_pos (hp.trans_le hb)]
      exact max_le_max hb hsc
    · rw [if_neg hp]
      split
      · exact hb.trans (le_max_left _ _)
      · exact hb
  | some j => exact add_le_add hb (hd j rfl)

lemma base_le_clockValue [IsOrderedAddMonoid Time] (scTime base : Time) (active : Option ℕ) :
    base ≤ s.clockValue scTime active base := by
  cases active with
  | none =>
    simp only [clockValue]
    split
    · exact le_max_left _ _
    · exact le_rfl
  | some j => exact le_add_of_nonneg_right (cpuDeltaTime_nonneg j)

end Plugin

namespace Threads
variable {σ : Threads Time}

structure Calm (σ σ' : Threads Time) : Prop where
  active : σ'.plugin.active = σ.plugin.active
  base : σ.plugin.qemuTimeNs ≤ σ'.plugin.qemuTimeNs
  scTime : σ.scTime ≤ σ'.scTime
  delta : ∀ j, σ.plugin.active = some j → σ.plugin.cpuDeltaTime j ≤ σ'.plugin.cpuDeltaTime j

lemma Calm.clockValue_le [IsOrderedAddMonoid Time] {σ' : Threads Time} (h : Calm σ σ') {base base' : Time}
    (hb : base ≤ base') : σ.plugin.clockValue σ.scTime σ.plugin.active base ≤
      σ'.plugin.clockValue σ'.scTime σ.plugin.active base' :=
  Plugin.clockValue_mono h.scTime hb h.delta

lemma Calm.clock_le [IsOrderedAddMonoid Time] {σ' : Threads Time} (h : Calm σ σ') : σ.clock ≤ σ'.clock := by
  rw [clock,clock,h.active]
  exact h.clockValue_le h.base

section
lemma calm_enter {e : Plugin Time × Option (Critical Time)} (ha : e.1.active = σ.plugin.active)
    (hb : e.1.qemuTimeNs = σ.plugin.qemuTimeNs) (hd : ∀ j, e.1.cpuDeltaTime j = σ.plugin.cpuDeltaTime j) :
    Calm σ (σ.enter e) :=
  ⟨ha,hb.ge,le_rfl,fun j _ => (hd j).ge⟩

lemma calm_enter_of_ne {i : ℕ} (ha : σ.plugin.active ≠ some i) (f : VCPUTime Time → VCPUTime Time)
    (c : Option (Critical Time)) : Calm σ (σ.enter (σ.plugin.modify i f,c)) := by
  refine ⟨rfl,le_rfl,le_rfl,fun j hj => ?_⟩
  have hji : j ≠ i := fun heq => ha (heq ▸ hj)
  exact (cpuDeltaTime_modify_of_ne hji f).ge

lemma updating_of_none (h : σ.critical = none) : σ.updating = false := by
  simp [updating,h]

lemma calm_enterQuota (i : ℕ) :
    Calm σ (σ.enter (enterQuota σ.plugin i)) ∧ (σ.enter (enterQuota σ.plugin i)).updating = false := by
  unfold enterQuota
  split <;> exact ⟨calm_enter rfl rfl fun _ => rfl,rfl⟩

lemma calm_enterIdle (i : ℕ) :
    Calm σ (σ.enter (enterIdle σ.plugin i)) ∧ (σ.enter (enterIdle σ.plugin i)).updating = false := by
  unfold enterIdle
  split
  · refine ⟨calm_enter rfl rfl (cpuDeltaTime_modify rfl rfl),?_⟩
    by_cases ha : σ.plugin.active = some i <;> simp [updating,enter,ha]
  · exact ⟨calm_enter rfl rfl fun _ => rfl,rfl⟩

lemma calm_enterResume (i : ℕ) :
    Calm σ (σ.enter (enterResume σ.plugin i)) ∧ (σ.enter (enterResume σ.plugin i)).updating = false := by
  unfold enterResume
  split
  · refine ⟨calm_enter rfl rfl (cpuDeltaTime_modify rfl rfl),?_⟩
    by_cases ha : σ.plugin.active = none <;> simp [updating,enter,ha]
  · exact ⟨calm_enter rfl rfl fun _ => rfl,rfl⟩
  · exact ⟨calm_enter rfl rfl fun _ => rfl,rfl⟩

lemma calm_enterTick : Calm σ (σ.enter (enterTick σ.plugin)) ∧ (σ.enter (enterTick σ.plugin)).updating = false := by
  unfold enterTick
  split
  · exact ⟨calm_enter rfl rfl fun _ => rfl,rfl⟩
  · split <;> exact ⟨calm_enter rfl rfl fun _ => rfl,rfl⟩

lemma calm_store (h : Sane σ) (i : ℕ) : Calm σ (σ.step (.store i)) := by
  refine ⟨rfl,le_rfl,le_rfl,fun j _ => ?_⟩
  by_cases hji : j = i
  · subst hji
    refine Plugin.cpuDeltaTime_le rfl (by simp [Threads.step]) ?_
    cases ha : σ.adding j with
    | none => simp [Threads.step,ha]
    | some v => simpa [Threads.step,ha] using h.adding j v ha
  · exact (cpuDeltaTime_modify_of_ne hji _).ge

/-- Outside the writes of a callback the clock only moves forward, and an update stays where it is. -/
lemma calm_step {a : ThreadAction Time} (h : Sane σ) (ha : σ.Enabled a) (hpr : ∀ run, a ≠ .proceed run) :
    Calm σ (σ.step a) ∧ (σ.step a).updating = σ.updating ∧
      (σ.updating = true → (σ.step a).critical = σ.critical) := by
  have hs : ∀ {σ' : Threads Time}, σ'.plugin = σ.plugin → σ'.critical = σ.critical → σ.scTime ≤ σ'.scTime →
      Calm σ σ' ∧ σ'.updating = σ.updating ∧ (σ.updating = true → σ'.critical = σ.critical) := by
    intro σ' hp hc hsc
    refine ⟨⟨by rw [hp],by rw [hp],hsc,fun j _ => by rw [hp]⟩,?_,fun _ => hc⟩
    simp [updating,hp,hc]
  have hf : ∀ {σ' : Threads Time}, σ.critical.isNone = true → Calm σ σ' ∧ σ'.updating = false →
      Calm σ σ' ∧ σ'.updating = σ.updating ∧ (σ.updating = true → σ'.critical = σ.critical) := by
    intro σ' hn hca
    have hu := updating_of_none (by simpa using hn)
    exact ⟨hca.1,hca.2.trans hu.symm,by simp [hu]⟩
  cases a with
  | load i n | clockActive c => exact hs rfl rfl le_rfl
  | store i => exact ⟨calm_store h i,rfl,fun _ => rfl⟩
  | quota i => exact hf ha.1 (calm_enterQuota i)
  | idle i => exact hf ha.1 (calm_enterIdle i)
  | resume i => exact hf ha.1 (calm_enterResume i)
  | tick => exact hf ha calm_enterTick
  | receiveWindow w run => exact ⟨⟨rfl,le_rfl,le_rfl,fun j _ => le_rfl⟩,rfl,fun _ => rfl⟩
  | proceed run => exact absurd rfl (hpr run)
  | advance t => exact hs rfl rfl ha
  | clockBase c | clockReturn c =>
    simp only [Threads.step]
    split <;> exact hs rfl rfl le_rfl

lemma base_of_calm {σ' : Threads Time} (h : Calm σ σ') (hσ : σ'.critical = σ.critical) : σ.base ≤ σ'.base := by
  rw [base,base,hσ]
  split
  · exact max_le_max h.base le_rfl
  · exact h.base

lemma floor_of_calm [IsOrderedAddMonoid Time] {σ' : Threads Time} (h : Calm σ σ') (hσ : σ'.updating = σ.updating)
    (hc : σ.updating = true → σ'.critical = σ.critical) : σ.floor ≤ σ'.floor := by
  rw [floor,floor,hσ]
  split
  · next hu => exact base_of_calm h (hc hu)
  · exact h.clock_le

variable [IsOrderedAddMonoid Time] {run : ℕ → Bool}

lemma calm_proceed (run : ℕ → Bool) (h : Sane σ) (hu : σ.updating = false) (hb : σ.beginning = false) :
    Calm σ (σ.step (.proceed run)) ∧ (σ.step (.proceed run)).updating = false := by
  cases hc : σ.critical with
  | none =>
    have hsa : σ.step (.proceed run) = σ := by simp [Threads.step,hc]
    rw [hsa]
    exact ⟨⟨rfl,le_rfl,le_rfl,fun _ _ => le_rfl⟩,hu⟩
  | some c =>
    simp only [Threads.step,hc]
    simp only [updating,hc] at hu
    simp only [beginning,hc] at hb
    have hs := h.stage c hc
    cases c with
    | quotaBase i delta =>
      have ha : σ.plugin.active ≠ some i := by simpa using hb
      simp only [write,if_neg ha,next]
      exact ⟨calm_enter rfl rfl fun _ => rfl,by simp [updating,enter,ha]⟩
    | quotaDelta i delta =>
      have ha : σ.plugin.active ≠ some i := by simpa using hu
      simp only [write,next]
      exact ⟨calm_enter_of_ne ha _ _,rfl⟩
    | idleOwn i =>
      simp only [write,next]
      exact ⟨calm_enter_of_ne hs _ _,rfl⟩
    | rebalance i => exact ⟨calm_enter rfl rfl fun _ => rfl,rfl⟩
    | tickBase j current =>
      refine ⟨⟨rfl,?_,le_rfl,fun _ _ => le_rfl⟩,rfl⟩
      rw [h.shadow]
      exact le_add_of_nonneg_right σ.plugin.config.quantum_nonneg
    | tickTime j current =>
      refine ⟨calm_enter rfl rfl fun k => ?_,rfl⟩
      exact cpuDeltaTime_modify (s := σ.plugin)
        (f := fun v => {v with cpuTime := v.cpuTime+σ.plugin.config.quantum}) rfl rfl k
    | idleBase i delta | resumeTime i => simp at hb
    | resumeBase i now | idleSelect i delta | idleNew i j | resumeActive i => simp at hu

omit [IsOrderedAddMonoid Time] in
/-- The first write of an update brings the shadow of the QEMU time up to the clock. -/
lemma floor_le_beginning (h : Sane σ) (hb : σ.beginning = true) : σ.floor ≤ (σ.step (.proceed run)).floor := by
  cases hc : σ.critical with
  | none => simp [beginning,hc] at hb
  | some c =>
    have hs := h.stage c hc
    simp only [beginning,hc] at hb
    cases c with
    | quotaBase i delta =>
      have ha : σ.plugin.active = some i := by simpa using hb
      have hd : delta = σ.plugin.cpuDeltaTime i := hs
      have hf : σ.floor = σ.plugin.qemuTimeNs+delta := by
        simp [floor,updating,hc,clock,ha,Plugin.clockValue,hd]
      have hn : (σ.step (.proceed run)).floor = σ.plugin.qemuTime+delta := by
        simp [Threads.step,hc,floor,base,updating,enter,write,next,ha,addQemuTime,syncQemuTimeNs]
      rw [hf,hn,h.shadow]
    | idleBase i delta =>
      obtain ⟨ha,hd,-⟩ := hs
      have hf : σ.floor = σ.plugin.qemuTimeNs+delta := by
        simp [floor,updating,hc,clock,ha,Plugin.clockValue,hd]
      have hn : (σ.step (.proceed run)).floor = σ.plugin.qemuTime+delta := by
        simp [Threads.step,hc,floor,base,updating,enter,write,next,addQemuTime,syncQemuTimeNs]
      rw [hf,hn,h.shadow]
    | resumeTime i =>
      have ha : σ.plugin.active = none := hs
      have hf : σ.floor ≤ max σ.plugin.qemuTimeNs σ.scTime := by
        simp only [floor,updating,hc,clock,ha,Plugin.clockValue,Bool.false_eq_true,if_false]
        split
        · exact le_rfl
        · exact le_max_left _ _
      have hn : (σ.step (.proceed run)).floor = max σ.plugin.qemuTimeNs σ.scTime := by
        simp [Threads.step,hc,floor,base,updating,enter,write,next]
      rw [hn]
      exact hf
    | _ => simp at hb

lemma base_le_floor (σ : Threads Time) : σ.plugin.qemuTimeNs ≤ σ.floor := by
  rw [floor]
  split
  · rw [base]
    split
    · exact le_max_left _ _
    · exact le_rfl
  · exact Plugin.base_le_clockValue _ _ _

/-- The later writes of an update bring the shadow to the QEMU time, and the clock reads no less. -/
lemma floor_le_updating (h : Sane σ) (hu : σ.updating = true) : σ.floor ≤ (σ.step (.proceed run)).floor := by
  have hf : σ.floor = σ.base := by simp [floor,hu]
  have hb : (σ.step (.proceed run)).plugin.qemuTimeNs = σ.base := by
    cases hc : σ.critical with
    | none => simp [updating,hc] at hu
    | some c =>
      simp only [updating,hc] at hu
      simp only [Threads.step,hc,base]
      cases c with
      | resumeBase i now =>
        by_cases hlt : σ.plugin.qemuTime < now
        · simp [enter,write,hlt,h.shadow,syncQemuTimeNs,max_eq_right hlt.le]
        · simp [enter,write,hlt,h.shadow,max_eq_left (not_lt.mp hlt)]
      | quotaDelta i delta | idleSelect i delta | idleNew i j | resumeActive i => rfl
      | _ => simp at hu
  rw [hf,← hb]
  exact base_le_floor _

lemma floor_le_step {a : ThreadAction Time} (h : Sane σ) (ha : σ.Enabled a) : σ.floor ≤ (σ.step a).floor := by
  by_cases hp : ∃ run, a = .proceed run
  · obtain ⟨run,rfl⟩ := hp
    by_cases hu : σ.updating = true
    · exact floor_le_updating h hu
    · by_cases hb : σ.beginning = true
      · exact floor_le_beginning h hb
      · have hu' : σ.updating = false := by simpa using hu
        obtain ⟨hc,hn⟩ := calm_proceed run h hu' (by simpa using hb)
        exact floor_of_calm hc (hn.trans hu'.symm) (by simp [hu'])
  · obtain ⟨hc,hn,hcr⟩ := calm_step h ha fun run heq => hp ⟨run,heq⟩
    exact floor_of_calm hc hn hcr

end

section
/-- A reading caller started after the last update and before the next, and will not get less than before. -/
def Reading (σ : Threads Time) (c : ℕ) : Prop := match σ.callers c with
  | .outside => True
  | .loadedActive a => σ.updating = false ∧ σ.plugin.active = a
  | .loadedBase a b => σ.updating = false ∧ σ.plugin.active = a ∧ b ≤ σ.plugin.qemuTimeNs ∧
      ∀ v ∈ σ.returned c, v ≤ σ.plugin.clockValue σ.scTime a b

/-- What a caller has got is in order and not above the clock. -/
structure Ordered (σ : Threads Time) (c : ℕ) : Prop where
  ascending : (σ.returned c).Pairwise (· ≤ ·)
  bounded : ∀ v ∈ σ.returned c, v ≤ σ.floor
  reading : Reading σ c

variable [IsOrderedAddMonoid Time] {c : ℕ} {a : ThreadAction Time}

lemma Reading.calm {σ' : Threads Time} (h : Reading σ c) (hca : Calm σ σ') (hu : σ'.updating = false)
    (hcl : σ'.callers c = σ.callers c) (hr : σ'.returned c = σ.returned c) : Reading σ' c := by
  unfold Reading at h ⊢
  rw [hcl]
  split
  · trivial
  · next active hc =>
    rw [hc] at h
    exact ⟨hu,hca.active.trans h.2⟩
  · next active base hc =>
    rw [hc] at h
    obtain ⟨-,ha,hb,hva⟩ := h
    refine ⟨hu,hca.active.trans ha,hb.trans hca.base,fun v hv => ?_⟩
    rw [hr] at hv
    rw [← ha] at hva ⊢
    exact (hva v hv).trans (hca.clockValue_le le_rfl)

lemma calm_of_reading (h : Sane σ) (ha : σ.Enabled a) (hg : σ.Undisturbed a) (hu : σ.updating = false)
    (hc : σ.callers c ≠ .outside) : Calm σ (σ.step a) ∧ (σ.step a).updating = false := by
  by_cases hp : ∃ run, a = .proceed run
  · obtain ⟨run,rfl⟩ := hp
    have hbe : σ.beginning = false := by
      rw [← Bool.not_eq_true]
      exact fun hb => hc (hg hb c)
    exact calm_proceed run h hu hbe
  · obtain ⟨hca,hn,-⟩ := calm_step h ha fun run heq => hp ⟨run,heq⟩
    exact ⟨hca,hn.trans hu⟩

omit [IsOrderedAddMonoid Time] in
lemma Reading.updating (h : Reading σ c) (hc : σ.callers c ≠ .outside) : σ.updating = false := by
  unfold Reading at h
  cases hca : σ.callers c with
  | outside => exact absurd hca hc
  | loadedActive active | loadedBase active base => rw [hca] at h; exact h.1

lemma Ordered.other (h : Ordered σ c) (hs : Sane σ) (ha : σ.Enabled a) (hg : σ.Undisturbed a)
    (hca : (σ.step a).callers c = σ.callers c) (hr : (σ.step a).returned c = σ.returned c) :
    Ordered (σ.step a) c := by
  refine ⟨hr ▸ h.ascending,fun v hv => ?_,?_⟩
  · rw [hr] at hv
    exact (h.bounded v hv).trans (floor_le_step hs ha)
  · by_cases hc : σ.callers c = .outside
    · simp [Reading,hca,hc]
    · obtain ⟨hcl,hu⟩ := calm_of_reading hs ha hg (h.reading.updating hc) hc
      exact h.reading.calm hcl hu hca hr

omit [IsOrderedAddMonoid Time] in
lemma Ordered.clockActive (h : Ordered σ c) (hg : σ.Undisturbed (.clockActive c)) :
    Ordered (σ.step (.clockActive c)) c := by
  refine ⟨h.ascending,h.bounded,?_⟩
  simp only [Reading,Threads.step,update_self]
  exact ⟨hg,trivial⟩

omit [IsOrderedAddMonoid Time] in
lemma Ordered.clockBase {active : Option ℕ} (h : Ordered σ c) (hc : σ.callers c = .loadedActive active) :
    Ordered (σ.step (.clockBase c)) c := by
  have hr := h.reading
  simp only [Reading,hc] at hr
  obtain ⟨hu,ha⟩ := hr
  have hs : σ.step (.clockBase c) =
      {σ with callers := Function.update σ.callers c (.loadedBase active σ.plugin.qemuTimeNs)} := by
    simp only [Threads.step,hc]
  rw [hs]
  refine ⟨h.ascending,h.bounded,?_⟩
  have hb : ∀ v ∈ σ.returned c, v ≤ σ.clock := fun v hv => by simpa [floor,hu] using h.bounded v hv
  simp only [Reading,update_self]
  exact ⟨hu,ha,le_rfl,ha ▸ hb⟩

lemma Ordered.clockReturn {active : Option ℕ} {base : Time} (h : Ordered σ c)
    (hc : σ.callers c = .loadedBase active base) : Ordered (σ.step (.clockReturn c)) c := by
  have hr := h.reading
  simp only [Reading,hc] at hr
  obtain ⟨hu,ha,hb,hva⟩ := hr
  have hs : σ.step (.clockReturn c) = {σ with
        callers := Function.update σ.callers c .outside
        returned := Function.update σ.returned c (σ.returned c ++ [σ.plugin.clockValue σ.scTime active base])} := by
    simp [Threads.step,hc]
  have hvl : σ.plugin.clockValue σ.scTime active base ≤ σ.floor := by
    simp only [floor,hu,Bool.false_eq_true,if_false,clock,ha]
    exact Plugin.clockValue_mono le_rfl hb fun _ _ => le_rfl
  rw [hs]
  refine ⟨?_,fun v hv => ?_,by simp [Reading]⟩
  · simp only [update_self,pairwise_append,pairwise_singleton,mem_singleton]
    exact ⟨h.ascending,trivial,fun v hv w hw => hw ▸ hva v hv⟩
  · simp only [update_self,mem_append,mem_singleton] at hv
    obtain hv | rfl := hv
    · exact h.bounded v hv
    · exact hvl

lemma Ordered.step (h : Ordered σ c) (hs : Sane σ) (ha : σ.Enabled a) (hg : σ.Undisturbed a) :
    Ordered (σ.step a) c := by
  cases a with
  | clockActive d =>
    by_cases hdc : c = d
    · subst hdc
      exact h.clockActive hg
    · exact h.other hs ha hg (by simp [Threads.step,hdc]) rfl
  | clockBase d =>
    cases hd : σ.callers d with
    | loadedActive active =>
      by_cases hdc : c = d
      · subst hdc
        exact h.clockBase hd
      · exact h.other hs ha hg (by simp [Threads.step,hd,hdc]) (by simp [Threads.step,hd])
    | _ => simp [Enabled,hd] at ha
  | clockReturn d =>
    cases hd : σ.callers d with
    | loadedBase active base =>
      by_cases hdc : c = d
      · subst hdc
        exact h.clockReturn hd
      · exact h.other hs ha hg (by simp [Threads.step,hd,hdc]) (by simp [Threads.step,hd,hdc])
    | _ => simp [Enabled,hd] at ha
  | proceed run =>
    refine h.other hs ha hg ?_ ?_ <;> simp only [Threads.step] <;> split <;> rfl
  | _ => exact h.other hs ha hg rfl rfl

end

section
variable {c : ℕ}

def called (σ : Threads Time) (c : ℕ) : Threads Time :=
  {σ with returned := Function.update σ.returned c (σ.returned c ++ [σ.clock])}

lemma run_called (hc : σ.callers c = .outside) : GuardedRun Threads.step Threads.Enabled σ (σ.called c) := by
  have ha : σ.step (.clockActive c) =
      {σ with callers := Function.update σ.callers c (.loadedActive σ.plugin.active)} := rfl
  have hb : (σ.step (.clockActive c)).step (.clockBase c) =
      {σ with callers := Function.update σ.callers c (.loadedBase σ.plugin.active σ.plugin.qemuTimeNs)} := by
    simp [Threads.step]
  have hr : ((σ.step (.clockActive c)).step (.clockBase c)).step (.clockReturn c) = σ.called c := by
    simp [Threads.step,called,clock,← hc]
  rw [← hr]
  refine ((GuardedRun.refl.tail ?_).tail ?_).tail ?_
  · exact hc
  · simp [Enabled,ha]
  · simp [Enabled,hb]

/-- The new base is stored and the instructions not cleared: a call now gets more than after the next write. -/
lemma exists_descent [IsOrderedCancelAddMonoid Time] {i : ℕ} {delta : Time} (hc : σ.callers c = .outside)
    (hcr : σ.critical = some (.quotaDelta i delta)) (ha : σ.plugin.active = some i)
    (hpo : 0 < σ.plugin.cpuDeltaTime i) :
    ∃ σ', GuardedRun Threads.step Threads.Enabled σ σ' ∧ ¬(σ'.returned c).Pairwise (· ≤ ·) := by
  have hp : (σ.called c).Enabled (.proceed fun _ => true) := by simp [Enabled,called,hcr]
  let τ := (σ.called c).step (.proceed fun _ => true)
  have hτ : τ = (σ.called c).enter
      (σ.plugin.modify i fun v => {v with cpuTime := v.cpuTime+delta, deltaInsn := 0},some (.rebalance i)) := by
    simp [τ,Threads.step,called,hcr,write,next]
  have hcl : τ.clock = σ.plugin.qemuTimeNs := by
    simp [hτ,enter,called,clock,ha,Plugin.clockValue,Plugin.cpuDeltaTime,σ.plugin.config.insnTime_zero]
  have hf : σ.clock = σ.plugin.qemuTimeNs+σ.plugin.cpuDeltaTime i := by simp [clock,ha,Plugin.clockValue]
  have hr : (τ.called c).returned c = σ.returned c ++ [σ.clock] ++ [τ.clock] := by
    have hold : τ.returned c = σ.returned c ++ [σ.clock] := by simp [hτ,enter,called]
    simp [called,hold]
  have hca : τ.callers c = .outside := by
    rw [hτ]
    exact hc
  refine ⟨τ.called c,((run_called hc).tail hp).trans (run_called hca),fun h => ?_⟩
  rw [hr,List.append_assoc,pairwise_append] at h
  have hle : σ.clock ≤ τ.clock := by simpa using h.2.1
  rw [hf,hcl] at hle
  exact absurd hle (not_le.mpr (lt_add_of_pos_right _ hpo))

end
end Threads

/-- While no call of `get_qemu_clock` overlaps an update, a caller's values never decrease; between the two stores of
a quota callback of the active vCPU the next can get less. -/
theorem qemuClock_ascending [IsOrderedCancelAddMonoid Time] {config : Config Time} {numVcpus : ℕ} {rates : ℕ → ℕ}
    {scTime : Time} : (∀ σ, GuardedRun Threads.step (fun σ a => σ.Enabled a ∧ σ.Undisturbed a)
      (Threads.initial config numVcpus rates scTime) σ → ∀ c, (σ.returned c).Pairwise (· ≤ ·)) ∧
    ∀ σ c i delta, GuardedRun Threads.step Threads.Enabled (Threads.initial config numVcpus rates scTime) σ →
      σ.callers c = .outside → σ.critical = some (.quotaDelta i delta) → σ.plugin.active = some i →
      0 < σ.plugin.cpuDeltaTime i →
      ∃ σ', GuardedRun Threads.step Threads.Enabled σ σ' ∧ ¬(σ'.returned c).Pairwise (· ≤ ·) := by
  refine ⟨fun σ h c => ?_,fun σ c i delta _ hc hcr hac hp =>
    Threads.exists_descent hc hcr hac hp⟩
  have hi := h.invariant (I := fun σ => σ.Sane ∧ σ.Ordered c)
      (fun σ a hσ ha => ⟨hσ.1.step ha.1,hσ.2.step hσ.1 ha.1 ha.2⟩)
      ⟨Threads.sane_initial config numVcpus rates scTime,
        ⟨by simp [Threads.initial],by simp [Threads.initial],by simp [Threads.Reading,Threads.initial]⟩⟩
  exact hi.2.ascending

def oneVcpu : Threads ℚ := .initial (.exact (1/1000000) micro_nonneg) 1 (fun _ => 0) 0

def readAfterQuota : List (ThreadAction ℚ) :=
  [.load 0 1000,.store 0,.quota 0,.proceed fun _ => true,.proceed fun _ => true,.proceed fun _ => true,.clockActive 0,
    .clockBase 0,.clockReturn 0,.load 0 500,.store 0,.clockActive 0,.clockBase 0,.clockReturn 0]

theorem qemuClock_ascending_readAfterQuota :
    (readAfterQuota.foldl Threads.step oneVcpu).returned 0 = [1/1000000,3/2000000] ∧
      ((readAfterQuota.foldl Threads.step oneVcpu).returned 0).Pairwise (· ≤ ·) := by
  have he : GuardedRun.Along Threads.step Threads.Enabled oneVcpu readAfterQuota := by decide +kernel
  have hu : GuardedRun.Along Threads.step Threads.Undisturbed oneVcpu readAfterQuota :=
    ⟨trivial,trivial,trivial,fun _ _ => rfl,fun _ _ => rfl,fun _ _ => rfl,
      by rw [Threads.Undisturbed]; decide +kernel,trivial,trivial,trivial,trivial,
      by rw [Threads.Undisturbed]; decide +kernel,trivial,trivial,trivial⟩
  exact ⟨by decide +kernel,qemuClock_ascending.1 _ (GuardedRun.refl.foldl (GuardedRun.along_and.mpr ⟨he,hu⟩)) 0⟩

def readDuringQuota : List (ThreadAction ℚ) :=
  [.load 0 1000,.store 0,.quota 0,.proceed fun _ => true,.clockActive 0,.clockBase 0,.clockReturn 0,
    .proceed fun _ => true,.proceed fun _ => true,.clockActive 0,.clockBase 0,.clockReturn 0]

/-- The first call counts the quota twice, and the second gets 1 us less. -/
theorem qemuClock_goes_back : GuardedRun.Along Threads.step Threads.Enabled oneVcpu readDuringQuota ∧
      (readDuringQuota.foldl Threads.step oneVcpu).returned 0 = [2/1000000,1/1000000] := by
  decide +kernel

end Qbox.McipsPlugin
