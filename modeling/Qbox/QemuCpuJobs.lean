import Qbox.GuardedRun
import Qbox.HolderCount
import Qbox.MachineWord

/-! The jobs that `QemuCpu` hands to QEMU: `initiator_async_run` and the reset on any number of threads, QEMU running
its queue, and `end_of_simulation`. A step is one access to `m_finished` or to the counter of outstanding jobs. -/
namespace Qbox
open List Function
open BitVec hiding not_or

/-- A job as it is handed to QEMU: wrapped by `make_tracked_async_job`, or the empty function. -/
inductive AsyncJob where
  | tracked
  | empty
  deriving DecidableEq, Repr

/-- Where a call of `initiator_async_run` or `reset_cb` is: `tested` with `m_finished` false, `counted`, then it
returns with a job. -/
inductive AsyncCall where
  | outside
  | tested
  | counted
  | returning (job : AsyncJob)
  deriving DecidableEq, Repr

def AsyncCall.Inside : AsyncCall → Prop
  | .counted | .returning .tracked => True
  | .outside | .tested | .returning .empty => False

inductive JobPhase where
  | started (job : AsyncJob)
  | body
  | leaving
  /-- A call of the empty function throws. -/
  | thrown
  deriving DecidableEq, Repr

def JobPhase.tracked : JobPhase → ℕ
  | .started .tracked | .body | .leaving => 1
  | .started .empty | .thrown => 0

def JobPhase.steps : JobPhase → ℕ
  | .started _ => 3
  | .body => 2
  | .leaving => 1
  | .thrown => 0

/-- `QemuCpu` with the threads that call it and the jobs of its CPU; the counter is an `int`. -/
structure QemuCpu where
  finished : Bool
  asyncWorkOutstanding : U32
  calls : ℕ → AsyncCall
  queue : List AsyncJob
  running : Option JobPhase

/-- A calling thread or QEMU takes its next step, or `end_of_simulation` sets `m_finished`. -/
inductive QemuCpuAction where
  | call (i : ℕ)
  | qemu
  | endOfSimulation
  deriving DecidableEq, Repr

namespace QemuCpu
variable (s : QemuCpu)

def goto (i : ℕ) (p : AsyncCall) : QemuCpu := {s with calls := Function.update s.calls i p}

/-- `initiator_async_run` or `reset_cb`, through `make_tracked_async_job`. -/
def call (i : ℕ) : AsyncCall → QemuCpu
  | .outside => s.goto i (if s.finished then .outside else .tested)
  | .tested => {s with asyncWorkOutstanding := s.asyncWorkOutstanding+1#32}.goto i .counted
  | .counted => s.goto i (.returning (if s.finished then .empty else .tracked))
  | .returning job => {s with queue := s.queue++[job]}.goto i .outside

def takeJob : List AsyncJob → QemuCpu
  | [] => s
  | job :: queue => {s with queue := queue, running := some (.started job)}

/-- The function that `make_tracked_async_job` returns, or the empty one. -/
def runJob : JobPhase → QemuCpu
  | .started .tracked => {s with running := some (if s.finished then .leaving else .body)}
  | .started .empty => {s with running := some .thrown}
  | .body => {s with running := some .leaving}
  | .leaving => {s with asyncWorkOutstanding := s.asyncWorkOutstanding-1#32, running := none}
  | .thrown => s

def qemu : QemuCpu := match s.running with
  | none => s.takeJob s.queue
  | some p => s.runJob p

def step : QemuCpuAction → QemuCpu
  | .call i => s.call i (s.calls i)
  | .qemu => s.qemu
  | .endOfSimulation => {s with finished := true}

def initial : QemuCpu where
  finished := false
  asyncWorkOutstanding := 0
  calls := fun _ => .outside
  queue := []
  running := none

def jobs : ℕ := s.queue.count .tracked+(s.running.elim 0 JobPhase.tracked)

/-- The counter is the number of the calls inside and the jobs queued or running. -/
def CounterExact : Prop := ∃ n, HolderCount AsyncCall.Inside s.calls n ∧ s.asyncWorkOutstanding.toInt = n+s.jobs

def NoEmptyJob : Prop := .empty ∉ s.queue ∧ s.running ≠ some (.started .empty) ∧ s.running ≠ some .thrown

def Idle : Prop := s.queue = [] ∧ s.running = none

/-- After the simulation QEMU empties its queue, and the counter is then zero. -/
def Drains : Prop := s.finished = true → (∀ i, s.calls i = .outside) →
  (∃ k, (qemu^[k] s).Idle) ∧ ∀ k, (qemu^[k] s).Idle → (qemu^[k] s).asyncWorkOutstanding = 0

/-- `m_finished` is set only with no call between its two tests, and the counter stays below `INT_MAX`. -/
def Timely : QemuCpuAction → Prop
  | .call i => s.calls i = .tested → s.asyncWorkOutstanding ≠ intMax 32
  | .endOfSimulation => s.finished = false → ∀ i, s.calls i ≠ .tested ∧ s.calls i ≠ .counted
  | .qemu => True

variable {s} {i : ℕ}

/-- The counter in range, no empty job, and no call between the tests after the simulation. -/
structure Tracked (s : QemuCpu) : Prop where
  counter : ∃ n, HolderCount AsyncCall.Inside s.calls n ∧ s.asyncWorkOutstanding.toNat = n+s.jobs ∧ n+s.jobs < 2^31
  calls : ∀ i, s.calls i ≠ .returning .empty
  noEmptyJob : s.NoEmptyJob
  finished : s.finished = true → ∀ i, s.calls i ≠ .tested ∧ s.calls i ≠ .counted

lemma Tracked.initial : Tracked initial := by
  refine ⟨⟨0,.zero_of_none fun _ => id,rfl,by decide⟩,fun _ => nofun,⟨not_mem_nil,nofun,nofun⟩,nofun⟩

lemma Tracked.counterExact (h : Tracked s) : s.CounterExact := by
  obtain ⟨n,hn,hc,hlt⟩ := h.counter
  refine ⟨n,hn,?_⟩
  rw [toInt_eq_toNat_of_lt (by omega),hc]
  rfl

lemma forall_update {P : AsyncCall → Prop} {f : ℕ → AsyncCall} {p : AsyncCall} (hp : P p) (h : ∀ j, P (f j)) (j : ℕ) :
    P (Function.update f i p j) := by
  by_cases hji : j = i
  · rw [hji,update_self]
    exact hp
  · rw [update_of_ne hji]
    exact h j

section
variable (h : Tracked s)
include h

lemma Tracked.goto {c : U32} {q : List AsyncJob} {p : AsyncCall} {n : ℕ}
    (hn : HolderCount AsyncCall.Inside (Function.update s.calls i p) n)
    (hc : c.toNat = n+(q.count .tracked+s.running.elim 0 JobPhase.tracked)) (hlt : c.toNat < 2^31)
    (hp : p ≠ .returning .empty) (hq : .empty ∉ q) (hfi : s.finished = true → p ≠ .tested ∧ p ≠ .counted) :
    Tracked ({s with asyncWorkOutstanding := c, queue := q}.goto i p) where
  counter := ⟨n,hn,hc,hc ▸ hlt⟩
  calls := forall_update (P := fun p => p ≠ .returning .empty) hp h.calls
  noEmptyJob := ⟨hq,h.noEmptyJob.2⟩
  finished hf := forall_update (P := fun p => p ≠ .tested ∧ p ≠ .counted) (hfi hf) (h.finished hf)

lemma Tracked.call (hi : s.Timely (.call i)) : Tracked (s.step (.call i)) := by
  obtain ⟨n,hn,hco,hlt⟩ := h.counter
  have hq := h.noEmptyJob.1
  rw [jobs] at hco hlt
  rw [step]
  cases hc : s.calls i with
  | outside =>
    rw [QemuCpu.call]
    split
    · exact h.goto (hn.update_same (by rw [hc])) hco (by omega) nofun hq (fun _ => ⟨nofun,nofun⟩)
    · rename_i hf
      exact h.goto (hn.update_same (by rw [hc]; exact Iff.rfl)) hco (by omega) nofun hq (fun hf' => absurd hf' hf)
  | tested =>
    have hne : s.asyncWorkOutstanding.toNat ≠ 2^31-1 := fun heq =>
      hi hc (eq_of_toNat_eq (by simpa using heq))
    have ha : (s.asyncWorkOutstanding+1#32).toNat = s.asyncWorkOutstanding.toNat+1 := by
      rw [toNat_add,toNat_ofNat]
      omega
    have hin : ¬(s.calls i).Inside := by
      rw [hc]
      exact id
    exact h.goto (hn.update_enter hin trivial) (by omega) (by omega) nofun hq
      (fun hf => absurd hc (h.finished hf i).1)
  | counted =>
    have hf : s.finished = false := by
      by_contra hf
      exact (h.finished (by simpa using hf) i).2 hc
    have hin : AsyncCall.Inside (.returning .tracked) ↔ (s.calls i).Inside := by
      rw [hc]
      exact Iff.rfl
    rw [QemuCpu.call,hf]
    exact h.goto (hn.update_same hin) hco (by omega) nofun hq (fun hf' => absurd hf' (by simp [hf]))
  | returning job =>
    have hj : job = .tracked := by
      cases job with
      | tracked => rfl
      | empty => exact absurd hc (h.calls i)
    subst hj
    have hin : (s.calls i).Inside := by
      rw [hc]
      trivial
    obtain ⟨m,rfl,hm⟩ := hn.update_leave (a := .outside) hin id
    refine h.goto hm ?_ (by omega) nofun (by simpa using hq) (fun _ => ⟨nofun,nofun⟩)
    rw [count_append,count_singleton_self]
    omega

/-- A step of QEMU, which takes as much from the counter as from the jobs. -/
lemma Tracked.of_jobs {c : U32} {q : List AsyncJob} {r : Option JobPhase}
    (hc : c.toNat+s.jobs = s.asyncWorkOutstanding.toNat+(q.count .tracked+r.elim 0 JobPhase.tracked))
    (hle : c.toNat ≤ s.asyncWorkOutstanding.toNat) (hq : .empty ∉ q) (hs : r ≠ some (.started .empty))
    (ht : r ≠ some .thrown) : Tracked {s with asyncWorkOutstanding := c, queue := q, running := r} := by
  obtain ⟨n,hn,hco,hlt⟩ := h.counter
  have heq : c.toNat = n+(q.count .tracked+r.elim 0 JobPhase.tracked) := by omega
  exact ⟨⟨n,hn,heq,heq ▸ lt_of_le_of_lt hle (hco ▸ hlt)⟩,h.calls,⟨hq,hs,ht⟩,h.finished⟩

lemma Tracked.takeJob (hr : s.running = none) {job : AsyncJob} {queue : List AsyncJob}
    (hqu : s.queue = job :: queue) : job = .tracked ∧ Tracked {s with queue := queue, running := some (.started job)} := by
  have hq := h.noEmptyJob.1
  rw [hqu,mem_cons,not_or] at hq
  have hj : job = .tracked := by
    cases job with
    | tracked => rfl
    | empty => exact absurd rfl hq.1
  subst hj
  refine ⟨rfl,h.of_jobs ?_ le_rfl hq.2 nofun nofun⟩
  rw [jobs,hqu,hr,count_cons_self]
  rfl

lemma Tracked.runJob {p : JobPhase} (hr : s.running = some p) : Tracked (s.runJob p) := by
  have hj : s.jobs = s.queue.count .tracked+p.tracked := by rw [jobs,hr]; rfl
  have hq := h.noEmptyJob.1
  cases p with
  | started job =>
    cases job with
    | tracked =>
      rw [QemuCpu.runJob]
      split
      · exact h.of_jobs (by rw [hj]; rfl) le_rfl hq nofun nofun
      · exact h.of_jobs (by rw [hj]; rfl) le_rfl hq nofun nofun
    | empty => exact absurd hr h.noEmptyJob.2.1
  | body => exact h.of_jobs (by rw [hj]; rfl) le_rfl hq nofun nofun
  | leaving =>
    obtain ⟨n,hn,hc,hlt⟩ := h.counter
    have ho : s.jobs = s.queue.count .tracked+1 := hj
    have hs : (s.asyncWorkOutstanding-1#32).toNat+1 = s.asyncWorkOutstanding.toNat := by
      rw [toNat_sub,toNat_ofNat]
      omega
    refine h.of_jobs ?_ (by omega) hq nofun nofun
    show _ = _+(s.queue.count .tracked+0)
    omega
  | thrown => exact absurd hr h.noEmptyJob.2.2

lemma Tracked.qemu : Tracked s.qemu := by
  rw [QemuCpu.qemu]
  cases hr : s.running with
  | none =>
    cases hq : s.queue with
    | nil => exact h
    | cons job queue => exact (h.takeJob hr hq).2
  | some p => exact h.runJob hr

end

lemma Tracked.step {a : QemuCpuAction} (h : Tracked s) (ha : s.Timely a) : Tracked (s.step a) := by
  cases a with
  | call i => exact h.call ha
  | qemu => exact h.qemu
  | endOfSimulation =>
    refine ⟨h.counter,h.calls,h.noEmptyJob,fun _ => ?_⟩
    cases hf : s.finished with
    | false => exact ha hf
    | true => exact h.finished hf

lemma Tracked.outstanding_eq_zero (h : Tracked s) (hc : ∀ i, s.calls i = .outside) (hi : s.Idle) :
    s.asyncWorkOutstanding = 0 := by
  obtain ⟨n,hn,hco,-⟩ := h.counter
  have h0 := hn.eq_zero fun i => by
    rw [hc i]
    exact id
  have hj : s.jobs = 0 := by
    rw [jobs,hi.1,hi.2]
    rfl
  exact eq_of_toNat_eq (by simp [hco,h0,hj])

@[simp] lemma qemu_calls : s.qemu.calls = s.calls := by
  rw [QemuCpu.qemu]
  cases s.running with
  | none => cases hq : s.queue <;> rfl
  | some p =>
    cases p with
    | started job => cases job <;> rfl
    | body | leaving | thrown => rfl

def remaining (s : QemuCpu) : ℕ := 4*s.queue.length+s.running.elim 0 JobPhase.steps

lemma Tracked.remaining_qemu (h : Tracked s) (hi : ¬s.Idle) : s.qemu.remaining < s.remaining := by
  rw [QemuCpu.qemu]
  cases hr : s.running with
  | none =>
    cases hq : s.queue with
    | nil => exact absurd ⟨hq,hr⟩ hi
    | cons job queue => simp [QemuCpu.takeJob,remaining,hr,hq,JobPhase.steps]; omega
  | some p =>
    cases p with
    | started job =>
      cases job with
      | tracked => cases hf : s.finished <;> simp [QemuCpu.runJob,remaining,hr,hf,JobPhase.steps]
      | empty => exact absurd hr h.noEmptyJob.2.1
    | body | leaving => simp [QemuCpu.runJob,remaining,hr,JobPhase.steps]
    | thrown => exact absurd hr h.noEmptyJob.2.2

lemma Tracked.exists_idle (h : Tracked s) : ∃ k, (QemuCpu.qemu^[k] s).Idle := by
  induction hm : s.remaining using Nat.strong_induction_on generalizing s with
  | _ m ih =>
    by_cases hi : s.Idle
    · exact ⟨0,hi⟩
    · obtain ⟨k,hk⟩ := ih _ (hm ▸ h.remaining_qemu hi) h.qemu rfl
      exact ⟨k+1,hk⟩

lemma Tracked.drains (h : Tracked s) : s.Drains := by
  refine fun _ hc => ⟨h.exists_idle,fun k hi => ?_⟩
  have hit : Tracked (QemuCpu.qemu^[k] s) ∧ (QemuCpu.qemu^[k] s).calls = s.calls := by
    clear hi
    induction k with
    | zero => exact ⟨h,rfl⟩
    | succ k ih =>
      rw [iterate_succ_apply']
      exact ⟨ih.1.qemu,qemu_calls.trans ih.2⟩
  exact hit.1.outstanding_eq_zero (hit.2 ▸ hc) hi

/-- A job that is added to a full counter makes it negative. -/
lemma not_counterExact_of_full (hca : s.calls i = .tested) (hf : s.asyncWorkOutstanding = intMax 32) :
    ¬(s.step (.call i)).CounterExact := by
  rintro ⟨n,-,hc⟩
  rw [step,hca] at hc
  have hn : (s.asyncWorkOutstanding+1#32).toInt = -2^31 := by
    rw [hf]
    decide
  have ho : (s.call i .tested).asyncWorkOutstanding = s.asyncWorkOutstanding+1#32 := rfl
  rw [ho,hn] at hc
  omega

/-- A call that is past its first test when `m_finished` is set hands an empty job to QEMU. -/
lemma empty_job_of_finished (hf : s.finished = true) (hca : s.calls i = .tested ∨ s.calls i = .counted) :
    ∃ l : List QemuCpuAction, .empty ∈ (l.foldl step s).queue := by
  have hc : ∀ t : QemuCpu, t.finished = true → t.calls i = .counted →
      .empty ∈ ([QemuCpuAction.call i,.call i].foldl step t).queue := by
    intro t ht hi
    simp [step,QemuCpu.call,QemuCpu.goto,hi,ht]
  rcases hca with hi | hi
  · refine ⟨.call i :: [.call i,.call i],hc _ ?_ ?_⟩
    · rw [step,hi]
      exact hf
    · rw [step,hi]
      exact update_self ..
  · exact ⟨_,hc s hf hi⟩

/-- Where `m_finished` is set in time and the counter does not overflow, it is exact, no job is empty, and it comes to
zero. After any other step it can come otherwise. -/
theorem counter_exact_iff (s : QemuCpu) :
    (GuardedRun step Timely initial s → s.CounterExact ∧ s.NoEmptyJob ∧ s.Drains) ∧
      ∀ a, ¬s.Timely a → ∃ l : List QemuCpuAction,
        ¬((l.foldl step (s.step a)).CounterExact ∧ (l.foldl step (s.step a)).NoEmptyJob) := by
  refine ⟨fun hr => ?_,fun a ha => ?_⟩
  · have h : Tracked s := hr.invariant (fun _ _ h ha => h.step ha) .initial
    exact ⟨h.counterExact,h.noEmptyJob,h.drains⟩
  · cases a with
    | call i =>
      obtain ⟨hc,hf⟩ : s.calls i = .tested ∧ s.asyncWorkOutstanding = intMax 32 := by
        simpa [Timely] using ha
      exact ⟨[],fun hg => not_counterExact_of_full hc hf hg.1⟩
    | qemu => exact absurd trivial ha
    | endOfSimulation =>
      obtain ⟨i,hi⟩ : ∃ i, s.calls i = .tested ∨ s.calls i = .counted := by
        by_contra hn
        exact ha fun _ i => ⟨fun h => hn ⟨i,.inl h⟩,fun h => hn ⟨i,.inr h⟩⟩
      obtain ⟨l,hl⟩ := empty_job_of_finished (s := s.step .endOfSimulation) rfl hi
      exact ⟨l,fun hg => hg.2.1 hl⟩

/-- The simulation ends between a call's two tests: its job stays counted, and an empty function is queued. -/
theorem empty_job_counted :
    let s := [QemuCpuAction.call 0,.endOfSimulation,.call 0,.call 0,.call 0].foldl step initial
    s.queue = [.empty] ∧ (∀ i, s.calls i = .outside) ∧ s.jobs = 0 ∧ s.asyncWorkOutstanding = 1 ∧ ¬s.CounterExact := by
  intro s
  have hc : ∀ i, s.calls i = .outside := by
    simp [s,step,call,goto,initial]
  refine ⟨by decide,hc,by decide,by decide,?_⟩
  rintro ⟨n,hn,hco⟩
  have h0 := hn.eq_zero fun i => by
    rw [hc i]
    exact id
  rw [h0] at hco
  exact absurd hco (by decide)

end QemuCpu
end Qbox
