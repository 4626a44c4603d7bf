import Qbox.RunOnSysc

/-! Whether `jobs_handler` is woken for every job that is queued. -/
namespace Qbox.RunOnSysc
open Core

namespace Core
variable (s : Core)

/-- During the simulation a handler that waits or has left leaves no job queued without a notification under way or
about to be made. -/
def Attended : Prop := s.simulation = .active → s.handler = .blocked ∨ s.handler = .returned → ∀ j ∈ s.asyncJobs,
    (s.jobs j).cancelled = true ∨ s.outstanding = true ∨ s.notified = true ∨ s.callers j = .pushed

def pushing : Bool := match s.asyncJobsMutex with
  | some (.caller _) => true
  | _ => false

/-- The exception of one job stops the handler only when no other job is queued or about to be. -/
def Alone : Action → Prop
  | .stop _ => s.simulation = .active → s.asyncJobs = [] ∧ s.pushing = false
  | _ => True

end Core

/-- The mutex is held where it has been locked. -/
structure Locked (s : Core) : Prop where
  caller : ∀ j, s.callers j = .checked ↔ s.asyncJobsMutex = some (.caller j)
  handler : s.handler = .inner ↔ s.asyncJobsMutex = some .handler

section
variable {s t : Core} {j : ℕ} {c : Caller}

section
variable (h : Locked s)
include h

lemma Core.pushing_of_checked (hc : s.callers j = .checked) : s.pushing = true := by
  rw [Core.pushing,(h.caller j).mp hc]

lemma Locked.setCaller (hm : t.asyncJobsMutex = s.asyncJobsMutex)
    (hh : t.handler = s.handler) (hc : t.callers = Function.update s.callers j c)
    (hold : s.callers j ≠ .checked) (hn : c ≠ .checked) : Locked t := by
  refine ⟨fun i => ?_,by rw [hm,hh]; exact h.handler⟩
  rw [hm,← h.caller i,hc]
  by_cases hi : i = j
  · simp [hi,hold,hn]
  · rw [Function.update_of_ne hi]

lemma Locked.setHandler (hm : t.asyncJobsMutex = s.asyncJobsMutex)
    (hc : t.callers = s.callers) (hh : t.handler = .inner ↔ s.handler = .inner) : Locked t := by
  refine ⟨fun i => ?_,?_⟩
  · rw [hm,hc]
    exact h.caller i
  · rw [hm,hh]
    exact h.handler

lemma Locked.free (hm : s.asyncJobsMutex = none) (j : ℕ) : s.callers j ≠ .checked := by
  simp [h.caller j,hm]

lemma Locked.lock (hm : s.asyncJobsMutex = none) (hc : t.callers = s.callers)
    (hh : t.handler = .inner) (hm' : t.asyncJobsMutex = some .handler) : Locked t := by
  refine ⟨fun i => ?_,by simp [hh,hm']⟩
  simp [hc,hm',h.free hm i]

lemma Locked.unlock (hh : s.handler = .inner) (hc : t.callers = s.callers)
    (hha : t.handler ≠ .inner) (hm' : t.asyncJobsMutex = none) : Locked t := by
  refine ⟨fun i => ?_,by simp [hha,hm']⟩
  simp [hc,hm',h.caller i,h.handler.mp hh]

lemma Locked.check (hc : s.callers j = .entered) (hm : s.asyncJobsMutex = none) :
    Locked (s.check j) := by
  have hh : s.handler ≠ .inner := by simp [h.handler,hm]
  rw [Core.check]
  split
  · refine ⟨fun i => ?_,by simpa [Core.setCaller] using hh⟩
    by_cases hi : i = j
    · simp [Core.setCaller,hi]
    · simp [Core.setCaller,hi,h.free hm i,Ne.symm hi]
  · exact h.setCaller rfl rfl rfl (by simp [hc]) (by simp)

lemma Locked.push (hc : s.callers j = .checked) : Locked (s.push j) := by
  have hm := (h.caller j).mp hc
  have hh : s.handler ≠ .inner := by simp [h.handler,hm]
  refine ⟨fun i => ?_,by simpa [Core.push,Core.setCaller] using hh⟩
  by_cases hi : i = j
  · simp [Core.push,Core.setCaller,hi]
  · simp [Core.push,Core.setCaller,hi,h.caller i,hm,Ne.symm hi]

lemma Locked.inner (hh : s.handler = .inner) : Locked s.inner := by
  rw [Core.inner]
  split
  · exact h.unlock hh rfl (by simp [Core.setHandler]) rfl
  · split <;> exact h.unlock hh rfl (by simp [Core.setHandler]) rfl

lemma Locked.step {a : Action} (he : s.Enabled a) : Locked (s.step a) := by
  cases a with
  | enter j => exact h.setCaller rfl rfl rfl (by simp [show s.callers j = .idle from he]) (by split <;> simp)
  | check j => exact h.check he.1 he.2
  | push j => exact h.push he
  | notify j => exact h.setCaller rfl rfl rfl (by simp [show s.callers j = .pushed from he]) (by split <;> simp)
  | wake j => exact h.setCaller rfl rfl rfl (by simp [he.1]) (by split <;> simp)
  | stop j => exact h.setCaller rfl rfl rfl (by simp [show s.callers j = .caught from he]) (by simp)
  | notifyStop j => exact h.setCaller rfl rfl rfl (by simp [show s.callers j = .stopped from he]) (by simp)
  | outer =>
    rw [Core.step,Core.outer]
    split
    · exact h.lock he.2.2 rfl rfl rfl
    · exact h.setHandler rfl rfl (by simp [Core.setHandler,he.2.1])
  | inner => exact h.inner he.2
  | launch j =>
    rw [Core.step,Core.launch]
    split <;> exact h.setHandler rfl rfl (by simp [Core.setHandler,he.2])
  | finish j threw => exact h.setHandler rfl rfl (by simp [Core.step,Core.finish,Core.setHandler,he.2])
  | relock => exact h.lock he.2.2 rfl rfl rfl
  | block => exact h.setHandler rfl rfl (by simp [Core.step,Core.setHandler,he.2])
  | deliver =>
    refine h.setHandler rfl rfl ?_
    simp only [Core.step,Core.deliver]
    split
    · rename_i hb
      simp [hb.2]
    · rfl
  | update | endStop | endCancel => exact h.setHandler rfl rfl Iff.rfl

end

lemma Locked.constructed (waits : ℕ → Bool) : Locked (.constructed waits) :=
  ⟨by simp [Core.constructed],by simp [Core.constructed]⟩

end

/-- No job comes when `running` is cleared, and a handler that waits has a notification to come for every job. -/
structure Woken (s : Core) : Prop where
  stopped : s.running = false → s.asyncJobs = [] ∧ s.pushing = false
  waiting : s.handler = .unlocked ∨ s.handler = .blocked → ∀ j ∈ s.asyncJobs,
    s.outstanding = true ∨ s.notified = true ∨ s.callers j = .pushed
  gone : s.handler = .returned → s.running = false

section
variable {s t : Core} {j : ℕ} {c : Caller}

lemma Woken.attended (h : s.simulation = .active → Woken s) : s.Attended := by
  intro ha hh j hj
  rcases hh with hh | hh
  · exact .inr ((h ha).waiting (.inr hh) j hj)
  · simp [((h ha).stopped ((h ha).gone hh)).1] at hj

lemma Woken.setCaller (h : Woken s) (hru : t.running = s.running) (hq : t.asyncJobs = s.asyncJobs)
    (hpu : s.running = false → t.pushing = s.pushing) (hha : t.handler = s.handler)
    (hn : t.notified = s.notified) (hc : t.callers = Function.update s.callers j c)
    (ho : t.outstanding = true ∨ t.outstanding = s.outstanding ∧ s.callers j ≠ .pushed) : Woken t := by
  refine ⟨fun hr => ?_,fun hh i hi => ?_,by rw [hha,hru]; exact h.gone⟩
  · rw [hru] at hr
    rw [hq,hpu hr]
    exact h.stopped hr
  · rw [hha] at hh
    rw [hq] at hi
    rcases ho with hou | ⟨hou,hne⟩
    · exact .inl hou
    · rw [hou,hn,hc]
      refine (h.waiting hh i hi).imp_right (Or.imp_right fun hp => ?_)
      rw [Function.update_of_ne (by rintro rfl; exact hne hp),hp]

lemma Woken.busy (h : s.running = false → t.asyncJobs = [] ∧ t.pushing = false) (hru : t.running = s.running)
    (hh : t.handler ≠ .unlocked ∧ t.handler ≠ .blocked ∧ t.handler ≠ .returned) : Woken t :=
  ⟨fun hr => h (hru ▸ hr),fun hw => absurd hw (by simp [hh]),fun hr => absurd hr hh.2.2⟩

lemma Woken.check (h : Woken s) (hc : s.callers j = .entered) : Woken (s.check j) := by
  rw [Core.check]
  split
  · rename_i hr
    exact h.setCaller rfl rfl (by simp [hr]) rfl rfl rfl (.inr ⟨rfl,by simp [hc]⟩)
  · exact h.setCaller rfl rfl (fun _ => rfl) rfl rfl rfl (.inr ⟨rfl,by simp [hc]⟩)

lemma Woken.push (hl : Locked s) (h : Woken s) (hc : s.callers j = .checked) : Woken (s.push j) := by
  have hp := pushing_of_checked hl hc
  refine ⟨fun hr => ?_,fun hh i hi => ?_,h.gone⟩
  · have := (h.stopped hr).2
    simp [hp] at this
  · by_cases hij : i = j
    · exact .inr (.inr (by simp [Core.push,Core.setCaller,hij]))
    · have hi' : i ∈ s.asyncJobs := by simpa [Core.push,hij] using hi
      have := h.waiting hh i hi'
      simpa [Core.push,Core.setCaller,hij] using this

lemma Woken.inner (h : Woken s) : Woken s.inner := by
  rw [Core.inner]
  split
  · rename_i hq
    exact ⟨fun _ => ⟨hq,rfl⟩,by simp [Core.setHandler,hq],by simp [Core.setHandler]⟩
  · rename_i j rest hq
    split
    · rename_i hr
      exact Woken.busy (s := s) (by simp [hr]) rfl (by simp [Core.setHandler])
    · rename_i hr
      -- A stopped handler has no job left to take.
      have := (h.stopped (by simpa using hr)).1
      simp [hq] at this

lemma Woken.deliver (h : Woken s) (hy : s.handler.yields = true) : Woken s.deliver := by
  rw [Core.deliver]
  by_cases hb : s.notified ∧ s.handler = .blocked
  · rw [if_pos hb]
    exact Woken.busy h.stopped rfl (by simp)
  · rw [if_neg hb]
    refine ⟨h.stopped,fun hh i hi => ?_,h.gone⟩
    have hbl : s.handler = .blocked := by
      rcases hh with hh | hh
      · simp [show s.handler = .unlocked from hh,Handler.yields] at hy
      · exact hh
    have hno : s.notified = false := by
      by_contra hn
      exact hb ⟨by simpa using hn,hbl⟩
    have := h.waiting (.inr hbl) i hi
    simpa [hno] using this

lemma Woken.step (hl : Locked s) (h : Woken s) {a : Action} (ha : s.simulation = .active) (he : s.Enabled a)
    (hg : s.Alone a) (ha' : (s.step a).simulation = .active) : Woken (s.step a) := by
  cases a with
  | enter j =>
    exact h.setCaller rfl rfl (fun _ => rfl) rfl rfl rfl (.inr ⟨rfl,by simp [show s.callers j = .idle from he]⟩)
  | check j => exact h.check he.1
  | push j => exact h.push hl he
  | notify j | notifyStop j => exact h.setCaller rfl rfl (fun _ => rfl) rfl rfl rfl (.inl rfl)
  | wake j => exact h.setCaller rfl rfl (fun _ => rfl) rfl rfl rfl (.inr ⟨rfl,by simp [he.1]⟩)
  | stop j =>
    obtain ⟨hq,hp⟩ := hg ha
    refine ⟨fun _ => ⟨hq,hp⟩,fun _ i hi => ?_,fun _ => rfl⟩
    have hi' : i ∈ s.asyncJobs := hi
    simp [hq] at hi'
  | outer =>
    rw [Core.step,Core.outer]
    split
    · rename_i hr
      exact Woken.busy (s := s) (by simp [hr]) rfl (by simp [Core.setHandler])
    · rename_i hr
      exact ⟨h.stopped,by simp [Core.setHandler],fun _ => Bool.not_eq_true _ ▸ hr⟩
  | inner => exact h.inner
  | launch j =>
    rw [Core.step,Core.launch]
    split <;> exact Woken.busy h.stopped rfl (by simp [Core.setHandler])
  | finish j threw => exact Woken.busy h.stopped rfl (by simp [Core.step,Core.finish,Core.setHandler])
  | relock =>
    exact Woken.busy (fun hr => ⟨(h.stopped hr).1,rfl⟩) rfl (by simp [Core.step,Core.relock,Core.setHandler])
  | block => exact ⟨h.stopped,fun _ => h.waiting (.inl he.2),by simp [Core.step,Core.setHandler]⟩
  | update =>
    refine ⟨h.stopped,fun hh i hi => ?_,h.gone⟩
    have := h.waiting hh i hi
    simp only [Core.step,Bool.or_eq_true]
    tauto
  | deliver => exact h.deliver he.2
  | endStop | endCancel => simp [Core.step] at ha'

end

lemma Core.active_of_step {s : Core} {a : Action} (h : (s.step a).simulation = .active) : s.simulation = .active := by
  cases a with
  | endStop | endCancel => simp [Core.step] at h
  | check j | outer | inner | launch j => simpa [Core.step] using h
  | enter _ | push _ | notify _ | wake _ | stop _ | notifyStop _ | finish _ _ | relock | block | update | deliver =>
    exact h

/-- A queued job can be left behind from here. -/
def Strands (s : Core) : Prop := ∃ t, GuardedRun Core.step Core.Enabled s t ∧ ¬t.Attended

lemma Strands.step {s : Core} {a : Action} (he : s.Enabled a) (h : Strands (s.step a)) : Strands s := by
  obtain ⟨t,hr,ht⟩ := h
  exact ⟨t,(GuardedRun.refl.tail he).trans hr,ht⟩

/-- A job is in the queue of a handler that has been stopped, and its call has made its notification. -/
structure Abandoned (s : Core) (j : ℕ) : Prop where
  active : s.simulation = .active
  running : s.running = false
  queued : j ∈ s.asyncJobs
  uncancelled : (s.jobs j).cancelled = false
  notified : s.callers j ≠ .pushed

section
variable {s : Core} {j : ℕ}

section
variable (h : Abandoned s j)
include h

lemma Abandoned.setHandler (hh : Handler) : Abandoned (s.setHandler hh) j :=
  ⟨h.active,h.running,h.queued,h.uncancelled,h.notified⟩

/-- Once the last notifications have been delivered, the handler that waits or is gone stays so. -/
lemma Abandoned.unattended (hh : s.handler = .blocked ∨ s.handler = .returned)
    (ho : s.outstanding = false) (hn : s.notified = false) : ¬s.Attended := by
  intro ha
  have := ha h.active hh j h.queued
  simp [h.uncancelled,ho,hn,h.notified] at this

lemma Abandoned.of_returned (hh : s.handler = .returned) : Strands s := by
  have hy : s.handler.yields = true := by rw [hh]; rfl
  refine .step (a := .update) ⟨h.active,hy⟩ (.step (a := .deliver) ⟨h.active,hy⟩ ⟨_,.refl,?_⟩)
  refine Abandoned.unattended ⟨h.active,h.running,h.queued,h.uncancelled,h.notified⟩ (.inr ?_) rfl rfl
  simp [Core.step,Core.deliver,hh]

lemma Abandoned.of_ready (hh : s.handler = .ready) (hm : s.asyncJobsMutex = none) :
    Strands s := by
  refine .step (a := .outer) ⟨h.active,hh,hm⟩ ?_
  rw [Core.step,Core.outer,if_neg (by simp [h.running])]
  exact (h.setHandler _).of_returned rfl

lemma Abandoned.of_blocked (hh : s.handler = .blocked) (hm : s.asyncJobsMutex = none) :
    Strands s := by
  have hy : s.handler.yields = true := by rw [hh]; rfl
  refine .step (a := .update) ⟨h.active,hy⟩ (.step (a := .deliver) ⟨h.active,hy⟩ ?_)
  have h' : Abandoned ((s.step .update).step .deliver) j := ⟨h.active,h.running,h.queued,h.uncancelled,h.notified⟩
  by_cases hn : (s.notified || s.outstanding) = true
  · exact h'.of_ready (by simp [Core.step,Core.deliver,hh,hn]) hm
  · refine ⟨_,.refl,h'.unattended (.inl ?_) rfl rfl⟩
    simp [Core.step,Core.deliver,hh]
    simpa using hn

lemma Abandoned.of_unlocked (hh : s.handler = .unlocked) (hm : s.asyncJobsMutex = none) :
    Strands s :=
  .step (a := .block) ⟨h.active,hh⟩ ((h.setHandler _).of_blocked rfl hm)

lemma Abandoned.of_inner (hh : s.handler = .inner) : Strands s := by
  have hu : s.inner = {s.setHandler .unlocked with asyncJobsMutex := none} := by
    rw [Core.inner]
    split
    · rfl
    · exact if_neg (by simp [h.running])
  refine .step (a := .inner) ⟨h.active,hh⟩ ?_
  rw [Core.step,hu]
  exact Abandoned.of_unlocked ⟨h.active,h.running,h.queued,h.uncancelled,h.notified⟩ rfl rfl

lemma Abandoned.of_settling (hh : s.handler.settles = true) (hm : s.asyncJobsMutex = none) :
    Strands s :=
  .step (a := .relock) ⟨h.active,hh,hm⟩
    (Abandoned.of_inner ⟨h.active,h.running,h.queued,h.uncancelled,h.notified⟩ rfl)

lemma Abandoned.of_inJob {i : ℕ} (hh : s.handler = .inJob i) (hm : s.asyncJobsMutex = none) :
    Strands s := by
  refine .step (a := .finish i false) ⟨h.active,hh⟩ (Abandoned.of_settling (j := j) ?_ rfl hm)
  refine ⟨h.active,h.running,h.queued,?_,h.notified⟩
  by_cases hi : j = i
  · subst hi
    simpa [Core.step,Core.finish,Core.setHandler,setJob,AsyncJob.finish,AsyncJob.setPromise] using h.uncancelled
  · simpa [Core.step,Core.finish,Core.setHandler,setJob,hi] using h.uncancelled

end

lemma Abandoned.of_launching (hok : Ok s) (h : Abandoned s j) {i : ℕ} (hh : s.handler = .launching i)
    (hm : s.asyncJobsMutex = none) : Strands s := by
  obtain ⟨hj,-,-⟩ := hok.of_launching h.active hh
  refine .step (a := .launch i) ⟨h.active,hh⟩ ?_
  rw [Core.step,launch_made hj]
  refine Abandoned.of_inJob ⟨h.active,h.running,h.queued,?_,h.notified⟩ rfl hm
  by_cases hi : j = i
  · subst hi
    simpa [Core.setHandler,setJob,AsyncJob.start] using h.uncancelled
  · simpa [Core.setHandler,setJob,hi] using h.uncancelled

/-- Wherever the handler is, it comes to leave the job behind. -/
lemma Abandoned.strands (hok : Ok s) (hl : Locked s) (h : Abandoned s j) (hp : s.pushing = false) : Strands s := by
  have hm (hne : s.handler ≠ .inner) : s.asyncJobsMutex = none := by
    rw [Core.pushing] at hp
    have hha := mt hl.handler.mpr hne
    cases ho : s.asyncJobsMutex with
    | none => rfl
    | some o => cases o <;> simp_all
  cases hh : s.handler with
  | ready => exact h.of_ready hh (hm (by simp [hh]))
  | inner => exact h.of_inner hh
  | launching i => exact h.of_launching hok hh (hm (by simp [hh]))
  | inJob i => exact h.of_inJob hh (hm (by simp [hh]))
  | settling i => exact h.of_settling (by rw [hh]; rfl) (hm (by simp [hh]))
  | unlocked => exact h.of_unlocked hh (hm (by simp [hh]))
  | blocked => exact h.of_blocked hh (hm (by simp [hh]))
  | returned => exact h.of_returned hh

lemma Ok.of_queued (h : Ok s) (hj : j ∈ s.asyncJobs) : s.jobs j = .made := by
  cases h.job j with
  | queued hjo => exact hjo
  | fresh _ _ hq | launching _ _ hq | running _ _ hq | finished _ _ _ _ hq | thrown _ _ _ _ hq
  | dropped _ _ _ _ _ hq => exact absurd hj hq

section
variable (hok : Ok s) (hl : Locked s) (ha : s.simulation = .active) (hr : s.running = false)
include hok hl ha hr

lemma Ok.strands
    (hj : j ∈ s.asyncJobs) (hp : s.pushing = false) : Strands s := by
  have hca : (s.jobs j).cancelled = false := by
    rw [hok.of_queued hj]
    rfl
  by_cases hc : s.callers j = .pushed
  · refine .step (a := .notify j) hc (Abandoned.strands (j := j) (hok.notify hc) (hl.step hc) ?_ hp)
    refine ⟨ha,hr,hj,hca,?_⟩
    simp only [Core.step,Core.notify,Core.setCaller,Function.update_self]
    split <;> simp
  · exact Abandoned.strands hok hl ⟨ha,hr,hj,hca,hc⟩ hp

lemma Ok.strands_pushing
    (hp : s.pushing = true) : Strands s := by
  obtain ⟨i,hm⟩ : ∃ i, s.asyncJobsMutex = some (.caller i) := by
    rw [Core.pushing] at hp
    split at hp
    · exact ⟨_,by assumption⟩
    · simp at hp
  have hc := (hl.caller i).mpr hm
  have hq : i ∈ (s.push i).asyncJobs := by simp [Core.push]
  exact .step (a := .push i) hc (Ok.strands (hok.push hc) (hl.push hc) ha hr hq rfl)

end

end

/-- In every run in which an exception stops the handler only when no other job is queued or about to be, no job is
left without a notification; otherwise one can be. -/
theorem no_job_stranded_iff (waits : ℕ → Bool) :
    (∀ s, GuardedRun Core.step (fun s a => s.Enabled a ∧ s.Alone a) (.constructed waits) s → s.Attended) ∧
    ∀ s a, GuardedRun Core.step Core.Enabled (.constructed waits) s → s.Enabled a → ¬s.Alone a →
      ∃ t, GuardedRun Core.step Core.Enabled (s.step a) t ∧ ¬t.Attended := by
  refine ⟨fun s hr => ?_,fun s a hr he hg => ?_⟩
  · have hin := hr.invariant (I := fun s => Locked s ∧ (s.simulation = .active → Woken s))
      (fun s a ⟨hl,h⟩ he => ⟨hl.step he.1,fun ha =>
        (h (active_of_step ha)).step hl (active_of_step ha) he.1 he.2 ha⟩)
      ⟨.constructed waits,fun _ => ⟨nofun,by simp [Core.constructed],nofun⟩⟩
    exact Woken.attended hin.2
  · obtain ⟨hok,hl⟩ := hr.invariant (I := fun s => Ok s ∧ Locked s) (fun _ _ h he => ⟨h.1.step he,h.2.step he⟩)
      ⟨.constructed waits,.constructed waits⟩
    cases a with
    | stop j =>
      simp only [Core.Alone,not_forall] at hg
      obtain ⟨ha,hg⟩ := hg
      cases hp : s.pushing with
      | true => exact Ok.strands_pushing (hok.step he) (hl.step he) ha rfl hp
      | false =>
        obtain ⟨i,hi⟩ := List.exists_mem_of_ne_nil s.asyncJobs fun hn => hg ⟨hn,hp⟩
        exact Ok.strands (hok.step he) (hl.step he) ha rfl hi hp
    | _ => exact absurd trivial hg

def strandedRun : List Action :=
  [.enter 0,.check 0,.push 0,.notify 0,.enter 1,.check 1,.push 1,.notify 1,.outer,.inner,.launch 0,.finish 0 true,
    .wake 0,.stop 0,.notifyStop 0,.relock,.inner,.block,.update,.deliver,.outer]

/-- The handler has left its loop, and the other job stays in the queue. -/
theorem job_left_in_queue : GuardedRun.Along Core.step Core.Enabled (.constructed fun _ => true) strandedRun ∧
    (strandedRun.foldl Core.step (.constructed fun _ => true)).simulation = .active ∧
    (strandedRun.foldl Core.step (.constructed fun _ => true)).handler = .returned ∧
    (strandedRun.foldl Core.step (.constructed fun _ => true)).asyncJobs = [1] ∧
    ((strandedRun.foldl Core.step (.constructed fun _ => true)).jobs 1).cancelled = false ∧
    (strandedRun.foldl Core.step (.constructed fun _ => true)).callers 1 = .waiting ∧
    (strandedRun.foldl Core.step (.constructed fun _ => true)).outstanding = false ∧
    (strandedRun.foldl Core.step (.constructed fun _ => true)).notified = false := by
  decide

end Qbox.RunOnSysc
