import Qbox.GuardedRun

/-! `runonsysc`: jobs that other threads hand to the SystemC thread. -/
namespace Qbox.RunOnSysc
open List Function

inductive Outcome where
  | value
  | exception
  deriving DecidableEq, Repr

/-- `AsyncJob`, with the number of times that the job was started and whether it has run to its end. -/
structure AsyncJob where
  donePromise : Option Outcome
  cancelled : Bool
  started : ℕ
  completed : Bool
  deriving DecidableEq, Repr

namespace AsyncJob
variable (a : AsyncJob)

def made : AsyncJob := ⟨none,false,0,false⟩

/-- `set_value` or `set_exception`; a promise that has an outcome keeps it. -/
def setPromise (o : Outcome) : AsyncJob := {a with donePromise := a.donePromise.or (some o)}

def start : AsyncJob := {a with started := a.started+1}

def finish (threw : Bool) : AsyncJob :=
  if threw then a.setPromise .exception else {a with completed := true}.setPromise .value

def cancel : AsyncJob := {a with cancelled := true}.setPromise .value

end AsyncJob

/-- Where `jobs_handler` is: before the mutex, in the inner loop with it, before and in a job, in the wait after it,
unlocked, waiting for `jobs_handler_event`, or out. -/
inductive Handler where
  | ready
  | inner
  | launching (j : ℕ)
  | inJob (j : ℕ)
  | settling (j : ℕ)
  | unlocked
  | blocked
  | returned
  deriving DecidableEq, Repr

def Handler.yields : Handler → Bool
  | .ready | .inJob _ | .settling _ | .blocked | .returned => true
  | .inner | .launching _ | .unlocked => false

def Handler.settles : Handler → Bool
  | .settling _ => true
  | _ => false

/-- Where a call of `run_on_sysc` is: after its first look at `running`, the second with the mutex, queueing, in the
wait, after the exception, and after `stop`. -/
inductive Caller where
  | idle
  | entered
  | checked
  | pushed
  | waiting
  | caught
  | stopped
  | returned (b : Bool)
  deriving DecidableEq, Repr

/-- Who holds `async_jobs_mutex`. -/
inductive Owner where
  | handler
  | caller (j : ℕ)
  deriving DecidableEq, Repr

/-- `end_of_simulation` has not begun, has called `stop`, or has called `cancel_all`. -/
inductive Simulation where
  | active
  | stopped
  | ended
  deriving DecidableEq, Repr

/-- `Core` with its threads. A call has its job's number; `waits` is its argument; `outstanding` and `notified` are
the two steps of notifying `jobs_handler_event`. -/
structure Core where
  running : Bool
  asyncJobs : List ℕ
  runningJob : Option ℕ
  asyncJobsMutex : Option Owner
  outstanding : Bool
  notified : Bool
  handler : Handler
  jobs : ℕ → AsyncJob
  callers : ℕ → Caller
  waits : ℕ → Bool
  simulation : Simulation

inductive Action where
  | enter (j : ℕ)
  | check (j : ℕ)
  | push (j : ℕ)
  | notify (j : ℕ)
  | wake (j : ℕ)
  | stop (j : ℕ)
  | notifyStop (j : ℕ)
  | outer
  | inner
  | launch (j : ℕ)
  | finish (j : ℕ) (threw : Bool)
  | relock
  | block
  | update
  | deliver
  | endStop
  | endCancel
  deriving DecidableEq, Repr

namespace Core
variable (s : Core)

def constructed (waits : ℕ → Bool) : Core where
  running := true
  asyncJobs := []
  runningJob := none
  asyncJobsMutex := none
  outstanding := false
  notified := false
  handler := .ready
  jobs _ := .made
  callers _ := .idle
  waits := waits
  simulation := .active

variable (j : ℕ)

def setCaller (c : Caller) : Core := {s with callers := Function.update s.callers j c}
def setJob (a : AsyncJob) : Core := {s with jobs := Function.update s.jobs j a}
def setHandler (h : Handler) : Core := {s with handler := h}

/-- The two looks of `run_on_sysc` at `running`, the second of which locks the mutex. -/
def enter : Core := s.setCaller j (if s.running then .entered else .returned false)
def check : Core :=
  if s.running then {s.setCaller j .checked with asyncJobsMutex := some (.caller j)} else s.setCaller j (.returned false)

def push : Core := {s.setCaller j .pushed with asyncJobs := s.asyncJobs++[j], asyncJobsMutex := none}

def notify : Core := {s.setCaller j (if s.waits j then .waiting else .returned true) with outstanding := true}

/-- `job->wait()` returns or throws. -/
def wake : Core :=
  s.setCaller j (if (s.jobs j).donePromise = some .exception then .caught else .returned (!(s.jobs j).cancelled))

def stop : Core := {s.setCaller j .stopped with running := false}

def notifyStop : Core := {s.setCaller j (.returned false) with outstanding := true}

def outer : Core :=
  if s.running then {s.setHandler .inner with asyncJobsMutex := some .handler} else s.setHandler .returned

/-- One turn of the inner loop, or its end: a job is taken and the mutex unlocked, or only unlocked. -/
def inner : Core := match s.asyncJobs with
  | [] => {s.setHandler .unlocked with asyncJobsMutex := none}
  | j :: rest =>
    if s.running then
      {s.setHandler (.launching j) with asyncJobs := rest, runningJob := some j, asyncJobsMutex := none}
    else {s.setHandler .unlocked with asyncJobsMutex := none}

def launch : Core := if (s.jobs j).cancelled then (s.setJob j ((s.jobs j).setPromise .value)).setHandler (.settling j)
  else (s.setJob j (s.jobs j).start).setHandler (.inJob j)

def finish (threw : Bool) : Core := (s.setJob j ((s.jobs j).finish threw)).setHandler (.settling j)

def relock : Core := {s.setHandler .inner with asyncJobsMutex := some .handler, runningJob := none}

/-- A notification that finds the handler elsewhere is lost. -/
def deliver : Core :=
  {s with notified := false, handler := if s.notified ∧ s.handler = .blocked then .ready else s.handler}

/-- `cancel_all`: the jobs of the queue and the running one are cancelled and given up. -/
def cancelAll : Core := {s with
    asyncJobs := []
    runningJob := none
    jobs := fun j => if j ∈ s.asyncJobs ∨ s.runningJob = some j then (s.jobs j).cancel else s.jobs j}

def step : Action → Core
  | .enter j => s.enter j
  | .check j => s.check j
  | .push j => s.push j
  | .notify j => s.notify j
  | .wake j => s.wake j
  | .stop j => s.stop j
  | .notifyStop j => s.notifyStop j
  | .outer => s.outer
  | .inner => s.inner
  | .launch j => s.launch j
  | .finish j threw => s.finish j threw
  | .relock => s.relock
  | .block => s.setHandler .blocked
  | .update => {s with notified := s.notified || s.outstanding, outstanding := false}
  | .deliver => s.deliver
  | .endStop => {s with running := false, simulation := .stopped}
  | .endCancel => {s.cancelAll with simulation := .ended}

/-- Handler and kernel share a thread, the kernel where the handler lets it, the handler not after the end. -/
def Enabled : Action → Prop
  | .enter j => s.callers j = .idle
  | .check j => s.callers j = .entered ∧ s.asyncJobsMutex = none
  | .push j => s.callers j = .checked
  | .notify j => s.callers j = .pushed
  | .wake j => s.callers j = .waiting ∧ (s.jobs j).donePromise ≠ none
  | .stop j => s.callers j = .caught
  | .notifyStop j => s.callers j = .stopped
  | .outer => s.simulation = .active ∧ s.handler = .ready ∧ s.asyncJobsMutex = none
  | .inner => s.simulation = .active ∧ s.handler = .inner
  | .launch j => s.simulation = .active ∧ s.handler = .launching j
  | .finish j _ => s.simulation = .active ∧ s.handler = .inJob j
  | .relock => s.simulation = .active ∧ s.handler.settles = true ∧ s.asyncJobsMutex = none
  | .block => s.simulation = .active ∧ s.handler = .unlocked
  | .update | .deliver | .endStop => s.simulation = .active ∧ s.handler.yields = true
  | .endCancel => s.simulation = .stopped ∧ s.asyncJobsMutex = none

instance (a : Action) : Decidable (s.Enabled a) := by
  cases a <;> simp only [Enabled] <;> infer_instance

/-- What the calls say is true of their jobs, and stays so. -/
structure Truthful (s : Core) : Prop where
  once : ∀ j, (s.jobs j).started ≤ 1
  returned : ∀ j b, s.waits j = true → s.callers j = .returned b → (b = true ↔ (s.jobs j).completed = true)
  final : ∀ j t, s.waits j = true → s.callers j = .returned false → GuardedRun step Enabled s t →
    (t.jobs j).started = (s.jobs j).started

/-- `cancel_all` finds as running job none that is over and whose caller has yet to return. -/
def Unhurried : Action → Prop
  | .endCancel => ∀ j ∈ s.runningJob, (s.jobs j).completed = true → s.waits j = true →
      s.callers j ≠ .pushed ∧ s.callers j ≠ .waiting
  | _ => True

end Core

section
variable (s : Core) (j : ℕ)

@[simp] lemma Core.check_frame : (s.check j).jobs = s.jobs ∧ (s.check j).waits = s.waits ∧
    (s.check j).simulation = s.simulation := by
  rw [Core.check]
  split <;> exact ⟨rfl,rfl,rfl⟩

@[simp] lemma Core.outer_frame : s.outer.jobs = s.jobs ∧ s.outer.callers = s.callers ∧ s.outer.waits = s.waits ∧
    s.outer.simulation = s.simulation := by
  rw [Core.outer]
  split <;> exact ⟨rfl,rfl,rfl,rfl⟩

@[simp] lemma Core.inner_frame : s.inner.jobs = s.jobs ∧ s.inner.callers = s.callers ∧ s.inner.waits = s.waits ∧
    s.inner.simulation = s.simulation := by
  rw [Core.inner]
  split
  · exact ⟨rfl,rfl,rfl,rfl⟩
  · split <;> exact ⟨rfl,rfl,rfl,rfl⟩

@[simp] lemma Core.launch_frame : (s.launch j).callers = s.callers ∧ (s.launch j).waits = s.waits ∧
    (s.launch j).simulation = s.simulation := by
  rw [Core.launch]
  split <;> exact ⟨rfl,rfl,rfl⟩

end

inductive Stage where
  | away
  | launching
  | inJob
  | settling
  deriving DecidableEq, Repr

def Handler.stage (j : ℕ) : Handler → Stage
  | .launching i => if i = j then .launching else .away
  | .inJob i => if i = j then .inJob else .away
  | .settling i => if i = j then .settling else .away
  | _ => .away

/-- The call has left its job in the queue and has not had its outcome. -/
def Caller.Submitted (waits : Bool) (c : Caller) : Prop :=
  c = .pushed ∨ c = .waiting ∨ (c = .returned true ∧ waits = false)

def Caller.Early (c : Caller) : Prop := c = .idle ∨ c = .entered ∨ c = .checked ∨ c = .returned false

def Caller.Late (c : Caller) : Prop := c = .pushed ∨ c = .waiting ∨ ∃ b, c = .returned b

lemma Caller.Submitted.late {waits : Bool} {c : Caller} (h : c.Submitted waits) : c.Late := by
  rcases h with h | h | h
  · exact .inl h
  · exact .inr (.inl h)
  · exact .inr (.inr ⟨true,h.1⟩)

/-- A job is not queued, queued, taken, started, completed, thrown, or given up at the end. -/
inductive JobOk (s : Core) (j : ℕ) : Prop where
  | fresh (hjob : s.jobs j = .made) (hcaller : (s.callers j).Early) (hqueue : j ∉ s.asyncJobs)
      (hstage : s.handler.stage j = .away)
  | queued (hjob : s.jobs j = .made) (hcaller : (s.callers j).Submitted (s.waits j)) (hqueue : j ∈ s.asyncJobs)
      (hstage : s.handler.stage j = .away)
  | launching (hjob : s.jobs j = .made) (hcaller : (s.callers j).Submitted (s.waits j)) (hqueue : j ∉ s.asyncJobs)
      (hstage : s.handler.stage j = .launching)
  | running (hjob : s.jobs j = AsyncJob.made.start) (hcaller : (s.callers j).Submitted (s.waits j))
      (hqueue : j ∉ s.asyncJobs) (hstage : s.handler.stage j = .inJob)
  | finished (hpromise : (s.jobs j).donePromise = some .value) (hcompleted : (s.jobs j).completed = true)
      (hstarted : (s.jobs j).started = 1) (hcaller : (s.callers j).Late) (hqueue : j ∉ s.asyncJobs)
      (hstage : s.handler.stage j = .away ∨ s.handler.stage j = .settling)
  | thrown (hpromise : (s.jobs j).donePromise = some .exception) (hcompleted : (s.jobs j).completed = false)
      (hstarted : (s.jobs j).started = 1)
      (hcaller : (s.callers j).Late ∨ s.callers j = .caught ∨ s.callers j = .stopped) (hqueue : j ∉ s.asyncJobs)
      (hstage : s.handler.stage j = .away ∨ s.handler.stage j = .settling)
  | dropped (hpromise : (s.jobs j).donePromise = some .value) (hcancelled : (s.jobs j).cancelled = true)
      (hcompleted : (s.jobs j).completed = false) (hstarted : (s.jobs j).started ≤ 1) (hcaller : (s.callers j).Late)
      (hqueue : j ∉ s.asyncJobs) (hended : s.simulation = .ended)

structure Same (s t : Core) (j : ℕ) : Prop where
  job : t.jobs j = s.jobs j
  caller : t.callers j = s.callers j
  waits : t.waits j = s.waits j
  queue : j ∈ t.asyncJobs ↔ j ∈ s.asyncJobs
  stage : t.handler.stage j = s.handler.stage j
  ended : s.simulation = .ended → t.simulation = .ended

lemma JobOk.same {s t : Core} {j : ℕ} (h : JobOk s j) (hs : Same s t j) : JobOk t j := by
  obtain ⟨ha,hc,hw,hq,hh,he⟩ := hs
  cases h with
  | fresh => refine .fresh ?_ ?_ ?_ ?_ <;> simp_all
  | queued => refine .queued ?_ ?_ ?_ ?_ <;> simp_all
  | launching => refine .launching ?_ ?_ ?_ ?_ <;> simp_all
  | running => refine .running ?_ ?_ ?_ ?_ <;> simp_all
  | finished => refine .finished ?_ ?_ ?_ ?_ ?_ ?_ <;> simp_all
  | thrown => refine .thrown ?_ ?_ ?_ ?_ ?_ ?_ <;> simp_all
  | dropped => refine .dropped ?_ ?_ ?_ ?_ ?_ ?_ ?_ <;> simp_all

/-- Each job is on its way, the running one is the handler's, and the simulation ends where the handler lets it. -/
structure Ok (s : Core) : Prop where
  nodup : s.asyncJobs.Nodup
  current : ∀ j, s.runningJob = some j → s.handler.stage j ≠ .away
  halted : s.simulation ≠ .active → s.handler.yields = true
  job : ∀ j, JobOk s j

section
variable {s t : Core} {j : ℕ} {c : Caller}

lemma Ok.caller (h : Ok s) (hq : t.asyncJobs = s.asyncJobs) (hcu : t.runningJob = s.runningJob)
    (hh : t.handler = s.handler) (hs : t.simulation = s.simulation) (hj : t.jobs = s.jobs)
    (hw : t.waits = s.waits) (hc : t.callers = Function.update s.callers j c) (hjo : JobOk t j) : Ok t := by
  refine ⟨hq ▸ h.nodup,hcu ▸ hh ▸ h.current,hs ▸ hh ▸ h.halted,fun i => ?_⟩
  by_cases hi : i = j
  · exact hi ▸ hjo
  · refine (h.job i).same ⟨by rw [hj],?_,by rw [hw],by rw [hq],by rw [hh],fun he => hs.trans he⟩
    rw [hc,update_of_ne hi]

lemma JobOk.of_unqueued (h : JobOk s j) (hc : s.callers j = .idle ∨ s.callers j = .entered ∨ s.callers j = .checked) :
    s.jobs j = .made ∧ j ∉ s.asyncJobs ∧ s.handler.stage j = .away := by
  cases h with
  | fresh hj _ hq hs => exact ⟨hj,hq,hs⟩
  | queued _ hca | launching _ hca | running _ hca =>
    rcases hca with h | h | h <;> simp_all
  | finished _ _ _ hca | dropped _ _ _ _ hca =>
    rcases hca with h | h | ⟨b,h⟩ <;> simp_all
  | thrown _ _ _ hca =>
    rcases hca with (h | h | ⟨b,h⟩) | h | h <;> simp_all

lemma JobOk.of_caught (h : JobOk s j) (hc : s.callers j = .caught ∨ s.callers j = .stopped) :
    (s.jobs j).donePromise = some .exception ∧ (s.jobs j).completed = false ∧ (s.jobs j).started = 1 ∧
      j ∉ s.asyncJobs ∧ (s.handler.stage j = .away ∨ s.handler.stage j = .settling) := by
  cases h with
  | thrown hp hco hs _ hq hst => exact ⟨hp,hco,hs,hq,hst⟩
  | fresh _ hca => rcases hca with h | h | h | h <;> simp_all
  | queued _ hca | launching _ hca | running _ hca =>
    rcases hca with h | h | h <;> simp_all
  | finished _ _ _ hca | dropped _ _ _ _ hca =>
    rcases hca with h | h | ⟨b,h⟩ <;> simp_all

section
variable (h : Ok s)
include h

lemma Ok.enter (hc : s.callers j = .idle) : Ok (s.enter j) := by
  obtain ⟨hj,hq,hs⟩ := (h.job j).of_unqueued (.inl hc)
  refine h.caller rfl rfl rfl rfl rfl rfl rfl (.fresh hj ?_ hq hs)
  simp only [Core.enter,Core.setCaller,update_self,Caller.Early]
  split <;> simp

lemma Ok.check (hc : s.callers j = .entered) : Ok (s.check j) := by
  obtain ⟨hj,hq,hs⟩ := (h.job j).of_unqueued (.inr (.inl hc))
  rw [Core.check]
  split <;>
    exact h.caller rfl rfl rfl rfl rfl rfl rfl (.fresh hj (by simp [Core.setCaller,Caller.Early]) hq hs)

lemma Ok.push (hc : s.callers j = .checked) : Ok (s.push j) := by
  obtain ⟨hj,hq,hs⟩ := (h.job j).of_unqueued (.inr (.inr hc))
  refine ⟨nodup_append.mpr ⟨h.nodup,nodup_singleton j,fun a ha b hb => ?_⟩,h.current,h.halted,fun i => ?_⟩
  · rintro rfl
    exact hq (mem_singleton.mp hb ▸ ha)
  · by_cases hi : i = j
    · subst hi
      exact .queued hj (by simp [Core.push,Core.setCaller,Caller.Submitted]) (by simp [Core.push]) hs
    · exact (h.job i).same ⟨rfl,update_of_ne hi _ _,rfl,by simp [Core.push,hi],rfl,id⟩

lemma Ok.notify (hc : s.callers j = .pushed) : Ok (s.notify j) := by
  refine h.caller rfl rfl rfl rfl rfl rfl rfl ?_
  have hsu : ((s.notify j).callers j).Submitted (s.waits j) := by
    simp only [Core.notify,Core.setCaller,update_self,Caller.Submitted]
    cases s.waits j <;> simp
  cases h.job j with
  | fresh _ hcl => rcases hcl with h | h | h | h <;> simp_all
  | queued hj _ hq hs => exact .queued hj hsu hq hs
  | launching hj _ hq hs => exact .launching hj hsu hq hs
  | running hj _ hq hs => exact .running hj hsu hq hs
  | finished hp hco hst _ hq hs =>
    exact .finished hp hco hst hsu.late hq hs
  | thrown hp hco hst _ hq hs =>
    exact .thrown hp hco hst (.inl hsu.late) hq hs
  | dropped hp hca hco hst _ hq he =>
    exact .dropped hp hca hco hst hsu.late hq he

lemma Ok.wake (hp : (s.jobs j).donePromise ≠ none) : Ok (s.wake j) := by
  refine h.caller rfl rfl rfl rfl rfl rfl rfl ?_
  cases h.job j with
  | fresh hj | queued hj | launching hj | running hj => exact absurd (by rw [hj]; rfl) hp
  | finished hv hc hs _ hq hst =>
    refine .finished hv hc hs (.inr (.inr ⟨!(s.jobs j).cancelled,?_⟩)) hq hst
    simp [Core.wake,Core.setCaller,hv]
  | thrown he hc hs _ hq hst =>
    refine .thrown he hc hs (.inr (.inl ?_)) hq hst
    simp [Core.wake,Core.setCaller,he]
  | dropped hv hca hc hs _ hq hen =>
    refine .dropped hv hca hc hs (.inr (.inr ⟨!(s.jobs j).cancelled,?_⟩)) hq hen
    simp [Core.wake,Core.setCaller,hv]

lemma Ok.stop (hc : s.callers j = .caught) : Ok (s.stop j) := by
  obtain ⟨hp,hco,hs,hq,hst⟩ := (h.job j).of_caught (.inl hc)
  refine h.caller rfl rfl rfl rfl rfl rfl rfl (.thrown hp hco hs (.inr (.inr ?_)) hq hst)
  simp [Core.stop,Core.setCaller]

lemma Ok.notifyStop (hc : s.callers j = .stopped) : Ok (s.notifyStop j) := by
  obtain ⟨hp,hco,hs,hq,hst⟩ := (h.job j).of_caught (.inr hc)
  refine h.caller rfl rfl rfl rfl rfl rfl rfl
    (.thrown hp hco hs (.inl (.inr (.inr ⟨false,?_⟩))) hq hst)
  simp [Core.notifyStop,Core.setCaller]

end

end

section
variable {s t : Core} {i j : ℕ}

lemma Handler.stage_of_settles {h : Handler} (hs : h.settles = true) (j : ℕ) :
    h.stage j = .away ∨ h.stage j = .settling := by
  cases h <;> simp_all [Handler.settles,Handler.stage,em']

lemma Handler.stage_of_yields {h : Handler} (hy : h.yields = true) (j : ℕ) : h.stage j ≠ .launching := by
  cases h <;> simp_all [Handler.yields,Handler.stage] <;> split <;> simp

lemma Ok.handler (h : Ok s) (hq : t.asyncJobs = s.asyncJobs) (hcu : t.runningJob = s.runningJob)
    (hh : t.simulation ≠ .active → t.handler.yields = true) (hjo : t.jobs = s.jobs)
    (hc : t.callers = s.callers) (hw : t.waits = s.waits) (hsi : s.simulation = .active)
    (hs : ∀ j, t.handler.stage j = s.handler.stage j) : Ok t := by
  refine ⟨hq ▸ h.nodup,fun j hj => hs j ▸ h.current j (hcu ▸ hj),hh,fun j => ?_⟩
  refine (h.job j).same ⟨by rw [hjo],by rw [hc],by rw [hw],by rw [hq],hs j,fun he => ?_⟩
  simp [hsi] at he

section
variable (h : Ok s) (hs : s.simulation = .active)
include h hs

lemma Ok.outer (hh : s.handler = .ready) : Ok s.outer := by
  rw [Core.outer]
  split <;> exact h.handler rfl rfl (absurd hs) rfl rfl rfl hs (by simp [Core.setHandler,hh,Handler.stage])

lemma Ok.unlock (hh : s.handler = .inner) :
    Ok {s.setHandler .unlocked with asyncJobsMutex := none} :=
  h.handler rfl rfl (absurd hs) rfl rfl rfl hs (by simp [Core.setHandler,hh,Handler.stage])

lemma Ok.inner (hh : s.handler = .inner) : Ok s.inner := by
  rw [Core.inner]
  split
  · exact h.unlock hs hh
  · rename_i j rest hq
    split
    · have hn := h.nodup
      rw [hq,nodup_cons] at hn
      refine ⟨hn.2,fun i hi => ?_,absurd hs,fun i => ?_⟩
      · rw [Option.some.injEq] at hi
        simp [Core.setHandler,Handler.stage,hi]
      · by_cases hi : i = j
        · subst hi
          have hm : i ∈ s.asyncJobs := by simp [hq]
          cases h.job i with
          | queued hj hc => exact .launching hj hc hn.1 (by simp [Core.setHandler,Handler.stage])
          | fresh _ _ hqu | launching _ _ hqu | running _ _ hqu | finished _ _ _ _ hqu
          | thrown _ _ _ _ hqu | dropped _ _ _ _ _ hqu => exact absurd hm hqu
        · refine (h.job i).same ⟨rfl,rfl,rfl,by simp [hq,hi],?_,id⟩
          simp [Core.setHandler,Handler.stage,hh,Ne.symm hi]
    · exact h.unlock hs hh

end

lemma Ok.withJob (h : Ok s) (hq : t.asyncJobs = s.asyncJobs)
    (hcu : ∀ i, t.runningJob = some i → t.handler.stage i ≠ .away)
    (hsi : t.simulation = .active) (hsi' : s.simulation = .active) (hj : ∀ i ≠ j, t.jobs i = s.jobs i)
    (hc : t.callers = s.callers) (hw : t.waits = s.waits)
    (hs : ∀ i ≠ j, t.handler.stage i = s.handler.stage i) (hjo : JobOk t j) : Ok t := by
  refine ⟨hq ▸ h.nodup,hcu,absurd hsi,fun i => ?_⟩
  by_cases hi : i = j
  · exact hi ▸ hjo
  · refine (h.job i).same ⟨hj i hi,by rw [hc],by rw [hw],by rw [hq],hs i hi,fun he => ?_⟩
    simp [hsi'] at he

section
variable (h : Ok s) (hsi : s.simulation = .active)
include h hsi

lemma Ok.of_launching (hh : s.handler = .launching j) :
    s.jobs j = .made ∧ (s.callers j).Submitted (s.waits j) ∧ j ∉ s.asyncJobs := by
  have hst : s.handler.stage j = .launching := by simp [hh,Handler.stage]
  cases h.job j with
  | launching hj hc hq => exact ⟨hj,hc,hq⟩
  | fresh _ _ _ hs | queued _ _ _ hs | running _ _ _ hs | finished _ _ _ _ _ hs | thrown _ _ _ _ _ hs =>
    simp [hst] at hs
  | dropped _ _ _ _ _ _ he => simp [hsi] at he

lemma Ok.of_inJob (hh : s.handler = .inJob j) :
    s.jobs j = AsyncJob.made.start ∧ (s.callers j).Submitted (s.waits j) ∧ j ∉ s.asyncJobs := by
  have hst : s.handler.stage j = .inJob := by simp [hh,Handler.stage]
  cases h.job j with
  | running hj hc hq => exact ⟨hj,hc,hq⟩
  | fresh _ _ _ hs | queued _ _ _ hs | launching _ _ _ hs | finished _ _ _ _ _ hs | thrown _ _ _ _ _ hs =>
    simp [hst] at hs
  | dropped _ _ _ _ _ _ he => simp [hsi] at he

omit h hsi in
lemma Core.launch_made (hj : s.jobs j = .made) :
    s.launch j = (s.setJob j (s.jobs j).start).setHandler (.inJob j) := by
  rw [Core.launch,if_neg (by simp [hj,AsyncJob.made])]

omit h hsi in
lemma Ok.launch (h : Ok s) (hs : s.simulation = .active) (hh : s.handler = .launching j) : Ok (s.launch j) := by
  obtain ⟨hj,hc,hq⟩ := h.of_launching hs hh
  rw [Core.launch_made hj]
  refine h.withJob rfl (fun i hi => ?_) hs hs (fun i hi => update_of_ne hi _ _) rfl rfl
    (fun i hi => by simp [Core.setHandler,Handler.stage,hh,Ne.symm hi]) (.running ?_ hc hq ?_)
  · have := h.current i hi
    simpa [Core.setHandler,Handler.stage,hh] using this
  · simp [Core.setHandler,Core.setJob,hj]
  · simp [Core.setHandler,Handler.stage]

lemma Ok.finish (hh : s.handler = .inJob j) (threw : Bool) :
    Ok (s.finish j threw) := by
  obtain ⟨hj,hc,hq⟩ := h.of_inJob hsi hh
  have hs : (s.finish j threw).handler.stage j = .settling := by simp [Core.finish,Core.setHandler,Handler.stage]
  refine h.withJob rfl (fun i hi => ?_) hsi hsi (fun i hi => update_of_ne hi _ _) rfl rfl
    (fun i hi => by simp [Core.finish,Core.setHandler,Handler.stage,hh,Ne.symm hi]) ?_
  · have := h.current i hi
    simpa [Core.finish,Core.setHandler,Handler.stage,hh] using this
  · have hj' : (s.finish j threw).jobs j = AsyncJob.made.start.finish threw := by
      simp [Core.finish,Core.setHandler,Core.setJob,hj]
    cases threw with
    | false =>
      refine .finished ?_ ?_ ?_ hc.late hq (.inr hs) <;> rw [hj'] <;> rfl
    | true =>
      refine .thrown ?_ ?_ ?_ (.inl hc.late) hq (.inr hs) <;> rw [hj'] <;> rfl

lemma Ok.relock (hh : s.handler.settles = true) : Ok s.relock := by
  refine ⟨h.nodup,by simp [Core.relock],absurd hsi,fun i => ?_⟩
  have ha : s.relock.handler.stage i = .away := rfl
  have hsg := Handler.stage_of_settles hh i
  cases h.job i with
  | fresh hj hc hq => exact .fresh hj hc hq ha
  | queued hj hc hq => exact .queued hj hc hq ha
  | launching _ _ _ hs | running _ _ _ hs => simp [hs] at hsg
  | finished hp hco hst hc hq =>
    exact .finished hp hco hst hc hq (.inl ha)
  | thrown hp hco hst hc hq =>
    exact .thrown hp hco hst hc hq (.inl ha)
  | dropped _ _ _ _ _ _ he => simp [hsi] at he

end

lemma Ok.deliver (h : Ok s) (hs : s.simulation = .active) : Ok s.deliver := by
  refine h.handler rfl rfl (absurd hs) rfl rfl rfl hs fun j => ?_
  simp only [Core.deliver]
  split
  · rename_i hb
    rw [hb.2]
    rfl
  · rfl

lemma JobOk.cancelled (h : JobOk s j) (hy : s.handler.yields = true)
    (hf : j ∈ s.asyncJobs ∨ s.runningJob = some j) (hcu : s.runningJob = some j → s.handler.stage j ≠ .away) :
    JobOk {s.cancelAll with simulation := .ended} j := by
  have hj' : s.cancelAll.jobs j = (s.jobs j).cancel := if_pos hf
  have hn : j ∉ s.cancelAll.asyncJobs := not_mem_nil
  cases h with
  | fresh _ _ hq hs => exact absurd hs (hcu (hf.resolve_left hq))
  | queued hj hc | running hj hc =>
    refine .dropped ?_ ?_ ?_ ?_ hc.late hn rfl <;> simp only [hj',hj] <;> decide
  | launching _ _ _ hs => exact absurd hs (Handler.stage_of_yields hy j)
  | finished hp hco hst hc _ hs =>
    refine .finished ?_ ?_ ?_ hc hn hs <;>
      simp [hj',AsyncJob.cancel,AsyncJob.setPromise,hp,hco,hst]
  | thrown hp hco hst hc _ hs =>
    refine .thrown ?_ ?_ ?_ hc hn hs <;>
      simp [hj',AsyncJob.cancel,AsyncJob.setPromise,hp,hco,hst]
  | dropped hp hca hco hst hc _ _ =>
    refine .dropped ?_ ?_ ?_ ?_ hc hn rfl <;>
      simp [hj',AsyncJob.cancel,AsyncJob.setPromise,hp,hco,hst]

lemma Ok.endCancel (h : Ok s) (hs : s.simulation = .stopped) : Ok {s.cancelAll with simulation := .ended} := by
  have hy := h.halted (by simp [hs])
  refine ⟨nodup_nil,by simp [Core.cancelAll],fun _ => hy,fun j => ?_⟩
  by_cases hf : j ∈ s.asyncJobs ∨ s.runningJob = some j
  · exact (h.job j).cancelled hy hf (h.current j)
  · refine (h.job j).same ⟨if_neg hf,rfl,rfl,?_,rfl,fun _ => rfl⟩
    simpa [Core.cancelAll] using (not_or.mp hf).1

end

lemma Ok.constructed (waits : ℕ → Bool) : Ok (.constructed waits) :=
  ⟨nodup_nil,nofun,fun _ => rfl,fun _ => .fresh rfl (.inl rfl) not_mem_nil rfl⟩

lemma Ok.step {s : Core} (h : Ok s) {a : Action} (he : s.Enabled a) : Ok (s.step a) := by
  cases a with
  | enter j => exact h.enter he
  | check j => exact h.check he.1
  | push j => exact h.push he
  | notify j => exact h.notify he
  | wake j => exact h.wake he.2
  | stop j => exact h.stop he
  | notifyStop j => exact h.notifyStop he
  | outer => exact h.outer he.1 he.2.1
  | inner => exact h.inner he.1 he.2
  | launch j => exact h.launch he.1 he.2
  | finish j threw => exact h.finish he.1 he.2 threw
  | relock => exact h.relock he.1 he.2.1
  | block =>
    exact h.handler rfl rfl (absurd he.1) rfl rfl rfl he.1 (by simp [Core.step,Core.setHandler,he.2,Handler.stage])
  | update => exact h.handler rfl rfl (absurd he.1) rfl rfl rfl he.1 fun _ => rfl
  | deliver => exact h.deliver he.1
  | endStop => exact h.handler rfl rfl (fun _ => he.2) rfl rfl rfl he.1 fun _ => rfl
  | endCancel => exact h.endCancel he.1

/-- What makes the returned values true: no completed job has been cancelled while its call was waiting. -/
structure Faithful (s : Core) : Prop where
  uncancelled : ∀ j, s.waits j = true → (s.jobs j).completed = true → (s.jobs j).cancelled = true →
    s.callers j ≠ .pushed ∧ s.callers j ≠ .waiting
  returned : ∀ j b, s.waits j = true → s.callers j = .returned b → (b = true ↔ (s.jobs j).completed = true)

section
variable {s t : Core} {j : ℕ} {c : Caller}

lemma Faithful.same (h : Faithful s) (hc : ∀ j, (t.jobs j).completed = (s.jobs j).completed)
    (hcn : ∀ j, (t.jobs j).cancelled = (s.jobs j).cancelled) (hca : t.callers = s.callers)
    (hw : t.waits = s.waits) : Faithful t := by
  refine ⟨fun j => ?_,fun j => ?_⟩
  · rw [hc,hcn,hca,hw]
    exact h.uncancelled j
  · rw [hc,hca,hw]
    exact h.returned j

lemma Faithful.caller (h : Faithful s) (hj : t.jobs = s.jobs) (hwt : t.waits = s.waits)
    (hcl : t.callers = Function.update s.callers j c)
    (hwa : c = .pushed ∨ c = .waiting → (s.jobs j).completed = true → (s.jobs j).cancelled = false)
    (hr : ∀ b, s.waits j = true → c = .returned b → (b = true ↔ (s.jobs j).completed = true)) : Faithful t := by
  refine ⟨fun i hw hco hca => ?_,fun i b hw hre => ?_⟩
  · rw [hj] at hco hca
    rw [hcl]
    by_cases hi : i = j
    · subst hi
      rw [update_self]
      refine ⟨fun hc => ?_,fun hc => ?_⟩
      · simp [hwa (.inl hc) hco] at hca
      · simp [hwa (.inr hc) hco] at hca
    · rw [update_of_ne hi]
      exact h.uncancelled i (hwt ▸ hw) hco hca
  · rw [hj]
    rw [hcl] at hre
    by_cases hi : i = j
    · subst hi
      rw [update_self] at hre
      exact hr b (hwt ▸ hw) hre
    · rw [update_of_ne hi] at hre
      exact h.returned i b (hwt ▸ hw) hre

section
variable (hok : Ok s) (h : Faithful s)
include hok h

lemma Faithful.wake (hc : s.callers j = .waiting)
    (hp : (s.jobs j).donePromise ≠ none) : Faithful (s.wake j) := by
  refine h.caller rfl rfl rfl ?_ fun b hw hb => ?_
  · split <;> simp
  · cases hok.job j with
    | fresh hj | queued hj | launching hj | running hj => exact absurd (by rw [hj]; rfl) hp
    | finished hv hco =>
      have hn : (s.jobs j).cancelled = false := by
        by_contra hca
        exact (h.uncancelled j hw hco (by simpa using hca)).2 hc
      simp_all
    | thrown he => simp [he] at hb
    | dropped hv hca hco => simp_all

lemma Faithful.finish (hs : s.simulation = .active) (hh : s.handler = .inJob j)
    (threw : Bool) : Faithful (s.finish j threw) := by
  obtain ⟨hj,hcl,-⟩ := hok.of_inJob hs hh
  have ho {i : ℕ} (hi : i ≠ j) : (s.finish j threw).jobs i = s.jobs i := update_of_ne hi _ _
  refine ⟨fun i hw hco hca => ?_,fun i b hw hr => ?_⟩
  · by_cases hi : i = j
    · subst hi
      have hn : ((s.finish i threw).jobs i).cancelled = false := by
        simp only [Core.finish,Core.setHandler,Core.setJob,update_self,hj]
        cases threw <;> rfl
      simp [hn] at hca
    · rw [ho hi] at hco hca
      exact h.uncancelled i hw hco hca
  · by_cases hi : i = j
    · subst hi
      have hw' : s.waits i = true := hw
      have hr' : s.callers i = .returned b := hr
      rcases hcl with hc | hc | hc <;> simp_all
    · rw [ho hi]
      exact h.returned i b hw hr

omit hok h in
lemma Core.cancelAll_completed (j : ℕ) : (s.cancelAll.jobs j).completed = (s.jobs j).completed := by
  simp only [Core.cancelAll]
  split <;> rfl

lemma Faithful.endCancel (hu : s.Unhurried .endCancel) :
    Faithful {s.cancelAll with simulation := .ended} := by
  refine ⟨fun i hw hc hca => ?_,fun i b hw hre => ?_⟩
  · have hc' := Core.cancelAll_completed i ▸ hc
    by_cases hr : s.runningJob = some i
    · exact hu i hr hc' hw
    · have hq : i ∉ s.asyncJobs := by
        intro hm
        cases hok.job i with
        | queued hj => simp [hj,AsyncJob.made] at hc'
        | fresh _ _ hq | launching _ _ hq | running _ _ hq | finished _ _ _ _ hq
        | thrown _ _ _ _ hq | dropped _ _ _ _ _ hq => exact hq hm
      have hj : s.cancelAll.jobs i = s.jobs i := if_neg (not_or.mpr ⟨hq,hr⟩)
      exact h.uncancelled i hw hc' (hj ▸ hca)
  · exact (h.returned i b hw hre).trans (by rw [← Core.cancelAll_completed i])

lemma Faithful.step {a : Action} (he : s.Enabled a) (hu : s.Unhurried a) :
    Faithful (s.step a) := by
  cases a with
  | enter j =>
    refine h.caller rfl rfl rfl ?_ fun b _ hb => ?_
    · split <;> simp
    · rw [((hok.job j).of_unqueued (.inl he)).1]
      split at hb <;> simp_all [AsyncJob.made]
  | check j =>
    have hm := ((hok.job j).of_unqueued (.inr (.inl he.1))).1
    rw [Core.step,Core.check]
    split
    · exact h.caller rfl rfl rfl (by simp) (by simp)
    · exact h.caller rfl rfl rfl (by simp) (by simp [hm,AsyncJob.made])
  | push j =>
    have hm := ((hok.job j).of_unqueued (.inr (.inr he))).1
    exact h.caller rfl rfl rfl (by simp [hm,AsyncJob.made]) (by simp)
  | notify j =>
    refine h.caller rfl rfl rfl (fun hc hco => ?_) fun b hw hb => ?_
    · by_contra hca
      split at hc
      · rename_i hw
        exact (h.uncancelled j hw hco (by simpa using hca)).1 he
      · simp at hc
    · simp [hw] at hb
  | wake j => exact h.wake hok he.1 he.2
  | stop j => exact h.caller rfl rfl rfl (by simp) (by simp)
  | notifyStop j =>
    have hco := ((hok.job j).of_caught (.inr he)).2.1
    exact h.caller rfl rfl rfl (by simp) (by simp [hco])
  | outer | inner =>
    exact h.same (by simp [Core.step]) (by simp [Core.step]) (by simp [Core.step]) (by simp [Core.step])
  | launch j =>
    obtain ⟨hj,-,-⟩ := hok.of_launching he.1 he.2
    rw [Core.step,Core.launch_made hj]
    refine h.same (fun i => ?_) (fun i => ?_) rfl rfl
    · by_cases hi : i = j
      · simp [Core.setHandler,Core.setJob,hi,hj,AsyncJob.start]
      · simp [Core.setHandler,Core.setJob,hi]
    · by_cases hi : i = j
      · simp [Core.setHandler,Core.setJob,hi,hj,AsyncJob.start]
      · simp [Core.setHandler,Core.setJob,hi]
  | finish j threw => exact h.finish hok he.1 he.2 threw
  | relock | block | update | deliver | endStop => exact h.same (fun _ => rfl) (fun _ => rfl) rfl rfl
  | endCancel => exact h.endCancel hok hu

end

end

section
variable {s t : Core} {j : ℕ} {a : Action} {b : Bool}

lemma Core.step_waits : (s.step a).waits = s.waits := by
  cases a with
  | check j | outer | inner | launch j => simp [Core.step]
  | _ => rfl

lemma Core.step_returned (he : s.Enabled a) (hc : s.callers j = .returned b) :
    (s.step a).callers j = .returned b := by
  have hne {i : ℕ} {c : Caller} (hi : s.callers i = c) (hb : ∀ b, c ≠ .returned b) : j ≠ i := by
    rintro rfl
    exact hb b (hi.symm.trans hc)
  have hu {i : ℕ} {c c' : Caller} (hi : s.callers i = c) (hb : ∀ b, c ≠ .returned b) :
      Function.update s.callers i c' j = .returned b := by
    rw [update_of_ne (hne hi hb),hc]
  cases a with
  | enter i | push i | notify i | stop i | notifyStop i => exact hu he (by simp)
  | check i =>
    rw [Core.step,Core.check]
    split <;> exact hu he.1 (by simp)
  | wake i => exact hu he.1 (by simp)
  | outer | inner | launch _ => simpa [Core.step] using hc
  | finish _ _ | relock | block | update | deliver | endStop | endCancel => exact hc

/-- Only the handler starts a job, and not one whose call has returned false. -/
lemma Core.step_started (hok : Ok s) (he : s.Enabled a) (hw : s.waits j = true) (hc : s.callers j = .returned false) :
    ((s.step a).jobs j).started = (s.jobs j).started := by
  cases a with
  | launch i =>
    obtain ⟨hj,hca,-⟩ := hok.of_launching he.1 he.2
    have hi : j ≠ i := by
      rintro rfl
      rcases hca with h | h | h <;> simp_all
    rw [Core.step,Core.launch_made hj]
    simp [Core.setHandler,Core.setJob,hi]
  | finish i threw =>
    by_cases hi : j = i
    · simp only [Core.step,Core.finish,Core.setHandler,Core.setJob,hi,update_self]
      cases threw <;> rfl
    · simp [Core.step,Core.finish,Core.setHandler,Core.setJob,hi]
  | endCancel =>
    simp only [Core.step,Core.cancelAll]
    split <;> rfl
  | check _ | outer | inner => simp [Core.step]
  | enter _ | push _ | notify _ | wake _ | stop _ | notifyStop _ | relock | block | update | deliver | endStop => rfl

lemma Ok.started_le (h : Ok s) (j : ℕ) : (s.jobs j).started ≤ 1 := by
  cases h.job j with
  | fresh hj | queued hj | launching hj | running hj => simp [hj,AsyncJob.made,AsyncJob.start]
  | finished _ _ hs | thrown _ _ hs => exact hs.le
  | dropped _ _ _ hs => exact hs

lemma Ok.started_final (h : Ok s) (hw : s.waits j = true) (hc : s.callers j = .returned false)
    (hr : GuardedRun Core.step Core.Enabled s t) : (t.jobs j).started = (s.jobs j).started := by
  have hi := hr.invariant (I := fun t => Ok t ∧ t.waits j = true ∧ t.callers j = .returned false ∧
    (t.jobs j).started = (s.jobs j).started) (fun t a ⟨hok,hw,hc,hst⟩ he =>
      ⟨hok.step he,by rwa [Core.step_waits],Core.step_returned he hc,(Core.step_started hok he hw hc).trans hst⟩)
    ⟨h,hw,hc,rfl⟩
  exact hi.2.2.2

lemma Faithful.truthful (hok : Ok s) (h : Faithful s) : s.Truthful :=
  ⟨hok.started_le,h.returned,fun _ _ hw hc hr => hok.started_final hw hc hr⟩

/-- A call that finds its job both completed and cancelled says that it was not run. -/
lemma Core.wake_false (hw : s.waits j = true) (hco : (s.jobs j).completed = true)
    (hc : (s.jobs j).cancelled = true) (hp : (s.jobs j).donePromise = some .value) : ¬(s.wake j).Truthful := by
  intro h
  have hr : (s.wake j).callers j = .returned false := by simp [Core.wake,Core.setCaller,hp,hc]
  have := (h.returned j false hw hr).mpr hco
  simp at this

lemma Ok.of_completed (h : Ok s) (hc : (s.jobs j).completed = true) : (s.jobs j).donePromise = some .value := by
  cases h.job j with
  | finished hp => exact hp
  | fresh hj | queued hj | launching hj | running hj => simp [hj,AsyncJob.made,AsyncJob.start] at hc
  | thrown _ hn | dropped _ _ hn => simp [hn] at hc

/-- From where a job is completed and cancelled before its call has its outcome, the call returns false. -/
lemma Ok.hurried (h : Ok s) (hw : s.waits j = true) (hco : (s.jobs j).completed = true)
    (hca : (s.jobs j).cancelled = true) (hc : s.callers j = .pushed ∨ s.callers j = .waiting) :
    ∃ t, GuardedRun Core.step Core.Enabled s t ∧ ¬t.Truthful := by
  have hp := h.of_completed hco
  rcases hc with hc | hc
  · have hn : s.Enabled (.notify j) := hc
    have hwa : (s.notify j).Enabled (.wake j) := by
      refine ⟨by simp [Core.notify,Core.setCaller,hw],?_⟩
      rw [show ((s.notify j).jobs j).donePromise = some .value from hp]
      simp
    exact ⟨_,(GuardedRun.refl.tail hn).tail hwa,Core.wake_false hw hco hca hp⟩
  · have hwa : s.Enabled (.wake j) := ⟨hc,by simp [hp]⟩
    exact ⟨_,GuardedRun.refl.tail hwa,Core.wake_false hw hco hca hp⟩

end

/-- In every run in which `cancel_all` finds no completed job whose call has yet to return, the calls say the truth;
where it finds one, that call can return false. -/
theorem returns_truth_iff (waits : ℕ → Bool) :
    (∀ s, GuardedRun Core.step (fun s a => s.Enabled a ∧ s.Unhurried a) (.constructed waits) s → s.Truthful) ∧
    ∀ s a, GuardedRun Core.step Core.Enabled (.constructed waits) s → s.Enabled a → ¬s.Unhurried a →
      ∃ t, GuardedRun Core.step Core.Enabled (s.step a) t ∧ ¬t.Truthful := by
  refine ⟨fun s hru => ?_,fun s a hru he hu => ?_⟩
  · have hi := hru.invariant (I := fun s => Ok s ∧ Faithful s)
      (fun s a ⟨hok,h⟩ he => ⟨hok.step he.1,h.step hok he.1 he.2⟩)
      ⟨.constructed waits,⟨fun _ _ hco => by simp [Core.constructed,AsyncJob.made] at hco,
        fun _ _ _ hre => by simp [Core.constructed] at hre⟩⟩
    exact hi.2.truthful hi.1
  · have hok := hru.invariant (I := Ok) (fun _ _ h he => h.step he) (.constructed waits)
    cases a with
    | endCancel =>
      simp only [Core.Unhurried,not_forall] at hu
      obtain ⟨j,hr,hco,hw,hc⟩ := hu
      refine (hok.step he).hurried hw ?_ ?_ (by tauto)
      · exact (Core.cancelAll_completed j).trans hco
      · simp only [Core.step,Core.cancelAll,if_pos (Or.inr (Option.mem_def.mp hr))]
        rfl
    | _ => exact absurd trivial hu

/-- A job completes, and the simulation ends before its call has looked at the outcome. -/
def hurriedRun : List Action :=
  [.enter 0,.check 0,.push 0,.notify 0,.outer,.inner,.launch 0,.finish 0 false,.endStop,.endCancel,.wake 0]

/-- The call returns false although its job has run to its end. -/
theorem completed_job_reported_cancelled :
    GuardedRun.Along Core.step Core.Enabled (.constructed fun _ => true) hurriedRun ∧
    (hurriedRun.foldl Core.step (.constructed fun _ => true)).callers 0 = .returned false ∧
    ((hurriedRun.foldl Core.step (.constructed fun _ => true)).jobs 0).completed = true := by
  decide

end Qbox.RunOnSysc
