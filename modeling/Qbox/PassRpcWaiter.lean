import Qbox.GuardedRun

/-! `b_transport` of two connected `PassRPC` modules. On each side the SystemC thread hands a call to the notifier thread of
`trans_waiter`, which makes it with `rpc_execed_mut` locked; the other side serves it on its SystemC thread. -/
namespace Qbox.PassRpc
open Function
open List hiding modify

inductive Side where
  | here
  | there
  deriving DecidableEq, Repr

def Side.other : Side → Side
  | .here => .there
  | .there => .here

@[simp] lemma Side.other_other (x : Side) : x.other.other = x := by cases x <;> rfl
@[simp] lemma Side.other_ne (x : Side) : x.other ≠ x := by cases x <;> decide
@[simp] lemma Side.ne_other (x : Side) : x ≠ x.other := by cases x <;> decide
lemma Side.eq_other_of_ne {x y : Side} (h : y ≠ x) : y = x.other := by cases x <;> cases y <;> simp_all [Side.other]

/-- The SystemC thread of a side; a process may have come to lock `rpc_execed_mut` for a port's call. -/
inductive Kernel where
  | free
  | locking (port : ℕ)
  deriving DecidableEq, Repr

/-- `notifier_task`: it waits, holds the mutex, or its call is not taken up yet, is served, waits for a nested call,
or is answered. -/
inductive Notifier where
  | waiting
  | holding
  | calling
  | served
  | awaiting (port : ℕ)
  | replied
  deriving DecidableEq, Repr

def Notifier.holds : Notifier → Bool
  | .waiting => false
  | _ => true

def Notifier.unanswered : Notifier → Bool
  | .calling | .served | .awaiting _ => true
  | .waiting | .holding | .replied => false

/-- The process that calls on a port; the port is busy unless it is idle. -/
inductive Port where
  | idle
  | locking
  | queued
  | ready
  deriving DecidableEq, Repr

/-- One side: its two threads, the queue `notifiers` of calls, and its ports. -/
structure Endpoint where
  kernel : Kernel
  notifier : Notifier
  notifiers : List ℕ
  ports : ℕ → Port

abbrev System := Side → Endpoint

inductive WaiterAction where
  | bTransport (x : Side) (port : ℕ)
  | nested (x : Side) (port : ℕ)
  | enqueueNotifier (x : Side)
  | lock (x : Side)
  | takeFront (x : Side)
  | serve (x : Side)
  | complete (x : Side)
  | reply (x : Side)
  | resume (x : Side) (port : ℕ)
  deriving DecidableEq, Repr

namespace Endpoint
variable (e : Endpoint)

@[simps kernel notifier notifiers] def setNotifier (n : Notifier) : Endpoint := {e with notifier := n}

@[simps kernel notifier notifiers]
def request (port : ℕ) : Endpoint := {e with kernel := .locking port, ports := Function.update e.ports port .locking}

/-- It locks the mutex, leaves its call in the queue, unlocks, and waits for the data. -/
def enqueueNotifier : Endpoint := match e.kernel with
  | .free => e
  | .locking port =>
    {e with kernel := .free, notifiers := e.notifiers++[port], ports := Function.update e.ports port .queued}

def takeFront : Endpoint := e.setNotifier (if e.notifiers = [] then .waiting else .calling)

/-- The call returns: `data_ready_events` is notified and the call leaves the queue. -/
def reply : Endpoint := match e.notifiers with
  | [] => e
  | port :: rest =>
    {e with notifier := .holding, notifiers := rest, ports := Function.update e.ports port .ready}

@[simps kernel notifier notifiers] def resume (port : ℕ) : Endpoint := {e with ports := Function.update e.ports port .idle}

def outstanding : List ℕ := if e.notifier = .replied then e.notifiers.tail else e.notifiers

end Endpoint

namespace System
variable (s : System) (x : Side)

def modify (f : Endpoint → Endpoint) : System := Function.update s x (f (s x))

/-- The target that waited for the call of the port goes on serving. -/
def continueServing (port : ℕ) : System :=
  if (s x).notifier = .awaiting port then s.modify x (·.setNotifier .served) else s

/-- `nested x`: the target that serves the call of side `x` makes a call on its own side. -/
def step : WaiterAction → System
  | .bTransport x port => s.modify x (·.request port)
  | .nested x port => (s.modify x.other (·.request port)).modify x (·.setNotifier (.awaiting port))
  | .enqueueNotifier x => s.modify x Endpoint.enqueueNotifier
  | .lock x => s.modify x (·.setNotifier .holding)
  | .takeFront x => s.modify x Endpoint.takeFront
  | .serve x => s.modify x (·.setNotifier .served)
  | .complete x => s.modify x (·.setNotifier .replied)
  | .reply x => s.modify x Endpoint.reply
  | .resume x port => (s.continueServing x.other port).modify x (·.resume port)

/-- A SystemC thread that waits for the mutex does nothing else, and gets it when it is free. -/
def Enabled : WaiterAction → Prop
  | .bTransport x port => (s x).kernel = .free ∧ (s x).ports port = .idle
  | .nested x port => (s x).notifier = .served ∧ (s x.other).kernel = .free ∧ (s x.other).ports port = .idle
  | .enqueueNotifier x => (s x).kernel ≠ .free ∧ (s x).notifier = .waiting
  | .lock x => (s x).notifier = .waiting
  | .takeFront x => (s x).notifier = .holding
  | .serve x => (s x).notifier = .calling ∧ (s x.other).kernel = .free
  | .complete x => (s x).notifier = .served ∧ (s x.other).kernel = .free
  | .reply x => (s x).notifier = .replied
  | .resume x port => (s x).kernel = .free ∧ (s x).ports port = .ready

instance (a : WaiterAction) : Decidable (s.Enabled a) := by
  cases a <;> simp only [Enabled] <;> infer_instance

/-- The target that serves the call of side `x` has come to the mutex of its own side. -/
def AtMutex : Prop := ∃ port, (s x).notifier = .awaiting port ∧ (s x.other).kernel = .locking port

/-- Side `x` has a call without an answer, and so has the other side or its serving target. -/
def Crossing : Prop := (s x).outstanding ≠ [] ∧ ((s x.other).outstanding ≠ [] ∨ s.AtMutex x)

/-- No process comes to the mutex of a side whose call crosses another, and no serving target while its SystemC thread
waits. -/
def Uncrossed : WaiterAction → Prop
  | .bTransport x _ => ¬ s.Crossing x
  | .nested x _ => ¬ s.Crossing x.other ∧ (s x).kernel = .free
  | _ => True

end System

inductive Thread where
  | kernel (x : Side)
  | notifier (x : Side)

/-- Which thread waits for which: a notifier in a call for the other side's SystemC thread or, through a nested call,
its notifier. -/
inductive WaitsFor (s : System) : Thread → Thread → Prop where
  | mutex (x : Side) : (s x).kernel ≠ .free → (s x).notifier.holds = true → WaitsFor s (.kernel x) (.notifier x)
  | handler (x : Side) : (s x).notifier.unanswered = true →
      (∀ port, (s x).notifier = .awaiting port → port ∉ (s x.other).notifiers) →
      WaitsFor s (.notifier x) (.kernel x.other)
  | nested (x : Side) (port : ℕ) : (s x).notifier = .awaiting port → port ∈ (s x.other).notifiers →
      WaitsFor s (.notifier x) (.notifier x.other)

lemma WaitsFor.back {s : System} {x : Side} (hn : (s x.other).notifier.unanswered = true)
    (hno : ∀ port, (s x.other).notifier = .awaiting port → port ∉ (s x).notifiers) :
    WaitsFor s (.notifier x.other) (.kernel x) := by
  have hw := WaitsFor.handler x.other hn
  rw [Side.other_other] at hw
  exact hw hno

/-- A SystemC thread waits for the mutex, and in the end for itself. -/
def Deadlock (s : System) : Prop := ∃ x, Relation.TransGen (WaitsFor s) (.kernel x) (.kernel x)

def System.initial : System := fun _ => ⟨.free,.waiting,[],fun _ => .idle⟩

namespace Endpoint
variable {e e' : Endpoint} {port : ℕ} {n : Notifier}

@[simp] lemma setNotifier_ports : (e.setNotifier n).ports = e.ports := rfl
@[simp] lemma request_ports : (e.request port).ports = Function.update e.ports port .locking := rfl
@[simp] lemma resume_ports : (e.resume port).ports = Function.update e.ports port .idle := rfl
@[simp] lemma outstanding_request : (e.request port).outstanding = e.outstanding := rfl
@[simp] lemma outstanding_resume : (e.resume port).outstanding = e.outstanding := rfl

lemma outstanding_of_ne (h : e.notifier ≠ .replied) : e.outstanding = e.notifiers := if_neg h

/-- One side: the queue has the waiting ports, each once, the thread at the mutex has one, a call is at the front, and
ports are left. -/
structure Ok (e : Endpoint) : Prop where
  queued : ∀ p, p ∈ e.notifiers ↔ e.ports p = .queued
  nodup : e.notifiers.Nodup
  locking : ∀ p, e.kernel = .locking p → e.ports p = .locking
  active : e.notifier ≠ .waiting → e.notifier ≠ .holding → e.notifiers ≠ []
  spare : ∃ n, ∀ p, n ≤ p → e.ports p = .idle

lemma Ok.exists_spare (h : e.Ok) (port : ℕ) (q : Port) :
    ∃ n, ∀ p, n ≤ p → Function.update e.ports port q p = .idle := by
  obtain ⟨n,hn⟩ := h.spare
  refine ⟨max n (port+1),fun p hp => ?_⟩
  rw [update_of_ne (by omega)]
  exact hn p (by omega)

lemma Ok.setNotifier (h : e.Ok) (hn : n ≠ .waiting → n ≠ .holding → e.notifiers ≠ []) : (e.setNotifier n).Ok :=
  ⟨h.queued,h.nodup,h.locking,hn,h.spare⟩

lemma Ok.request (h : e.Ok) (hp : e.ports port = .idle) : (e.request port).Ok := by
  refine ⟨fun p => ?_,h.nodup,fun p hk => ?_,h.active,h.exists_spare _ _⟩
  · by_cases hpp : p = port
    · simp [hpp,h.queued,hp]
    · simp [hpp,h.queued]
  · rw [request_kernel,Kernel.locking.injEq] at hk
    simp [hk]

lemma Ok.resume (h : e.Ok) (hk : e.kernel = .free) (hp : e.ports port = .ready) : (e.resume port).Ok := by
  refine ⟨fun p => ?_,h.nodup,fun p hl => ?_,h.active,h.exists_spare _ _⟩
  · by_cases hpp : p = port
    · simp [hpp,h.queued,hp]
    · simp [hpp,h.queued]
  · simp [hk] at hl

lemma enqueueNotifier_of_locking (hk : e.kernel = .locking port) : e.enqueueNotifier =
    {e with kernel := .free, notifiers := e.notifiers++[port], ports := Function.update e.ports port .queued} := by
  rw [enqueueNotifier,hk]

lemma Ok.enqueueNotifier (h : e.Ok) (hk : e.kernel = .locking port) : e.enqueueNotifier.Ok := by
  have hn : port ∉ e.notifiers := by simp [h.queued,h.locking port hk]
  rw [enqueueNotifier_of_locking hk]
  refine ⟨fun p => ?_,?_,nofun,fun _ _ => by simp,h.exists_spare _ _⟩
  · by_cases hpp : p = port
    · simp [hpp]
    · simp [hpp,h.queued]
  · exact h.nodup.append (nodup_singleton port) (by simpa using hn)

lemma reply_of_cons {rest : List ℕ} (hq : e.notifiers = port :: rest) : e.reply =
    {e with notifier := .holding, notifiers := rest, ports := Function.update e.ports port .ready} := by
  rw [reply,hq]

lemma Ok.reply {rest : List ℕ} (h : e.Ok) (hq : e.notifiers = port :: rest) : e.reply.Ok := by
  have hn := h.nodup
  have hqu := h.queued
  rw [hq] at hqu
  rw [hq,nodup_cons] at hn
  have hp := (hqu port).mp (by simp)
  rw [reply_of_cons hq]
  refine ⟨fun p => ?_,hn.2,fun p hk => ?_,nofun,h.exists_spare _ _⟩
  · by_cases hpp : p = port
    · simp [hpp,hn.1]
    · simp [hpp,← hqu]
  · have hl := h.locking p hk
    have hpp : p ≠ port := fun heq => by simp [heq,hp] at hl
    simpa [hpp] using hl

/-- A target that waits for a call has its port, and the notifiers do not wait in each other's queue. -/
structure Cross (e e' : Endpoint) : Prop where
  busy : ∀ p, e.notifier = .awaiting p → e'.ports p ≠ .idle
  apart : ∀ p q, e.notifier = .awaiting p → p ∈ e'.notifiers → e'.notifier = .awaiting q → q ∉ e.notifiers

lemma Cross.of_ne (h : ∀ p, e.notifier ≠ .awaiting p) : Cross e e' :=
  ⟨fun p hp => absurd hp (h p),fun p _ hp => absurd hp (h p)⟩

lemma Cross.busy_update (h : Cross e e') {q : Port} (hq : q ≠ .idle) {p : ℕ} (hw : e.notifier = .awaiting p) :
    Function.update e'.ports port q p ≠ .idle := by
  by_cases hpp : p = port
  · simpa [hpp] using hq
  · simpa [hpp] using h.busy p hw

lemma Cross.setNotifier_right (h : Cross e e') (hn : ∀ p, n ≠ .awaiting p) : Cross e (e'.setNotifier n) :=
  ⟨h.busy,fun _ q _ _ hq => absurd hq (hn q)⟩

end Endpoint

namespace System
variable {s : System} {x : Side} {f : Endpoint → Endpoint}

@[simp] lemma modify_same : s.modify x f x = f (s x) := update_self ..
@[simp] lemma modify_other : s.modify x f x.other = s x.other := update_of_ne x.other_ne ..
@[simp] lemma modify_other_same : s.modify x.other f x = s x := update_of_ne x.ne_other ..

open Endpoint

/-- Each side is related to the other one. -/
def Mutual (R : Endpoint → Endpoint → Prop) (s : System) : Prop := ∀ x, R (s x) (s x.other)

variable {R : Endpoint → Endpoint → Prop}

lemma Mutual.back (h : Mutual R s) (x : Side) : R (s x.other) (s x) := by
  have hb := h x.other
  rwa [Side.other_other] at hb

lemma Mutual.modify (h1 : R (f (s x)) (s x.other)) (h2 : R (s x.other) (f (s x))) : Mutual R (s.modify x f) := by
  intro y
  by_cases hyx : y = x
  · subst hyx
    rwa [modify_same,modify_other]
  · rw [Side.eq_other_of_ne hyx,modify_other,Side.other_other,modify_same]
    exact h2

structure Consistent (s : System) : Prop where
  ok : ∀ x, (s x).Ok
  cross : ∀ x, Cross (s x) (s x.other)

lemma Consistent.modify (h : Consistent s) (hok : (f (s x)).Ok) (hc : Cross (f (s x)) (s x.other))
    (hc' : Cross (s x.other) (f (s x))) : Consistent (s.modify x f) := by
  refine ⟨fun y => ?_,Mutual.modify hc hc'⟩
  by_cases hyx : y = x
  · subst hyx
    rwa [modify_same]
  · rw [Side.eq_other_of_ne hyx,modify_other]
    exact h.ok _

lemma Consistent.setNotifier (h : Consistent s) {n : Notifier} (hn : ∀ p, n ≠ .awaiting p)
    (ha : n ≠ .waiting → n ≠ .holding → (s x).notifiers ≠ []) : Consistent (s.modify x (·.setNotifier n)) :=
  h.modify ((h.ok x).setNotifier ha) (.of_ne hn) ((Mutual.back h.cross x).setNotifier_right hn)

variable {port : ℕ}

section
variable (h : Consistent s)
include h

lemma Consistent.request (hp : (s x).ports port = .idle) :
    Consistent (s.modify x (·.request port)) :=
  h.modify ((h.ok x).request hp) ⟨(h.cross x).busy,(h.cross x).apart⟩
    ⟨fun _ hw => (Mutual.back h.cross x).busy_update (by simp) hw,(Mutual.back h.cross x).apart⟩

lemma Consistent.nested (hn : (s x).notifier = .served)
    (hp : (s x.other).ports port = .idle) : Consistent (s.step (.nested x port)) := by
  have h1 := h.request hp
  have ha := (h.ok x).active (by simp [hn]) (by simp [hn])
  have hne : port ∉ (s x.other).notifiers := by simp [(h.ok x.other).queued,hp]
  rw [step]
  refine h1.modify ?_ ?_ ?_
  · exact (h1.ok x).setNotifier fun _ _ => by simpa using ha
  · rw [modify_other_same,modify_same]
    refine ⟨fun p hw => ?_,fun p q hw hm => ?_⟩
    · simp only [setNotifier_notifier,Notifier.awaiting.injEq] at hw
      simp [hw]
    · simp only [setNotifier_notifier,Notifier.awaiting.injEq] at hw
      exact absurd (hw ▸ hm) hne
  · rw [modify_other_same,modify_same]
    have hc := Mutual.back h1.cross x
    rw [modify_other_same,modify_same] at hc
    refine ⟨hc.busy,fun p q hw hm hw' => ?_⟩
    simp only [setNotifier_notifier,Notifier.awaiting.injEq] at hw'
    exact hw' ▸ hne

lemma Consistent.enqueueNotifier (hk : (s x).kernel ≠ .free) (hn : (s x).notifier = .waiting) :
    Consistent (s.modify x Endpoint.enqueueNotifier) := by
  obtain ⟨port,hp⟩ : ∃ port, (s x).kernel = .locking port := by
    cases hke : (s x).kernel with
    | free => exact absurd hke hk
    | locking port => exact ⟨port,rfl⟩
  refine h.modify ((h.ok x).enqueueNotifier hp) ?_ ?_
  · rw [enqueueNotifier_of_locking hp]
    exact .of_ne (by simp [hn])
  · rw [enqueueNotifier_of_locking hp]
    exact ⟨fun _ hw => (Mutual.back h.cross x).busy_update (by simp) hw,fun p q _ _ hw => by simp [hn] at hw⟩

lemma Consistent.reply (hn : (s x).notifier = .replied) :
    Consistent (s.modify x Endpoint.reply) := by
  have ha := (h.ok x).active (by simp [hn]) (by simp [hn])
  obtain ⟨port,rest,hq⟩ := exists_cons_of_ne_nil ha
  refine h.modify ((h.ok x).reply hq) ?_ ?_
  · rw [reply_of_cons hq]
    exact .of_ne nofun
  · rw [reply_of_cons hq]
    exact ⟨fun _ hw => (Mutual.back h.cross x).busy_update (by simp) hw,fun p q _ _ hw => by simp at hw⟩

omit h in
lemma continueServing_same : s.continueServing x.other port x = s x := by
  rw [continueServing]
  split
  · exact modify_other_same
  · rfl

omit h in
lemma continueServing_ne : (s.continueServing x port x).notifier ≠ .awaiting port := by
  rw [continueServing]
  split
  · simp
  · assumption

lemma Consistent.continueServing : Consistent (s.continueServing x port) := by
  rw [System.continueServing]
  split
  · rename_i hw
    exact h.setNotifier nofun fun _ _ => (h.ok x).active (by simp [hw]) (by simp [hw])
  · exact h

lemma Consistent.resume (hk : (s x).kernel = .free) (hp : (s x).ports port = .ready) :
    Consistent (s.step (.resume x port)) := by
  have h1 : Consistent (s.continueServing x.other port) := h.continueServing
  have hc := Mutual.back h1.cross x
  rw [step]
  refine h1.modify ?_ ⟨(h1.cross x).busy,(h1.cross x).apart⟩ ⟨fun p hw => ?_,hc.apart⟩
  · rw [continueServing_same]
    exact (h.ok x).resume hk hp
  · have hpp : p ≠ port := fun heq => continueServing_ne (heq ▸ hw)
    simpa [hpp] using hc.busy p hw

end

lemma Consistent.step {a : WaiterAction} (h : Consistent s) (ha : s.Enabled a) : Consistent (s.step a) := by
  cases a with
  | bTransport x port => exact h.request ha.2
  | nested x port => exact h.nested ha.1 ha.2.2
  | enqueueNotifier x => exact h.enqueueNotifier ha.1 ha.2
  | lock x => exact h.setNotifier nofun fun _ hne => absurd rfl hne
  | takeFront x =>
    refine h.setNotifier (by split <;> simp) fun hne _ => ?_
    by_contra hn
    simp [hn] at hne
  | serve x | complete x => exact h.setNotifier nofun fun _ _ => (h.ok x).active (by simp [ha.1]) (by simp [ha.1])
  | reply x => exact h.reply ha
  | resume x port => exact h.resume ha.1 ha.2

lemma Consistent.initial : Consistent initial := by
  refine ⟨fun _ => ⟨?_,nodup_nil,nofun,?_,0,fun _ _ => rfl⟩,fun _ => .of_ne nofun⟩
  · simp [System.initial]
  · simp [System.initial]

/-- What keeps the threads of a side and the other one from waiting for themselves. -/
structure Safe (e e' : Endpoint) : Prop where
  one : e.kernel ≠ .free → e'.kernel ≠ .free → e.outstanding = [] ∨ e'.outstanding = []
  nested : ∀ p, e.kernel ≠ .free → e.notifier = .awaiting p → p ∉ e'.outstanding ∧ e'.kernel ≠ .locking p

/-- A step that brings no process to the mutex, no call without an answer and no wait for a nested call. -/
structure Calmer (e₁ e : Endpoint) : Prop where
  kernel : e₁.kernel = e.kernel
  outstanding : ∀ p ∈ e₁.outstanding, p ∈ e.outstanding
  notifier : ∀ p, e₁.notifier = .awaiting p → e.notifier = .awaiting p

section
variable {e e' e₁ : Endpoint} {n : Notifier}

lemma Calmer.outstanding_nil (h : Calmer e₁ e) (he : e.outstanding = []) : e₁.outstanding = [] :=
  eq_nil_iff_forall_not_mem.mpr fun p hp => by simpa [he] using h.outstanding p hp

lemma Safe.calmer_left (h : Safe e e') (hc : Calmer e₁ e) : Safe e₁ e' :=
  ⟨fun hk hk' => (h.one (hc.kernel ▸ hk) hk').imp_left hc.outstanding_nil,
    fun p hk hn => h.nested p (hc.kernel ▸ hk) (hc.notifier p hn)⟩

lemma Safe.calmer_right (h : Safe e e') (hc : Calmer e₁ e') : Safe e e₁ := by
  refine ⟨fun hk hk' => (h.one hk (hc.kernel ▸ hk')).imp_right hc.outstanding_nil,fun p hk hn => ?_⟩
  obtain ⟨ho,hke⟩ := h.nested p hk hn
  exact ⟨fun hm => ho (hc.outstanding p hm),hc.kernel ▸ hke⟩

lemma Calmer.setNotifier (he : e.notifier ≠ .replied) (hn : ∀ p, n ≠ .awaiting p) : Calmer (e.setNotifier n) e := by
  refine ⟨rfl,fun p hp => ?_,fun p hw => absurd hw (hn p)⟩
  rw [outstanding_of_ne he]
  rw [Endpoint.outstanding] at hp
  split at hp
  · exact mem_of_mem_tail hp
  · exact hp

lemma Calmer.reply (he : e.notifier = .replied) : Calmer e.reply e := by
  cases hq : e.notifiers with
  | nil =>
    rw [Endpoint.reply,hq]
    exact ⟨rfl,fun _ hp => hp,fun _ hw => hw⟩
  | cons port rest =>
    rw [reply_of_cons hq]
    refine ⟨rfl,fun p hp => ?_,nofun⟩
    simpa [Endpoint.outstanding,he,hq] using hp

lemma Calmer.resume : Calmer (e.resume port) e := ⟨rfl,fun _ hp => hp,fun _ hw => hw⟩

end

lemma safe_calmer (h : Mutual Safe s) (hc : Calmer (f (s x)) (s x)) : Mutual Safe (s.modify x f) :=
  .modify ((h x).calmer_left hc) ((h.back x).calmer_right hc)

lemma safe_setNotifier (h : Mutual Safe s) {n : Notifier} (he : (s x).notifier ≠ .replied)
    (hn : ∀ p, n ≠ .awaiting p) : Mutual Safe (s.modify x (·.setNotifier n)) :=
  safe_calmer h (.setNotifier he hn)

lemma Consistent.outstanding_ne_nil (h : Consistent s) (hn : (s x).notifier.unanswered = true) :
    (s x).outstanding ≠ [] := by
  have hne : (s x).notifier ≠ .replied := fun heq => by simp [heq,Notifier.unanswered] at hn
  rw [outstanding_of_ne hne]
  refine (h.ok x).active (fun heq => ?_) fun heq => ?_ <;> simp [heq,Notifier.unanswered] at hn

lemma safe_bTransport (hc : Consistent s) (h : Mutual Safe s) (ha : s.Enabled (.bTransport x port))
    (hu : ¬ s.Crossing x) : Mutual Safe (s.step (.bTransport x port)) := by
  have ho := h.back x
  rw [Crossing,not_and,not_or,not_not] at hu
  rw [step]
  refine .modify ⟨fun _ hk => ?_,fun p _ hw => ?_⟩ ⟨fun hk _ => ?_,fun p hk hw => ?_⟩
  · rw [outstanding_request]
    by_cases hou : (s x).outstanding = []
    · exact .inl hou
    · exact .inr (hu hou).1
  · have hu := hu (hc.outstanding_ne_nil (by rw [request_notifier] at hw; rw [hw]; rfl))
    exact ⟨by simp [hu.1],fun hk => hu.2 ⟨p,hw,hk⟩⟩
  · rw [outstanding_request]
    by_cases hou : (s x).outstanding = []
    · exact .inr hou
    · exact .inl (hu hou).1
  · -- The port of the nested call is taken already.
    have hb := (hc.cross x.other).busy p hw
    rw [Side.other_other] at hb
    refine ⟨(ho.nested p hk hw).1,fun heq => hb ?_⟩
    rw [request_kernel,Kernel.locking.injEq] at heq
    exact heq ▸ ha.2

lemma safe_nested (hc : Consistent s)
    (ha : s.Enabled (.nested x port)) (hu : s.Uncrossed (.nested x port)) : Mutual Safe (s.step (.nested x port)) := by
  obtain ⟨hcr,hf⟩ := hu
  have hx := hc.outstanding_ne_nil (by rw [ha.1]; rfl)
  have hy : (s x.other).outstanding = [] := by
    by_contra hne
    exact hcr ⟨hne,.inl (by rwa [Side.other_other])⟩
  rw [step]
  refine .modify ⟨fun hk => ?_,fun p hk => ?_⟩ ⟨fun _ hk => ?_,fun p _ hw => ?_⟩
  · exact absurd (by simpa using hf) hk
  · exact absurd (by simpa using hf) hk
  · exact absurd (by simpa using hf) hk
  · rw [modify_same,request_notifier] at hw
    exact absurd hy (hc.outstanding_ne_nil (by rw [hw]; rfl))

lemma safe_enqueueNotifier (h : Mutual Safe s) (ha : s.Enabled (.enqueueNotifier x)) :
    Mutual Safe (s.step (.enqueueNotifier x)) := by
  have ho := h.back x
  obtain ⟨hk,hn⟩ := ha
  have hne : (s x).notifier ≠ .replied := by simp [hn]
  cases hke : (s x).kernel with
  | free => exact absurd hke hk
  | locking port =>
    refine .modify ?_ ?_
    · rw [enqueueNotifier_of_locking hke]
      exact ⟨fun hk => absurd rfl hk,fun _ hk => absurd rfl hk⟩
    · rw [enqueueNotifier_of_locking hke]
      refine ⟨fun _ hk => absurd rfl hk,fun p hk hw => ⟨?_,nofun⟩⟩
      obtain ⟨hou,hl⟩ := ho.nested p hk hw
      rw [outstanding_of_ne hne] at hou
      rw [outstanding_of_ne (by simp [hn])]
      rw [hke,ne_eq,Kernel.locking.injEq] at hl
      simp [hou,Ne.symm hl]

lemma safe_step {a : WaiterAction} (hc : Consistent s) (h : Mutual Safe s) (ha : s.Enabled a)
    (hu : s.Uncrossed a) : Mutual Safe (s.step a) := by
  cases a with
  | bTransport x port => exact safe_bTransport hc h ha hu
  | nested x port => exact safe_nested hc ha hu
  | enqueueNotifier x => exact safe_enqueueNotifier h ha
  | lock x => exact safe_setNotifier h (fun heq => by simp [Enabled,heq] at ha) (by simp)
  | takeFront x => exact safe_setNotifier h (fun heq => by simp [Enabled,heq] at ha) (by split <;> simp)
  | serve x | complete x => exact safe_setNotifier h (by simp [ha.1]) (by simp)
  | reply x => exact safe_calmer h (.reply ha)
  | resume x port =>
    have hs : Mutual Safe (s.continueServing x.other port) := by
      rw [continueServing]
      split
      · rename_i hw
        exact safe_setNotifier h (by simp [hw]) nofun
      · exact h
    rw [step]
    exact safe_calmer hs .resume

/-- A deadlock has a SystemC thread at the mutex and calls of both sides under way. -/
lemma deadlock_cases (h : Deadlock s) : ∃ x, (s x).kernel ≠ .free ∧ (s x).notifier.unanswered = true ∧
    (s x.other).notifier.unanswered = true ∧
    ((s x.other).kernel ≠ .free ∨ ∃ port, (s x).notifier = .awaiting port ∧ port ∈ (s x.other).notifiers) := by
  obtain ⟨x,hc⟩ := h
  refine ⟨x,?_⟩
  have hn {y : Side} (hp : Relation.ReflTransGen (WaitsFor s) (.notifier y) (.kernel x)) :
      (s y).notifier.unanswered = true := by
    rcases hp.cases_head with heq | ⟨_,hwa,_⟩
    · cases heq
    · cases hwa with
      | handler _ hun => exact hun
      | nested _ port hw => rw [hw]; rfl
  obtain ⟨_,hwa,hp⟩ := Relation.TransGen.head'_iff.mp hc
  cases hwa with
  | mutex _ hk _ =>
    refine ⟨hk,hn hp,?_⟩
    rcases hp.cases_head with heq | ⟨_,hwa,hp⟩
    · cases heq
    · cases hwa with
      | handler _ _ _ =>
        rcases hp.cases_head with heq | ⟨_,hwa,hp⟩
        · exact absurd (Thread.kernel.inj heq) x.other_ne
        · cases hwa with
          | mutex _ hk' _ => exact ⟨hn hp,.inl hk'⟩
      | nested _ port hw hm => exact ⟨hn hp,.inr ⟨port,hw,hm⟩⟩

lemma not_deadlock (hc : Consistent s) (h : Mutual Safe s) : ¬ Deadlock s := by
  intro hd
  obtain ⟨x,hk,hun,hun',hk' | ⟨port,hw,hm⟩⟩ := deadlock_cases hd
  · rcases (h x).one hk hk' with ho | ho
    · exact hc.outstanding_ne_nil hun ho
    · exact hc.outstanding_ne_nil hun' ho
  · refine ((h x).nested port hk hw).1 ?_
    rwa [outstanding_of_ne]
    intro heq
    simp [heq,Notifier.unanswered] at hun'

structure Driven (x : Side) (s t : System) : Prop where
  run : GuardedRun step Enabled s t
  kernel : (t x).kernel = (s x).kernel
  other : t x.other = s x.other

lemma Driven.refl : Driven x s s := ⟨.refl,rfl,rfl⟩

lemma Driven.lock {t : System} (h : Driven x s t) (hn : (t x).notifier = .waiting) : Driven x s (t.step (.lock x)) :=
  ⟨h.run.tail hn,by simpa [step] using h.kernel,by simpa [step] using h.other⟩

lemma Driven.takeFront {t : System} (h : Driven x s t) (hn : (t x).notifier = .holding) :
    Driven x s (t.step (.takeFront x)) :=
  ⟨h.run.tail hn,by simpa [step,Endpoint.takeFront] using h.kernel,by simpa [step] using h.other⟩

lemma Driven.reply {t : System} {rest : List ℕ} (h : Driven x s t) (hn : (t x).notifier = .replied)
    (hq : (t x).notifiers = port :: rest) : Driven x s (t.step (.reply x)) :=
  ⟨h.run.tail hn,by simpa [step,reply_of_cons hq] using h.kernel,by simpa [step] using h.other⟩

lemma Driven.call {t : System} (h : Driven x s t) (hn : (t x).notifier = .holding) (hq : (t x).notifiers ≠ []) :
    ∃ u, Driven x s u ∧ (u x).notifier.unanswered = true ∧ (u x).notifiers = (t x).notifiers := by
  refine ⟨_,h.takeFront hn,?_,?_⟩
  · simp [step,Endpoint.takeFront,hq,Notifier.unanswered]
  · simp [step,Endpoint.takeFront]

section
variable (h : Consistent s)
include h

lemma Consistent.drive_call (ho : (s x).outstanding ≠ []) :
    ∃ t, Driven x s t ∧ (t x).notifier.unanswered = true := by
  have ha := (h.ok x).active
  rw [Endpoint.outstanding] at ho
  cases hn : (s x).notifier with
  | waiting =>
    obtain ⟨t,ht,hun,_⟩ := (Driven.refl.lock hn).call (by simp [System.step]) (by simpa [System.step,hn] using ho)
    exact ⟨t,ht,hun⟩
  | holding =>
    obtain ⟨t,ht,hun,_⟩ := Driven.refl.call hn (by simpa [hn] using ho)
    exact ⟨t,ht,hun⟩
  | replied =>
    obtain ⟨port,rest,hq⟩ := exists_cons_of_ne_nil (ha (by simp [hn]) (by simp [hn]))
    obtain ⟨t,ht,hun,_⟩ := (Driven.refl.reply hn hq).call (by simp [System.step,reply_of_cons hq])
      (by simpa [System.step,reply_of_cons hq,hn,hq] using ho)
    exact ⟨t,ht,hun⟩
  | _ => exact ⟨s,.refl,by rw [hn]; rfl⟩

lemma Consistent.drive_waiting (ho : (s x).outstanding = []) :
    ∃ t, Driven x s t ∧ (t x).notifier = .waiting := by
  have ha := (h.ok x).active
  rw [Endpoint.outstanding] at ho
  cases hn : (s x).notifier with
  | waiting => exact ⟨s,.refl,hn⟩
  | holding =>
    refine ⟨_,Driven.refl.takeFront hn,?_⟩
    simpa [System.step,Endpoint.takeFront,hn] using ho
  | replied =>
    obtain ⟨port,rest,hq⟩ := exists_cons_of_ne_nil (ha (by simp [hn]) (by simp [hn]))
    refine ⟨_,(Driven.refl.reply hn hq).takeFront (by simp [System.step,reply_of_cons hq]),?_⟩
    simpa [System.step,Endpoint.takeFront,reply_of_cons hq,hn,hq] using ho
  | _ => simp [hn] at ho ha; exact absurd ho ha

lemma Consistent.deadlock_of_blocked (hk : ∀ x, (s x).kernel ≠ .free)
    (hn : ∀ x, (s x).notifier.unanswered = true) : Deadlock s := by
  have hho (x : Side) : (s x).notifier.holds = true := by
    have := hn x
    cases hnx : (s x).notifier <;> simp_all [Notifier.holds,Notifier.unanswered]
  have hm (x : Side) : WaitsFor s (.kernel x) (.notifier x) := .mutex x (hk x) (hho x)
  have hh (x : Side) (hno : ¬ ∃ p, (s x).notifier = .awaiting p ∧ p ∈ (s x.other).notifiers) :
      WaitsFor s (.notifier x) (.kernel x.other) := .handler x (hn x) fun p hw hme => hno ⟨p,hw,hme⟩
  have hne (x : Side) (hw : ∃ p, (s x).notifier = .awaiting p ∧ p ∈ (s x.other).notifiers) : Deadlock s := by
    obtain ⟨p,hp,hme⟩ := hw
    -- The other notifier waits for no call in this queue, and so for this SystemC thread.
    have hb : WaitsFor s (.notifier x.other) (.kernel x) :=
      .back (hn x.other) fun q hq => (h.cross x).apart p q hp hme hq
    exact ⟨x,.tail (.tail (.single (hm x)) (.nested x p hp hme)) hb⟩
  by_cases hhe : ∃ p, (s .here).notifier = .awaiting p ∧ p ∈ (s (Side.other .here)).notifiers
  · exact hne .here hhe
  · by_cases ht : ∃ p, (s .there).notifier = .awaiting p ∧ p ∈ (s (Side.other .there)).notifiers
    · exact hne .there ht
    · exact ⟨.here,.tail (.tail (.tail (.single (hm .here)) (hh .here hhe)) (hm .there))
        (hh .there ht)⟩

/-- A process at the mutex of a side, and calls without an answer on both. -/
lemma Consistent.reaches_of_outstanding (hk : (s x).kernel ≠ .free)
    (hx : (s x).outstanding ≠ []) (hy : (s x.other).outstanding ≠ []) :
    ∃ t, GuardedRun System.step Enabled s t ∧ Deadlock t := by
  have hst : ∀ t a, Consistent t → t.Enabled a → Consistent (t.step a) := fun _ _ ht ha => ht.step ha
  obtain ⟨t,ht,htn⟩ := h.drive_call hx
  obtain ⟨u,hu,hun⟩ := (ht.run.invariant hst h).drive_call (ht.other ▸ hy)
  have hr := ht.run.trans hu.run
  have hux : u x = t x := by simpa using hu.other
  have huk : (u x).kernel ≠ .free := by rw [hux,ht.kernel]; exact hk
  have hunx : (u x).notifier.unanswered = true := by rw [hux]; exact htn
  have hs {P : Side → Prop} (h1 : P x) (h2 : P x.other) (y : Side) : P y := by
    by_cases hyx : y = x
    · exact hyx ▸ h1
    · exact Side.eq_other_of_ne hyx ▸ h2
  have hc := hr.invariant hst h
  by_cases hf : (u x.other).kernel = .free
  · obtain ⟨n,hi⟩ := (hc.ok x.other).spare
    have ha : u.Enabled (.bTransport x.other n) := ⟨hf,hi n le_rfl⟩
    refine ⟨_,hr.tail ha,(hc.step ha).deadlock_of_blocked (hs ?_ ?_) (hs ?_ ?_)⟩
    · simpa [System.step] using huk
    · simp [System.step]
    · simpa [System.step] using hunx
    · simpa [System.step] using hun
  · exact ⟨u,hr,hc.deadlock_of_blocked (hs huk hf) (hs hunx hun)⟩

/-- A process at the mutex of a side whose call is served by a target at the mutex of the other one. -/
lemma Consistent.reaches_of_atMutex (hk : (s x).kernel ≠ .free) (hm : s.AtMutex x) :
    ∃ t, GuardedRun System.step Enabled s t ∧ Deadlock t := by
  obtain ⟨port,hw,hl⟩ := hm
  have hun : (s x).notifier.unanswered = true := by rw [hw]; rfl
  by_cases hy : (s x.other).outstanding = []
  · obtain ⟨t,ht,htn⟩ := h.drive_waiting hy
    have htx : t x = s x := by simpa using ht.other
    have htk := ht.kernel.trans hl
    -- The target leaves its call in the queue, and the notifier of its side makes it.
    have he : t.Enabled (.enqueueNotifier x.other) := ⟨by simp [htk],htn⟩
    have hlo : (t.step (.enqueueNotifier x.other)).Enabled (.lock x.other) := by
      simp [System.step,Enabled,enqueueNotifier_of_locking htk,htn]
    have hta : ((t.step (.enqueueNotifier x.other)).step (.lock x.other)).Enabled (.takeFront x.other) := by
      simp [System.step,Enabled]
    refine ⟨_,((ht.run.tail he).tail hlo).tail hta,x,
      .tail (.tail (.single (.mutex x ?_ ?_)) (.nested x port ?_ ?_)) (.back ?_ ?_)⟩
    · simpa [System.step,htx] using hk
    · simp [System.step,htx,hw,Notifier.holds]
    · simp [System.step,htx,hw]
    · simp [System.step,Endpoint.takeFront,enqueueNotifier_of_locking htk]
    · simp [System.step,Endpoint.takeFront,enqueueNotifier_of_locking htk,Notifier.unanswered]
    · simp [System.step,Endpoint.takeFront,enqueueNotifier_of_locking htk]
  · exact h.reaches_of_outstanding hk (h.outstanding_ne_nil hun) hy

end

def crossingRun : List WaiterAction := [.bTransport .here 0,.enqueueNotifier .here,.lock .here,.takeFront .here,
    .bTransport .there 0,.enqueueNotifier .there,.lock .there,.takeFront .there,
    .bTransport .here 1,.bTransport .there 1]

end System
end Qbox.PassRpc
