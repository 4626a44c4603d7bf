import Qbox.RegRouterMasks

/-! Accesses of several processes through the register router, step by step. A callback can be interrupted, can issue
accesses of its own, and sets the status as it likes; command and address stay, as TLM asks of a target. -/
namespace Qbox.RegRouter
open List Option Function
open Bool hiding not_or

variable {E : Type}

/-- The half of `b_transport` an access is in; `ended` when it only has to return. -/
inductive Stage where
  | pre | post | ended
  deriving DecidableEq, Repr

/-- A call of a user callback: the port, the half the callback is registered for, and its place there. -/
structure Run where
  port : ℕ
  stage : Stage
  callback : ℕ
  deriving DecidableEq, Repr

def Register.runs (r : Register E) (i : ℕ) (cmd : TlmCommand) (stage : Stage) : List Run := match stage with
  | .pre => (List.range (r.preHooks cmd).length).map (⟨i,.pre,·⟩)
  | .post => (List.range (r.postHooks cmd).length).map (⟨i,.post,·⟩)
  | .ended => []

/-- The callbacks a port chooses by the status of the transaction. -/
def stageOf : TlmResponse → Stage
  | .incomplete => .pre
  | .ok => .post
  | _ => .ended

/-- An access: the ports `within` whose callbacks it was issued, those `todo` in this half, the callbacks it `ran`. -/
structure Access (E : Type) where
  cmd : TlmCommand
  addr : U64
  within : List ℕ
  stage : Stage
  status : TlmResponse
  todo : List (Register E × ℕ)
  ran : List Run

def Access.failed (a : Access E) : Bool := a.status != .ok && a.status != .incomplete

def Access.settle (a : Access E) : Access E := if a.failed then { a with todo := [] } else a

/-- A port that has set its flag: the callbacks left, and whether one is running. -/
structure Visit where
  port : ℕ
  left : List Run
  running : Bool

/-- An access on the call stack of a process, and the port it is in. -/
structure Frame (E : Type) where
  access : Access E
  inside : Option Visit

def held (stack : List (Frame E)) : List ℕ := stack.filterMap fun x => x.inside.map Visit.port

/-- The flags `m_in_callback`, every process's call stack, innermost first, and the accesses returned. -/
structure System (E : Type) where
  flags : ℕ → Bool
  procs : ℕ → List (Frame E)
  completed : List (Access E)

/-- One step of a process: an access is issued, from outside or in a callback; the router calls a port; a callback
starts or returns; the port returns, or reports a mask error; the memory answers; the router returns. -/
inductive Move where
  | issue (cmd : TlmCommand) (addr : U64)
  | call
  | start
  | finish (status : TlmResponse)
  | leave (burst : Bool)
  | memory (response : TlmResponse)
  | done
  deriving DecidableEq, Repr

section
variable (f : RegFile E)

def mayIssue : List (Frame E) → Bool
  | [] => true
  | x :: _ => x.inside.any (·.running)

def newAccess (cmd : TlmCommand) (addr : U64) (stack : List (Frame E)) : Access E :=
  ⟨cmd,addr,held stack,.pre,.incomplete,claimants f addr,[]⟩

def unknown (cmd : TlmCommand) (addr : U64) (stack : List (Frame E)) : Access E :=
  ⟨cmd,addr,held stack,.ended,.addressError,[],[]⟩

/-- What a step makes of the flags and of the innermost access. -/
def frameStep (flags : ℕ → Bool) (x : Frame E) : Move → Option ((ℕ → Bool) × Frame E)
  | .call =>
    match x.inside, x.access.todo with
    | none, (r,i) :: rest =>
      let a := { x.access with todo := rest }
      if !r.hooked || flags i then some (flags,⟨a.settle,none⟩)
      else some (Function.update flags i true,⟨a,some ⟨i,r.runs i a.cmd (stageOf a.status),false⟩⟩)
    | _, _ => none
  | .start =>
    match x.inside with
    | some ⟨i,c :: left,false⟩ => some (flags,⟨{ x.access with ran := x.access.ran++[c] },some ⟨i,left,true⟩⟩)
    | _ => none
  | .finish status =>
    match x.inside with
    | some ⟨i,left,true⟩ => some (flags,⟨{ x.access with status := status },some ⟨i,left,false⟩⟩)
    | _ => none
  | .leave burst =>
    match x.inside with
    | some ⟨i,[],false⟩ =>
      let a := if burst then { x.access with status := .burstError } else x.access
      some (Function.update flags i false,⟨a.settle,none⟩)
    | _ => none
  | .memory response =>
    match x.inside, x.access.todo, x.access.stage with
    | none, [], .pre =>
      if x.access.failed then some (flags,⟨{ x.access with stage := .ended },none⟩)
      else if response = .ok then
        some (flags,⟨{ x.access with status := .ok, stage := .post, todo := claimants f x.access.addr },none⟩)
      else some (flags,⟨{ x.access with status := response, stage := .ended },none⟩)
    | _, _, _ => none
  | _ => none

def Frame.ready (x : Frame E) : Bool :=
  x.inside.isNone && (x.access.stage == .ended || x.access.stage == .post && x.access.todo.isEmpty)

def step (s : System E) (p : ℕ) (move : Move) : Option (System E) := match move with
  | .issue cmd addr =>
    if mayIssue (s.procs p) then
      match decodeAddress f addr with
      | none => none
      | some none => some { s with completed := s.completed++[unknown cmd addr (s.procs p)] }
      | some (some _) =>
        some { s with procs := Function.update s.procs p (⟨newAccess f cmd addr (s.procs p),none⟩ :: s.procs p) }
    else none
  | .done =>
    match s.procs p with
    | x :: rest =>
      if x.ready then
        some { s with procs := Function.update s.procs p rest, completed := s.completed++[x.access] }
      else none
    | [] => none
  | move =>
    match s.procs p with
    | x :: rest =>
      (frameStep f s.flags x move).map fun y =>
        { s with flags := y.1, procs := Function.update s.procs p (y.2 :: rest) }
    | [] => none

def run : System E → List (ℕ × Move) → Option (System E)
  | s, [] => some s
  | s, (p,move) :: moves => (step f s p move).bind fun s' => run s' moves

end

def quiet : System E := ⟨fun _ => false,fun _ => [],[]⟩

section
lemma mem_runs {r : Register E} {i : ℕ} {cmd : TlmCommand} {stage : Stage} {x : Run}
    (h : x ∈ r.runs i cmd stage) : x.port = i ∧ x.stage = stage := by
  cases stage with
  | pre | post =>
    simp only [Register.runs,List.mem_map] at h
    obtain ⟨k,-,rfl⟩ := h
    exact ⟨rfl,rfl⟩
  | ended => simp [Register.runs] at h

lemma runs_nodup (r : Register E) (i : ℕ) (cmd : TlmCommand) (stage : Stage) : (r.runs i cmd stage).Nodup := by
  cases stage with
  | pre | post => exact nodup_range.map fun a b h => (Run.mk.inj h).2.2
  | ended => exact nodup_nil

lemma runs_unhooked {r : Register E} (h : r.hooked = false) (i : ℕ) (cmd : TlmCommand) (stage : Stage) :
    r.runs i cmd stage = [] := by
  simp only [Register.hooked,not_eq_eq_eq_not,Bool.not_false,and_eq_true,List.isEmpty_iff] at h
  obtain ⟨⟨⟨hpd,hpre⟩,hpr⟩,hpw⟩ := h
  cases stage <;> cases cmd <;>
    simp [Register.runs,Register.preHooks,Register.postHooks,hpd,hpre,hpr,hpw]

end

namespace Access
variable (f : RegFile E) (a : Access E)

/-- The callbacks the access has to run at a port: none when it comes from the port itself. -/
def due (stage : Stage) (c : Register E × ℕ) : List Run := if c.2 ∈ a.within then [] else c.1.runs c.2 a.cmd stage

def half (stage : Stage) : List Run := (claimants f a.addr).flatMap (a.due stage)

def expected : List Run := a.half f .pre++a.half f .post

variable {f a}

variable {stage : Stage} {c : Register E × ℕ} {x : Run}

lemma mem_due (h : x ∈ a.due stage c) : x.port = c.2 ∧ x.stage = stage := by
  unfold due at h
  split_ifs at h with hw
  · exact absurd h not_mem_nil
  · exact mem_runs h

lemma due_nodup (stage : Stage) (c : Register E × ℕ) : (a.due stage c).Nodup := by
  unfold due
  split_ifs
  · exact nodup_nil
  · exact runs_nodup ..

lemma half_nodup (stage : Stage) : (a.half f stage).Nodup := by
  refine nodup_flatMap.mpr ⟨fun c _ => due_nodup stage c,?_⟩
  refine (pairwise_map.mp (claimants_nodup f a.addr)).imp ?_
  intro c d hne x hc hd
  exact hne ((mem_due hc).1.symm.trans (mem_due hd).1)

lemma mem_half (h : x ∈ a.half f stage) : x.stage = stage := by
  obtain ⟨c,-,hx⟩ := mem_flatMap.mp h
  exact (mem_due hx).2

lemma expected_nodup : (a.expected f).Nodup := by
  refine nodup_append.mpr ⟨half_nodup .pre,half_nodup .post,?_⟩
  rintro x hpr y hpo rfl
  have hs := (mem_half hpr).symm.trans (mem_half hpo)
  exact absurd hs (by decide)

lemma mem_expected (hc : c ∈ claimants f a.addr)
    (hw : c.2 ∉ a.within) (hx : x ∈ c.1.runs c.2 a.cmd stage) : x ∈ a.expected f := by
  have hh : x ∈ a.half f stage := mem_flatMap.mpr ⟨c,hc,by rwa [due,if_neg hw]⟩
  cases stage with
  | pre => exact mem_append_left _ hh
  | post => exact mem_append_right _ hh
  | ended => simp [Register.runs] at hx

@[simp] lemma settle_within : a.settle.within = a.within := by
  unfold settle
  split_ifs <;> rfl

end Access

section
/-- The flags of the ports every process is in are set, and no port is entered twice. -/
structure Exclusive (flags : ℕ → Bool) (ports : ℕ → List ℕ) : Prop where
  set : ∀ p, ∀ i ∈ ports p, flags i = true
  nodup : ∀ p, (ports p).Nodup
  apart : ∀ p q, p ≠ q → ∀ i ∈ ports p, i ∉ ports q

variable {flags : ℕ → Bool} {ports : ℕ → List ℕ} {p i : ℕ} {l : List ℕ}

lemma mem_update_cons {q j : ℕ} : j ∈ Function.update ports p (i :: ports p) q ↔ q = p ∧ j = i ∨ j ∈ ports q := by
  by_cases hq : q = p
  · subst hq
    simp
  · simp [hq]

lemma Exclusive.enter (h : Exclusive flags ports) (hi : flags i = false) :
    Exclusive (Function.update flags i true) (Function.update ports p (i :: ports p)) := by
  have hf : ∀ q, i ∉ ports q := by
    intro q hq
    simp [h.set q i hq] at hi
  refine ⟨?_,?_,?_⟩
  · intro q j hj
    rcases mem_update_cons.mp hj with ⟨-,rfl⟩ | hj
    · simp
    · have hji : j ≠ i := fun e => hf q (e ▸ hj)
      rw [update_of_ne hji]
      exact h.set q j hj
  · intro q
    by_cases hq : q = p
    · subst hq
      simpa using ⟨hf q,h.nodup q⟩
    · rw [update_of_ne hq]
      exact h.nodup q
  · intro q q' hne j hj hj'
    rcases mem_update_cons.mp hj with ⟨hq,hji⟩ | hj <;> rcases mem_update_cons.mp hj' with ⟨hq',hji'⟩ | hj'
    · exact hne (hq.trans hq'.symm)
    · exact hf q' (hji ▸ hj')
    · exact hf q (hji' ▸ hj)
    · exact h.apart q q' hne j hj hj'

lemma Exclusive.leave (h : Exclusive flags ports) (hp : ports p = i :: l) :
    Exclusive (Function.update flags i false) (Function.update ports p l) := by
  have hs : ∀ q, Sublist (Function.update ports p l q) (ports q) := by
    intro q
    by_cases hq : q = p
    · subst hq
      simp [hp]
    · rw [update_of_ne hq]
  have hg : ∀ q, i ∉ Function.update ports p l q := by
    intro q
    by_cases hq : q = p
    · subst hq
      have hn := h.nodup q
      rw [hp] at hn
      simpa using (nodup_cons.mp hn).1
    · rw [update_of_ne hq]
      exact h.apart p q (Ne.symm hq) i (by simp [hp])
  refine ⟨?_,fun q => (h.nodup q).sublist (hs q),?_⟩
  · intro q j hj
    have hji : j ≠ i := fun e => hg q (e ▸ hj)
    rw [update_of_ne hji]
    exact h.set q j ((hs q).subset hj)
  · intro q q' hne j hj hj'
    exact h.apart q q' hne j ((hs q).subset hj) ((hs q').subset hj')

end

section
lemma held_none {x : Frame E} (h : x.inside = none) (stack : List (Frame E)) : held (x :: stack) = held stack := by
  simp [held,h]

lemma held_some {x : Frame E} {v : Visit} (h : x.inside = some v) (stack : List (Frame E)) :
    held (x :: stack) = v.port :: held stack := by
  simp [held,h]

lemma held_update (procs : ℕ → List (Frame E)) (p : ℕ) (stack : List (Frame E)) :
    (fun q => held (Function.update procs p stack q)) = Function.update (fun q => held (procs q)) p (held stack) := by
  funext q
  by_cases hq : q = p
  · subst hq
    simp
  · simp [hq]

end

inductive FrameStep (f : RegFile E) (flags : ℕ → Bool) (x : Frame E) : Move → (ℕ → Bool) → Frame E → Prop where
  | skip {r : Register E} {i : ℕ} {rest : List (Register E × ℕ)} (hinside : x.inside = none)
      (htodo : x.access.todo = (r,i) :: rest) (hskip : r.hooked = false ∨ flags i = true) :
      FrameStep f flags x .call flags ⟨{ x.access with todo := rest }.settle,none⟩
  | enter {r : Register E} {i : ℕ} {rest : List (Register E × ℕ)} (hinside : x.inside = none)
      (htodo : x.access.todo = (r,i) :: rest) (hhooked : r.hooked = true) (hclear : flags i = false) :
      FrameStep f flags x .call (Function.update flags i true)
        ⟨{ x.access with todo := rest },some ⟨i,r.runs i x.access.cmd (stageOf x.access.status),false⟩⟩
  | start {i : ℕ} {c : Run} {left : List Run} (hinside : x.inside = some ⟨i,c :: left,false⟩) :
      FrameStep f flags x .start flags ⟨{ x.access with ran := x.access.ran++[c] },some ⟨i,left,true⟩⟩
  | finish {i : ℕ} {left : List Run} {status : TlmResponse} (hinside : x.inside = some ⟨i,left,true⟩) :
      FrameStep f flags x (.finish status) flags ⟨{ x.access with status := status },some ⟨i,left,false⟩⟩
  | leave {i : ℕ} {burst : Bool} {status : TlmResponse} (hinside : x.inside = some ⟨i,[],false⟩)
      (hstatus : status = if burst then .burstError else x.access.status) :
      FrameStep f flags x (.leave burst) (Function.update flags i false)
        ⟨{ x.access with status := status }.settle,none⟩
  | giveUp {response : TlmResponse} (hinside : x.inside = none) (htodo : x.access.todo = [])
      (hfailed : x.access.failed = true) :
      FrameStep f flags x (.memory response) flags ⟨{ x.access with stage := .ended },none⟩
  | answer (hinside : x.inside = none) (htodo : x.access.todo = []) (hstage : x.access.stage = .pre)
      (hfailed : x.access.failed = false) :
      FrameStep f flags x (.memory .ok) flags
        ⟨{ x.access with status := .ok, stage := .post, todo := claimants f x.access.addr },none⟩
  | refuse {response : TlmResponse} (hinside : x.inside = none) (htodo : x.access.todo = [])
      (hstage : x.access.stage = .pre) (hresponse : response ≠ .ok) :
      FrameStep f flags x (.memory response) flags ⟨{ x.access with status := response, stage := .ended },none⟩

lemma frameStep_cases {f : RegFile E} {flags flags' : ℕ → Bool} {x x' : Frame E} {move : Move}
    (h : frameStep f flags x move = some (flags',x')) : FrameStep f flags x move flags' x' := by
  obtain ⟨a,inside⟩ := x
  cases move with
  | issue | done => simp [frameStep] at h
  | call =>
    cases inside with
    | some v => simp [frameStep] at h
    | none =>
      cases ht : a.todo with
      | nil => simp [frameStep,ht] at h
      | cons c rest =>
        simp only [frameStep,ht] at h
        split_ifs at h with hs
        · cases h
          exact .skip rfl ht (by simpa using hs)
        · cases h
          simp only [or_eq_true,not_eq_eq_eq_not,Bool.not_true,not_or,not_eq_false,not_eq_true] at hs
          exact .enter rfl ht hs.1 hs.2
  | start =>
    rcases inside with _ | ⟨i,_ | ⟨c,left⟩,_ | _⟩ <;> simp only [frameStep,reduceCtorEq] at h
    cases h
    exact .start rfl
  | finish status =>
    rcases inside with _ | ⟨i,left,_ | _⟩ <;> simp only [frameStep,reduceCtorEq] at h
    cases h
    exact .finish rfl
  | leave burst =>
    rcases inside with _ | ⟨i,_ | ⟨c,left⟩,_ | _⟩ <;> simp only [frameStep,reduceCtorEq] at h
    cases h
    cases burst
    · exact .leave rfl rfl
    · exact .leave rfl rfl
  | memory response =>
    obtain ⟨cmd,addr,within,stage,status,todo,ran⟩ := a
    rcases inside with _ | v <;> rcases todo with _ | ⟨c,rest⟩ <;> cases stage <;>
      simp only [frameStep,reduceCtorEq] at h
    split_ifs at h with hf hr
    · cases h
      exact .giveUp rfl rfl hf
    · cases h
      subst hr
      exact .answer rfl rfl rfl (by simpa using hf)
    · cases h
      exact .refuse rfl rfl rfl hr

section
variable (f : RegFile E)

/-- What an access has still to run in the half it is in. -/
def Frame.remaining (x : Frame E) : List Run :=
  (x.inside.elim [] Visit.left)++x.access.todo.flatMap (x.access.due x.access.stage)

/-- What an access has to run up to the end of the half it is in. -/
def Access.soFar (a : Access E) : Option (List Run) := match a.stage with
  | .pre => some (a.half f .pre)
  | .post => some (a.expected f)
  | .ended => none

/-- The access has run what it had to, and the rest of the half is still before it. -/
def Frame.OnTrack (x : Frame E) : Prop := x.access.soFar f = some (x.access.ran++x.remaining)

/-- The access goes back with an error, and has run what it had to up to some point. -/
structure Frame.Broken (x : Frame E) : Prop where
  inside : x.inside = none
  todo : x.access.todo = []
  status : x.access.status ≠ .ok
  stage : x.access.stage = .ended ∨ x.access.failed = true
  ran : x.access.ran <+: x.access.expected f

def Frame.Tracked (x : Frame E) : Prop := x.OnTrack f ∨ x.Broken f

/-- The next port is not taken by another process, and the status is the one the half begins with. -/
structure Free (flags : ℕ → Bool) (a : Access E) (r : Register E) (i : ℕ) : Prop where
  flag : r.runs i a.cmd a.stage ≠ [] → flags i = true → i ∈ a.within
  status : r.hooked = true → i ∉ a.within → stageOf a.status = a.stage

variable {f} {x x' : Frame E} {a : Access E} {flags flags' : ℕ → Bool} {move : Move}

lemma Frame.OnTrack.ran_prefix (h : x.OnTrack f) : x.access.ran <+: x.access.expected f := by
  unfold OnTrack Access.soFar at h
  cases hs : x.access.stage <;> simp only [hs,reduceCtorEq,Option.some.injEq] at h
  · exact (h ▸ prefix_append ..).trans (prefix_append ..)
  · exact h ▸ prefix_append ..

lemma Access.ne_ok_of_failed (h : a.failed = true) : a.status ≠ .ok := by
  intro hok
  simp [failed,hok] at h

lemma Frame.OnTrack.update (h : x.OnTrack f) {status : TlmResponse} {todo : List (Register E × ℕ)} {ran : List Run}
    {inside : Option Visit}
    (hr : ran++(inside.elim [] Visit.left++todo.flatMap (x.access.due x.access.stage)) = x.access.ran++x.remaining) :
    (⟨{ x.access with status := status, todo := todo, ran := ran },inside⟩ : Frame E).OnTrack f := by
  change x.access.soFar f = some (ran++(inside.elim [] Visit.left++todo.flatMap (x.access.due x.access.stage)))
  rw [hr]
  exact h

lemma tracked_settle (h : (⟨a,none⟩ : Frame E).OnTrack f) : (⟨a.settle,none⟩ : Frame E).Tracked f := by
  unfold Access.settle
  split_ifs with hf
  · exact .inr ⟨rfl,rfl,Access.ne_ok_of_failed hf,.inr hf,h.ran_prefix⟩
  · exact .inl h

lemma Frame.Tracked.of_inside (h : x.Tracked f) {v : Visit} (hi : x.inside = some v) : x.OnTrack f := by
  rcases h with h | h
  · exact h
  · simp [h.inside] at hi

lemma Frame.Tracked.of_todo (h : x.Tracked f) {c : Register E × ℕ} {rest : List (Register E × ℕ)}
    (ht : x.access.todo = c :: rest) : x.OnTrack f := by
  rcases h with h | h
  · exact h
  · simp [h.todo] at ht

lemma Frame.Tracked.ran_prefix (h : x.Tracked f) : x.access.ran <+: x.access.expected f :=
  h.elim OnTrack.ran_prefix Broken.ran

/-- One step keeps an access on track, if the port it calls is free. -/
lemma FrameStep.tracked (h : FrameStep f flags x move flags' x') (hx : x.Tracked f)
    (hw : ∀ i ∈ x.access.within, flags i = true)
    (hfr : move = .call → ∀ r i rest, x.access.todo = (r,i) :: rest → Free flags x.access r i) : x'.Tracked f := by
  cases h with
  | skip hin ht hsk =>
    rename_i r i rest
    have hd : x.access.due x.access.stage (r,i) = [] := by
      unfold Access.due
      split_ifs with hi
      · rfl
      · rcases hsk with hsk | hsk
        · exact runs_unhooked hsk ..
        · by_contra hru
          exact hi ((hfr rfl r i rest ht).flag hru hsk)
    exact tracked_settle ((hx.of_todo ht).update (by simp [Frame.remaining,hin,ht,hd]))
  | enter hin ht hh hc =>
    rename_i r i rest
    have hi : i ∉ x.access.within := fun hi => by simp [hw i hi] at hc
    have hs := (hfr rfl r i rest ht).status hh hi
    exact .inl ((hx.of_todo ht).update (by simp [Frame.remaining,hin,ht,Access.due,hi,hs]))
  | start hin | finish hin => exact .inl ((hx.of_inside hin).update (by simp [Frame.remaining,hin]))
  | leave hin hst => exact tracked_settle ((hx.of_inside hin).update (by simp [Frame.remaining,hin]))
  | giveUp hin ht hf =>
    exact .inr ⟨rfl,ht,Access.ne_ok_of_failed hf,.inl rfl,hx.ran_prefix⟩
  | answer hin ht hs hf =>
    rcases hx with hx | hx
    · refine .inl ?_
      simp only [Frame.OnTrack,Access.soFar,hs,Frame.remaining,hin,ht,Option.some.injEq,elim_none,
        flatMap_nil,List.append_nil] at hx
      change some (x.access.half f .pre++x.access.half f .post) = some (x.access.ran++([]++x.access.half f .post))
      rw [hx,nil_append]
    · exact absurd hx.stage (by simp [hs,hf])
  | refuse hin ht hs hr => exact .inr ⟨rfl,ht,hr,.inl rfl,hx.ran_prefix⟩

lemma Frame.Tracked.done (h : x.Tracked f) (hr : x.ready = true) :
    x.access.ran <+: x.access.expected f ∧ (x.access.status = .ok → x.access.ran = x.access.expected f) := by
  rcases h with h | h
  · refine ⟨h.ran_prefix,fun _ => ?_⟩
    simp only [ready,and_eq_true,or_eq_true,beq_iff_eq,isNone_iff_eq_none,List.isEmpty_iff] at hr
    obtain ⟨hi,hs | ⟨hs,ht⟩⟩ := hr
    · simp [OnTrack,Access.soFar,hs] at h
    · simpa [OnTrack,Access.soFar,hs,remaining,hi,ht] using h.symm
  · exact ⟨h.ran,fun hok => absurd hok h.status⟩

end

section
variable (f : RegFile E)

/-- Every access of a stack was issued from the ports the stack below it is in. -/
def Nested : List (Frame E) → Prop
  | [] => True
  | x :: stack => x.access.within = held stack ∧ Nested stack

/-- The access has run its callbacks in order up to a point, and all if answered well. -/
def Access.Served (a : Access E) : Prop := a.ran <+: a.expected f ∧ (a.status = .ok → a.ran = a.expected f)

/-- What holds of every system that is reached. -/
structure Sound (s : System E) : Prop where
  tracked : ∀ p, ∀ x ∈ s.procs p, x.Tracked f
  nested : ∀ p, Nested (s.procs p)
  exclusive : Exclusive s.flags fun p => held (s.procs p)
  served : ∀ a ∈ s.completed, a.Served f

/-- The condition on a step: where the router calls a port, the port is free. -/
def Undisturbed (s : System E) (p : ℕ) (move : Move) : Prop :=
  move = .call → ∀ x ∈ (s.procs p).head?, ∀ c ∈ x.access.todo.head?, Free s.flags x.access c.1 c.2

def AllUndisturbed : System E → List (ℕ × Move) → Prop
  | _, [] => True
  | s, (p,move) :: moves => Undisturbed s p move ∧ ∀ s' ∈ step f s p move, AllUndisturbed s' moves

instance (flags : ℕ → Bool) (a : Access E) (r : Register E) (i : ℕ) : Decidable (Free flags a r i) :=
  decidable_of_iff ((r.runs i a.cmd a.stage ≠ [] → flags i = true → i ∈ a.within) ∧
    (r.hooked = true → i ∉ a.within → stageOf a.status = a.stage)) ⟨fun h => ⟨h.1,h.2⟩,fun h => ⟨h.1,h.2⟩⟩

instance (s : System E) (p : ℕ) (move : Move) : Decidable (Undisturbed s p move) :=
  inferInstanceAs (Decidable (move = .call → ∀ x ∈ (s.procs p).head?, ∀ c ∈ x.access.todo.head?,
    Free s.flags x.access c.1 c.2))

instance decidableAllUndisturbed : (s : System E) → (moves : List (ℕ × Move)) → Decidable (AllUndisturbed f s moves)
  | _, [] => .isTrue trivial
  | s, (p,move) :: moves =>
    have : ∀ s', Decidable (AllUndisturbed f s' moves) := fun s' => decidableAllUndisturbed s' moves
    inferInstanceAs (Decidable (Undisturbed s p move ∧ ∀ s' ∈ step f s p move, AllUndisturbed f s' moves))

variable {f} {s s' : System E} {p : ℕ} {move : Move}

lemma sound_quiet : Sound f (quiet : System E) where
  tracked := fun _ _ hx => absurd hx not_mem_nil
  nested := fun _ => trivial
  exclusive := ⟨fun _ _ hi => absurd hi not_mem_nil,fun _ => nodup_nil,fun _ _ _ _ hi => absurd hi not_mem_nil⟩
  served := fun _ ha => absurd ha not_mem_nil

variable {flags flags' : ℕ → Bool} {stack : List (Frame E)} {completed : List (Access E)} {x x' : Frame E}

lemma Sound.replace (h : Sound f s) (ht : ∀ x ∈ stack, x.Tracked f) (hn : Nested stack)
    (he : Exclusive flags (Function.update (fun q => held (s.procs q)) p (held stack)))
    (hs : ∀ a ∈ completed, a.Served f) : Sound f ⟨flags,Function.update s.procs p stack,completed⟩ where
  tracked := by
    intro q
    by_cases hq : q = p
    · subst hq
      simpa using ht
    · simpa [hq] using h.tracked q
  nested := by
    intro q
    by_cases hq : q = p
    · subst hq
      simpa using hn
    · simpa [hq] using h.nested q
  exclusive := by
    rw [held_update]
    exact he
  served := hs

lemma FrameStep.exclusive {procs : ℕ → List (Frame E)}
    (h : FrameStep f flags x move flags' x') (hp : procs p = x :: stack)
    (he : Exclusive flags fun q => held (procs q)) :
    Exclusive flags' (Function.update (fun q => held (procs q)) p (held (x' :: stack))) := by
  have hs : held (x :: stack) = held (x' :: stack) →
      Exclusive flags (Function.update (fun q => held (procs q)) p (held (x' :: stack))) := by
    intro hh
    rw [← hh,← hp,update_eq_self p fun q => held (procs q)]
    exact he
  cases h with
  | skip hi | giveUp hi | answer hi | refuse hi =>
    exact hs (by rw [held_none hi,held_none rfl])
  | start hi | finish hi => exact hs (by rw [held_some hi,held_some rfl])
  | enter hi ht hho hc =>
    have hpo := he.enter (p := p) hc
    rw [hp,held_none hi] at hpo
    exact hpo
  | leave hi hst =>
    rename_i i _ _
    have hh : (fun q => held (procs q)) p = i :: held stack := by
      simp only [hp]
      exact held_some hi stack
    exact he.leave hh

lemma FrameStep.within (h : FrameStep f flags x move flags' x') : x'.access.within = x.access.within := by
  cases h <;> simp

lemma step_cases (h : step f s p move = some s') : (∃ cmd addr, move = .issue cmd addr ∧
      (s' = { s with completed := s.completed++[unknown cmd addr (s.procs p)] } ∨
        s' = { s with procs := Function.update s.procs p (⟨newAccess f cmd addr (s.procs p),none⟩ :: s.procs p) })) ∨
    (∃ x stack, move = .done ∧ s.procs p = x :: stack ∧ x.ready = true ∧
      s' = { s with procs := Function.update s.procs p stack, completed := s.completed++[x.access] }) ∨
    ∃ x stack flags x', s.procs p = x :: stack ∧ FrameStep f s.flags x move flags x' ∧
      s' = { s with flags := flags, procs := Function.update s.procs p (x' :: stack) } := by
  cases move with
  | issue cmd addr =>
    simp only [step] at h
    split_ifs at h
    cases hd : decodeAddress f addr with
    | none => simp [hd] at h
    | some best =>
      cases best with
      | none => exact .inl ⟨cmd,addr,rfl,.inl (by simpa [hd] using h.symm)⟩
      | some k => exact .inl ⟨cmd,addr,rfl,.inr (by simpa [hd] using h.symm)⟩
  | done =>
    cases hp : s.procs p with
    | nil => simp [step,hp] at h
    | cons x stack =>
      simp only [step,hp] at h
      split_ifs at h with hr
      exact .inr (.inl ⟨x,stack,rfl,rfl,hr,(Option.some.inj h).symm⟩)
  | call | start | finish status | leave burst | memory response =>
    cases hp : s.procs p with
    | nil => simp [step,hp] at h
    | cons x stack =>
      simp only [step,hp,map_eq_some_iff] at h
      obtain ⟨⟨flags,x'⟩,hf,rfl⟩ := h
      exact .inr (.inr ⟨x,stack,flags,x',rfl,frameStep_cases hf,rfl⟩)

lemma served_snoc {a : Access E} (h : ∀ b ∈ completed, b.Served f) (ha : a.Served f) :
    ∀ b ∈ completed++[a], b.Served f := by
  intro b hb
  rcases mem_append.mp hb with hb | hb
  · exact h b hb
  · exact mem_singleton.mp hb ▸ ha

lemma Sound.issue (h : Sound f s) (cmd : TlmCommand) (addr : U64) :
    Sound f { s with procs := Function.update s.procs p (⟨newAccess f cmd addr (s.procs p),none⟩ :: s.procs p) } := by
  refine h.replace ?_ ⟨rfl,h.nested p⟩ ?_ h.served
  · intro x hx
    rcases mem_cons.mp hx with rfl | hx
    · exact .inl rfl
    · exact h.tracked p x hx
  · rw [held_none rfl,update_eq_self p fun q => held (s.procs q)]
    exact h.exclusive

section
variable {x : Frame E} {stack : List (Frame E)} (h : Sound f s) (hp : s.procs p = x :: stack)
include h hp

lemma Sound.tracked_top : x.Tracked f := h.tracked p x (by simp [hp])

lemma Sound.tracked_rest : ∀ y ∈ stack, y.Tracked f := fun y hy => h.tracked p y (by simp [hp,hy])

lemma Sound.nested_top : x.access.within = held stack ∧ Nested stack := by
  have hn := h.nested p
  rw [hp] at hn
  exact hn

lemma Sound.within_set : ∀ i ∈ x.access.within, s.flags i = true := by
  intro i hi
  rw [(h.nested_top hp).1] at hi
  refine h.exclusive.set p i ?_
  simp only [hp,held,filterMap_cons]
  split
  · exact hi
  · exact mem_cons_of_mem _ hi

lemma Sound.done (hr : x.ready = true) :
    Sound f { s with procs := Function.update s.procs p stack, completed := s.completed++[x.access] } := by
  have hi : x.inside = none := by
    simp only [Frame.ready,and_eq_true,isNone_iff_eq_none] at hr
    exact hr.1
  refine h.replace (h.tracked_rest hp) (h.nested_top hp).2 ?_ (served_snoc h.served ((h.tracked_top hp).done hr))
  rw [← held_none hi,← hp,update_eq_self p fun q => held (s.procs q)]
  exact h.exclusive

lemma Sound.frame {x' : Frame E} (hf : FrameStep f s.flags x move flags x')
    (hfr : Undisturbed s p move) :
    Sound f { s with flags := flags, procs := Function.update s.procs p (x' :: stack) } := by
  have hc : move = .call → ∀ r i rest, x.access.todo = (r,i) :: rest → Free s.flags x.access r i :=
    fun hm r i rest ht => hfr hm x (by simp [hp]) (r,i) (by simp [ht])
  have hn := h.nested_top hp
  refine h.replace ?_ ⟨hf.within.trans hn.1,hn.2⟩ (hf.exclusive hp h.exclusive) h.served
  intro y hy
  rcases mem_cons.mp hy with rfl | hy
  · exact hf.tracked (h.tracked_top hp) (h.within_set hp) hc
  · exact h.tracked_rest hp y hy

end

/-- One step keeps the system sound, if the port that is called is free. -/
lemma Sound.step (h : Sound f s) (hfr : Undisturbed s p move) (hs : RegRouter.step f s p move = some s') :
    Sound f s' := by
  rcases step_cases hs with ⟨cmd,addr,rfl,rfl | rfl⟩ | ⟨x,stack,rfl,hp,hr,rfl⟩ | ⟨x,stack,flags,x',hp,hf,rfl⟩
  · have hu : (unknown cmd addr (s.procs p)).Served f := ⟨ nil_prefix,fun hok => by simp [unknown] at hok⟩
    exact ⟨h.tracked,h.nested,h.exclusive,served_snoc h.served hu⟩
  · exact h.issue cmd addr
  · exact h.done hp hr
  · exact h.frame hp hf hfr

/-- A run keeps the system sound, if every port that is called is free. -/
lemma Sound.run {moves : List (ℕ × Move)} (h : Sound f s) (hf : AllUndisturbed f s moves)
    (hru : RegRouter.run f s moves = some s') : Sound f s' := by
  induction moves generalizing s with
  | nil =>
    cases hru
    exact h
  | cons first moves ih =>
    obtain ⟨s1,hs,hr⟩ := bind_eq_some_iff.mp hru
    exact ih (h.step hf.1 hs) (hf.2 s1 hs) hr

/-- In every run that meets the condition, a returned access has run its callbacks in order, none twice; answered
well, each registered for it once, but for ports it was issued from. -/
theorem callbacks_once {moves : List (ℕ × Move)} (hfree : AllUndisturbed f quiet moves)
    (hrun : RegRouter.run f quiet moves = some s) {a : Access E} (ha : a ∈ s.completed) :
    a.ran.Nodup ∧ a.ran <+: a.expected f ∧
      (a.status = .ok → ∀ c ∈ claimants f a.addr, c.2 ∉ a.within → ∀ stage, ∀ x ∈ c.1.runs c.2 a.cmd stage,
        a.ran.count x = 1) := by
  have hs := (sound_quiet.run hfree hrun).served a ha
  have hn := Access.expected_nodup.sublist hs.1.sublist
  refine ⟨hn,hs.1,?_⟩
  intro hok c hc hw stage x hx
  refine count_eq_one_of_mem hn ?_
  rw [hs.2 hok]
  exact Access.mem_expected hc hw hx

end

section
def watched (address : U64) : Register Unit := { word address 0xFFFFFFFF [lookOn] with preWrite := [lookOn] }

def watchedFile : RegFile Unit := ⟨1,fun _ => page,[watched 0x10,watched 0x20]⟩

/-- What a process does for a write, up to the start of the callback before it. -/
def enters (p : ℕ) (addr : U64) : List (ℕ × Move) := [(p,.issue .write addr),(p,.call),(p,.start)]

def completes (p : ℕ) : List (ℕ × Move) :=
  [(p,.finish .incomplete),(p,.leave false),(p,.memory .ok),(p,.call),(p,.start),(p,.finish .ok),(p,.leave false),
    (p,.done)]

def passes (p : ℕ) (addr : U64) : List (ℕ × Move) :=
  [(p,.issue .write addr),(p,.call),(p,.memory .ok),(p,.call),(p,.done)]

/-- While a callback waits, another process writes the second register; then the callback writes its own, and the
other process after it. -/
def schedule : List (ℕ × Move) :=
  enters 0 0x10++enters 1 0x20++completes 1++passes 0 0x10++completes 0++enters 1 0x10++completes 1

/-- All four writes of the schedule are served. -/
theorem callbacks_once_schedule : AllUndisturbed watchedFile quiet schedule ∧
    ∃ s, run watchedFile quiet schedule = some s ∧
      s.completed.map (fun a => (a.addr,a.within,a.status,a.ran.length)) =
        [(0x20,[],.ok,2),(0x10,[0],.ok,0),(0x10,[],.ok,2),(0x10,[],.ok,2)] ∧
      ∀ a ∈ s.completed, a.ran.Nodup ∧ a.ran <+: a.expected watchedFile ∧
        (a.status = .ok → ∀ c ∈ claimants watchedFile a.addr, c.2 ∉ a.within → ∀ stage, ∀ x ∈ c.1.runs c.2 a.cmd stage,
          a.ran.count x = 1) := by
  have hf : AllUndisturbed watchedFile quiet schedule := by decide +kernel
  have hd : (run watchedFile quiet schedule).map
      (fun s => s.completed.map fun a => (a.addr,a.within,a.status,a.ran.length)) =
        some [(0x20,[],.ok,2),(0x10,[0],.ok,0),(0x10,[],.ok,2),(0x10,[],.ok,2)] := by decide +kernel
  obtain ⟨s,hr,hc⟩ := map_eq_some_iff.mp hd
  exact ⟨hf,s,hr,hc,fun a ha => callbacks_once hf hr ha⟩

/-- What the accesses that have returned had to run, and what they ran. -/
def report (f : RegFile Unit) (moves : List (ℕ × Move)) : Option (List (TlmResponse × List ℕ × List Run × List Run)) :=
  (run f quiet moves).map fun s => s.completed.map fun a => (a.status,a.within,a.expected f,a.ran)

/-- Two processes write one register, the second while a callback of the first waits: it is answered well and has run
neither callback. And a callback that sets the status to OK makes one process skip a callback and run the other twice.
-/
theorem callbacks_lost : report watchedFile (enters 0 0x10++passes 1 0x10++completes 0) =
      some [(.ok,[],[⟨0,.pre,0⟩,⟨0,.post,0⟩],[]),(.ok,[],[⟨0,.pre,0⟩,⟨0,.post,0⟩],[⟨0,.pre,0⟩,⟨0,.post,0⟩])] ∧
    report ⟨1,fun _ => page,[watched 0x10,watched 0x10]⟩
        (enters 0 0x10++[(0,.finish .ok),(0,.leave false),(0,.call),(0,.start),(0,.finish .ok),(0,.leave false),
          (0,.memory .ok),(0,.call),(0,.start),(0,.finish .ok),(0,.leave false),(0,.call),(0,.start),(0,.finish .ok),
          (0,.leave false),(0,.done)]) =
      some [(.ok,[],[⟨0,.pre,0⟩,⟨1,.pre,0⟩,⟨0,.post,0⟩,⟨1,.post,0⟩],
        [⟨0,.pre,0⟩,⟨1,.post,0⟩,⟨0,.post,0⟩,⟨1,.post,0⟩])] := by
  constructor <;> decide +kernel

end

end Qbox.RegRouter
