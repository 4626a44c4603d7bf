import Qbox.GuardedRun
import Qbox.HolderCount
import Qbox.MachineWord

/-! The bridge from QEMU's callbacks to a plugin object: `dispatch_userdata` on any number of threads beside calls of
`shutdown_bridge`. A step is one access to the atomics of the handle. -/
namespace Qbox.PluginBridge
open BitVec Function

/-- Where a thread is in `dispatch_userdata`: `alive` loaded when `entering`, counted when `counted`. -/
inductive Dispatch where
  | outside
  | entering
  | counted
  | body
  | leaving
  deriving DecidableEq, Repr

def Dispatch.holds : Dispatch → Bool
  | .outside | .entering => false
  | .counted | .body | .leaving => true

/-- Where a call of `shutdown_bridge` is; the `first` has found the handle alive. -/
inductive Shutdown where
  | outside
  | draining
  | returned (first : Bool)
  deriving DecidableEq, Repr

/-- `PluginHandle` with the threads that use it; the count is an `int`. -/
structure PluginHandle where
  alive : Bool
  refcount : U32
  dispatchers : ℕ → Dispatch
  shutdowns : ℕ → Shutdown

/-- A thread or a call of `shutdown_bridge` takes its next step. -/
inductive Action where
  | dispatchUserdata (i : ℕ)
  | shutdownBridge (k : ℕ)
  deriving DecidableEq, Repr

namespace PluginHandle
variable (s : PluginHandle)

@[simps alive refcount shutdowns] def goto (i : ℕ) (p : Dispatch) : PluginHandle := {s with dispatchers := Function.update s.dispatchers i p}

def dispatchUserdata (i : ℕ) : Dispatch → PluginHandle
  | .outside => s.goto i (if s.alive then .entering else .outside)
  | .entering => {s with refcount := s.refcount+1#32}.goto i .counted
  | .counted => s.goto i (if s.alive then .body else .leaving)
  | .body => s.goto i .leaving
  | .leaving => {s with refcount := s.refcount-1#32}.goto i .outside

def shutdownBridge (k : ℕ) : Shutdown → PluginHandle
  | .outside =>
    {s with alive := false, shutdowns := Function.update s.shutdowns k (if s.alive then .draining else .returned false)}
  | .draining => if 0 < s.refcount.toInt then s else {s with shutdowns := Function.update s.shutdowns k (.returned true)}
  | .returned _ => s

def step : Action → PluginHandle
  | .dispatchUserdata i => s.dispatchUserdata i (s.dispatchers i)
  | .shutdownBridge k => s.shutdownBridge k (s.shutdowns k)

def Countable : Action → Prop
  | .dispatchUserdata i => s.dispatchers i = .entering → s.refcount ≠ intMax 32
  | .shutdownBridge _ => True

instance (a : Action) : Decidable (s.Countable a) := by
  cases a <;> simp only [Countable] <;> infer_instance

def initial : PluginHandle where
  alive := true
  refcount := 0
  dispatchers := fun _ => .outside
  shutdowns := fun _ => .outside

variable {s} {i k : ℕ}

@[simp] lemma goto_dispatchers (p : Dispatch) : (s.goto i p).dispatchers = Function.update s.dispatchers i p := rfl

/-- The count is the number of the threads that hold one, and is not negative. -/
def Counts (s : PluginHandle) : Prop :=
  ∃ held : Finset ℕ, (∀ i, i ∈ held ↔ (s.dispatchers i).holds) ∧ s.refcount.toNat = held.card ∧ held.card < 2^31

lemma counts_iff : Counts s ↔
    ∃ n, HolderCount (fun p : Dispatch => p.holds = true) s.dispatchers n ∧ s.refcount.toNat = n ∧ n < 2^31 := by
  constructor
  · rintro ⟨held,hh,hc,hlt⟩
    exact ⟨held.card,⟨held,hh,rfl⟩,hc,hlt⟩
  · rintro ⟨_,⟨held,hh,rfl⟩,hc,hlt⟩
    exact ⟨held,hh,hc,hlt⟩

section
variable (h : Counts s)
include h

lemma Counts.goto {p : Dispatch} (hp : p.holds = (s.dispatchers i).holds) : Counts (s.goto i p) := by
  rw [counts_iff] at h ⊢
  obtain ⟨n,hn,hc,hlt⟩ := h
  exact ⟨n,hn.update_same (by rw [hp]),hc,hlt⟩

lemma Counts.enter (hi : (s.dispatchers i).holds = false) (hm : s.refcount ≠ intMax 32) :
    Counts ({s with refcount := s.refcount+1#32}.goto i .counted) := by
  rw [counts_iff] at h ⊢
  obtain ⟨n,hn,hc,hlt⟩ := h
  have hne : s.refcount.toNat ≠ 2^31-1 := fun heq => hm (eq_of_toNat_eq (by simpa using heq))
  refine ⟨n+1,hn.update_enter (by simp [hi]) rfl,?_,by omega⟩
  simp only [goto_refcount,toNat_add,toNat_ofNat]
  omega

lemma Counts.leave (hi : s.dispatchers i = .leaving) :
    Counts ({s with refcount := s.refcount-1#32}.goto i .outside) := by
  rw [counts_iff] at h ⊢
  obtain ⟨n,hn,hc,hlt⟩ := h
  obtain ⟨m,rfl,hm⟩ := hn.update_leave (a := .outside) (by rw [hi]; rfl) nofun
  refine ⟨m,hm,?_,by omega⟩
  simp only [goto_refcount,toNat_sub,toNat_ofNat]
  omega

lemma Counts.drained (h0 : ¬ 0 < s.refcount.toInt) : s.dispatchers i ≠ .body := by
  obtain ⟨n,hn,hc,hlt⟩ := counts_iff.mp h
  have hz : n = 0 := by
    rw [toInt_eq_toNat_of_lt (by omega)] at h0
    omega
  subst hz
  intro hb
  exact hn.none_of_zero i (by rw [hb]; rfl)

end

/-- The count is right, a call that drains has cleared `alive`, and once it has returned no body runs. -/
structure Final (s : PluginHandle) : Prop where
  counts : Counts s
  draining : ∀ k, s.shutdowns k = .draining → s.alive = false
  returned : ∀ k, s.shutdowns k = .returned true → s.alive = false ∧ ∀ i, s.dispatchers i ≠ .body

lemma Final.initial : Final initial := ⟨⟨∅,by simp [PluginHandle.initial,Dispatch.holds],rfl,by decide⟩,nofun,nofun⟩

lemma Final.goto {n : U32} {p : Dispatch} (h : Final s) (hc : Counts ({s with refcount := n}.goto i p))
    (hp : p = .body → s.alive = true) : Final ({s with refcount := n}.goto i p) := by
  refine ⟨hc,h.draining,fun k hk => ?_⟩
  obtain ⟨ha,hb⟩ := h.returned k hk
  refine ⟨ha,fun j => ?_⟩
  by_cases hji : j = i
  · subst hji
    intro hj
    simp [ha] at hp
    simp [hp] at hj
  · simpa [hji] using hb j

lemma Final.dispatchUserdata (h : Final s) (hc : s.Countable (.dispatchUserdata i)) :
    Final (s.step (.dispatchUserdata i)) := by
  rw [step]
  cases hi : s.dispatchers i with
  | outside => exact h.goto (h.counts.goto (by simp [hi]; split <;> rfl)) (by split <;> simp)
  | entering => exact h.goto (h.counts.enter (by simp [hi,Dispatch.holds]) (hc hi)) nofun
  | counted => exact h.goto (h.counts.goto (by simp [hi]; split <;> rfl)) (by split <;> simp_all)
  | body => exact h.goto (h.counts.goto (by simp [hi,Dispatch.holds])) nofun
  | leaving => exact h.goto (h.counts.leave hi) nofun

lemma Final.shutdownBridge (h : Final s) : Final (s.step (.shutdownBridge k)) := by
  rw [step]
  cases hk : s.shutdowns k with
  | outside =>
    refine ⟨h.counts,fun _ _ => rfl,fun j hj => ⟨rfl,?_⟩⟩
    by_cases hjk : j = k
    · subst hjk
      simp only [PluginHandle.shutdownBridge,update_self] at hj
      split at hj <;> simp at hj
    · simp only [PluginHandle.shutdownBridge,update_of_ne hjk] at hj
      exact (h.returned j hj).2
  | draining =>
    rw [PluginHandle.shutdownBridge]
    split
    · exact h
    · rename_i h0
      refine ⟨h.counts,fun j hj => ?_,fun j _ => ⟨h.draining k hk,fun i => h.counts.drained h0⟩⟩
      by_cases hjk : j = k
      · simp [hjk] at hj
      · exact h.draining j (by simpa [hjk] using hj)
  | returned first => exact h

lemma Final.step {a : Action} (h : Final s) (hc : s.Countable a) : Final (s.step a) := by
  cases a with
  | dispatchUserdata i => exact h.dispatchUserdata hc
  | shutdownBridge k => exact h.shutdownBridge

lemma returned_step {a : Action} {first : Bool} (h : s.shutdowns k = .returned first) :
    (s.step a).shutdowns k = .returned first := by
  cases a with
  | dispatchUserdata i => rw [step]; cases s.dispatchers i <;> exact h
  | shutdownBridge j =>
    rw [step]
    by_cases hjk : j = k
    · subst hjk
      rw [h]
      exact h
    · cases s.shutdowns j with
      | outside => simpa [shutdownBridge,Ne.symm hjk] using h
      | draining => rw [shutdownBridge]; split <;> simpa [Ne.symm hjk] using h
      | returned _ => exact h

/-- Once the first `shutdown_bridge` has returned no body runs, then or ever after. -/
theorem shutdownBridge_final {s t : PluginHandle} {k : ℕ} (hs : GuardedRun step Countable initial s)
    (hk : s.shutdowns k = .returned true) (ht : GuardedRun step Countable s t) (i : ℕ) : t.dispatchers i ≠ .body := by
  have hf := (hs.trans ht).invariant (fun _ _ h hc => h.step hc) Final.initial
  have hr := ht.invariant (I := fun u => u.shutdowns k = .returned true) (fun _ _ h _ => returned_step h) hk
  exact (hf.returned k hr).2 i

def drainedRun : List Action :=
  [.dispatchUserdata 0,.dispatchUserdata 0,.dispatchUserdata 0,.shutdownBridge 0,.shutdownBridge 0,.dispatchUserdata 0,
    .dispatchUserdata 0,.shutdownBridge 0]

theorem shutdownBridge_final_drained : (drainedRun.foldl step initial).shutdowns 0 = .returned true ∧
    ((drainedRun.foldl step initial).step (.dispatchUserdata 1)).dispatchers 1 ≠ .body :=
  ⟨by decide,shutdownBridge_final (k := 0) (GuardedRun.refl.foldl (by decide)) (by decide)
    (GuardedRun.refl.tail (by decide)) 1⟩

def crowd (n : ℕ) : PluginHandle where
  alive := true
  refcount := BitVec.ofNat 32 n
  dispatchers := fun i => if i < n then .body else .outside
  shutdowns := fun _ => .outside

lemma crowd_succ (n : ℕ) :
    crowd (n+1) = [Action.dispatchUserdata n,.dispatchUserdata n,.dispatchUserdata n].foldl step (crowd n) := by
  simp only [List.foldl_cons,List.foldl_nil,step,dispatchUserdata,goto,crowd,ofNat_add,update_self,
    update_idem,lt_irrefl,if_true,if_false,mk.injEq,true_and,and_true]
  funext i
  by_cases hin : i = n
  · simp [hin]
  · have hlt : i < n+1 ↔ i < n := by omega
    simp [hin,hlt]

lemma crowd_reached (n : ℕ) : GuardedRun step (fun _ _ => True) initial (crowd n) := by
  induction n with
  | zero => exact .refl
  | succ n ih =>
    rw [crowd_succ]
    exact ih.foldl ⟨trivial,trivial,trivial,trivial⟩

/-- With `2^31` threads in the body the count is negative and the shutdown returns at once. -/
theorem shutdownBridge_returns_early : ∃ s, GuardedRun step (fun _ _ => True) initial s ∧
    s.shutdowns 0 = .returned true ∧ s.dispatchers 0 = .body := by
  refine ⟨_,(crowd_reached (2^31)).foldl (l := [.shutdownBridge 0,.shutdownBridge 0]) ⟨trivial,trivial,trivial⟩,?_,?_⟩
  · simp [step,shutdownBridge,crowd]
  · simp [step,shutdownBridge,crowd]

end PluginHandle
end Qbox.PluginBridge
