import Qbox.KernelEvent

/-! `async_event`: requests of other threads, merged into one delay before the kernel's update phase. -/
namespace Qbox
/-- `requested`: the delays other threads asked for since the last update, the newest first. -/
structure AsyncEvent (Time : Type) where
  now : Time
  delay : Time
  outstanding : Bool
  pending : Option Time
  requested : List Time

namespace AsyncEvent
variable {Time : Type} [AddCommGroup Time] [LinearOrder Time]

inductive Action (Time : Type) where
  | notify (onSysc : Bool) (delay : Time)
  | update
  | advance (t : Time)

def constructed (now : Time) : AsyncEvent Time := ⟨now,0,false,none,[]⟩

def update (s : AsyncEvent Time) : AsyncEvent Time := {s with
  pending := if s.outstanding then KernelEvent.notify s.pending (s.now+s.delay) else s.pending
  outstanding := false
  requested := []}

/-- `notify` on the SystemC thread is that of the event; time passing an event's time has it fire. -/
def step (s : AsyncEvent Time) : Action Time → AsyncEvent Time
  | .notify true d => {s with pending := KernelEvent.notify s.pending (s.now+d)}
  | .notify false d => {s with delay := d, outstanding := true, requested := d :: s.requested}
  | .update => s.update
  | .advance t => {s with now := t, pending := s.pending.filter (t < ·)}

/-- After an update now, the event is pending no later than any delay requested since the last one. -/
def UpdatesInTime (s : AsyncEvent Time) : Prop := ∀ d ∈ s.requested, ∃ t ∈ s.update.pending, t ≤ s.now+d

/-- The newest delay is the least, as far as the event is not pending early enough. -/
def NewestLeast (s : AsyncEvent Time) : Prop := ∀ d ∈ s.requested,
  (∃ e ∈ s.requested.head?, e ≤ d) ∨ ∃ t ∈ s.pending, t ≤ s.now+d

def Merged (s : AsyncEvent Time) : Prop := ∀ d ∈ s.requested.head?, s.outstanding = true ∧ s.delay = d

variable {s : AsyncEvent Time}

lemma Merged.step (h : Merged s) (a : Action Time) : Merged (step s a) := by
  cases a with
  | notify onSysc d =>
    cases onSysc with
    | false => simp [Merged,AsyncEvent.step]
    | true => exact h
  | update => simp [Merged,AsyncEvent.step,update]
  | advance t => exact h

lemma Merged.run (h : Merged s) (l : List (Action Time)) : Merged (l.foldl AsyncEvent.step s) := by
  induction l generalizing s with
  | nil => exact h
  | cons a l ih => exact ih (h.step a)

lemma Merged.inTime_iff [IsOrderedAddMonoid Time] (h : Merged s) : UpdatesInTime s ↔ NewestLeast s := by
  refine forall₂_congr fun d hd => ?_
  obtain ⟨e,l,he⟩ := List.exists_cons_of_ne_nil (List.ne_nil_of_mem hd)
  obtain ⟨ho,rfl⟩ := h e (by simp [he])
  cases hp : s.pending with
  | none | some u => simp [update,ho,hp,he,KernelEvent.notify]

/-- Over any interleaving, an update is in time exactly when the newest request is the least one. -/
theorem updatesInTime_iff [IsOrderedAddMonoid Time] (now : Time) (l : List (Action Time)) :
    UpdatesInTime (l.foldl step (constructed now)) ↔ NewestLeast (l.foldl step (constructed now)) := by
  have h : Merged (constructed now) := by simp [Merged,constructed]
  exact (h.run l).inTime_iff

theorem updatesInTime_iff_one : UpdatesInTime ([.notify false 5].foldl step (constructed (0 : ℤ))) :=
  (updatesInTime_iff 0 _).mpr (by simp [NewestLeast,step,constructed])

theorem later_request_wins : ¬UpdatesInTime ([.notify false 5,.notify false 10].foldl step (constructed (0 : ℤ))) := by
  simp [UpdatesInTime,update,step,constructed,KernelEvent.notify]

end AsyncEvent
end Qbox
