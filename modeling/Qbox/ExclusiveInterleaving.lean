import Qbox.ExclusiveMonitor
import Qbox.GuardedRun

/-! Transactions of several initiators inside the exclusive monitor at once: each is
before, at or after its access to the target when another one takes a step. -/
namespace Qbox.ExclusiveMonitor
section
variable {I : Type}

def Conflict (t u : Txn I) : Prop := t.region.Meets u.region ∧ (t.exclusive ∧ u.isStore ∨ u.exclusive ∧ t.isStore)

instance (t u : Txn I) : Decidable (Conflict t u) := inferInstanceAs (Decidable (_ ∧ _))

lemma Conflict.symm {t u : Txn I} (h : Conflict t u) : Conflict u t := ⟨h.1.symm,h.2.symm⟩

/-- Back over the accesses, an exclusive load by the owner comes before any store to the region. -/
def NoStoreSinceLoad (r : Region I) : List (Txn I) → Prop
  | [] => False
  | t :: log => (t.isStore = false ∧ t.exclusive ∧ t.region = r) ∨
      ¬ (t.isStore ∧ r.Meets t.region) ∧ NoStoreSinceLoad r log

instance instDecidableNoStoreSinceLoad [DecidableEq I] (r : Region I) :
    (log : List (Txn I)) → Decidable (NoStoreSinceLoad r log)
  | [] => inferInstanceAs (Decidable False)
  | _ :: log =>
    have := instDecidableNoStoreSinceLoad r log
    inferInstanceAs (Decidable (_ ∨ _))

end

variable {I : Type} [LinearOrder I]

/-- A transaction inside `b_transport`, and the answer of the target once it has been asked. -/
structure Flight (I : Type) where
  txn : Txn I
  answer : Option Bool
  deriving DecidableEq

/-- The monitor, the transaction of each initiator in it, and the accesses at the target, newest first. -/
structure Interleaved (I : Type) [LinearOrder I] where
  monitor : ExclusiveMonitor I
  flights : I → Option (Flight I)
  log : List (Txn I)

/-- The steps of `b_transport`. -/
inductive Step (I : Type) where
  | before (t : Txn I)
  | access (i : I) (ok : Bool)
  | after (i : I)

/-- One step of one initiator, if it is its turn. A failed assertion would end the simulation. -/
def interleave (s : Interleaved I) : Step I → Interleaved I
  | .before t =>
    match s.flights t.id, s.monitor.beforeBTransport t with
    | none, some (true,m) => { s with monitor := m, flights := Function.update s.flights t.id (some ⟨t,none⟩) }
    | none, some (false,m) => { s with monitor := m }
    | _, _ => s
  | .access i ok =>
    match s.flights i with
    | some ⟨t,none⟩ =>
      { s with flights := Function.update s.flights i (some ⟨t,some ok⟩), log := if ok then t :: s.log else s.log }
    | _ => s
  | .after i =>
    match s.flights i with
    | some ⟨t,some ok⟩ =>
      { s with
        flights := Function.update s.flights i none
        monitor := if ok then ((s.monitor.afterBTransport t).map After.monitor).getD s.monitor else s.monitor }
    | _ => s

def initial : Interleaved I := ⟨empty,fun _ => none,[]⟩

/-- A transaction has a byte, lies in the address space, and conflicts with none inside. -/
def Apart (s : Interleaved I) : Step I → Prop
  | .before t => t.Proper ∧ ∀ i, ∀ f ∈ s.flights i, ¬ Conflict t f.txn
  | _ => True

/-- What the steps of transactions that do not conflict preserve. -/
structure Sound (s : Interleaved I) : Prop where
  wellFormed : s.monitor.WellFormed
  proper : ∀ i f, s.flights i = some f → f.txn.Proper
  apart : ∀ i j f g, i ≠ j → s.flights i = some f → s.flights j = some g → ¬ Conflict f.txn g.txn
  locks : ∀ r, s.monitor.Locked r → NoStoreSinceLoad r s.log
  loads : ∀ i t, s.flights i = some ⟨t,some true⟩ → t.isStore = false ∧ t.exclusive → NoStoreSinceLoad t.region s.log
  stores : ∀ i t, s.flights i = some ⟨t,none⟩ → t.isStore ∧ t.exclusive → NoStoreSinceLoad t.region s.log
  free : ∀ i t, s.flights i = some ⟨t,none⟩ → t.isStore → s.monitor.Free t

lemma initial_sound : Sound (initial : Interleaved I) where
  wellFormed := empty_wellFormed
  proper := nofun
  apart := nofun
  locks := fun r hr => by simp [initial,empty,Locked] at hr
  loads := nofun
  stores := nofun
  free := nofun

variable {s : Interleaved I}

lemma update_flights {flights : I → Option (Flight I)} {i j : I} {f : Option (Flight I)} {g : Flight I}
    (h : Function.update flights i f j = some g) : j = i ∧ f = some g ∨ j ≠ i ∧ flights j = some g := by
  by_cases hj : j = i
  · subst hj
    exact Or.inl ⟨rfl,by simpa using h⟩
  · exact Or.inr ⟨hj,by simpa [hj] using h⟩

lemma before_sound (h : Sound s) {t : Txn I} (hg : Apart s (.before t)) : Sound (interleave s (.before t)) := by
  obtain ⟨ht,hco⟩ := hg
  obtain ⟨⟨carryOn,m⟩,ho,hwf,hh,hsa,hlo⟩ := h.wellFormed.beforeBTransport ht
  cases hfl : s.flights t.id with
  | some f => simpa only [interleave,hfl] using h
  | none =>
    cases hc : carryOn with
    | false =>
      obtain rfl : m = s.monitor := hsa (Or.inl hc)
      simpa only [interleave,hfl,ho,hc] using h
    | true =>
      have hsu : ∀ r, m.Locked r → s.monitor.Locked r := by
        intro r hr
        by_cases hs : t.isStore = true
        · exact ((hlo hs hc r).mp hr).1
        · obtain rfl : m = s.monitor := hsa (Or.inr (Bool.eq_false_iff.mpr hs))
          exact hr
      simp only [interleave,hfl,ho,hc]
      exact {
        wellFormed := hwf
        proper := fun i f hf => by
          rcases update_flights hf with ⟨-,heq⟩ | ⟨-,hf⟩
          · cases heq
            exact ht
          · exact h.proper i f hf
        apart := fun i j f g hij hf hg => by
          rcases update_flights hf with ⟨rfl,heq⟩ | ⟨-,hf⟩ <;> rcases update_flights hg with ⟨rfl,heq'⟩ | ⟨-,hg⟩
          · exact absurd rfl hij
          · cases heq
            exact hco j g hg
          · cases heq'
            exact fun hcf => hco i f hf hcf.symm
          · exact h.apart i j f g hij hf hg
        locks := fun r hr => h.locks r (hsu r hr)
        loads := fun i u hf hu => by
          rcases update_flights hf with ⟨-,heq⟩ | ⟨-,hf⟩
          · cases heq
          · exact h.loads i u hf hu
        stores := fun i u hf hu => by
          rcases update_flights hf with ⟨-,heq⟩ | ⟨-,hf⟩
          · cases heq
            by_contra hno
            have hfa := hh.mpr ⟨hu,fun hl => hno (h.locks _ hl)⟩
            rw [hc] at hfa
            cases hfa
          · exact h.stores i u hf hu
        free := fun i u hf hu q hq => by
          rcases update_flights hf with ⟨-,heq⟩ | ⟨-,hf⟩
          · cases heq
            exact ((hlo hu hc q).mp hq).2
          · exact h.free i u hf hu q (hsu q hq) }

lemma access_sound (h : Sound s) (i : I) (ok : Bool) : Sound (interleave s (.access i ok)) := by
  cases hfl : s.flights i with
  | none => simpa only [interleave,hfl] using h
  | some f =>
    obtain ⟨t,answer⟩ := f
    cases answer with
    | some ok' => simpa only [interleave,hfl] using h
    | none =>
      -- A store that takes effect meets nothing the log is consulted for.
      have hl : ∀ r, NoStoreSinceLoad r s.log → (t.isStore → ¬ r.Meets t.region) →
          NoStoreSinceLoad r (if ok then t :: s.log else s.log) := by
        intro r hr hfa
        cases ok with
        | false => exact hr
        | true => exact Or.inr ⟨fun hc => hfa hc.1 hc.2,hr⟩
      simp only [interleave,hfl]
      exact {
        wellFormed := h.wellFormed
        proper := fun j f hf => by
          rcases update_flights hf with ⟨-,heq⟩ | ⟨-,hf⟩
          · cases heq
            exact h.proper i ⟨t,none⟩ hfl
          · exact h.proper j f hf
        apart := fun j k f g hjk hf hg => by
          rcases update_flights hf with ⟨rfl,heq⟩ | ⟨-,hf'⟩ <;> rcases update_flights hg with ⟨rfl,heq'⟩ | ⟨-,hg'⟩
          · exact absurd rfl hjk
          · cases heq
            exact h.apart j k ⟨t,none⟩ g hjk hfl hg'
          · cases heq'
            exact h.apart j k f ⟨t,none⟩ hjk hf' hfl
          · exact h.apart j k f g hjk hf' hg'
        locks := fun r hr => hl r (h.locks r hr) fun hs => h.free i t hfl hs r hr
        loads := fun j u hf hu => by
          rcases update_flights hf with ⟨-,heq⟩ | ⟨hj,hf⟩
          · cases heq
            exact Or.inl ⟨hu.1,hu.2,rfl⟩
          · exact hl _ (h.loads j u hf hu) fun hs hm =>
              h.apart j i _ _ hj hf hfl ⟨hm,Or.inl ⟨hu.2,hs⟩⟩
        stores := fun j u hf hu => by
          rcases update_flights hf with ⟨-,heq⟩ | ⟨hj,hf⟩
          · cases heq
          · exact hl _ (h.stores j u hf hu) fun hs hm =>
              h.apart j i _ _ hj hf hfl ⟨hm,Or.inl ⟨hu.2,hs⟩⟩
        free := fun j u hf hu => by
          rcases update_flights hf with ⟨-,heq⟩ | ⟨-,hf⟩
          · cases heq
          · exact h.free j u hf hu }

lemma after_sound (h : Sound s) (i : I) : Sound (interleave s (.after i)) := by
  cases hfl : s.flights i with
  | none => simpa only [interleave,hfl] using h
  | some f =>
    obtain ⟨t,answer⟩ := f
    cases answer with
    | none => simpa only [interleave,hfl] using h
    | some ok =>
      obtain ⟨out,ho,hwf,ht,hk⟩ := h.wellFormed.afterBTransport (h.proper i _ hfl)
      have hmo : (if ok then ((s.monitor.afterBTransport t).map After.monitor).getD s.monitor else s.monitor) =
          if ok then out.monitor else s.monitor := by rw [ho]; rfl
      -- A region locked now was locked before, or is that of a finished exclusive load.
      have hlc : ∀ r, (if ok then out.monitor else s.monitor).Locked r →
          s.monitor.Locked r ∨ (ok = true ∧ t.isStore = false ∧ t.exclusive) ∧ r = t.region := by
        intro r hr
        cases ok with
        | false => exact Or.inl hr
        | true =>
          by_cases hl : (t.isStore = false ∧ t.exclusive) ∧ s.monitor.Free t
          · rcases ((ht hl).2 r).mp hr with heq | hr
            · exact Or.inr ⟨⟨rfl,hl.1⟩,heq⟩
            · exact Or.inl hr.1
          · rw [if_pos rfl,(hk hl).2] at hr
            exact Or.inl hr
      have hold : ∀ j g, Function.update s.flights i none j = some g → j ≠ i ∧ s.flights j = some g := by
        intro j g hg
        rcases update_flights hg with ⟨-,heq⟩ | hg
        · cases heq
        · exact hg
      simp only [interleave,hfl,hmo]
      exact {
        wellFormed := by
          cases ok with
          | false => exact h.wellFormed
          | true => exact hwf
        proper := fun j f hf => h.proper j f (hold j f hf).2
        apart := fun j k f g hjk hf hg => h.apart j k f g hjk (hold j f hf).2 (hold k g hg).2
        locks := fun r hr => by
          rcases hlc r hr with hr | ⟨⟨rfl,hlo⟩,rfl⟩
          · exact h.locks r hr
          · exact h.loads i t hfl hlo
        loads := fun j u hf => h.loads j u (hold j _ hf).2
        stores := fun j u hf => h.stores j u (hold j _ hf).2
        free := fun j u hf hu q hq => by
          obtain ⟨hj,hf⟩ := hold j _ hf
          rcases hlc q hq with hq | ⟨⟨-,hlo⟩,rfl⟩
          · exact h.free j u hf hu q hq
          · exact fun hm => h.apart i j _ _ hj.symm hfl hf ⟨hm,Or.inl ⟨hlo.2,hu⟩⟩ }

lemma interleave_sound (h : Sound s) (a : Step I) (hg : Apart s a) : Sound (interleave s a) := by
  cases a with
  | before t => exact before_sound h hg
  | access i ok => exact access_sound h i ok
  | after i => exact after_sound h i

/-- While conflicting transactions are not inside together, an exclusive store finds no store to its region since its
exclusive load. -/
theorem exclusive_pair_atomic (hs : GuardedRun interleave Apart initial s) {i : I} {t : Txn I}
    (hf : s.flights i = some ⟨t,none⟩) (hstore : t.isStore = true) (hex : t.exclusive = true) :
    NoStoreSinceLoad t.region s.log :=
  (hs.invariant (I := Sound) (fun _ a h hg => interleave_sound h a hg) initial_sound).stores i t hf ⟨hstore,hex⟩

instance [Fintype I] (s : Interleaved I) : (a : Step I) → Decidable (Apart s a)
  | .before _ => inferInstanceAs (Decidable (_ ∧ _))
  | .access _ _ | .after _ => inferInstanceAs (Decidable True)

def load : Txn (Fin 2) := ⟨0x1000,4,.read,true,0⟩
def otherStore : Txn (Fin 2) := ⟨0x1000,4,.write,false,1⟩
def store : Txn (Fin 2) := ⟨0x1000,4,.write,true,0⟩

def loadThenStore : List (Step (Fin 2)) := [.before load,.access 0 true,.after 0,.before store]

theorem exclusive_pair_atomic_alone : (loadThenStore.foldl interleave initial).flights 0 = some ⟨store,none⟩ ∧
    NoStoreSinceLoad store.region (loadThenStore.foldl interleave initial).log := by
  have hf : (loadThenStore.foldl interleave initial).flights 0 = some ⟨store,none⟩ := by decide +kernel
  exact ⟨hf,exclusive_pair_atomic (GuardedRun.refl.foldl (by decide +kernel)) hf rfl rfl⟩

def storeInGap : List (Step (Fin 2)) :=
  [.before load,.access 0 true,.before otherStore,.access 1 true,.after 1,.after 0,.before store]

theorem exclusive_pair_not_atomic :
    GuardedRun interleave (fun _ _ => True) initial (storeInGap.foldl interleave initial) ∧
      (storeInGap.foldl interleave initial).flights 0 = some ⟨store,none⟩ ∧
      ¬ NoStoreSinceLoad store.region (storeInGap.foldl interleave initial).log :=
  ⟨GuardedRun.refl.foldl (by decide),by decide +kernel,by decide +kernel⟩

end Qbox.ExclusiveMonitor
