import Qbox.DmiConverter

/-! Whose pointers the converter copies through, and whether they still stand, in every run of
transactions, requests and invalidations on any number of ports. -/
namespace Qbox.DmiConverter
/-- An event at the converter; a transaction comes with the target and the turns of the loop. -/
inductive Action where
  | transport (id : ℕ) (txn : Txn) (target : Target) (n : ℕ)
  | requestDmi (id : ℕ) (addr : U64) (answer : Option Range)
  | invalidate (start stop : U64)

section
variable (ports : ℕ) (allowed : ℕ → Range → Prop)

/-- The port exists, and what its target answers is among what it may grant. -/
def Action.Valid : Action → Prop
  | .transport id _ target _ => id < ports ∧ ∀ k cmd addr r, target.dmi k cmd addr = some r → allowed id r
  | .requestDmi id _ answer => id < ports ∧ ∀ r, answer = some r → allowed id r
  | .invalidate _ _ => True

/-- The converter after an event; nothing while a call has not returned. -/
def act (w : World) : Action → Option World
  | .transport id txn target n => (bTransport target id txn n w).returned.map Prod.snd
  | .requestDmi id addr answer => some (getDirectMemPtr id addr answer w).2.2
  | .invalidate start stop => some (invalidateDirectMemPtr start stop w)

inductive Reaches (w : World) : World → Prop where
  | start : Reaches w w
  | step {u v : World} {a : Action} (h : Reaches w u) (hvalid : a.Valid ports allowed) (hact : act u a = some v) :
    Reaches w v

/-- With a second port no grant is usable; and none starts inside a usable one. -/
structure Apart : Prop where
  alone : ∀ i < ports, ∀ j < ports, i ≠ j → ∀ r, allowed j r → ¬ r.Usable
  flat : ∀ i < ports, ∀ r f, allowed i r → allowed i f → r.Usable → ¬ f.StartsInside r

/-- Each cached grant is one its port's target may have given, and it stands if it can be used. -/
def Kept (c : Cache) : Prop := ∀ g ∈ c, g.port < ports ∧ allowed g.port g.range ∧ (g.range.Usable → g.live = true)

end

section
variable {ports : ℕ} {allowed : ℕ → Range → Prop}

lemma Kept.empty : Kept ports allowed .empty := fun _ hg => absurd hg (Cache.not_mem_empty _)

lemma Kept.insert {c : Cache} (h : Kept ports allowed c) {id : ℕ} (hid : id < ports) {r : Range}
    (hr : allowed id r) : Kept ports allowed (c.insert ⟨r,id,true⟩) := by
  intro g hg
  rcases Cache.mem_insert.mp hg with rfl | ⟨hg,-⟩
  · exact ⟨hid,hr,fun _ => rfl⟩
  · exact h g hg

/-- A usable grant that an invalidation meets is erased: one that hides it would start inside it. -/
lemma Kept.invalidate {c : Cache} (hap : Apart ports allowed) (h : Kept ports allowed c) (start stop : U64) :
    Kept ports allowed ((c.cacheClean start stop).withdraw start stop) := by
  intro g hg
  obtain ⟨f,hf,rfl⟩ := Cache.mem_withdraw.mp hg
  obtain ⟨hf,hs⟩ := Cache.mem_cacheClean.mp hf
  obtain ⟨hp,ha,hl⟩ := h f hf
  refine ⟨hp,ha,fun hu => ?_⟩
  have hm : ¬ f.range.Meets start stop := by
    intro hm
    apply hs
    refine ⟨hm,fun e he hle => ?_⟩
    by_contra hlt
    rw [not_le] at hlt
    obtain ⟨hp',ha',-⟩ := h e he
    by_cases heq : e.port = f.port
    · rw [heq] at ha'
      exact hap.flat _ hp _ _ ha ha' hu ⟨hlt,hle.trans hm.2⟩
    · exact hap.alone _ hp' _ hp heq _ ha hu
  simp [hl hu,hm]

lemma Kept.lookup {c : Cache} (hap : Apart ports allowed) (h : Kept ports allowed c) {id : ℕ} (hid : id < ports)
    {cmd : TlmCommand} {addr : U64} {g : Grant} (hg : lookup c cmd addr = some g) : g.port = id ∧ g.live = true := by
  obtain ⟨hin,hgr⟩ := lookup_eq_some.mp hg
  obtain ⟨hm,hh,-⟩ := Cache.inCache_eq_some.mp hin
  obtain ⟨hp,ha,hl⟩ := h g hm
  have hu : g.range.Usable := ⟨hh.1.trans hh.2,cmd,hgr⟩
  refine ⟨?_,hl hu⟩
  by_contra hne
  exact hap.alone id hid _ hp (Ne.symm hne) _ ha hu

section
variable {P : Cache → Prop} (hinsert : ∀ c id r, P c → id < ports → allowed id r → P (c.insert ⟨r,id,true⟩))

include hinsert

/-- What an insertion keeps, the loop keeps; it copies through grants of such a cache. -/
lemma loop_invariant {txn : Txn} {target : Target} {id : ℕ} (hid : id < ports)
    (hdm : ∀ k cmd addr r, target.dmi k cmd addr = some r → allowed id r) (n : ℕ) {q : Progress} {w : World}
    (h : P w.cache) :
    (∀ g ∈ (loop txn target id n q w).used, ∃ c cmd addr, P c ∧ DmiConverter.lookup c cmd addr = some g) ∧
      ∀ reply w', (loop txn target id n q w).returned = some (reply,w') → P w'.cache := by
  induction n generalizing q w with
  | zero => simp [loop]
  | succ n ih =>
    rw [loop]
    by_cases hd : q.todo = []
    · rw [if_pos hd]
      refine ⟨by simp,fun reply w' hw => ?_⟩
      cases hw
      exact h
    · rw [if_neg hd]
      cases hl : DmiConverter.lookup w.cache txn.command q.addr with
      | some g =>
        have hre := ih (q := txn.advance g q w) (w := txn.copyWorld g q w) h
        refine ⟨fun f hf => ?_,hre.2⟩
        rcases List.mem_cons.mp hf with rfl | hf
        · exact ⟨_,_,_,h,hl⟩
        · exact hre.1 f hf
      | none =>
        cases hr : request target id txn.command q with
        | some g =>
          obtain ⟨r,ha,-,rfl⟩ := request_eq_some.mp hr
          exact ih (hinsert _ _ _ h hid (hdm _ _ _ _ ha))
        | none =>
          refine ⟨by simp,fun reply w' hw => ?_⟩
          cases hw
          exact h

variable (hinvalidate : ∀ c start stop, P c → P ((c.cacheClean start stop).withdraw start stop))

include hinvalidate

lemma act_invariant {u v : World} {a : Action} (h : P u.cache) (hv : a.Valid ports allowed)
    (ha : act u a = some v) : P v.cache := by
  cases a with
  | transport id txn target n =>
    obtain ⟨⟨reply,w'⟩,hr,rfl⟩ := Option.map_eq_some_iff.mp ha
    exact (loop_invariant hinsert hv.1 hv.2 n h).2 reply w' hr
  | requestDmi id addr answer =>
    cases ha
    simp only [getDirectMemPtr]
    cases u.cache.inCache addr with
    | some g => exact h
    | none =>
      cases answer with
      | none => exact h
      | some r => exact hinsert _ _ _ h hv.1 (hv.2 r rfl)
  | invalidate start stop =>
    cases ha
    exact hinvalidate _ start stop h

lemma Reaches.invariant {w u : World} (hw : P w.cache) (h : Reaches ports allowed w u) : P u.cache := by
  induction h with
  | start => exact hw
  | step _ hv ha ih => exact act_invariant hinsert hinvalidate ih hv ha

end

end

section
def oneByte (cmd : TlmCommand) (addr : U64) : Txn := ⟨cmd,addr,[0],none,.incomplete,false,by decide⟩

def plainTarget : Target := ⟨fun _ _ _ => none,fun _ _ _ => none⟩

lemma mem_used_oneByte {w : World} {cmd : TlmCommand} {addr : U64} {g : Grant} {target : Target} {id : ℕ}
    (h : lookup w.cache cmd addr = some g) : g ∈ (bTransport target id (oneByte cmd addr) 1 w).used := by
  have hf : lookup w.cache (oneByte cmd addr).command (oneByte cmd addr).begin.addr = some g := h
  have ht : (oneByte cmd addr).begin.todo ≠ [] := by simp [oneByte,Txn.begin]
  rw [bTransport,loop,if_neg ht,hf]
  exact List.mem_cons_self ..

variable {ports : ℕ} {allowed : ℕ → Range → Prop} {mems : ℕ → U64 → U8}

/-- A range a target may grant gets into the cache where nothing cached starts before it or with it. -/
lemma Reaches.insert {w : World} {c : Cache} (h : Reaches ports allowed w ⟨c,mems⟩) {i : ℕ} (hi : i < ports)
    {r : Range} (hr : allowed i r) (hb : ∀ f ∈ c, r.start < f.range.start) :
    Reaches ports allowed w ⟨c.insert ⟨r,i,true⟩,mems⟩ := by
  have hv : (Action.requestDmi i r.start (some r)).Valid ports allowed := ⟨hi,fun _ h => Option.some.inj h ▸ hr⟩
  refine h.step hv ?_
  have hn : c.inCache r.start = none := by
    by_contra hs
    obtain ⟨f,hf⟩ := Option.ne_none_iff_exists'.mp hs
    obtain ⟨hm,hh,-⟩ := Cache.inCache_eq_some.mp hf
    exact absurd hh.1 (not_le.mpr (hb f hm))
  simp [act,getDirectMemPtr,hn]

/-- What one port's target has granted serves the other ports as well. -/
lemma exists_foreign {j : ℕ} (hj : j < ports) {r : Range} (hr : allowed j r) (hu : r.Usable) :
    ∃ w, Reaches ports allowed ⟨.empty,mems⟩ w ∧ ∃ cmd, lookup w.cache cmd r.start = some ⟨r,j,true⟩ := by
  obtain ⟨hle,cmd,hg⟩ := hu
  refine ⟨_,Reaches.start.insert hj hr (by simp),cmd,lookup_eq_some.mpr ⟨?_,hg⟩⟩
  refine Cache.inCache_eq_some.mpr ⟨Cache.mem_insert.mpr (.inl rfl),⟨le_rfl,hle⟩,fun f hf _ => ?_⟩
  rcases Cache.mem_insert.mp hf with rfl | ⟨hf,-⟩
  · exact le_rfl
  · exact absurd hf (Cache.not_mem_empty _)

/-- A range that starts inside another one hides it from an invalidation. -/
lemma exists_withdrawn {i : ℕ} (hi : i < ports) {r f : Range} (hr : allowed i r) (hf : allowed i f)
    (hu : r.Usable) (hin : f.StartsInside r) :
    ∃ w, Reaches ports allowed ⟨.empty,mems⟩ w ∧ ∃ cmd, lookup w.cache cmd r.start = some ⟨r,i,false⟩ := by
  obtain ⟨hle,cmd,hgr⟩ := hu
  obtain ⟨hlt,hen⟩ := hin
  have hon : ∀ e ∈ Cache.empty.insert ⟨f,i,true⟩, e = ⟨f,i,true⟩ := by
    intro e he
    rcases Cache.mem_insert.mp he with rfl | ⟨he,-⟩
    · rfl
    · exact absurd he (Cache.not_mem_empty _)
  have hir : Reaches ports allowed ⟨.empty,mems⟩ ⟨Cache.empty.insert ⟨f,i,true⟩,mems⟩ :=
    Reaches.start.insert hi hf (by simp)
  have ho := hir.insert hi hr fun e he => by rw [hon e he]; exact hlt
  have hgo := ho.step (a := .invalidate f.start f.start) trivial rfl
  refine ⟨_,hgo,cmd,lookup_eq_some.mpr ⟨Cache.inCache_eq_some.mpr ⟨?_,⟨le_rfl,hle⟩,?_⟩,hgr⟩⟩
  · -- The scan begins at the inner range, so the outer one is not looked at.
    have hm : r.Meets f.start f.start := ⟨hlt.le,hen⟩
    have hst : (⟨r,i,true⟩ : Grant) ∈
        ((Cache.empty.insert ⟨f,i,true⟩).insert ⟨r,i,true⟩).cacheClean f.start f.start := by
      refine Cache.mem_cacheClean.mpr ⟨Cache.mem_insert.mpr (.inl rfl),?_⟩
      rintro ⟨-,ha⟩
      refine absurd (ha ⟨f,i,true⟩ (Cache.mem_insert.mpr (.inr ⟨Cache.mem_insert.mpr (.inl rfl),hlt.ne'⟩)) le_rfl) ?_
      exact not_le.mpr hlt
    exact Cache.mem_withdraw.mpr ⟨_,hst,by simp [hm]⟩
  · intro g hg hs
    exact hs

/-- In every run the converter copies only through pointers of the port's own target, not withdrawn, exactly when the
possible grants of all targets are kept apart. -/
theorem pointers_stand_iff (ports : ℕ) (allowed : ℕ → Range → Prop) (mems : ℕ → U64 → U8) :
    (∀ w, Reaches ports allowed ⟨.empty,mems⟩ w → ∀ id txn target n,
      (Action.transport id txn target n).Valid ports allowed →
      ∀ g ∈ (bTransport target id txn n w).used, g.port = id ∧ g.live = true) ↔ Apart ports allowed := by
  constructor
  · intro h
    have hus : ∀ w, Reaches ports allowed ⟨.empty,mems⟩ w → ∀ id < ports, ∀ cmd addr g,
        lookup w.cache cmd addr = some g → g.port = id ∧ g.live = true := by
      intro w hw id hid cmd addr g hg
      exact h w hw id (oneByte cmd addr) plainTarget 1 ⟨hid,by simp [plainTarget]⟩ g (mem_used_oneByte hg)
    constructor
    · intro i hi j hj hne r hr hu
      obtain ⟨w,hw,cmd,hg⟩ := exists_foreign hj hr hu
      exact hne (hus w hw i hi cmd _ _ hg).1.symm
    · intro i hi r f hr hf hu hin
      obtain ⟨w,hw,cmd,hg⟩ := exists_withdrawn hi hr hf hu hin
      exact absurd (hus w hw i hi cmd _ _ hg).2 (by simp)
  · intro ha w hw id txn target n hv g hg
    have hinsert : ∀ c id r, Kept ports allowed c → id < ports → allowed id r →
        Kept ports allowed (c.insert ⟨r,id,true⟩) := fun _ _ _ h hid hr => h.insert hid hr
    have hk := hw.invariant hinsert (fun _ start stop h => h.invalidate ha start stop) Kept.empty
    obtain ⟨c,cmd,addr,hc,hl⟩ := (loop_invariant hinsert hv.1 hv.2 n hk).1 g hg
    exact hc.lookup ha hv.1 hl

def grants (r : Range) : Target := ⟨fun _ _ _ => none,fun _ _ _ => some r⟩

def usedAfter (l : List Action) (target : Target) (id : ℕ) (txn : Txn) : Option (List (ℕ × Bool)) :=
  (l.foldlM act ⟨.empty,fun _ _ => 0⟩).map fun w =>
    (bTransport target id txn 4 w).used.map fun g => (g.port,g.live)

/-- Port 1 reads through the pointer of port 0's target; and a range inside another keeps an invalidation of both from
the outer one. -/
theorem foreign_and_withdrawn_pointers :
    usedAfter [.transport 0 (oneByte .read 0x10) (grants ⟨0,0xFF,.rw⟩) 4] (grants ⟨0,0xFF,.rw⟩) 1 (oneByte .read 0x20) =
      some [(0,true)] ∧ usedAfter [.transport 0 (oneByte .read 0x80) (grants ⟨0x80,0x8F,.rw⟩) 4,
      .transport 0 (oneByte .read 0x10) (grants ⟨0,0xFF,.rw⟩) 4,.invalidate 0x80 0x80]
      (grants ⟨0,0xFF,.rw⟩) 0 (oneByte .read 0x20) = some [(0,false)] := by
  decide +kernel

end

end Qbox.DmiConverter
