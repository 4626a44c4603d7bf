import Qbox.DmiConverterPointers
import Qbox.DmiConverterTransparency

/-! Whether the loop of `b_transport` ends. A turn that asks for a range helps only if the next turn
finds that range, and a turn that copies helps only if it copies a byte. -/
namespace Qbox.DmiConverter
/-- Somewhere in `r`, behind the start of `f`, an access is served by `r` but not by `f`. -/
def Hides (f r : Range) : Prop :=
  ∃ cmd addr, r.Holds addr ∧ r.granted cmd = true ∧ r.start < f.start ∧ f.start ≤ addr ∧
    ¬ (f.Holds addr ∧ f.granted cmd = true)

/-- No range that may be granted hides another one, and none is the whole address space. -/
structure Revealing (ports : ℕ) (allowed : ℕ → Range → Prop) : Prop where
  seen : ∀ i < ports, ∀ j < ports, ∀ r f, allowed i r → allowed j f → ¬ Hides f r
  bounded : ∀ i < ports, ∀ r, allowed i r → r.Usable → r.endAddr-r.start+1 ≠ 0

/-- What the target grants holds the address asked for and allows the access. -/
def Target.Serves (target : Target) : Prop :=
  ∀ k cmd addr r, target.dmi k cmd addr = some r → r.Holds addr ∧ r.granted cmd = true

def Returns (txn : Txn) (target : Target) (id : ℕ) (q : Progress) (w : World) : Prop :=
  ∃ n x, (loop txn target id n q w).returned = some x

section
variable {txn : Txn} {target : Target} {id : ℕ} {q : Progress} {w : World} {g : Grant}

lemma Returns.of_copy (ht : q.todo ≠ []) (hl : lookup w.cache txn.command q.addr = some g)
    (h : Returns txn target id (txn.advance g q w) (txn.copyWorld g q w)) : Returns txn target id q w := by
  obtain ⟨n,x,hx⟩ := h
  refine ⟨n+1,x,?_⟩
  simp only [loop,if_neg ht,hl]
  exact hx

section
variable (ht : q.todo ≠ []) (hl : lookup w.cache txn.command q.addr = none)
include ht hl

lemma Returns.of_request
    (hr : request target id txn.command q = some g)
    (h : Returns txn target id { q with requests := q.requests+1 } { w with cache := w.cache.insert g }) :
    Returns txn target id q w := by
  obtain ⟨n,x,hx⟩ := h
  refine ⟨n+1,x,?_⟩
  simp only [loop,if_neg ht,hl,hr]
  exact hx

lemma Returns.of_forward
    (hr : request target id txn.command q = none) : Returns txn target id q w := by
  refine ⟨1,txn.forwardRest target id q w,?_⟩
  simp [loop,if_neg ht,hl,hr]

end

lemma Returns.of_done (ht : q.todo = []) : Returns txn target id q w := by
  refine ⟨1,(txn.finished q,w),?_⟩
  simp [loop,ht]

end

section
variable {ports : ℕ} {allowed : ℕ → Range → Prop}

def Listed (ports : ℕ) (allowed : ℕ → Range → Prop) (c : Cache) : Prop :=
  ∀ g ∈ c, g.port < ports ∧ allowed g.port g.range

lemma Listed.insert {c : Cache} {id : ℕ} {r : Range} (h : Listed ports allowed c) (hid : id < ports)
    (hr : allowed id r) : Listed ports allowed (c.insert ⟨r,id,true⟩) := by
  intro g hg
  rcases Cache.mem_insert.mp hg with rfl | ⟨hg,-⟩
  · exact ⟨hid,hr⟩
  · exact h g hg

lemma Reaches.listed {mems : ℕ → U64 → U8} {w : World} (h : Reaches ports allowed ⟨.empty,mems⟩ w) :
    Listed ports allowed w.cache := by
  refine h.invariant (fun _ _ _ h hid hr => h.insert hid hr) (fun c start stop h g hg => ?_)
    fun g hg => absurd hg (Cache.not_mem_empty g)
  obtain ⟨f,hf,rfl⟩ := Cache.mem_withdraw.mp hg
  exact h f (Cache.mem_cacheClean.mp hf).1

/-- After a miss the range just granted is found: one that hides it would have been found before. -/
lemma Listed.lookup_insert {c : Cache} {id : ℕ} {r : Range} {cmd : TlmCommand} {addr : U64}
    (hre : Revealing ports allowed) (h : Listed ports allowed c) (hid : id < ports) (hr : allowed id r)
    (hh : r.Holds addr) (hg : r.granted cmd = true) (hm : lookup c cmd addr = none) :
    lookup (c.insert ⟨r,id,true⟩) cmd addr = some ⟨r,id,true⟩ := by
  refine lookup_eq_some.mpr ⟨Cache.inCache_eq_some.mpr ⟨Cache.mem_insert.mpr (.inl rfl),hh,?_⟩,hg⟩
  intro f hf hle
  rcases Cache.mem_insert.mp hf with rfl | ⟨hf,-⟩
  · exact le_rfl
  · by_contra hlt
    cases hb : c.map.beforeUpperBound addr with
    | none => exact absurd hle (not_le.mpr (OrderedMap.beforeUpperBound_eq_none.mp hb _ (Cache.mem_iff.mp hf)))
    | some e =>
      obtain ⟨he,hle',hma⟩ := OrderedMap.beforeUpperBound_eq_some.mp hb
      have hs := c.keyed e he
      obtain ⟨hp,hal⟩ := h e.2 ⟨_,he⟩
      have hbe : r.start < e.2.range.start := by
        rw [hs]
        exact (not_le.mp hlt).trans_le (hma _ (Cache.mem_iff.mp hf) hle)
      have hse : e.2.range.Holds addr ∧ e.2.range.granted cmd = true := by
        by_contra hn
        exact hre.seen id hid _ hp _ _ hr hal ⟨cmd,addr,hh,hg,hbe,hs ▸ hle',hn⟩
      have hfo : lookup c cmd addr = some e.2 := by
        refine lookup_eq_some.mpr ⟨Cache.inCache_eq_some.mpr ⟨⟨_,he⟩,hse.1,fun a ha hle => ?_⟩,hse.2⟩
        rw [hs]
        exact hma _ (Cache.mem_iff.mp ha) hle
      cases hm.symm.trans hfo

lemma Listed.length_advance_lt {txn : Txn} {q : Progress} {w : World} {g : Grant} (hr : Revealing ports allowed)
    (h : Listed ports allowed w.cache) (ht : q.todo ≠ []) (hl : lookup w.cache txn.command q.addr = some g) :
    (txn.advance g q w).todo.length < q.todo.length := by
  obtain ⟨hin,hg⟩ := lookup_eq_some.mp hl
  obtain ⟨hm,hh,-⟩ := Cache.inCache_eq_some.mp hin
  obtain ⟨hp,ha⟩ := h g hm
  have hb := hr.bounded _ hp _ ha ⟨hh.1.trans hh.2,_,hg⟩
  have hbl : (g.range.endAddr-q.addr+1).toNat ≠ 0 := fun h =>
    hh.block_ne_zero hb (BitVec.eq_of_toNat_eq h)
  have hpo := List.length_pos_iff.mpr ht
  rw [length_advance_todo,Txn.iterLen]
  omega

/-- By induction on the data not yet copied: a turn copies, or it asks and the next one copies. -/
lemma Listed.returns {txn : Txn} {target : Target} {id : ℕ} (hre : Revealing ports allowed) (hid : id < ports)
    (hs : target.Serves) (hd : ∀ k cmd addr r, target.dmi k cmd addr = some r → allowed id r) {q : Progress}
    {w : World} (h : Listed ports allowed w.cache) : Returns txn target id q w := by
  induction hn : q.todo.length using Nat.strong_induction_on generalizing q w with
  | _ n ih =>
    have hc : ∀ {q : Progress} {w : World} {g : Grant}, q.todo.length = n → Listed ports allowed w.cache →
        q.todo ≠ [] → lookup w.cache txn.command q.addr = some g → Returns txn target id q w := by
      intro q w g hn h ht hl
      have hlt := h.length_advance_lt hre ht hl
      rw [hn] at hlt
      exact .of_copy ht hl (ih _ hlt h rfl)
    by_cases ht : q.todo = []
    · exact .of_done ht
    · cases hl : lookup w.cache txn.command q.addr with
      | some g => exact hc hn h ht hl
      | none =>
        cases hr : request target id txn.command q with
        | none => exact .of_forward ht hl hr
        | some g =>
          obtain ⟨r,han,hg,rfl⟩ := request_eq_some.mp hr
          have ha := hd _ _ _ _ han
          have hse := h.lookup_insert hre hid ha (hs _ _ _ _ han).1 hg hl
          exact .of_request ht hl hr (hc hn (h.insert hid ha) ht hse)

end

section
variable {txn : Txn} {target : Target} {id : ℕ} {q : Progress} {w : World}

/-- The answer `r` wherever it serves the access. -/
def answers (r : Range) : Target where
  refuses := fun _ _ _ => none
  dmi := fun _ cmd addr => if r.Holds addr ∧ r.granted cmd = true then some r else none

lemma answers_eq_some {r s : Range} {k : ℕ} {cmd : TlmCommand} {addr : U64} :
    (answers r).dmi k cmd addr = some s ↔ (r.Holds addr ∧ r.granted cmd = true) ∧ r = s := by
  simp [answers]

lemma answers_serves (r : Range) : (answers r).Serves := by
  intro k cmd addr s h
  obtain ⟨hs,rfl⟩ := answers_eq_some.mp h
  exact hs

/-- Behind a range that hides it, the same grant is asked for in every turn. -/
lemma not_returned_of_hidden {r : Range} {f : Grant} (hh : r.Holds q.addr) (hgr : r.granted txn.command = true)
    (hlt : r.start < f.range.start) (hle : f.range.start ≤ q.addr)
    (hn : ¬ (f.range.Holds q.addr ∧ f.range.granted txn.command = true)) (ht : q.todo ≠ []) (hf : f ∈ w.cache)
    (ho : ∀ g ∈ w.cache, g = f ∨ g = ⟨r,id,true⟩) (n : ℕ) : (loop txn (answers r) id n q w).returned = none := by
  induction n generalizing q w with
  | zero => rfl
  | succ n ih =>
    have hm : lookup w.cache txn.command q.addr = none := by
      by_contra hs
      obtain ⟨g,hg⟩ := Option.ne_none_iff_exists'.mp hs
      obtain ⟨hin,hgr'⟩ := lookup_eq_some.mp hg
      obtain ⟨hme,hh',hma⟩ := Cache.inCache_eq_some.mp hin
      rcases ho g hme with rfl | rfl
      · exact hn ⟨hh',hgr'⟩
      · exact absurd hlt (not_lt.mpr (hma f hf hle))
    have ha : request (answers r) id txn.command q = some ⟨r,id,true⟩ :=
      request_eq_some.mpr ⟨r,answers_eq_some.mpr ⟨⟨hh,hgr⟩,rfl⟩,hgr,rfl⟩
    simp only [loop,if_neg ht,hm,ha]
    refine ih hh hle hn ht (Cache.mem_insert.mpr (.inr ⟨hf,hlt.ne'⟩)) fun g hg => ?_
    rcases Cache.mem_insert.mp hg with rfl | ⟨hg,-⟩
    · exact .inr rfl
    · exact ho g hg

/-- From the start of the whole address space no byte is copied. -/
lemma not_returned_of_whole {g : Grant} (hl : lookup w.cache txn.command q.addr = some g)
    (hw : g.range.endAddr-q.addr+1 = 0) (ht : q.todo ≠ []) (n : ℕ) : (loop txn target id n q w).returned = none := by
  induction n generalizing q w with
  | zero => rfl
  | succ n ih =>
    have hz : Txn.iterLen q g = 0 := by
      rw [Txn.iterLen,hw]
      exact Nat.min_zero _
    have ha : (txn.advance g q w).addr = q.addr := by simp [Txn.advance,hz]
    have hd : (txn.advance g q w).todo = q.todo := by simp [Txn.advance,hz]
    simp only [loop,if_neg ht,hl]
    refine ih ?_ ?_ ?_
    · rw [ha]
      exact hl
    · rw [ha]
      exact hw
    · rwa [hd]

/-- In every run each transaction returns exactly when no possible grant hides another one or is the whole address
space. -/
theorem bTransport_returns_iff (ports : ℕ) (allowed : ℕ → Range → Prop) (mems : ℕ → U64 → U8) :
    (∀ w, Reaches ports allowed ⟨.empty,mems⟩ w → ∀ id txn target,
      (Action.transport id txn target 0).Valid ports allowed → target.Serves →
      ∃ n x, (bTransport target id txn n w).returned = some x) ↔ Revealing ports allowed := by
  constructor
  · intro h
    have hst : ∀ {i j : ℕ} {r f : Range} (cmd : TlmCommand) (addr : U64), i < ports → j < ports → allowed i r →
        allowed j f → (∀ n, (bTransport (answers r) i (oneByte cmd addr) n
          ⟨Cache.empty.insert ⟨f,j,true⟩,mems⟩).returned = none) → False := by
      intro i j r f cmd addr hi hj hr hf hn
      obtain ⟨n,x,hx⟩ := h _ (Reaches.start.insert hj hf (by simp)) i (oneByte cmd addr) (answers r)
        ⟨hi,fun k cmd addr s hs => (answers_eq_some.mp hs).2 ▸ hr⟩ (answers_serves r)
      cases (hn n).symm.trans hx
    constructor
    · rintro i hi j hj r f hr hf ⟨cmd,addr,hh,hgr,hlt,hle,hno⟩
      refine hst cmd addr hi hj hr hf ?_
      refine not_returned_of_hidden hh hgr hlt hle hno (by simp [oneByte,Txn.begin])
        (Cache.mem_insert.mpr (.inl rfl)) fun g hg => ?_
      rcases Cache.mem_insert.mp hg with rfl | ⟨hg,-⟩
      · exact .inl rfl
      · exact absurd hg (Cache.not_mem_empty g)
    · rintro i hi r hr ⟨hle,cmd,hgr⟩ hwh
      refine hst cmd r.start hi hi hr hr ?_
      refine not_returned_of_whole (g := ⟨r,i,true⟩) ?_ hwh (by simp [oneByte,Txn.begin])
      refine lookup_eq_some.mpr ⟨Cache.inCache_eq_some.mpr ⟨Cache.mem_insert.mpr (.inl rfl),⟨le_rfl,hle⟩,?_⟩,hgr⟩
      intro f hf _
      rcases Cache.mem_insert.mp hf with rfl | ⟨hf,-⟩
      · exact le_rfl
      · exact absurd hf (Cache.not_mem_empty f)
  · intro hre w hw id txn target hv hse
    exact hw.listed.returns hre hv.1 hse hv.2

/-- After a read-only grant a write behind its start asks for ever; and a read at the start of the whole address space
copies nothing for ever. -/
theorem write_hidden_for_ever :
    (∃ w, act ⟨.empty,fun _ _ => 0⟩ (.transport 0 (oneByte .read 4) (answers ⟨4,7,.ro⟩) 3) = some w ∧
      ∀ n, (bTransport (answers ⟨0,15,.rw⟩) 0 (oneByte .write 5) n w).returned = none) ∧
    ∀ n, (bTransport (answers ⟨0,-1,.rw⟩) 0 (oneByte .read 0) n ⟨.empty,fun _ _ => 0⟩).returned = none := by
  constructor
  · have hr : (act ⟨.empty,fun _ _ => 0⟩ (.transport 0 (oneByte .read 4) (answers ⟨4,7,.ro⟩) 3)).map
        (·.cache.map.entries) = some [(4,⟨⟨4,7,.ro⟩,0,true⟩)] := by decide +kernel
    obtain ⟨w,hw,he⟩ := Option.map_eq_some_iff.mp hr
    have hm : ∀ g, g ∈ w.cache ↔ g = ⟨⟨4,7,.ro⟩,0,true⟩ := by
      intro g
      change (∃ k, (k,g) ∈ w.cache.map.entries) ↔ _
      simp [he]
    refine ⟨w,hw,fun n => ?_⟩
    exact not_returned_of_hidden (by decide) rfl (by decide) (by decide) (by decide)
      (by decide) ((hm _).mpr rfl) (fun g hg => .inl ((hm g).mp hg)) n
  · intro n
    cases n with
    | zero => rfl
    | succ n =>
      -- The first turn asks for the range, and the next ones find it.
      exact not_returned_of_whole (g := ⟨⟨0,-1,.rw⟩,0,true⟩) (by decide) (by decide) (by decide) n

end

end Qbox.DmiConverter
