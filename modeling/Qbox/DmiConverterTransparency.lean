import Qbox.DmiConverter

/-! The converter against plain forwarding: cutting a transaction into pieces along the granted ranges
has the effect of sending it whole to the target, under a condition on the byte enables, on the ranges
and on the target. -/
namespace Qbox.DmiConverter
open List

variable (target : Target)

/-- A range among the possible answers of a target that serve a command. -/
def Target.Offers (cmd : TlmCommand) (r : Range) : Prop :=
  ∃ k addr, target.dmi k cmd addr = some r ∧ r.granted cmd = true

def Known (cmd : TlmCommand) (c : Cache) (r : Range) : Prop := (∃ g ∈ c, g.range = r) ∨ target.Offers cmd r

/-- The cached ranges are of the port; a target's answer holds the address, no range starts inside it, and none is the
whole space. -/
structure Orderly (target : Target) (id : ℕ) (cmd : TlmCommand) (c : Cache) : Prop where
  own : ∀ g ∈ c, g.port = id
  holds : ∀ k addr r, target.dmi k cmd addr = some r → r.granted cmd = true → r.Holds addr
  apart : ∀ r f, target.Offers cmd r → Known target cmd c f → ¬ f.StartsInside r
  bounded : ∀ r, Known target cmd c r → r.endAddr-r.start+1 ≠ 0

section
variable {target : Target} {id : ℕ} {cmd : TlmCommand} {c : Cache} {k : ℕ} {addr : U64} {r : Range}

lemma Known.of_insert {f : Range} (hr : target.Offers cmd r)
    (h : Known target cmd (c.insert ⟨r,id,true⟩) f) : Known target cmd c f := by
  rcases h with ⟨g,hg,rfl⟩ | h
  · rcases Cache.mem_insert.mp hg with rfl | ⟨hg,-⟩
    · exact .inr hr
    · exact .inl ⟨g,hg,rfl⟩
  · exact .inr h

lemma Orderly.insert (h : Orderly target id cmd c) (hr : target.Offers cmd r) :
    Orderly target id cmd (c.insert ⟨r,id,true⟩) where
  own := by
    intro g hg
    rcases Cache.mem_insert.mp hg with rfl | ⟨hg,-⟩
    · rfl
    · exact h.own g hg
  holds := h.holds
  apart := fun e f he hf => h.apart e f he (hf.of_insert hr)
  bounded := fun f hf => h.bounded f (hf.of_insert hr)

lemma Orderly.lookup_insert (h : Orderly target id cmd c) (hr : target.dmi k cmd addr = some r)
    (hg : r.granted cmd = true) : lookup (c.insert ⟨r,id,true⟩) cmd addr = some ⟨r,id,true⟩ := by
  have hh := h.holds k addr r hr hg
  refine lookup_eq_some.mpr ⟨Cache.inCache_eq_some.mpr ⟨Cache.mem_insert.mpr (.inl rfl),hh,fun f hf hle => ?_⟩,hg⟩
  by_contra hlt
  have ho : target.Offers cmd r := ⟨k,addr,hr,hg⟩
  refine h.apart r f.range ho (.of_insert ho (.inl ⟨f,hf,rfl⟩)) ⟨not_le.mp hlt,hle.trans hh.2⟩

lemma Range.Holds.block_ne_zero (h : r.Holds addr) (hb : r.endAddr-r.start+1 ≠ 0) : r.endAddr-addr+1 ≠ 0 := by
  obtain ⟨hlo,hhi⟩ := h
  bv_omega

end

section
variable {txn : Txn} {target : Target} {id : ℕ} {q : Progress} {w : World} {g : Grant}

/-- The data left starts at the place reached, in the address, in the data and in the byte enables. -/
structure Ready (txn : Txn) (q : Progress) : Prop where
  addr : q.addr = txn.address+BitVec.ofNat 64 (txn.data.length-q.todo.length)
  todo : q.todo.length ≤ txn.data.length
  size : q.byt.length = txn.bel
  window : ∀ i, txn.enabled q.byt txn.bel i = byteEnabled txn.byteEnable (txn.data.length-q.todo.length+i)
  rest : q.belRemaining = txn.bel

def remaining (txn : Txn) (id : ℕ) (q : Progress) (w : World) : List U8 × (U64 → U8) :=
  transfer txn.command (fun i => byteEnabled txn.byteEnable (txn.data.length-q.todo.length+i)) q.addr q.todo (w.mems id)

/-- The loop returns, with the effect of forwarding the data not yet copied. -/
def Delivers (txn : Txn) (target : Target) (id : ℕ) (q : Progress) (w : World) : Prop :=
  ∃ n reply w', (loop txn target id n q w).returned = some (reply,w') ∧ reply.response = .ok ∧
    reply.data = q.copied++(remaining txn id q w).1 ∧ w'.mems = Function.update w.mems id (remaining txn id q w).2

lemma Ready.begin (txn : Txn) : Ready txn txn.begin where
  addr := by simp [Txn.begin]
  todo := le_rfl
  size := by cases hbe : txn.byteEnable <;> simp [Txn.begin,Txn.bel,hbe]
  window := by
    intro i
    cases hbe : txn.byteEnable <;> simp [Txn.begin,Txn.bel,Txn.enabled,byteEnabled,ByteEnable.enables,hbe]
  rest := by simp [Txn.begin]

lemma Delivers.of_done (ht : q.todo = []) (hu : q.isCacheUsed = true) : Delivers txn target id q w := by
  refine ⟨1,txn.finished q,w,?_,?_,?_,?_⟩
  · simp [loop,ht]
  · simp [Txn.finished,hu]
  · simp [Txn.finished,hu,remaining,ht]
  · simp [remaining,ht]

lemma Delivers.of_request (ht : q.todo ≠ []) (hl : lookup w.cache txn.command q.addr = none)
    (hr : request target id txn.command q = some g)
    (h : Delivers txn target id { q with requests := q.requests+1 } { w with cache := w.cache.insert g }) :
    Delivers txn target id q w := by
  obtain ⟨n,reply,w',hre,hrp⟩ := h
  refine ⟨n+1,reply,w',?_,hrp⟩
  simp only [loop,if_neg ht,hl,hr]
  exact hre

lemma Delivers.of_forward (hre : Ready txn q) (hto : q.todo ≠ [])
    (hl : lookup w.cache txn.command q.addr = none) (hr : request target id txn.command q = none)
    (ht : target.refuses txn.command q.addr q.todo.length = none)
    (hf : q.isCacheUsed = false → q.todo.length = txn.data.length) : Delivers txn target id q w := by
  have hen : ∀ i, (if q.isCacheUsed then txn.enabled q.byt q.belRemaining else byteEnabled txn.byteEnable) i =
      byteEnabled txn.byteEnable (txn.data.length-q.todo.length+i) := by
    intro i
    cases hu : q.isCacheUsed with
    | true => rw [if_pos rfl,hre.rest,hre.window]
    | false => simp [hf hu]
  have he : target.bTransport txn.command q.addr q.todo
      (if q.isCacheUsed then txn.enabled q.byt q.belRemaining else byteEnabled txn.byteEnable) (w.mems id) =
      (.ok,remaining txn id q w) := by
    simp only [Target.bTransport,ht,remaining]
    rw [transfer_congr fun i _ => hen i]
  refine ⟨1,(txn.forwardRest target id q w).1,(txn.forwardRest target id q w).2,?_,?_,?_,?_⟩
  · simp [loop,if_neg hto,hl,hr]
  · simp [Txn.forwardRest,he]
  · simp [Txn.forwardRest,he]
  · simp [Txn.forwardRest,he]

section
variable (txn : Txn) (g : Grant) (q : Progress) (w : World) (n : ℕ)

@[simp] lemma updateByteEnable_addr : (txn.updateByteEnable q n).addr = q.addr := by
  simp only [Txn.updateByteEnable]
  split_ifs <;> rfl

@[simp] lemma updateByteEnable_copied : (txn.updateByteEnable q n).copied = q.copied := by
  simp only [Txn.updateByteEnable]
  split_ifs <;> rfl

@[simp] lemma updateByteEnable_todo : (txn.updateByteEnable q n).todo = q.todo := by
  simp only [Txn.updateByteEnable]
  split_ifs <;> rfl

@[simp] lemma updateByteEnable_isCacheUsed : (txn.updateByteEnable q n).isCacheUsed = q.isCacheUsed := by
  simp only [Txn.updateByteEnable]
  split_ifs <;> rfl

lemma iterLen_le : Txn.iterLen q g ≤ q.todo.length := Nat.min_le_left _ _

lemma length_advance_todo : (txn.advance g q w).todo.length = q.todo.length-Txn.iterLen q g := by
  simp [Txn.advance]

end

section
variable (hr : Ready txn q)
include hr

lemma Ready.copy_eq (hp : g.port = id) : txn.copy g q w =
    transfer txn.command (fun i => byteEnabled txn.byteEnable (txn.data.length-q.todo.length+i)) q.addr
      (q.todo.take (Txn.iterLen q g)) (w.mems id) := by
  rw [Txn.copy,hp]
  exact transfer_congr fun i _ => hr.window i

lemma Ready.remaining_eq (hp : g.port = id) : remaining txn id q w =
    ((txn.copy g q w).1++(remaining txn id (txn.advance g q w) (txn.copyWorld g q w)).1,
      (remaining txn id (txn.advance g q w) (txn.copyWorld g q w)).2) := by
  have hle := iterLen_le g q
  have hto := hr.todo
  have hsh := txn.short
  have ht : (q.todo.take (Txn.iterLen q g)).length = Txn.iterLen q g := by simp [hle]
  have hpl : ∀ i, txn.data.length-(q.todo.drop (Txn.iterLen q g)).length+i =
      txn.data.length-q.todo.length+(Txn.iterLen q g+i) := by
    intro i
    rw [length_drop]
    omega
  have hs := take_append_drop (Txn.iterLen q g) q.todo
  have hl : (q.todo.take (Txn.iterLen q g)).length+(q.todo.drop (Txn.iterLen q g)).length ≤ 2^64 := by
    rw [ht,length_drop]
    omega
  have ha := transfer_append txn.command q.addr (w.mems id)
    (fun i => byteEnabled txn.byteEnable (txn.data.length-q.todo.length+i)) hl
  rw [hs,ht,← hr.copy_eq hp] at ha
  rw [remaining,ha]
  simp only [remaining,hpl,Txn.advance,Txn.copyWorld,updateByteEnable_addr,updateByteEnable_todo,hp,
    Function.update_self]

lemma Delivers.of_copy (ht : q.todo ≠ [])
    (hl : lookup w.cache txn.command q.addr = some g) (hp : g.port = id)
    (h : Delivers txn target id (txn.advance g q w) (txn.copyWorld g q w)) : Delivers txn target id q w := by
  obtain ⟨n,reply,w',hre,hok,hd,hm⟩ := h
  refine ⟨n+1,reply,w',?_,hok,?_,?_⟩
  · simp only [loop,if_neg ht,hl]
    exact hre
  · rw [hd,hr.remaining_eq hp,Txn.advance,updateByteEnable_copied,List.append_assoc]
  · rw [hm,hr.remaining_eq hp,Txn.copyWorld,hp,Function.update_idem]

omit hr in
/-- An array shorter than the data is turned so that it starts with the enable of the next byte. -/
lemma enabled_updateByteEnable (hsi : q.byt.length = txn.bel)
    (hs : txn.byteEnable = none ∨ txn.bel < txn.data.length) (n i : ℕ) :
    txn.enabled (txn.updateByteEnable q n).byt txn.bel i = txn.enabled q.byt txn.bel (n+i) := by
  cases hbe : txn.byteEnable with
  | none => simp [Txn.enabled,hbe]
  | some be =>
    have hl : ¬ txn.data.length ≤ txn.bel := by
      rcases hs with hno | hs
      · rw [hbe] at hno
        cases hno
      · omega
    have hp : 0 < txn.bel := by
      rw [Txn.bel,hbe]
      exact length_pos_of_ne_nil be.nonempty
    simp only [Txn.enabled,Txn.updateByteEnable,hbe,Option.isNone_some,Bool.false_or,Bool.false_eq_true,if_false,hl]
    by_cases hn : n % txn.bel = 0
    · rw [if_pos hn,Nat.add_mod,hn,Nat.zero_add,Nat.mod_mod]
    · have hi : i % txn.bel < q.byt.length := by
        rw [hsi]
        exact Nat.mod_lt i hp
      have ht : (i % txn.bel+n % txn.bel) % txn.bel = (n+i) % txn.bel := by
        rw [← Nat.add_mod,Nat.add_comm]
      rw [if_neg hn,getD_eq_getElem?_getD,getElem?_rotate hi,hsi,ht,getD_eq_getElem?_getD]

lemma Ready.advance (hs : txn.byteEnable = none ∨ txn.bel < txn.data.length) :
    Ready txn (txn.advance g q w) := by
  have hle := iterLen_le g q
  have ht := hr.todo
  have hp : txn.data.length-(txn.advance g q w).todo.length =
      txn.data.length-q.todo.length+Txn.iterLen q g := by
    rw [length_advance_todo]
    omega
  constructor
  · rw [hp,BitVec.ofNat_add,← BitVec.add_assoc,← hr.addr,Txn.advance,updateByteEnable_addr]
  · rw [length_advance_todo]
    omega
  · rw [Txn.advance,Txn.updateByteEnable]
    split_ifs <;> simp [hr.size]
  · intro i
    rw [hp,Nat.add_assoc,← hr.window,Txn.advance,enabled_updateByteEnable (by exact hr.size) hs]
  · rw [Txn.advance,Txn.updateByteEnable]
    split_ifs with h1 h2 h3
    · exact hr.rest
    · rcases hs with hn | hs
      · simp [hn] at h1
      · omega
    · exact hr.rest
    · rfl

end

/-- There are no enables, or fewer than data, or the data left is in one piece. -/
def InPieces (txn : Txn) (target : Target) (q : Progress) (c : Cache) : Prop :=
  txn.byteEnable = none ∨ txn.bel < txn.data.length ∨ ∀ r, Known target txn.command c r → r.Holds q.addr →
    r.granted txn.command = true → q.todo.length ≤ (r.endAddr-q.addr+1).toNat

/-- A turn that finds a range copies all that is left, or leaves less, with an array short enough. -/
lemma Delivers.of_lookup (ho : Orderly target id txn.command w.cache) (hr : Ready txn q)
    (ht : q.todo ≠ []) (hp : InPieces txn target q w.cache) (hl : lookup w.cache txn.command q.addr = some g)
    (hre : (txn.byteEnable = none ∨ txn.bel < txn.data.length) → (txn.advance g q w).todo ≠ [] →
      (txn.advance g q w).todo.length < q.todo.length →
      Delivers txn target id (txn.advance g q w) (txn.copyWorld g q w)) : Delivers txn target id q w := by
  obtain ⟨hin,hg⟩ := lookup_eq_some.mp hl
  obtain ⟨hme,hh,-⟩ := Cache.inCache_eq_some.mp hin
  have hk : Known target txn.command w.cache g.range := .inl ⟨g,hme,rfl⟩
  have hb := hh.block_ne_zero (ho.bounded _ hk)
  have hm : 0 < (g.range.endAddr-q.addr+1).toNat := by bv_omega
  have hln := length_advance_todo txn g q w
  refine .of_copy hr ht hl (ho.own g hme) ?_
  by_cases hd : (txn.advance g q w).todo = []
  · exact .of_done hd (by simp [Txn.advance])
  · have hle := length_pos_of_ne_nil hd
    have hi : Txn.iterLen q g = (g.range.endAddr-q.addr+1).toNat := by
      rw [Txn.iterLen] at hln ⊢
      omega
    refine hre ?_ hd (by omega)
    rcases hp with h | h | h
    · exact .inl h
    · exact .inr h
    · have := h _ hk hh hg
      omega

/-- The loop of an orderly call delivers what is left: each copy makes the data left shorter. -/
lemma delivers (hta : ∀ k < txn.data.length,
      target.refuses txn.command (txn.address+BitVec.ofNat 64 k) (txn.data.length-k) = none)
    (ho : Orderly target id txn.command w.cache) (hre : Ready txn q) (ht : q.todo ≠ [])
    (hfi : q.isCacheUsed = false → q.todo.length = txn.data.length) (hp : InPieces txn target q w.cache) :
    Delivers txn target id q w := by
  induction hm : q.todo.length using Nat.strong_induction_on generalizing q w with
  | _ m ih =>
    cases hl : lookup w.cache txn.command q.addr with
    | some g =>
      refine .of_lookup ho hre ht hp hl fun hs hlf hlt => ?_
      exact ih _ (hm ▸ hlt) ho (hre.advance hs) hlf (by simp [Txn.advance]) (hs.imp_right .inl) rfl
    | none =>
      cases hr : request target id txn.command q with
      | some g =>
        obtain ⟨r,ha,hg,rfl⟩ := request_eq_some.mp hr
        have hof : target.Offers txn.command r := ⟨_,_,ha,hg⟩
        have hre' : Ready txn { q with requests := q.requests+1 } := ⟨hre.addr,hre.todo,hre.size,hre.window,hre.rest⟩
        have hp' : InPieces txn target q (w.cache.insert ⟨r,id,true⟩) :=
          hp.imp_right (.imp_right fun h f hf => h f (hf.of_insert hof))
        refine .of_request ht hl hr (.of_lookup (ho.insert hof) hre' ht hp'
          (ho.lookup_insert ha hg) fun hs hlf hlt => ?_)
        exact ih _ (hm ▸ hlt) (ho.insert hof) (hre'.advance hs) hlf (by simp [Txn.advance])
          (hs.imp_right .inl) rfl
      | none =>
        refine .of_forward hre ht hl hr ?_ hfi
        have hpo := length_pos_of_ne_nil ht
        have hle := hre.todo
        have := hta (txn.data.length-q.todo.length) (by omega)
        rwa [← hre.addr,Nat.sub_sub_self hle] at this

end

def forwarded (id : ℕ) (txn : Txn) (mems : ℕ → U64 → U8) : TlmResponse × List U8 × (ℕ → U64 → U8) :=
  let r := target.bTransport txn.command txn.address txn.data (byteEnabled txn.byteEnable) (mems id)
  (r.1,r.2.1,Function.update mems id r.2.2)

def shown (x : Reply × World) : TlmResponse × List U8 × (ℕ → U64 → U8) := (x.1.response,x.1.data,x.2.mems)

/-- The first byte is not served through a range, so that the transaction is sent on whole. -/
def Plain (txn : Txn) (c : Cache) : Prop :=
  lookup c txn.command txn.address = none ∧ ∀ r, target.dmi 0 txn.command txn.address = some r →
    r.granted txn.command = false

/-- The ranges are in order, the target takes the transaction and each rest, and the enables allow for the pieces. -/
structure Served (target : Target) (id : ℕ) (txn : Txn) (c : Cache) : Prop extends
    Orderly target id txn.command c where
  taken : ∀ k < txn.data.length, target.refuses txn.command (txn.address+BitVec.ofNat 64 k) (txn.data.length-k) = none
  pieces : InPieces txn target txn.begin c

/-- The condition on a transaction and on the cache before it. -/
def Clean (id : ℕ) (txn : Txn) (c : Cache) : Prop := txn.data ≠ [] ∧ (Plain target txn c ∨ Served target id txn c)

section
variable {target : Target} {id : ℕ} {txn : Txn} {w : World}

lemma loop_returned_succ {n : ℕ} {q : Progress} {x : Reply × World}
    (h : (loop txn target id n q w).returned = some x) : (loop txn target id (n+1) q w).returned = some x := by
  induction n generalizing q w with
  | zero => simp [loop] at h
  | succ n ih =>
    rw [loop] at h ⊢
    by_cases ht : q.todo = []
    · rw [if_pos ht] at h ⊢
      exact h
    · rw [if_neg ht] at h ⊢
      cases hl : lookup w.cache txn.command q.addr with
      | some g =>
        rw [hl] at h
        exact ih h
      | none =>
        rw [hl] at h
        cases hr : request target id txn.command q with
        | some g =>
          rw [hr] at h
          exact ih h
        | none =>
          rw [hr] at h
          exact h

lemma loop_returned_mono {n m : ℕ} {q : Progress} {x : Reply × World} (hnm : n ≤ m)
    (h : (loop txn target id n q w).returned = some x) : (loop txn target id m q w).returned = some x := by
  induction hnm with
  | refl => exact h
  | step _ ih => exact loop_returned_succ ih

lemma bTransport_unique {n m : ℕ} {x y : Reply × World} (hx : (bTransport target id txn n w).returned = some x)
    (hy : (bTransport target id txn m w).returned = some y) : x = y := by
  have hx' := loop_returned_mono (le_max_left n m) hx
  have hy' := loop_returned_mono (le_max_right n m) hy
  exact Option.some.inj (hx'.symm.trans hy')

lemma Plain.forwards (ht : txn.data ≠ []) (h : Plain target txn w.cache) :
    ∃ n x, (bTransport target id txn n w).returned = some x ∧ shown x = forwarded target id txn w.mems := by
  have hr : request target id txn.command txn.begin = none := by
    by_contra hs
    obtain ⟨g,hg⟩ := Option.ne_none_iff_exists'.mp hs
    obtain ⟨r,ha,hgr,-⟩ := request_eq_some.mp hg
    rw [h.2 r ha] at hgr
    cases hgr
  have ht' : txn.begin.todo ≠ [] := ht
  have hl : lookup w.cache txn.command txn.begin.addr = none := h.1
  refine ⟨1,txn.forwardRest target id txn.begin w,?_,?_⟩
  · simp [bTransport,loop,if_neg ht',hl,hr]
  · simp [shown,forwarded,Txn.forwardRest,Txn.begin]

lemma Served.forwards (hto : txn.data ≠ []) (h : Served target id txn w.cache) :
    ∃ n x, (bTransport target id txn n w).returned = some x ∧ shown x = forwarded target id txn w.mems := by
  obtain ⟨n,reply,w',hr,hok,hd,hm⟩ := delivers h.taken h.toOrderly (Ready.begin txn) hto (fun _ => rfl) h.pieces
  refine ⟨n,(reply,w'),hr,?_⟩
  have ht := h.taken 0 (length_pos_of_ne_nil hto)
  simp only [BitVec.add_zero,Nat.sub_zero] at ht
  simp [shown,forwarded,Target.bTransport,ht,hok,hd,hm,remaining,Txn.begin,nil_append]

lemma Clean.forwards (h : Clean target id txn w.cache) :
    ∃ n x, (bTransport target id txn n w).returned = some x ∧ shown x = forwarded target id txn w.mems :=
  h.2.elim (·.forwards h.1) (·.forwards h.1)

end

/-- A transaction on a port, with the target as it behaves during the call. -/
structure Event where
  id : ℕ
  txn : Txn
  target : Target

/-- The events are handled one after the other; every call returns. -/
inductive Runs : World → List Event → List Reply → World → Prop where
  | nil {w : World} : Runs w [] [] w
  | cons {w w' w'' : World} {e : Event} {l : List Event} {n : ℕ} {reply : Reply} {replies : List Reply}
    (hcall : (bTransport e.target e.id e.txn n w).returned = some (reply,w')) (hrest : Runs w' l replies w'') :
    Runs w (e :: l) (reply :: replies) w''

def forwardAll : (ℕ → U64 → U8) → List Event → List (TlmResponse × List U8) × (ℕ → U64 → U8)
  | mems, [] => ([],mems)
  | mems, e :: l =>
    let r := forwarded e.target e.id e.txn mems
    ((r.1,r.2.1) :: (forwardAll r.2.2 l).1,(forwardAll r.2.2 l).2)

def CleanAlong : World → List Event → Prop
  | _, [] => True
  | w, e :: l => Clean e.target e.id e.txn w.cache ∧
    ∀ n reply w', (bTransport e.target e.id e.txn n w).returned = some (reply,w') → CleanAlong w' l

lemma CleanAlong.runs {w : World} {l : List Event} (h : CleanAlong w l) : ∃ replies w', Runs w l replies w' := by
  induction l generalizing w with
  | nil => exact ⟨[],w,.nil⟩
  | cons e l ih =>
    obtain ⟨n,⟨reply,w'⟩,hc,-⟩ := h.1.forwards
    obtain ⟨replies,w'',hr⟩ := ih (h.2 n reply w' hc)
    exact ⟨_,_,.cons hc hr⟩

lemma CleanAlong.forwards {w w' : World} {l : List Event} {replies : List Reply} (h : CleanAlong w l)
    (hru : Runs w l replies w') :
    replies.map (fun r => (r.response,r.data)) = (forwardAll w.mems l).1 ∧ w'.mems = (forwardAll w.mems l).2 := by
  induction hru with
  | nil => exact ⟨rfl,rfl⟩
  | cons hc _ ih =>
    obtain ⟨m,x,hx,hs⟩ := h.1.forwards
    obtain rfl := bTransport_unique hx hc
    have hr := ih (h.2 _ _ _ hc)
    simp only [shown] at hs
    simp [forwardAll,← hs,hr.1,hr.2]

/-- A run of such transactions returns, with the data, the writes and the responses of sending each whole. -/
theorem transparent {w : World} {l : List Event} (h : CleanAlong w l) :
    (∃ replies w', Runs w l replies w') ∧ ∀ replies w', Runs w l replies w' →
      replies.map (fun r => (r.response,r.data)) = (forwardAll w.mems l).1 ∧ w'.mems = (forwardAll w.mems l).2 :=
  ⟨h.runs,fun _ _ hr => h.forwards hr⟩

section
def halves : Target where
  refuses := fun _ _ _ => none
  dmi := fun _ _ addr => if addr ≤ 7 then some ⟨0,7,.rw⟩ else if addr ≤ 15 then some ⟨8,15,.rw⟩ else none

def writeAcross (be : Option ByteEnable) : Txn := ⟨.write,4,[1,2,3,4,5,6,7,8],be,.incomplete,false,by decide⟩

def cleared : World := ⟨.empty,fun _ _ => 0⟩

lemma halves_offers {cmd : TlmCommand} {r : Range} (h : halves.Offers cmd r) : r = ⟨0,7,.rw⟩ ∨ r = ⟨8,15,.rw⟩ := by
  obtain ⟨k,addr,h,-⟩ := h
  simp only [halves] at h
  split_ifs at h
  · exact .inl (Option.some.inj h).symm
  · exact .inr (Option.some.inj h).symm

lemma halves_known {cmd : TlmCommand} {r : Range} (h : Known halves cmd cleared.cache r) :
    r = ⟨0,7,.rw⟩ ∨ r = ⟨8,15,.rw⟩ := by
  rcases h with ⟨g,hg,-⟩ | h
  · exact absurd hg (Cache.not_mem_empty g)
  · exact halves_offers h

lemma halves_served {be : Option ByteEnable} (h : be = none ∨ (writeAcross be).bel < 8) :
    Served halves 0 (writeAcross be) cleared.cache where
  own := fun g hg => absurd hg (Cache.not_mem_empty g)
  holds := by
    intro k addr r h _
    simp only [halves] at h
    split_ifs at h with h7 h15
    · cases h
      exact ⟨by bv_omega,h7⟩
    · cases h
      exact ⟨by bv_omega,h15⟩
  apart := by
    intro r f hr hf
    rcases halves_offers hr with rfl | rfl <;> rcases halves_known hf with rfl | rfl <;> decide
  bounded := by
    intro r hr
    rcases halves_known hr with rfl | rfl <;> decide
  taken := fun _ _ => rfl
  pieces := h.imp_right .inl

def alternating : Event := ⟨0,writeAcross (some ⟨[0xFF,0],by decide⟩),halves⟩

/-- The condition is met by a write across two ranges with an array of two bytes. -/
theorem transparent_alternating :
    CleanAlong cleared [alternating] ∧ (∃ replies w', Runs cleared [alternating] replies w') ∧
      ∀ replies w', Runs cleared [alternating] replies w' →
        replies.map (fun r => (r.response,r.data)) = (forwardAll cleared.mems [alternating]).1 ∧
        w'.mems = (forwardAll cleared.mems [alternating]).2 := by
  have hc : CleanAlong cleared [alternating] :=
    ⟨⟨by decide,.inr (halves_served (.inr (by decide)))⟩,fun _ _ _ _ => trivial⟩
  exact ⟨hc,transparent hc⟩

def firstFour : Txn := writeAcross (some ⟨[0xFF,0xFF,0xFF,0xFF,0,0,0,0],by decide⟩)

/-- With an array as long as the data, the second half of a write starts with the first enable again. -/
theorem long_array_restarts : ((bTransport halves 0 firstFour 5 cleared).returned.map fun x =>
      (x.1.response,(List.range 12).map fun a => x.2.mems 0 (BitVec.ofNat 64 a))) =
        some (.ok,[0,0,0,0,1,2,3,4,5,6,7,8]) ∧ (forwarded halves 0 firstFour cleared.mems).1 = .ok ∧
    ((List.range 12).map fun a => (forwarded halves 0 firstFour cleared.mems).2.2 0 (BitVec.ofNat 64 a)) =
      [0,0,0,0,1,2,3,4,0,0,0,0] := by
  decide +kernel

end

end Qbox.DmiConverter
