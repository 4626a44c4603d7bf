import Qbox.GuardedRun
import Qbox.RingQueue
import Qbox.Smmuv3Registers
import Qbox.Smmuv3Reporting

/-! The command queue over whole runs: which commands are dispatched, in which order, and
where the queue stops at an error. -/
namespace Qbox.Smmuv3
open MachineWord DmaSocket RingQueue Core

variable {M : Type} [DmaSocket M]

def cmdAddr (base : U64) (n p : ℕ) : U64 := base+BitVec.ofNat 64 (p % 2^n)*16

/-- The commands the loop dispatches, each with the index it was fetched at. -/
def consumeLog (base : U64) (log2size : ℕ) (prod : U32) : ℕ → U32 → Smmuv3 M → List (ℕ × Cmd)
  | 0, _, _ => []
  | n+1, cons, s =>
    if prod &&& lowMask (log2size+1) = cons &&& lowMask (log2size+1) then []
    else match dmaRead (base+(cons &&& lowMask log2size).setWidth 64*16) 16 s.bus with
      | (none,_) => []
      | (some cmd,bus) =>
        match execCmd cmd (s.setBus bus) with
        | none => []
        | some s => ((cons &&& lowMask (log2size+1)).toNat,cmd) ::
            consumeLog base log2size prod n ((cons+1) &&& lowMask (log2size+1)) s

/-- The commands fetched at the indices from `p` on are handled one after the other, each once. -/
def Dispatches (base : U64) (n : ℕ) : ℕ → Smmuv3 M → List (ℕ × Cmd) → Smmuv3 M → Prop
  | _, s, [], t => t = s
  | p, s, (i,cmd) :: log, t => i = p ∧ ∃ bus op, dmaRead (cmdAddr base n p) 16 s.bus = (some cmd,bus) ∧
      decodeOp cmd.opcode = some op ∧ Dispatches base n ((p+1) % 2^(n+1)) (handleOp op cmd (s.setBus bus)) log t

/-- The command at an index cannot be fetched, or its opcode is unknown; the error code says which. -/
inductive Offends (base : U64) (n p : ℕ) (s : Smmuv3 M) : U32 → M → Prop where
  | fetch {bus : M} (h : dmaRead (cmdAddr base n p) 16 s.bus = (none,bus)) : Offends base n p s 2 bus
  | opcode {cmd : Cmd} {bus : M} (h : dmaRead (cmdAddr base n p) 16 s.bus = (some cmd,bus))
      (hop : decodeOp cmd.opcode = none) : Offends base n p s 1 bus

lemma Dispatches.index {base : U64} {n p : ℕ} {s t : Smmuv3 M} {log : List (ℕ × Cmd)} (hp : p < 2^(n+1))
    (h : Dispatches base n p s log t) (i : ℕ) (hi : i < log.length) : log[i].1 = (p+i) % 2^(n+1) := by
  induction log generalizing p s i with
  | nil => cases hi
  | cons e log ih =>
    obtain ⟨rfl,bus,op,-,-,hr⟩ := h
    cases i with
    | zero => exact (Nat.mod_eq_of_lt hp).symm
    | succ i =>
      have hn := ih (Nat.mod_lt _ (Nat.two_pow_pos _)) hr i (Nat.lt_of_succ_lt_succ hi)
      rw [Nat.mod_add_mod] at hn
      rw [List.getElem_cons_succ,hn]
      congr 1
      omega

lemma cmdAddr_eq (base : U64) (n : ℕ) (cons : U32) :
    base+(cons &&& lowMask n).setWidth 64*16 = cmdAddr base n (cons.toNat % 2^(n+1)) := by
  rw [cmdAddr,Nat.mod_mod_of_dvd _ (pow_dvd_pow 2 n.le_succ),← toNat_and_lowMask,BitVec.ofNat_toNat]

lemma and_lowMask_eq_iff (n : ℕ) (prod cons : U32) :
    prod &&& lowMask n = cons &&& lowMask n ↔ prod.toNat % 2^n = cons.toNat % 2^n := by
  rw [← BitVec.toNat_inj,toNat_and_lowMask,toNat_and_lowMask]

/-- The commands are dispatched from a consumer index up to the producer index, or to one that offends. -/
structure Consumed (base : U64) (n : ℕ) (prod cons : U32) (s : Smmuv3 M) (log : List (ℕ × Cmd))
    (r : U32 × Option U32 × Smmuv3 M) (t : Smmuv3 M) : Prop where
  dispatches : Dispatches base n (cons.toNat % 2^(n+1)) s log t
  stops : r.1.toNat % 2^(n+1) = (cons.toNat % 2^(n+1)+log.length) % 2^(n+1)
  outcome : (r.2 = (none,t) ∧ log.length = distance (2^(n+1)) (cons.toNat % 2^(n+1)) (prod.toNat % 2^(n+1))) ∨
    ∃ code bus, r.2 = (some code,t.setBus bus) ∧ Offends base n (r.1.toNat % 2^(n+1)) t code bus ∧
      log.length < distance (2^(n+1)) (cons.toNat % 2^(n+1)) (prod.toNat % 2^(n+1))

namespace Consumed
variable {base : U64} {n : ℕ} {prod cons : U32} {s t : Smmuv3 M} {log : List (ℕ × Cmd)}
  {r : U32 × Option U32 × Smmuv3 M}

lemma drained (h : prod.toNat % 2^(n+1) = cons.toNat % 2^(n+1)) : Consumed base n prod cons s [] (cons,none,s) s := by
  refine ⟨rfl,(Nat.mod_mod _ _).symm,.inl ⟨rfl,?_⟩⟩
  rw [h,distance_self (Nat.mod_lt _ (Nat.two_pow_pos _))]
  rfl

lemma error (hne : cons.toNat % 2^(n+1) ≠ prod.toNat % 2^(n+1)) {code : U32} {bus : M}
    (h : Offends base n (cons.toNat % 2^(n+1)) s code bus) :
    Consumed base n prod cons s [] (cons,some code,s.setBus bus) s := by
  have hd := distance_succ (Nat.mod_lt _ (Nat.two_pow_pos _)) (Nat.mod_lt _ (Nat.two_pow_pos _)) hne
  exact ⟨rfl,(Nat.mod_mod _ _).symm,.inr ⟨code,bus,rfl,h,by rw [List.length_nil]; omega⟩⟩

lemma dispatch (hn : n ≤ 19) (hne : cons.toNat % 2^(n+1) ≠ prod.toNat % 2^(n+1)) {cmd : Cmd} {bus : M} {op : CmdOp}
    (hre : dmaRead (cmdAddr base n (cons.toNat % 2^(n+1))) 16 s.bus = (some cmd,bus))
    (hop : decodeOp cmd.opcode = some op)
    (h : Consumed base n prod ((cons+1) &&& lowMask (n+1)) (handleOp op cmd (s.setBus bus)) log r t) :
    Consumed base n prod cons s (((cons &&& lowMask (n+1)).toNat,cmd) :: log) r t := by
  have hdi := distance_succ (Nat.mod_lt _ (Nat.two_pow_pos _)) (Nat.mod_lt _ (Nat.two_pow_pos _)) hne
  have hsu : ((cons+1) &&& lowMask (n+1)).toNat = (cons.toNat+1) % 2^(n+1) := toNat_succ_and_lowMask cons (by omega)
  have hnx : ((cons+1) &&& lowMask (n+1)).toNat % 2^(n+1) = (cons.toNat % 2^(n+1)+1) % 2^(n+1) := by
    rw [hsu,Nat.mod_mod,Nat.mod_add_mod]
  obtain ⟨hd,hs,ho⟩ := h
  rw [hnx] at hd hs ho
  refine ⟨⟨toNat_and_lowMask _ _,bus,op,hre,hop,hd⟩,?_,?_⟩
  · rw [hs,Nat.mod_add_mod,List.length_cons,Nat.add_assoc,Nat.add_comm 1]
  · rcases ho with ⟨hr,hl⟩ | ⟨code,bus',hr,hof,hl⟩
    · exact .inl ⟨hr,by rw [List.length_cons,hl,hdi]⟩
    · exact .inr ⟨code,bus',hr,hof,by rw [List.length_cons]; omega⟩

end Consumed

lemma consumeLoop_spec (base : U64) {n : ℕ} (hn : n ≤ 19) (prod : U32) (fuel : ℕ) (cons : U32) (s : Smmuv3 M)
    (hf : distance (2^(n+1)) (cons.toNat % 2^(n+1)) (prod.toNat % 2^(n+1)) ≤ fuel) :
    ∃ t, Consumed base n prod cons s (consumeLog base n prod fuel cons s)
      (consumeLoop execCmd base n prod fuel cons s) t := by
  have hm : ∀ x : U32, x.toNat % 2^(n+1) < 2^(n+1) := fun x => Nat.mod_lt _ (Nat.two_pow_pos _)
  induction fuel generalizing cons s with
  | zero =>
    have ha := add_distance_mod (hm cons) (hm prod)
    rw [Nat.le_zero.mp hf,Nat.add_zero,Nat.mod_mod] at ha
    exact ⟨s,.drained ha.symm⟩
  | succ fuel ih =>
    rw [consumeLog,consumeLoop]
    simp only [and_lowMask_eq_iff,cmdAddr_eq]
    by_cases heq : prod.toNat % 2^(n+1) = cons.toNat % 2^(n+1)
    · rw [if_pos heq,if_pos heq]
      exact ⟨s,.drained heq⟩
    · rw [if_neg heq,if_neg heq]
      rcases hr : dmaRead (cmdAddr base n (cons.toNat % 2^(n+1))) 16 s.bus with ⟨_ | cmd,bus⟩
      · exact ⟨s,.error (Ne.symm heq) (.fetch hr)⟩
      · simp only [execCmd]
        cases hop : decodeOp (Cmd.opcode cmd) with
        | none => exact ⟨s,.error (Ne.symm heq) (.opcode hr hop)⟩
        | some op =>
          have hd := distance_succ (hm cons) (hm prod) (Ne.symm heq)
          have hs : ((cons+1) &&& lowMask (n+1)).toNat = (cons.toNat+1) % 2^(n+1) :=
            toNat_succ_and_lowMask cons (by omega)
          obtain ⟨t,ht⟩ := ih ((cons+1) &&& lowMask (n+1)) (handleOp op cmd (s.setBus bus)) (by
            rw [hs,Nat.mod_mod,← Nat.mod_add_mod]
            omega)
          exact ⟨t,ht.dispatch hn (Ne.symm heq) hr hop⟩

/-- The registers of the command queue are as they were. -/
structure SameCmdq (r r' : Regs) : Prop where
  baseLo : r'.cmdqBaseLo = r.cmdqBaseLo
  baseHi : r'.cmdqBaseHi = r.cmdqBaseHi
  prod : r'.cmdqProd = r.cmdqProd
  cons : r'.cmdqCons = r.cmdqCons
  cmdqen : r'.cmdqen = r.cmdqen

namespace SameCmdq
lemma refl (r : Regs) : SameCmdq r r := ⟨rfl,rfl,rfl,rfl,rfl⟩

lemma trans {r1 r2 r3 : Regs} (h12 : SameCmdq r1 r2) (h23 : SameCmdq r2 r3) : SameCmdq r1 r3 :=
  ⟨h23.baseLo.trans h12.baseLo,h23.baseHi.trans h12.baseHi,h23.prod.trans h12.prod,h23.cons.trans h12.cons,
    h23.cmdqen.trans h12.cmdqen⟩

lemma of_signals {c c' : Core M} (h : Core.Signals c c') : SameCmdq c.regs c'.regs := by
  rw [h.regs]
  exact ⟨rfl,rfl,rfl,rfl,rfl⟩

lemma setGerror {bit : ℕ} (hb : bit < 32) (c : Core M) : SameCmdq c.regs (Core.setGerror bit c).regs :=
  .of_signals (setGerror_signals hb c).1

end SameCmdq

lemma handleOp_sameCmdq (op : CmdOp) (c : Cmd) (s : Smmuv3 M) : SameCmdq s.regs (handleOp op c s).regs := by
  cases op with
  | resume =>
    rw [handleOp,handleCmdResume]
    split <;> exact .refl _
  | sync =>
    rw [handleOp,handleCmdSync]
    split_ifs
    · show SameCmdq s.regs (syncMessage _ c s.streams.core).regs
      rw [syncMessage]
      split_ifs
      · exact .refl _
      · split
        · exact .refl _
        · next bus _ => exact SameCmdq.setGerror (by decide) { s.streams.core with bus := bus }
    · exact .refl _
  | _ => exact .refl _

lemma Dispatches.sameCmdq {base : U64} {n p : ℕ} {s t : Smmuv3 M} {log : List (ℕ × Cmd)}
    (h : Dispatches base n p s log t) : SameCmdq s.regs t.regs := by
  induction log generalizing p s with
  | nil =>
    cases h
    exact .refl _
  | cons e log ih =>
    obtain ⟨-,bus,op,-,-,hr⟩ := h
    exact (handleOp_sameCmdq op e.2 (s.setBus bus)).trans (ih hr)

lemma withErr_index {n : ℕ} (hn : n ≤ 19) (cons code : U32) :
    (withErr cons code).toNat % 2^(n+1) = cons.toNat % 2^(n+1) := by
  rw [← and_lowMask_eq_iff]
  refine BitVec.eq_of_getLsbD_eq fun i hi => ?_
  simp only [withErr,BitVec.getLsbD_and,BitVec.getLsbD_or,BitVec.getLsbD_not,BitVec.getLsbD_shiftLeft,
    getLsbD_lowMask]
  grind

lemma extract32_withErr (cons code : U32) : extract32 (withErr cons code) 23 7 = code &&& lowMask 7 := by
  refine BitVec.eq_of_getLsbD_eq fun i hi => ?_
  simp only [extract32,withErr,BitVec.getLsbD_and,BitVec.getLsbD_or,BitVec.getLsbD_not,
    BitVec.getLsbD_shiftLeft,BitVec.getLsbD_ushiftRight,getLsbD_lowMask]
  grind

def setCmdqCons (cons : U32) (s : Smmuv3 M) : Smmuv3 M := s.mapRegs ({ · with cmdqCons := cons })

section
variable (s : Smmuv3 M)

def cmdqLog2size : ℕ := queueLog2size s.regs.cmdqBaseLo

def consIndex : ℕ := s.regs.cmdqCons.toNat % 2^(s.cmdqLog2size+1)

def prodIndex : ℕ := s.regs.cmdqProd.toNat % 2^(s.cmdqLog2size+1)

def unconsumed : ℕ := distance (2^(s.cmdqLog2size+1)) s.consIndex s.prodIndex

def cmdqStart : U64 := cmdqBase s.regs.cmdqBaseLo s.regs.cmdqBaseHi

def drainLog : List (ℕ × Cmd) := if s.regs.cmdqen = true ∧ s.cmdqLog2size ≠ 0 then
    consumeLog s.cmdqStart s.cmdqLog2size s.regs.cmdqProd (consumeFuel s.cmdqLog2size) s.regs.cmdqCons s
  else []

end

/-- The commands of the log are dispatched in turn, each once, until the queue is empty or one offends; only the
consumer index and the error report change then. -/
inductive Drained (s : Smmuv3 M) (log : List (ℕ × Cmd)) (s' : Smmuv3 M) : Prop where
  | empty {t : Smmuv3 M} {cons : U32}
      (hdispatches : Dispatches s.cmdqStart s.cmdqLog2size s.consIndex s log t)
      (hlength : log.length = s.unconsumed)
      (hstate : s' = t.setCmdqCons cons)
      (hcons : s'.consIndex = s.prodIndex)
  | error {t : Smmuv3 M} {cons code : U32} {bus : M}
      (hdispatches : Dispatches s.cmdqStart s.cmdqLog2size s.consIndex s log t)
      (hlength : log.length < s.unconsumed)
      (hoffends : Offends s.cmdqStart s.cmdqLog2size s'.consIndex t code bus)
      (hstate : s' = ((t.setBus bus).setCmdqCons cons).mapCore (setCmdqErr code))
      (hcons : s'.consIndex = (s.consIndex+log.length) % 2^(s.cmdqLog2size+1))
      (herr : extract32 s'.regs.cmdqCons 23 7 = code)
      (hactive : s'.streams.core.Active gerrorBitCmdqErr)

variable (s : Smmuv3 M)

omit [DmaSocket M] in
lemma cmdqLog2size_le : s.cmdqLog2size ≤ 19 := by
  rw [cmdqLog2size,queueLog2size,clampQueueLog2size]
  split_ifs <;> omega

omit [DmaSocket M] in
lemma consIndex_lt : s.consIndex < 2^(s.cmdqLog2size+1) := Nat.mod_lt _ (Nat.two_pow_pos _)

omit [DmaSocket M] in
lemma prodIndex_lt : s.prodIndex < 2^(s.cmdqLog2size+1) := Nat.mod_lt _ (Nat.two_pow_pos _)

section

omit [DmaSocket M]

variable {s s' : Smmuv3 M} (hlo : s'.regs.cmdqBaseLo = s.regs.cmdqBaseLo)

include hlo

lemma cmdqLog2size_congr : s'.cmdqLog2size = s.cmdqLog2size := by
  rw [cmdqLog2size,hlo,cmdqLog2size]

lemma cmdqStart_congr (hhi : s'.regs.cmdqBaseHi = s.regs.cmdqBaseHi) : s'.cmdqStart = s.cmdqStart := by
  rw [cmdqStart,hlo,hhi,cmdqStart]

lemma prodIndex_congr (hp : s'.regs.cmdqProd = s.regs.cmdqProd) : s'.prodIndex = s.prodIndex := by
  rw [prodIndex,hp,cmdqLog2size_congr hlo,prodIndex]

end

omit [DmaSocket M] in
lemma consIndex_eq {s s' : Smmuv3 M} (h : s'.regs.cmdqBaseLo = s.regs.cmdqBaseLo) :
    s'.consIndex = s'.regs.cmdqCons.toNat % 2^(s.cmdqLog2size+1) := by
  rw [consIndex,cmdqLog2size,h,cmdqLog2size]

lemma setCmdqErr_sameCmdq (code : U32) (c : Core M) : SameCmdq
    { c.regs with cmdqCons := withErr c.regs.cmdqCons code } (setCmdqErr code c).regs :=
  SameCmdq.setGerror (by decide) { c with regs := { c.regs with cmdqCons := withErr c.regs.cmdqCons code } }

lemma setCmdqErr_active (code : U32) (c : Core M) : (setCmdqErr code c).Active gerrorBitCmdqErr :=
  (setGerror_signals (by decide) _).2

lemma Offends.code_eq {base : U64} {n p : ℕ} {s : Smmuv3 M} {code : U32} {bus : M} (h : Offends base n p s code bus) :
    code &&& lowMask 7 = code := by
  cases h <;> decide

lemma consumeCmdq_eq {s : Smmuv3 M} (hn : s.cmdqLog2size ≠ 0) : consumeCmdq s =
      match consumeLoop execCmd s.cmdqStart s.cmdqLog2size s.regs.cmdqProd (consumeFuel s.cmdqLog2size)
        s.regs.cmdqCons s with
      | (cons,none,t) => t.setCmdqCons cons
      | (cons,some code,t) => (t.setCmdqCons cons).mapCore (setCmdqErr code) := by
  have hn' : queueLog2size s.regs.cmdqBaseLo ≠ 0 := hn
  simp only [consumeCmdq,cmdqStart,cmdqLog2size]
  rw [if_neg hn']
  generalize consumeLoop execCmd _ _ _ _ _ s = r
  rcases r with ⟨cons,_ | code,t⟩ <;> rfl

lemma drainCmdq_spec {s : Smmuv3 M} (hen : s.regs.cmdqen = true) (hn : s.cmdqLog2size ≠ 0) :
    Drained s s.drainLog (drainCmdq s) := by
  have hlt : s.unconsumed < 2^(s.cmdqLog2size+1) := distance_lt (Nat.two_pow_pos _) _ _
  obtain ⟨t,hd,hs,hou⟩ := consumeLoop_spec s.cmdqStart s.cmdqLog2size_le s.regs.cmdqProd
    (consumeFuel s.cmdqLog2size) s.regs.cmdqCons s hlt.le
  rw [drainLog,if_pos ⟨hen,hn⟩,drainCmdq,if_pos hen,consumeCmdq_eq hn]
  have hsa := hd.sameCmdq
  generalize consumeLoop execCmd s.cmdqStart s.cmdqLog2size s.regs.cmdqProd _ s.regs.cmdqCons s = r at hs hou ⊢
  rcases r with ⟨cons,err,s1⟩
  rcases hou with ⟨hr,hl⟩ | ⟨code,bus,hr,ho,hl⟩
  · cases hr
    have hi : (t.setCmdqCons cons).consIndex = cons.toNat % 2^(s.cmdqLog2size+1) := consIndex_eq hsa.baseLo
    refine .empty hd hl rfl (hi.trans (hs.trans ?_))
    rw [hl]
    exact add_distance_mod s.consIndex_lt s.prodIndex_lt
  · cases hr
    have hse := setCmdqErr_sameCmdq code ((t.setBus bus).setCmdqCons cons).streams.core
    have hlo : (((t.setBus bus).setCmdqCons cons).mapCore (setCmdqErr code)).regs.cmdqBaseLo =
        s.regs.cmdqBaseLo := hse.baseLo.trans hsa.baseLo
    have hf : (((t.setBus bus).setCmdqCons cons).mapCore (setCmdqErr code)).regs.cmdqCons =
        withErr cons code := hse.cons
    have hi := consIndex_eq hlo
    rw [hf,withErr_index s.cmdqLog2size_le] at hi
    refine .error hd hl ?_ rfl (hi.trans hs) ?_ (setCmdqErr_active ..)
    · rw [hi]
      exact ho
    · rw [hf,extract32_withErr,ho.code_eq]

namespace Drained
variable {s s' : Smmuv3 M} {log : List (ℕ × Cmd)}

section
variable (h : Drained s log s')
include h

lemma dispatches : ∃ t, Dispatches s.cmdqStart s.cmdqLog2size s.consIndex s log t := by
  cases h with
  | empty hd | error hd => exact ⟨_,hd⟩

lemma length_le : log.length ≤ s.unconsumed := by
  cases h with
  | empty _ hl | error _ hl => exact hl.le

lemma cons_eq : s'.consIndex = (s.consIndex+log.length) % 2^(s.cmdqLog2size+1) := by
  cases h with
  | empty _ hl _ hc =>
    rw [hc,hl]
    exact (add_distance_mod s.consIndex_lt s.prodIndex_lt).symm
  | error _ _ _ _ hc => exact hc

lemma sameCmdq : SameCmdq { s.regs with cmdqCons := s'.regs.cmdqCons } s'.regs := by
  cases h with
  | empty hd _ hst =>
    have hs := hd.sameCmdq
    subst hst
    exact ⟨hs.baseLo,hs.baseHi,hs.prod,rfl,hs.cmdqen⟩
  | @error t cons code bus hd _ _ hst =>
    have hs := hd.sameCmdq
    have hse := setCmdqErr_sameCmdq code ((t.setBus bus).setCmdqCons cons).streams.core
    subst hst
    exact ⟨hse.baseLo.trans hs.baseLo,hse.baseHi.trans hs.baseHi,hse.prod.trans hs.prod,rfl,
      hse.cmdqen.trans hs.cmdqen⟩

lemma unconsumed_eq : s'.unconsumed = s.unconsumed-log.length := by
  have hs := cmdqLog2size_congr h.sameCmdq.baseLo
  have hp := prodIndex_congr h.sameCmdq.baseLo h.sameCmdq.prod
  rw [unconsumed,hs,hp,h.cons_eq]
  exact distance_add s.consIndex_lt s.prodIndex_lt h.length_le

lemma index (i : ℕ) (hi : i < log.length) :
    log[i].1 = (s.consIndex+i) % 2^(s.cmdqLog2size+1) := by
  obtain ⟨t,hd⟩ := h.dispatches
  exact hd.index s.consIndex_lt i hi

lemma nodup (hr : s.unconsumed ≤ 2^s.cmdqLog2size) :
    (log.map fun e => e.1 % 2^s.cmdqLog2size).Nodup := by
  have hl := h.length_le.trans hr
  refine List.pairwise_iff_getElem.mpr fun i j hi hj hij => ?_
  rw [List.length_map] at hi hj
  have hd : 2^s.cmdqLog2size ∣ 2^(s.cmdqLog2size+1) := pow_dvd_pow 2 (Nat.le_succ _)
  rw [List.getElem_map,List.getElem_map,h.index i hi,h.index j hj,Nat.mod_mod_of_dvd _ hd,Nat.mod_mod_of_dvd _ hd]
  exact cell_ne _ hij (by omega)

end

end Drained

structure CmdqState (M : Type) where
  smmu : Smmuv3 M
  log : List (ℕ × Cmd)

/-- Writes of the producer index, reads of the consumer index, and whatever else happens. -/
inductive CmdqAction (M : Type) where
  | writeProd (v : U32)
  | writeProdP1 (v : U32)
  | readCons
  | readConsP1
  | other (smmu : Smmuv3 M)

namespace CmdqState
def drains (s : CmdqState M) : CmdqAction M → Option (Smmuv3 M)
  | .writeProd v => some (s.smmu.mapRegs (Regs.store .cmdqProd v))
  | .writeProdP1 v => some (s.smmu.mapRegs (Regs.store .cmdqProdP1 v))
  | .readCons | .readConsP1 => some s.smmu
  | .other _ => none

def logged (s : CmdqState M) (a : CmdqAction M) : List (ℕ × Cmd) := s.log ++ ((s.drains a).map drainLog).getD []

def step (s : CmdqState M) (a : CmdqAction M) : CmdqState M := match a with
  | .writeProd v => ⟨writeReg .cmdqProd v s.smmu,s.logged a⟩
  | .writeProdP1 v => ⟨writeReg .cmdqProdP1 v s.smmu,s.logged a⟩
  | .readCons | .readConsP1 => ⟨(readCmdqCons s.smmu).2,s.logged a⟩
  | .other smmu => ⟨smmu,s.logged a⟩

/-- The producer index is written for no more commands than there is room for, and nothing else writes the queue's
registers. -/
def DriverOk (s : CmdqState M) : CmdqAction M → Prop
  | .writeProd v | .writeProdP1 v =>
    distance (2^(s.smmu.cmdqLog2size+1)) s.smmu.consIndex (v.toNat % 2^(s.smmu.cmdqLog2size+1)) ≤ 2^s.smmu.cmdqLog2size
  | .readCons | .readConsP1 => True
  | .other smmu => SameCmdq s.smmu.regs smmu.regs

/-- The queue is ready at `s`, after the commands of a log that began at `first`. -/
structure Ready (n first : ℕ) (base : U64) (s : CmdqState M) : Prop where
  enabled : s.smmu.regs.cmdqen = true
  size : s.smmu.cmdqLog2size = n
  start : s.smmu.cmdqStart = base
  index : ∀ (i : ℕ) (hi : i < s.log.length), s.log[i].1 = (first+i) % 2^(n+1)
  cons : s.smmu.consIndex = (first+s.log.length) % 2^(n+1)
  room : s.smmu.unconsumed ≤ 2^n

variable {n first : ℕ} {base : U64} {s : CmdqState M}

lemma step_of_drains {a : CmdqAction M} {t : Smmuv3 M} (h : s.drains a = some t) :
    s.step a = ⟨drainCmdq t,s.log++t.drainLog⟩ := by
  cases a <;> cases h <;> rfl

omit [DmaSocket M] in
lemma Ready.drains (h : s.Ready n first base) {a : CmdqAction M} (ha : s.DriverOk a) {t : Smmuv3 M}
    (hd : s.drains a = some t) : Ready n first base ⟨t,s.log⟩ := by
  obtain ⟨hen,hsi,hs,hi,hc,hr⟩ := h
  cases a with
  | writeProd v | writeProdP1 v =>
    cases hd
    subst hsi
    exact ⟨hen,rfl,hs,hi,hc,ha⟩
  | readCons | readConsP1 =>
    cases hd
    exact ⟨hen,hsi,hs,hi,hc,hr⟩
  | other smmu => cases hd

lemma Ready.drained (h : s.Ready n first base) {log : List (ℕ × Cmd)} {s' : Smmuv3 M} (hd : Drained s.smmu log s') :
    Ready n first base ⟨s',s.log++log⟩ := by
  have hs := hd.sameCmdq
  have hsi := cmdqLog2size_congr hs.baseLo
  have hst := cmdqStart_congr hs.baseLo hs.baseHi
  refine ⟨hs.cmdqen.trans h.enabled,hsi.trans h.size,hst.trans h.start,fun i hi => ?_,?_,?_⟩
  · by_cases hold : i < s.log.length
    · rw [List.getElem_append_left hold]
      exact h.index i hold
    · rw [List.length_append] at hi
      rw [List.getElem_append_right (by omega),hd.index (i-s.log.length) (by omega),h.cons,h.size,Nat.mod_add_mod]
      congr 1
      omega
  · show s'.consIndex = _
    rw [hd.cons_eq,h.cons,h.size,Nat.mod_add_mod,List.length_append,Nat.add_assoc]
  · show s'.unconsumed ≤ _
    rw [hd.unconsumed_eq]
    exact (Nat.sub_le _ _).trans h.room

omit [DmaSocket M] in
lemma Ready.other (h : s.Ready n first base) {smmu : Smmuv3 M} (hs : SameCmdq s.smmu.regs smmu.regs) :
    Ready n first base ⟨smmu,s.log⟩ := by
  have hsi := cmdqLog2size_congr hs.baseLo
  have hst := cmdqStart_congr hs.baseLo hs.baseHi
  have hc : smmu.consIndex = s.smmu.consIndex := by rw [consIndex,hs.cons,hsi,consIndex]
  have hp := prodIndex_congr hs.baseLo hs.prod
  have hun : smmu.unconsumed = s.smmu.unconsumed := by rw [unconsumed,hsi,hc,hp,unconsumed]
  exact ⟨hs.cmdqen.trans h.enabled,hsi.trans h.size,hst.trans h.start,h.index,hc.trans h.cons,hun.trans_le h.room⟩

/-- One step keeps the queue ready. -/
lemma Ready.step (h : s.Ready n first base) (hn : n ≠ 0) {a : CmdqAction M} (ha : s.DriverOk a) :
    (s.step a).Ready n first base := by
  cases hd : s.drains a with
  | some t =>
    have ht := h.drains ha hd
    rw [step_of_drains hd]
    exact ht.drained (drainCmdq_spec ht.enabled (ht.size ▸ hn))
  | none =>
    cases a with
    | other smmu =>
      show Ready n first base ⟨smmu,s.log++[]⟩
      rw [List.append_nil]
      exact h.other ha
    | _ => cases hd

/-- In every run of an enabled queue the commands are dispatched one after the other, and every write of the producer
index and read of the consumer index dispatches those between, each once, up to the first that offends. -/
theorem command_queue_exactly_once {s0 s : CmdqState M} (hen : s0.smmu.regs.cmdqen = true)
    (hn : s0.smmu.cmdqLog2size ≠ 0) (hroom : s0.smmu.unconsumed ≤ 2^s0.smmu.cmdqLog2size) (hlog : s0.log = [])
    (hs : GuardedRun step DriverOk s0 s) : (∀ (i : ℕ) (hi : i < s.log.length),
      s.log[i].1 = (s0.smmu.consIndex+i) % 2^(s0.smmu.cmdqLog2size+1)) ∧
    s.smmu.consIndex = (s0.smmu.consIndex+s.log.length) % 2^(s0.smmu.cmdqLog2size+1) ∧
    ∀ (a : CmdqAction M) (t : Smmuv3 M), s.DriverOk a → s.drains a = some t →
      t.cmdqLog2size = s0.smmu.cmdqLog2size ∧ t.cmdqStart = s0.smmu.cmdqStart ∧
      ∃ log, (s.step a).log = s.log++log ∧ Drained t log (s.step a).smmu ∧
        (log.map fun e => e.1 % 2^t.cmdqLog2size).Nodup := by
  have h0 : s0.Ready s0.smmu.cmdqLog2size s0.smmu.consIndex s0.smmu.cmdqStart := by
    refine ⟨hen,rfl,rfl,fun i hi => ?_,?_,hroom⟩
    · rw [hlog] at hi
      cases hi
    · rw [hlog]
      exact (Nat.mod_eq_of_lt s0.smmu.consIndex_lt).symm
  have hr := hs.invariant (fun _ _ h ha => h.step hn ha) h0
  refine ⟨hr.index,hr.cons,fun a t ha hd => ?_⟩
  have ht := hr.drains ha hd
  have hdr := drainCmdq_spec ht.enabled (ht.size ▸ hn)
  rw [step_of_drains hd]
  exact ⟨ht.size,ht.start,_,rfl,hdr,hdr.nodup (ht.room.trans_eq (by rw [← ht.size]))⟩

def sampleCmdq (baseLo prod cons : U32) (op0 op1 : U64) : Smmuv3 Ram where
  pamax := 48
  iotlbSize := 256
  streams := {
    core := {
      regs := { cr0 := 8, cmdqBaseLo := baseLo, cmdqProd := prod, cmdqCons := cons }
      bus := ⟨[(0x1000,op0),(0x1010,op1)],[]⟩ } }

def sampleCommands : List (CmdqAction Ram) := [.writeProd 2,.other (sampleCmdq 0x1001 2 2 0xFF 0x30)]

instance (r r' : Regs) : Decidable (SameCmdq r r') :=
  decidable_of_iff (r'.cmdqBaseLo = r.cmdqBaseLo ∧ r'.cmdqBaseHi = r.cmdqBaseHi ∧ r'.cmdqProd = r.cmdqProd ∧
      r'.cmdqCons = r.cmdqCons ∧ r'.cmdqen = r.cmdqen)
    ⟨fun ⟨hlo,hhi,hprod,hcons,hen⟩ => ⟨hlo,hhi,hprod,hcons,hen⟩,fun ⟨hlo,hhi,hprod,hcons,hen⟩ => ⟨hlo,hhi,hprod,hcons,hen⟩⟩

instance (s : CmdqState M) : (a : CmdqAction M) → Decidable (s.DriverOk a)
  | .writeProd _ | .writeProdP1 _ => inferInstanceAs (Decidable (_ ≤ _))
  | .readCons | .readConsP1 => inferInstanceAs (Decidable True)
  | .other _ => inferInstanceAs (Decidable (SameCmdq _ _))

theorem command_queue_samples : (sampleCommands.foldl step ⟨sampleCmdq 0x1001 0 0 0x46 0x30,[]⟩).smmu.consIndex = 2 ∧
      ∃ log t, Drained t log
          ((sampleCommands.foldl step ⟨sampleCmdq 0x1001 0 0 0x46 0x30,[]⟩).step (.writeProdP1 3)).smmu ∧
        t.unconsumed = 1 ∧ log = [] := by
  have hr : GuardedRun step DriverOk ⟨sampleCmdq 0x1001 0 0 0x46 0x30,[]⟩
      (sampleCommands.foldl step ⟨sampleCmdq 0x1001 0 0 0x46 0x30,[]⟩) := GuardedRun.refl.foldl (by decide +kernel)
  obtain ⟨-,hc,hdr⟩ := command_queue_exactly_once (by decide) (by decide) (by decide) rfl hr
  have hle : (sampleCommands.foldl step ⟨sampleCmdq 0x1001 0 0 0x46 0x30,[]⟩).log.length = 2 := by decide +kernel
  obtain ⟨-,-,log,hl,hd,-⟩ := hdr (.writeProdP1 3) _ (by decide +kernel) rfl
  have hs : ((sampleCommands.foldl step ⟨sampleCmdq 0x1001 0 0 0x46 0x30,[]⟩).step (.writeProdP1 3)).log =
      (sampleCommands.foldl step ⟨sampleCmdq 0x1001 0 0 0x46 0x30,[]⟩).log := by decide +kernel
  exact ⟨hc,log,_,hd,by decide +kernel,List.append_right_eq_self.mp (hl.symm.trans hs)⟩

/-- A size above the largest is taken for it, and the producer index of a full queue for that of an empty one. -/
theorem large_command_queue_not_consumed : (sampleCmdq 0x1014 0 0 0x46 0x30).regs.cmdqen = true ∧
      extract32 (sampleCmdq 0x1014 0 0 0x46 0x30).regs.cmdqBaseLo 0 5 = 20 ∧ distance (2^21) 0 0x100000 ≤ 2^20 ∧
      (step ⟨sampleCmdq 0x1014 0 0 0x46 0x30,[]⟩ (.writeProd 0x100000)).log = [] ∧
      (step ⟨sampleCmdq 0x1014 0 0 0x46 0x30,[]⟩ (.writeProd 0x100000)).smmu.regs.cmdqProd = 0x100000 ∧
      (step ⟨sampleCmdq 0x1014 0 0 0x46 0x30,[]⟩ (.writeProd 0x100000)).smmu.regs.cmdqCons = 0 :=
  ⟨by decide,by decide,by decide,by decide +kernel,by decide +kernel,by decide +kernel⟩

end CmdqState
end Qbox.Smmuv3
