import Qbox.SocketLog
import Qbox.Smmuv3Config

/-! The bounds of the stream table and of the context-descriptor table of a stream: which identifiers lie outside, and
what the SMMU does with them. The accesses are those of a logged memory. -/
namespace Qbox.Smmuv3
open MachineWord DmaSocket

variable {M : Type} [DmaSocket M]

lemma Core.Signals.reads {c c' : Core (Logged M)} (h : Core.Signals c c') : c'.bus.reads = c.bus.reads := by
  refine Relation.ReflTransGen.head_induction_on (motive := fun b _ => c'.bus.reads = b.reads) h.bus rfl ?_
  rintro b b' ⟨addr,-,data,rfl⟩ - ih
  exact ih

lemma OutputQueue.push_reads (q : OutputQueue) (bytes : List U8) (c : Core (Logged M)) :
    (q.push bytes c).bus.reads = c.bus.reads := by
  cases hen : q.enabled c.regs with
  | false => rw [push_disabled hen]
  | true =>
    cases ha : q.accepts bytes c with
    | true => exact (push_accepted ha).reads
    | false =>
      rcases (push_refused hen ha).2 with h | ⟨-,h⟩
      · exact h.reads
      · exact h.reads

section
variable (sid : U32) (r : Regs)

def Regs.streamBits : ℕ := min (extract32 r.strtabBaseCfg 0 6).toNat 31

def Regs.linearStreams : Prop := extract32 r.strtabBaseCfg 16 2 = 0

instance (r : Regs) : Decidable r.linearStreams := inferInstanceAs (Decidable (_ = _))

def Regs.streamSplit : ℕ := (extract32 r.strtabBaseCfg 6 5).toNat

def entryAt (addr : U64) (m : M) : Option STE :=
  (dmaRead addr 64 m).1.map fun bytes => decodeSte (dword bytes 0) (dword bytes 1) (dword bytes 2) (dword bytes 3)

/-- What the stream table holds for a stream, and the addresses to be read, newest first. -/
def tableEntry (sid : ℕ) (r : Regs) (m : M) : Option STE × List U64 := if r.linearStreams then
    (entryAt (strtabBase r+BitVec.ofNat 64 (64*sid)) m,[strtabBase r+BitVec.ofNat 64 (64*sid)])
  else
    let first := strtabBase r+BitVec.ofNat 64 (8*(sid/2^r.streamSplit))
    match dmaRead64 first m with
    | (none,_) => (none,[first])
    | (some l1std,m) =>
      let entry := (l1std &&& ~~~lowMask 6)+BitVec.ofNat 64 (64*(sid % 2^r.streamSplit))
      if l1std.getLsbD 0 then (entryAt entry m,[entry,first]) else (none,[first])

/-- A stream outside is refused without an access, and one inside has its entry in the table. -/
structure StreamTableLaw (sid : U32) (s : Streams (Logged M)) : Prop where
  outside : 2^s.core.regs.streamBits ≤ sid.toNat → (findSte sid s).1 = none ∧ (findSte sid s).2.core.bus = s.core.bus
  inside : sid.toNat < 2^s.core.regs.streamBits → s.steCache.find sid = none →
    (findSte sid s).1 = (tableEntry sid.toNat s.core.regs s.core.bus.mem).1.filter STE.valid ∧
      (findSte sid s).2.core.bus.reads = (tableEntry sid.toNat s.core.regs s.core.bus.mem).2 ++ s.core.bus.reads

/-- The number that the lookup compares with the size of the table. -/
def streamIndex : ℕ := if r.linearStreams then sid.toNat else sid.toNat/2^r.streamSplit

/-- The lookup refuses a stream: its cached entry is invalid, or the number compared lies beyond the table. -/
def LookupRefuses (s : Streams (Logged M)) : Prop := match s.steCache.find sid with
  | some ste => ste.valid = false
  | none => 2^s.core.regs.streamBits ≤ streamIndex sid s.core.regs

lemma setWidth_mul (x : U32) (k : ℕ) : x.setWidth 64*BitVec.ofNat 64 k = BitVec.ofNat 64 (k*x.toNat) := by
  rw [← BitVec.ofNat_toNat,← BitVec.ofNat_mul,Nat.mul_comm]

lemma streamBits_lt : r.streamBits < 32 := lt_of_le_of_lt (min_le_right _ _) (by decide)

lemma one_shiftLeft_le {b : ℕ} (hb : b < 32) (x : U32) : 1#32 <<< b ≤ x ↔ 2^b ≤ x.toNat := by
  rw [BitVec.le_def,toNat_one_shiftLeft hb]

lemma toNat_ushiftRight_div (x : U32) (n : ℕ) : (x >>> n).toNat = x.toNat/2^n := by
  rw [BitVec.toNat_ushiftRight,Nat.shiftRight_eq_div_pow]

lemma locateSte_eq (bus : M) : locateSte sid r bus = if 2^r.streamBits ≤ streamIndex sid r then (.missing,bus)
      else if r.linearStreams then (.at (strtabBase r+BitVec.ofNat 64 (64*sid.toNat)),bus)
      else match dmaRead64 (strtabBase r+BitVec.ofNat 64 (8*(sid.toNat/2^r.streamSplit))) bus with
        | (none,bus) => (.aborted,bus)
        | (some l1std,bus) =>
          if l1std.getLsbD 0 then
            (.at ((l1std &&& ~~~lowMask 6)+BitVec.ofNat 64 (64*(sid.toNat % 2^r.streamSplit))),bus)
          else (.missing,bus) := by
  have hf : strtabBase r+(sid >>> r.streamSplit).setWidth 64*8 =
      strtabBase r+BitVec.ofNat 64 (8*(sid.toNat/2^r.streamSplit)) := by
    rw [← toNat_ushiftRight_div]
    exact congrArg (strtabBase r+·) (setWidth_mul _ 8)
  have hs : (sid &&& lowMask r.streamSplit).setWidth 64*64 = BitVec.ofNat 64 (64*(sid.toNat % 2^r.streamSplit)) := by
    rw [← toNat_and_lowMask]
    exact setWidth_mul _ 64
  have he : sid.setWidth 64*64 = BitVec.ofNat 64 (64*sid.toNat) := setWidth_mul sid 64
  have hb := fun x => one_shiftLeft_le (streamBits_lt r) x
  rw [Regs.streamBits] at hb
  rw [Regs.streamSplit] at hf hs
  simp only [locateSte,hf,hs,he,hb,toNat_ushiftRight_div,streamIndex,Regs.streamBits,
    Regs.streamSplit,Regs.linearStreams]
  by_cases hfm : extract32 r.strtabBaseCfg 16 2 = 0
  · simp [hfm]
  · generalize dmaRead64 _ bus = x
    rcases x with ⟨_ | l1std,bus'⟩ <;> simp only [hfm,if_false]

lemma streamIndex_le : streamIndex sid r ≤ sid.toNat := by
  rw [streamIndex]
  split_ifs
  · exact le_rfl
  · exact Nat.div_le_self _ _

section
variable {sid : U32} {c : Core (Logged M)} {b : Logged M}

lemma sfmErr_reads (c : Core (Logged M)) (b : Logged M) :
    (Core.setGerror Core.gerrorBitSfmErr { c with bus := b }).bus.reads = b.reads :=
  (Core.setGerror_signals (by decide) { c with bus := b }).1.reads

lemma fetchSte_at {addr : U64} (h : locateSte sid c.regs c.bus = (.at addr,b)) :
    (fetchSte sid c).1 = entryAt addr b.mem ∧ (fetchSte sid c).2.bus.reads = addr :: b.reads := by
  have hr : dmaRead addr 64 b =
      ((dmaRead addr 64 b.mem).1,{ b with mem := (dmaRead addr 64 b.mem).2, reads := addr :: b.reads }) := rfl
  simp only [fetchSte,h,hr,entryAt]
  rcases dmaRead addr 64 b.mem with ⟨_ | bytes,m⟩
  · exact ⟨rfl,sfmErr_reads c _⟩
  · exact ⟨rfl,rfl⟩

lemma fetchSte_aborted (h : locateSte sid c.regs c.bus = (.aborted,b)) :
    (fetchSte sid c).1 = none ∧ (fetchSte sid c).2.bus.reads = b.reads := by
  simp [fetchSte,h,sfmErr_reads]

lemma fetchSte_missing (h : locateSte sid c.regs c.bus = (.missing,b)) :
    fetchSte sid c = (none,{ c with bus := b }) := by
  simp [fetchSte,h]

end

/-- A fetch that gets as far as the table is the one that the table prescribes. -/
lemma fetchSte_table {sid : U32} {c : Core (Logged M)} (hin : streamIndex sid c.regs < 2^c.regs.streamBits) :
    (fetchSte sid c).1 = (tableEntry sid.toNat c.regs c.bus.mem).1 ∧
      (fetchSte sid c).2.bus.reads = (tableEntry sid.toNat c.regs c.bus.mem).2 ++ c.bus.reads := by
  have hl := locateSte_eq sid c.regs c.bus
  rw [if_neg (not_le.mpr hin)] at hl
  by_cases hfm : c.regs.linearStreams
  · rw [if_pos hfm] at hl
    rw [tableEntry,if_pos hfm]
    exact fetchSte_at hl
  · have hh := Logged.mem_hom.read64 (strtabBase c.regs+BitVec.ofNat 64 (8*(sid.toNat/2^c.regs.streamSplit))) c.bus
    have hlo := Logged.dmaRead64_reads (strtabBase c.regs+BitVec.ofNat 64 (8*(sid.toNat/2^c.regs.streamSplit))) c.bus
    rw [if_neg hfm] at hl
    simp only [tableEntry,hfm,if_false,hh]
    rcases hr : dmaRead64 (strtabBase c.regs+BitVec.ofNat 64 (8*(sid.toNat/2^c.regs.streamSplit))) c.bus with
      ⟨_ | l1std,b⟩
    · rw [hr] at hlo hl
      have hf := fetchSte_aborted hl
      exact ⟨hf.1,hf.2.trans hlo⟩
    · rw [hr] at hlo hl
      cases hv : l1std.getLsbD 0 with
      | true =>
        simp only [hv,if_true] at hl
        have hf := fetchSte_at hl
        simp only [Prod.map_apply,id_eq,hv,if_true]
        exact ⟨hf.1,hf.2.trans (congrArg _ hlo)⟩
      | false =>
        simp only [hv,Bool.false_eq_true,if_false] at hl
        rw [fetchSte_missing hl]
        simp only [Prod.map_apply,id_eq,hv,Bool.false_eq_true,if_false]
        exact ⟨trivial,hlo⟩

lemma tableEntry_reads_ne_nil (sid : ℕ) (r : Regs) (m : M) : (tableEntry sid r m).2 ≠ [] := by
  simp only [tableEntry]
  split_ifs
  · simp
  · rcases dmaRead64 (strtabBase r+BitVec.ofNat 64 (8*(sid/2^r.streamSplit))) m with ⟨_ | l1std,m'⟩
    · simp
    · dsimp only
      split_ifs
      · simp
      · simp

/-- The stream table is obeyed exactly when the lookup refuses the streams outside: two-level tables compare the
first-level number with a size that bounds the stream. -/
theorem stream_table_iff (sid : U32) (s : Streams (Logged M)) :
    StreamTableLaw sid s ↔ (2^s.core.regs.streamBits ≤ sid.toNat → LookupRefuses sid s) := by
  cases hc : s.steCache.find sid with
  | some ste =>
    have hf := findSte_hit hc
    have hco : LookupRefuses sid s ↔ ste.valid = false := by
      rw [LookupRefuses,hc]
    rw [hco]
    constructor
    · intro h ho
      have hn := (h.outside ho).1
      rw [hf] at hn
      simpa using hn
    · intro h
      refine ⟨fun ho => ?_,fun _ hm => by rw [hc] at hm; cases hm⟩
      rw [hf]
      exact ⟨by simp [h ho],rfl⟩
  | none =>
    have hf := findSte_miss hc
    have hco : LookupRefuses sid s ↔ 2^s.core.regs.streamBits ≤ streamIndex sid s.core.regs := by
      rw [LookupRefuses,hc]
    rw [hco]
    constructor
    · intro h ho
      by_contra hin
      have hb := (h.outside ho).2
      have hr := (fetchSte_table (not_le.mp hin)).2
      rw [hf] at hb
      rw [show (fetchSte sid s.core).2.bus = s.core.bus from hb] at hr
      exact tableEntry_reads_ne_nil _ _ _ (List.self_eq_append_left.mp hr)
    · intro h
      refine ⟨fun ho => ?_,fun hin _ => ?_⟩
      · have hl := locateSte_eq sid s.core.regs s.core.bus
        rw [if_pos (h ho)] at hl
        rw [hf,fetchSte_missing hl]
        exact ⟨rfl,rfl⟩
      · have ht := fetchSte_table ((streamIndex_le sid s.core.regs).trans_lt hin)
        rw [hf]
        exact ⟨by rw [ht.1],ht.2⟩

def twoLevelStreams (words : List (U64 × U64)) : Streams (Logged Ram) where
  core := { regs := { cr0 := 1, strtabBaseLo := 0x1000, strtabBaseCfg := 0x10204 }, bus := .start ⟨words,[]⟩ }

/-- Stream 256 does not exist, and is found through the second entry of the first level. -/
theorem stream_outside_found : let s := twoLevelStreams [(0x1008,0x2001),(0x2000,0x9)]
    2^s.core.regs.streamBits = 16 ∧ (findSte 256 s).1.map STE.config = some 4 ∧
      (findSte 256 s).2.core.bus.reads = [0x2000,0x1008] ∧ ¬ StreamTableLaw 256 s := by
  intro s
  have hf : (findSte 256 s).1.map STE.config = some 4 := by decide +kernel
  refine ⟨by decide,hf,by decide +kernel,fun h => ?_⟩
  rw [(h.outside (by decide)).1] at hf
  cases hf

end

section
variable {txn : Txn} {sid ssid : U32} {isSecure : Bool} {ste : STE}

/-- A substream is refused: no context descriptor is read for it, and the answer grants nothing. -/
structure SubstreamRefused (txn : Txn) (sid ssid : U32) (isSecure : Bool) (s : Smmuv3 (Logged M)) : Prop where
  unread : (resolve txn sid ssid s.streams).2.core.bus.reads = (findSte sid s.streams).2.core.bus.reads
  failed : (smmuv3Translate txn sid ssid isSecure s).1.perm = .none

lemma reject_reads (type cls : U32) (s : Streams (Logged M)) :
    (reject txn sid ssid type cls s).2.core.bus.reads = s.core.bus.reads :=
  OutputQueue.push_reads .eventq _ s.core

lemma refused_of_reject {s : Smmuv3 (Logged M)} {type cls : U32} {st : Streams (Logged M)}
    (h : resolve txn sid ssid s.streams = reject txn sid ssid type cls st)
    (hst : st.core.bus.reads = (findSte sid s.streams).2.core.bus.reads) : SubstreamRefused txn sid ssid isSecure s := by
  refine ⟨?_,?_⟩
  · rw [h,reject_reads,hst]
  · rw [smmuv3Translate,h]
    rfl

/-- The bound is checked for tables with more than one descriptor. -/
lemma resolve_bounded {s st : Streams (Logged M)} (hon : s.core.regs.smmuen = true)
    (hs : findSte sid s = (some ste,st)) (hm : ste.s1cdmax ≠ 0) (ho : 2^ste.s1cdmax.toNat ≤ ssid.toNat) :
    resolve txn sid ssid s = reject txn sid ssid evtCBadSubstreamid 0 st := by
  have hp : 0 < ste.s1cdmax := BitVec.lt_def.mpr (Nat.pos_of_ne_zero fun h => hm (BitVec.eq_of_toNat_eq h))
  have hb := (one_shiftLeft_le ste.s1cdmax.isLt ssid).mpr ho
  simp only [resolve,hon,Bool.not_true,Bool.false_eq_true,if_false,hs,hp,hb,and_self,if_true]

/-- In a table of one descriptor the descriptor of any substream is looked for. -/
lemma resolve_unbounded {s st : Streams (Logged M)} (hon : s.core.regs.smmuen = true)
    (hs : findSte sid s = (some ste,st)) (hz : ste.s1cdmax = 0) (hc : ste.config = 5 ∨ ste.config = 7)
    (txn : Txn) (ssid : U32) : (∀ st', readCd sid ste ssid st = (none,st') →
        resolve txn sid ssid s = reject txn sid ssid evtFCdFetch classCd st') ∧
      ∀ cd st', readCd sid ste ssid st = (some cd,st') →
        ∃ config, resolve txn sid ssid s = (.tables ⟨config,ste,cd⟩,st') := by
  have hb : ¬ (0 < ste.s1cdmax ∧ 1#32 <<< ste.s1cdmax.toNat ≤ ssid) := by
    rw [hz]
    rintro ⟨h,-⟩
    exact absurd h (by decide)
  have hn : ste.config.toNat = 5 ∨ ste.config.toNat = 7 := hc.imp (fun h => by rw [h]; rfl) (fun h => by rw [h]; rfl)
  constructor
  · intro st' hr
    rcases hn with hn | hn
    all_goals
      simp only [resolve,hon,Bool.not_true,Bool.false_eq_true,if_false,hs,hb,hn,hr]
  · intro cd st' hr
    rcases hn with hn | hn
    · refine ⟨.s1,?_⟩
      simp only [resolve,hon,Bool.not_true,Bool.false_eq_true,if_false,hs,hb,hn,hr]
    · refine ⟨.nested,?_⟩
      simp only [resolve,hon,Bool.not_true,Bool.false_eq_true,if_false,hs,hb,hn,hr]

lemma fetchCd_reads {c : Core (Logged M)} (hz : ste.s1cdmax = 0) :
    (fetchCd ste ssid c).2.bus.reads = (ste.s1contextptr+ssid.setWidth 64*64) :: c.bus.reads := by
  have hl : locateCd ste ssid c.bus = (.at (ste.s1contextptr+ssid.setWidth 64*64),c.bus) := by
    rw [locateCd,if_pos (Or.inr hz)]
  have hr : dmaRead (ste.s1contextptr+ssid.setWidth 64*64) 64 c.bus =
      ((dmaRead (ste.s1contextptr+ssid.setWidth 64*64) 64 c.bus.mem).1, { c.bus with
          mem := (dmaRead (ste.s1contextptr+ssid.setWidth 64*64) 64 c.bus.mem).2
          reads := (ste.s1contextptr+ssid.setWidth 64*64) :: c.bus.reads }) := rfl
  simp only [fetchCd,hl,hr]
  rcases dmaRead (ste.s1contextptr+ssid.setWidth 64*64) 64 c.bus.mem with ⟨_ | bytes,m⟩
  · exact sfmErr_reads c _
  · rfl

/-- A stage-1 stream with two context descriptors at `0x3000` and a page at `0x1000`; `max` is `S1CDMax`. -/
def substreamSmmu (max : U64) : Smmuv3 (Logged Ram) where
  pamax := 48
  iotlbSize := 256
  streams := { core := {
    regs := { cr0 := 1, strtabBaseLo := 0x1000, strtabBaseCfg := 1 }
    bus := .start ⟨[(0x1000,0x300B ||| (max <<< 59)),(0x3000,0x0001000580000019),(0x3008,0x20000),
      (0x3040,0x0001000580000019),(0x3048,0x20000),(0x20000,0x21003),(0x21000,0x22003),(0x22008,0x5443)],[]⟩ } }

end

end Qbox.Smmuv3
