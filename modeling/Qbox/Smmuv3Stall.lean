import Qbox.Smmuv3Queues
import Qbox.Smmuv3Registers

/-! Parked transactions: the tag a transaction reports when it is parked, and the commands that
resume it by that tag. -/
namespace Qbox.Smmuv3
open MachineWord DmaSocket List BitVec Core

variable {M : Type} [DmaSocket M]

def recordStag (bytes : List U8) : U32 := (dword bytes 1 &&& 0xFFFF).setWidth 32

lemma dword_one (w0 w1 : U64) (ws : List U64) : dword ((w0 :: w1 :: ws).flatMap (storeLe 8)) 1 = w1 := by
  have hl : ∀ v : U64, (storeLe 8 v).length = 8 := fun v => by simp [storeLe]
  rw [dword,flatMap_cons,flatMap_cons,drop_left' (hl w0),take_left' (hl w1)]
  exact loadLe_storeLe w1 (by decide)

lemma recordStag_eventBytes (type sid ssid : U32) (iova : U64) (command : TlmCommand) (cls faultLevel stag : U32)
    (stall : Bool) :
    recordStag (eventBytes type sid ssid iova command cls faultLevel stag stall) = stag &&& lowMask 16 := by
  have hm : (0xFFFF : U64) = lowMask 16 := by decide
  rw [recordStag,eventBytes,eventWords,dword_one]
  refine eq_of_getLsbD_eq fun i hi => ?_
  have hs : ∀ k : ℕ, 16 ≤ k → ∀ x : U64, i < 16 → (x <<< k).getLsbD i = false := fun k hk x hi16 => by
    simp [show i < k by omega]
  by_cases hi16 : i < 16
  · have hf : ∀ (b : Bool) (k : ℕ), 16 ≤ k → (if b then 1#64 <<< k else 0).getLsbD i = false := fun b k hk => by
      cases b
      · simp
      · exact hs k hk 1 hi16
    have hl : ((0xFFFF : ℕ) : U64).getLsbD i = true := by
      rw [show ((0xFFFF : ℕ) : U64) = lowMask 16 from hm,getLsbD_lowMask]
      simp [hi16]
      omega
    simp only [getLsbD_setWidth,getLsbD_and,getLsbD_or,hm,getLsbD_lowMask,hl,
      hs 20 (by decide) _ hi16,hs 24 (by decide) _ hi16,hf _ 17 (by decide),hf _ 23 (by decide)]
    simp [hi,hi16,show i < 64 by omega]
  · simp [hm,hi16]

lemma and_lowMask_eq_self_iff (x : U32) : x &&& lowMask 16 = x ↔ x.toNat < 2^16 := by
  rw [← toNat_inj,toNat_and_lowMask]
  exact ⟨fun h => h ▸ Nat.mod_lt _ (Nat.two_pow_pos _),Nat.mod_eq_of_lt⟩

def resumeCmd (stag : U32) (resp : U8) : Cmd := [0x44,0,0,0]++storeLe 4 stag++[0,0,0,resp,0,0,0,0]

lemma resumeCmd_stag (stag : U32) (resp : U8) : (resumeCmd stag resp).stag = stag := by
  have hl : (storeLe 4 stag).length = 4 := by simp [storeLe]
  have hd : (resumeCmd stag resp).drop 4 = storeLe 4 stag++[0,0,0,resp,0,0,0,0] := rfl
  rw [Cmd.stag,hd,take_left' hl]
  exact loadLe_storeLe stag (by decide)

/-- The command notifies the event of the entry with the given key. -/
def notifies (c : Cmd) (s : Smmuv3 M) (stag : U32) : Bool :=
  decide (stag = c.stag) && (s.stalledTxns.lookup stag).isSome

lemma lookup_replace {K V : Type} [DecidableEq K] (m : AList (fun _ : K => V)) (k j : K) (v : V) :
    (m.replace k v).lookup j = if j = k then (m.lookup j).map (fun _ => v) else m.lookup j := by
  rcases m with ⟨l,hl⟩
  show (l.kreplace k v).dlookup j = if j = k then (l.dlookup j).map (fun _ => v) else l.dlookup j
  clear hl
  induction l with
  | nil => simp [kreplace]
  | cons e l ih =>
    rcases e with ⟨i,u⟩
    by_cases hki : k = i
    · subst hki
      rw [kreplace,lookmap_cons_some (fun e : (_ : K) × V => if k = e.1 then some ⟨k,v⟩ else none) _ (if_pos rfl)]
      by_cases hj : j = k
      · subst hj
        rw [dlookup_cons_eq,dlookup_cons_eq,if_pos rfl,Option.map_some]
      · rw [dlookup_cons_ne _ _ hj,dlookup_cons_ne _ _ hj,if_neg hj]
    · rw [kreplace,lookmap_cons_none (fun e : (_ : K) × V => if k = e.1 then some ⟨k,v⟩ else none) _ (if_neg hki)]
      by_cases hj : j = i
      · subst hj
        rw [dlookup_cons_eq,dlookup_cons_eq,if_neg (Ne.symm hki)]
      · rw [dlookup_cons_ne _ _ hj,dlookup_cons_ne _ _ hj]
        exact ih

omit [DmaSocket M] in
/-- Of the parked transactions a command resumes the one it notifies, and leaves the others alone. -/
lemma handleCmdResume_lookup (c : Cmd) (s : Smmuv3 M) (stag : U32) : (handleCmdResume c s).stalledTxns.lookup stag =
      if notifies c s stag then (s.stalledTxns.lookup stag).map fun t =>
        { t with aborted := t.aborted || decide (c.getD 11 0 ≠ 0), resumed := true }
      else s.stalledTxns.lookup stag := by
  rw [handleCmdResume]
  by_cases hs : stag = c.stag
  · subst hs
    cases hf : s.stalledTxns.lookup c.stag with
    | none => simp [notifies,hf]
    | some t => simp [notifies,hf,lookup_replace]
  · split <;> simp [notifies,hs,lookup_replace]

omit [DmaSocket M] in
lemma handleCmdResume_isSome (c : Cmd) (s : Smmuv3 M) (stag : U32) :
    ((handleCmdResume c s).stalledTxns.lookup stag).isSome = (s.stalledTxns.lookup stag).isSome := by
  rw [handleCmdResume_lookup]
  split_ifs
  · exact Option.isSome_map
  · rfl

/-- A transaction parked in `stall_and_wait`, with its entry's key and its record. -/
structure Parked where
  stag : U32
  record : Option (List U8)
  deriving DecidableEq

structure StallState (M : Type) where
  smmu : Smmuv3 M
  parked : List Parked

inductive StallAction (M : Type) where
  | stall (sid substreamId : U32) (iova : U64) (faultType faultLevel cls : U32) (command : TlmCommand)
  | command (op : CmdOp) (c : Cmd)
  /-- A transaction whose event was notified goes on. -/
  | wake (stag : U32)
  | reset (ato level : Bool)
  /-- Whatever else happens to the SMMU and to memory. -/
  | other (smmu : Smmuv3 M)

namespace StallState
def step (s : StallState M) : StallAction M → StallState M
  | .stall sid ssid iova faultType faultLevel cls command =>
    let (stag,smmu) := stallAndWait sid ssid iova faultType faultLevel cls command s.smmu
    -- The queue has taken the record when its producer index has moved.
    let record := if smmu.regs.eventqProd = s.smmu.regs.eventqProd then none
      else some (eventBytes faultType sid ssid iova command cls faultLevel stag true)
    ⟨smmu,s.parked++[⟨stag,record⟩]⟩
  | .command op c => ⟨handleOp op c s.smmu,s.parked⟩
  | .wake stag =>
    match s.smmu.stalledTxns.lookup stag with
    | some ⟨_,_,_,true⟩ =>
      ⟨{ s.smmu with stalledTxns := s.smmu.stalledTxns.erase stag },s.parked.filter fun p => p.stag ≠ stag⟩
    | _ => s
  | .reset ato level => ⟨resetChanged ato level s.smmu,s.parked⟩
  | .other smmu => ⟨{ smmu with stalledTxns := s.smmu.stalledTxns, nextStag := s.smmu.nextStag },s.parked⟩

def selected (s : StallState M) (c : Cmd) : List Parked := s.parked.filter fun p => notifies c s.smmu p.stag

/-- Every parked transaction has its record in the queue, and a command with its tag resumes it alone. -/
def Selects (s : StallState M) : Prop :=
  ∀ p ∈ s.parked, ∃ bytes, p.record = some bytes ∧ ∀ c : Cmd, c.stag = recordStag bytes → s.selected c = [p]

/-- Every parked transaction can be resumed by the tag it reported, and the reported tags are distinct. -/
structure Resumable (s : StallState M) : Prop where
  selects : s.Selects
  distinct : (s.parked.map fun p => p.record.map recordStag).Nodup

/-- A transaction is parked while tags fit and the event queue takes its record, and reset rises only when none is. -/
def KeepsTags (s : StallState M) : StallAction M → Prop
  | .stall sid ssid iova faultType faultLevel cls command =>
    s.smmu.nextStag.toNat < 2^16 ∧ OutputQueue.eventq.accepts
      (eventBytes faultType sid ssid iova command cls faultLevel s.smmu.nextStag true) s.smmu.streams.core = true
  | .reset _ true => s.parked = []
  | _ => True

variable {s : StallState M}

omit [DmaSocket M] in
lemma mem_selected {c : Cmd} {p : Parked} :
    p ∈ s.selected c ↔ p ∈ s.parked ∧ p.stag = c.stag ∧ (s.smmu.stalledTxns.lookup p.stag).isSome := by
  simp [selected,notifies]

omit [DmaSocket M] in
lemma Selects.stag_eq (h : s.Selects) {p : Parked} (hp : p ∈ s.parked) {bytes : List U8}
    (hb : p.record = some bytes) : p.stag = recordStag bytes := by
  obtain ⟨bytes',hr,hs⟩ := h p hp
  obtain rfl : bytes' = bytes := Option.some.inj (hr.symm.trans hb)
  have hc := resumeCmd_stag (recordStag bytes') 0
  have hm : p ∈ s.selected (resumeCmd (recordStag bytes') 0) := hs _ hc ▸ mem_singleton_self p
  exact (mem_selected.mp hm).2.1.trans hc

omit [DmaSocket M] in
lemma Selects.resumable (h : s.Selects) : s.Resumable := by
  refine ⟨h,Nodup.map_on ?_ (nodup_iff_count_le_one.mpr fun p => ?_)⟩
  · intro p hp q hq heq
    obtain ⟨bytes,hb,hs⟩ := h p hp
    obtain ⟨bytes',hb',hse⟩ := h q hq
    have hc := resumeCmd_stag (recordStag bytes) 0
    simp only [hb,hb',Option.map_some,Option.some.injEq] at heq
    exact singleton_inj.mp ((hs _ hc).symm.trans (hse _ (hc.trans heq)))
  · by_cases hp : p ∈ s.parked
    · obtain ⟨bytes,hb,hsl⟩ := h p hp
      have hsl := hsl _ (resumeCmd_stag (recordStag bytes) 0)
      have hm : p ∈ s.selected (resumeCmd (recordStag bytes) 0) := hsl ▸ mem_singleton_self p
      have hco : (s.selected (resumeCmd (recordStag bytes) 0)).count p = s.parked.count p :=
        count_filter (mem_filter.mp hm).2
      rw [← hco,hsl,count_singleton_self]
    · rw [count_eq_zero.mpr hp]
      exact Nat.zero_le 1

/-- The keys of the parked transactions lie below the next one. -/
def TagsBelow (s : StallState M) : Prop := ∀ p ∈ s.parked, p.stag.toNat < s.smmu.nextStag.toNat

structure Parks (p : Parked) (s s' : StallState M) : Prop where
  parked : s'.parked = s.parked++[p]
  stag : p.stag = s.smmu.nextStag
  table : ∃ t, s'.smmu.stalledTxns = s.smmu.stalledTxns.insert p.stag t
  next : s'.smmu.nextStag = s.smmu.nextStag+1

lemma step_stall (s : StallState M) (sid ssid : U32) (iova : U64) (faultType faultLevel cls : U32)
    (command : TlmCommand) : Parks ⟨s.smmu.nextStag,
        if OutputQueue.eventq.accepts (eventBytes faultType sid ssid iova command cls faultLevel s.smmu.nextStag true)
            s.smmu.streams.core = true
        then some (eventBytes faultType sid ssid iova command cls faultLevel s.smmu.nextStag true) else none⟩
      s (s.step (.stall sid ssid iova faultType faultLevel cls command)) := by
  refine ⟨?_,rfl,⟨_,rfl⟩,rfl⟩
  have hm := OutputQueue.push_prod_ne_iff .eventq
    (eventBytes faultType sid ssid iova command cls faultLevel s.smmu.nextStag true) s.smmu.streams.core
  rw [if_congr hm.symm rfl rfl,ite_not]
  rfl

namespace Parks
variable {s' : StallState M} {p : Parked}

omit [DmaSocket M] in
lemma lookup_of_ne (h : Parks p s s') {stag : U32} (hne : stag ≠ p.stag) :
    s'.smmu.stalledTxns.lookup stag = s.smmu.stalledTxns.lookup stag := by
  obtain ⟨t,ht⟩ := h.table
  rw [ht,AList.lookup_insert_ne hne]

omit [DmaSocket M] in
lemma selected (h : Parks p s s') (hb : s.TagsBelow) (c : Cmd) :
    s'.selected c = s.selected c++if p.stag = c.stag then [p] else [] := by
  obtain ⟨t,ht⟩ := h.table
  rw [StallState.selected,h.parked,filter_append]
  refine congrArg₂ _ (filter_congr fun q hq => ?_) ?_
  · have hne : q.stag ≠ p.stag := fun heq => (heq.trans h.stag ▸ hb q hq).ne rfl
    rw [notifies,h.lookup_of_ne hne,notifies]
  · have hs : (s'.smmu.stalledTxns.lookup p.stag).isSome = true := by rw [ht,AList.lookup_insert]; rfl
    simp [notifies,hs,filter_singleton]

end Parks

variable {sid ssid faultType faultLevel cls : U32} {iova : U64} {command : TlmCommand}

lemma stall_keepsTags (h : (s.step (.stall sid ssid iova faultType faultLevel cls command)).Selects) :
    s.KeepsTags (.stall sid ssid iova faultType faultLevel cls command) := by
  have hp := step_stall s sid ssid iova faultType faultLevel cls command
  have hm := hp.parked ▸ mem_append_right _ (mem_singleton_self _)
  obtain ⟨bytes,hb,-⟩ := h _ hm
  have hs := h.stag_eq hm hb
  split_ifs at hb with ha
  cases hb
  rw [recordStag_eventBytes] at hs
  exact ⟨(and_lowMask_eq_self_iff _).mp hs.symm,ha⟩

lemma stall_selects (h : s.Selects) (hb : s.TagsBelow)
    (hk : s.KeepsTags (.stall sid ssid iova faultType faultLevel cls command)) :
    (s.step (.stall sid ssid iova faultType faultLevel cls command)).Selects := by
  obtain ⟨ht,ha⟩ := hk
  have hp := step_stall s sid ssid iova faultType faultLevel cls command
  rw [if_pos ha] at hp
  intro q hq
  rw [hp.parked] at hq
  rcases mem_append.mp hq with hq | hq
  · obtain ⟨bytes,hby,hse⟩ := h q hq
    refine ⟨bytes,hby,fun c hc => ?_⟩
    have hne : s.smmu.nextStag ≠ c.stag := fun heq =>
      (heq.trans (hc.trans (h.stag_eq hq hby).symm) ▸ hb q hq).ne rfl
    rw [hp.selected hb,hse c hc,if_neg hne,List.append_nil]
  · obtain rfl := mem_singleton.mp hq
    refine ⟨_,rfl,fun c hc => ?_⟩
    rw [recordStag_eventBytes,(and_lowMask_eq_self_iff _).mpr ht] at hc
    have hno : s.selected c = [] := filter_eq_nil_iff.mpr fun q hq hn => by
      have hs := (mem_selected.mp (mem_filter.mpr ⟨hq,hn⟩)).2.1
      exact (hs.trans hc ▸ hb q hq).ne rfl
    rw [hp.selected hb,hno,if_pos hc.symm,nil_append]

omit [DmaSocket M] in
lemma Selects.congr (h : s.Selects) {smmu : Smmuv3 M}
    (hk : ∀ stag, (smmu.stalledTxns.lookup stag).isSome = (s.smmu.stalledTxns.lookup stag).isSome) :
    Selects ⟨smmu,s.parked⟩ := by
  intro p hp
  obtain ⟨bytes,hb,hs⟩ := h p hp
  refine ⟨bytes,hb,fun c hc => (filter_congr fun q _ => ?_).trans (hs c hc)⟩
  rw [notifies,notifies,hk]

/-- Of the commands only `CMD_RESUME` touches the parked transactions. -/
lemma handleOp_stalls (op : CmdOp) (c : Cmd) (s : Smmuv3 M) : (handleOp op c s).nextStag = s.nextStag ∧
      ∀ stag, ((handleOp op c s).stalledTxns.lookup stag).isSome = (s.stalledTxns.lookup stag).isSome := by
  cases op with
  | resume =>
    refine ⟨?_,handleCmdResume_isSome c s⟩
    rw [handleOp,handleCmdResume]
    split <;> rfl
  | sync =>
    rw [handleOp,handleCmdSync]
    split_ifs <;> exact ⟨rfl,fun _ => rfl⟩
  | _ => exact ⟨rfl,fun _ => rfl⟩

omit [DmaSocket M] in
lemma Selects.erase (h : s.Selects) (stag : U32) :
    Selects ⟨{ s.smmu with stalledTxns := s.smmu.stalledTxns.erase stag },s.parked.filter fun p => p.stag ≠ stag⟩ := by
  intro p hp
  obtain ⟨hp,hne⟩ := mem_filter.mp hp
  obtain ⟨bytes,hb,hs⟩ := h p hp
  refine ⟨bytes,hb,fun c hc => ?_⟩
  have hne : c.stag ≠ stag := hc.trans (h.stag_eq hp hb).symm ▸ of_decide_eq_true hne
  rw [selected,List.filter_filter,← hs c hc]
  refine filter_congr fun q _ => ?_
  by_cases hq : q.stag = c.stag
  · have hqn : q.stag ≠ stag := hq ▸ hne
    simp [notifies,AList.lookup_erase_ne hqn,hqn]
  · simp [notifies,hq]

/-- One step keeps every parked transaction resumable exactly when it meets the condition. -/
lemma step_selects_iff (hb : s.TagsBelow) (h : s.Selects) (a : StallAction M) :
    (s.step a).Selects ↔ s.KeepsTags a := by
  cases a with
  | stall sid ssid iova faultType faultLevel cls command => exact ⟨stall_keepsTags,stall_selects h hb⟩
  | command op c => exact iff_of_true (h.congr (handleOp_stalls op c s.smmu).2) trivial
  | wake stag =>
    refine iff_of_true ?_ trivial
    rw [step]
    split
    · exact h.erase stag
    · exact h
  | reset ato level =>
    cases level with
    | false => exact iff_of_true (h.congr fun _ => rfl) trivial
    | true =>
      refine ⟨fun hr => eq_nil_iff_forall_not_mem.mpr fun p hp => ?_,fun hn p hp => ?_⟩
      · obtain ⟨bytes,-,hs⟩ := hr p hp
        have hm : p ∈ (s.step (.reset ato true)).selected (resumeCmd (recordStag bytes) 0) :=
          hs _ (resumeCmd_stag _ _) ▸ mem_singleton_self p
        exact absurd (mem_selected.mp hm).2.2 (by simp [step,resetChanged])
      · rw [KeepsTags] at hn
        have hp : p ∈ s.parked := hp
        rw [hn] at hp
        cases hp
  | other smmu => exact iff_of_true (h.congr fun _ => rfl) trivial

lemma TagsBelow.step (h : s.TagsBelow) {a : StallAction M} (ha : s.KeepsTags a) : (s.step a).TagsBelow := by
  cases a with
  | stall sid ssid iova faultType faultLevel cls command =>
    have hpa := step_stall s sid ssid iova faultType faultLevel cls command
    have hn : (s.smmu.nextStag+1).toNat = s.smmu.nextStag.toNat+1 := by
      have := ha.1
      bv_omega
    intro p hp
    rw [hpa.next,hn]
    rcases mem_append.mp hp with hp | hp
    · exact (h p hp).trans (Nat.lt_succ_self _)
    · obtain rfl := mem_singleton.mp hp
      exact Nat.lt_succ_self _
  | command op c =>
    intro p hp
    show p.stag.toNat < (handleOp op c s.smmu).nextStag.toNat
    rw [(handleOp_stalls op c s.smmu).1]
    exact h p hp
  | wake stag =>
    rw [StallState.step]
    split
    · exact fun p hp => h p (mem_of_mem_filter hp)
    · exact h
  | reset ato level => cases level <;> exact h
  | other smmu => exact h

/-- Every parked transaction can be resumed in every state of a run exactly when every step meets the condition. -/
theorem stalled_resumable_iff (smmu : Smmuv3 M) (l : List (StallAction M)) :
    (∀ l', l' <+: l → (l'.foldl step ⟨smmu,[]⟩).Resumable) ↔ GuardedRun.Along step KeepsTags ⟨smmu,[]⟩ l := by
  have hi : ∀ (s : StallState M) (a : StallAction M), s.TagsBelow → s.Resumable →
      ((s.step a).Resumable ↔ s.KeepsTags a) := fun s a hb h =>
    ⟨fun hs => (step_selects_iff hb h.selects a).mp hs.selects,
      fun ha => ((step_selects_iff hb h.selects a).mpr ha).resumable⟩
  have hb : TagsBelow (⟨smmu,[]⟩ : StallState M) := fun _ hp => absurd hp not_mem_nil
  have hse : Selects (⟨smmu,[]⟩ : StallState M) := fun _ hp => absurd hp not_mem_nil
  exact GuardedRun.forall_prefix_iff_along
    (fun s a hb h hs => hb.step ((hi s a hb h).mp hs)) hi hb hse.resumable l

def stallingSmmu (cr0 : U32) : Smmuv3 Ram where
  pamax := 48
  iotlbSize := 256
  streams := { core := { regs := { cr0 := cr0, eventqBaseLo := 0x1001 }, bus := ⟨[],[]⟩ } }

def stallRound : List (StallAction Ram) := [.stall 1 0 0x5000 0x10 3 0 .read,.other (stallingSmmu 4)]

lemma stallRound_foldl {s : StallState Ram} (hs : s.smmu.streams = (stallingSmmu 4).streams)
    (hr : ∀ p ∈ s.parked, p.record ≠ none) : (stallRound.foldl step s).smmu.nextStag = s.smmu.nextStag+1 ∧
      ∀ p ∈ (s.step (.stall 1 0 0x5000 0x10 3 0 .read)).parked, p.record ≠ none := by
  have hpa := step_stall s 1 0 0x5000 0x10 3 0 .read
  have ha : OutputQueue.eventq.accepts (eventBytes 0x10 1 0 0x5000 .read 0 3 s.smmu.nextStag true)
      s.smmu.streams.core = true := by
    rw [hs]
    rfl
  rw [if_pos ha] at hpa
  refine ⟨hpa.next,fun p hp => ?_⟩
  rw [hpa.parked] at hp
  rcases mem_append.mp hp with hp | hp
  · exact hr p hp
  · obtain rfl := mem_singleton.mp hp
    nofun

lemma stallRounds_foldl (n : ℕ) :
    ((List.replicate n stallRound).flatten.foldl step ⟨stallingSmmu 4,[]⟩).smmu.streams = (stallingSmmu 4).streams ∧
      ((List.replicate n stallRound).flatten.foldl step ⟨stallingSmmu 4,[]⟩).smmu.nextStag = BitVec.ofNat 32 (n+1) ∧
      ∀ p ∈ ((List.replicate n stallRound).flatten.foldl step ⟨stallingSmmu 4,[]⟩).parked, p.record ≠ none := by
  induction n with
  | zero => exact ⟨rfl,rfl,fun _ hp => absurd hp not_mem_nil⟩
  | succ n ih =>
    rw [List.replicate_succ',flatten_append,flatten_singleton,foldl_append]
    obtain ⟨hs,hn,hr⟩ := ih
    have hro := stallRound_foldl hs hr
    refine ⟨rfl,?_,hro.2⟩
    rw [hro.1,hn,ofNat_add (n+1)]
    rfl

/-- From the first tag that does not fit, and while the queue is disabled, a parked transaction cannot be resumed. -/
theorem stall_not_resumable :
    (∃ l : List (StallAction Ram), (∀ p ∈ (l.foldl step ⟨stallingSmmu 4,[]⟩).parked, p.record ≠ none) ∧
      ¬ (l.foldl step ⟨stallingSmmu 4,[]⟩).Resumable) ∧
    ¬ (step ⟨stallingSmmu 0,[]⟩ (.stall 1 0 0x5000 0x10 3 0 .read)).Resumable := by
  refine ⟨⟨(List.replicate 65535 stallRound).flatten++[.stall 1 0 0x5000 0x10 3 0 .read],?_⟩,fun h => ?_⟩
  · obtain ⟨hs,hn,hr⟩ := stallRounds_foldl 65535
    rw [foldl_append,foldl_cons,foldl_nil]
    refine ⟨(stallRound_foldl hs hr).2,fun h => ?_⟩
    have ht := (stall_keepsTags h.selects).1
    rw [hn] at ht
    exact absurd ht (by decide)
  · exact absurd (stall_keepsTags h.selects).2 (by decide)

end StallState
end Qbox.Smmuv3
