import Qbox.RegRouterMasks

/-! What the register router calls for one transaction: the callback targets around the memory access,
and the address they leave. -/
namespace Qbox.RegRouter
open List Option

variable {E : Type}

inductive Called where
  | port (i : ℕ)
  | memory (k : ℕ)
  deriving DecidableEq

section
variable (f : RegFile E)

/-- The ports that `callPorts` calls. -/
def calledPorts (addr : U64) : List (Register E × ℕ) → State E → Txn → List ℕ
  | [], _, _ => []
  | (r,i) :: l, s, t => i ::
    match portTransport f i r s (r.info.enter addr t) with
    | none => []
    | some (s,t) => if t.failed then [] else calledPorts addr l s (r.info.restore addr t)

/-- What `bTransport` calls, in this order. -/
def calls (s : State E) (t : Txn) : List Called :=
  let phase s (t : Txn) := (calledPorts f t.address (claimants f t.address) s t).map Called.port
  match decodeAddress f t.address with
  | some (some k) =>
    phase s t++ match doCallbacks f s t with
      | none => []
      | some (s1,t1) =>
        if t1.failed then []
        else
          let x := memTransport f k s1 ((f.memory k).info.enter t.address t1)
          .memory k :: if x.2.response = .ok then phase x.1 ((f.memory k).info.restore t.address x.2) else []
  | _ => []

def RegFile.Strongest (addr : U64) (i : ℕ) : Prop := ∃ r, f.registers[i]? = some r ∧ r.info.claims addr = true ∧
    ∀ r' ∈ f.registers, r'.info.claims addr = true → r.info.priority ≤ r'.info.priority

structure RegFile.Best (addr : U64) (k : ℕ) : Prop where
  lt : k < f.memories
  claims : (f.memory k).info.claims addr = true
  best : ∀ j < f.memories, j ≠ k → (f.memory j).info.claims addr = true →
    (f.memory k).info.priority < (f.memory j).info.priority

/-- Of two memories that claim the address alike, the second comes behind a stronger one. -/
def RegFile.NoTie (addr : U64) (n : ℕ) : Prop :=
  ∀ j < n, (f.memory j).info.claims addr = true → ∀ i < j, (f.memory i).info.claims addr = true →
    (f.memory i).info.priority = (f.memory j).info.priority →
    ∃ l < j, (f.memory l).info.claims addr = true ∧ (f.memory l).info.priority < (f.memory j).info.priority

/-- The callbacks leave the address of the transaction, as TLM asks of a target. -/
def Register.KeepsAddress (r : Register E) : Prop :=
  ∀ hook ∈ r.preRead++r.preWrite++r.postRead++r.postWrite, ∀ s t, (hook s t).2.address = t.address

/-- The strongest claimants are called before and after the access to `k`, each once, while no error is reported. -/
structure FansOut (s : State E) (t : Txn) (k : ℕ) : Prop where
  decoded : decodeAddress f t.address = some (some k)
  ports : ∃ ports : List ℕ, ports.Nodup ∧ (∀ i, i ∈ ports ↔ f.Strongest t.address i) ∧
    calls f s t <+: ports.map .port++.memory k :: ports.map .port ∧
    ∀ s' t', bTransport f s t = some (s',t') → t'.address = t.address ∧
      (t'.response = .ok → calls f s t = ports.map .port++.memory k :: ports.map .port)
  stopped : ∀ s1 t1, doCallbacks f s t = some (s1,t1) → t1.failed = true → bTransport f s t = some (s1,t1) ∧
    ∃ l c l' s0 t0, claimants f t.address = l++c :: l' ∧ callPorts f t.address l s t = some (s0,t0) ∧
      t0.failed = false ∧ calls f s t = (l++[c]).map (.port ·.2)

end

section
variable {f : RegFile E} {addr : U64} {l : List (Register E × ℕ)} {s s' : State E} {t t' : Txn}

lemma calledPorts_prefix : calledPorts f addr l s t <+: l.map Prod.snd := by
  induction l generalizing s t with
  | nil => exact prefix_rfl
  | cons c l ih =>
    rw [calledPorts,map_cons,prefix_cons_inj]
    split
    · exact nil_prefix
    · split_ifs
      · exact nil_prefix
      · exact ih

lemma failed_restore (ti : TargetInfo) (addr : U64) (t : Txn) : (ti.restore addr t).failed = t.failed := by
  simp [Txn.failed,restore_response]

/-- The ports called are all of them, or those up to the one that reports an error. -/
lemma calledPorts_cases (h : callPorts f addr l s t = some (s',t')) (ho : t.failed = false) :
    t'.failed = false ∧ calledPorts f addr l s t = l.map Prod.snd ∨
      t'.failed = true ∧ ∃ l₁ c l₂ s0 t0, l = l₁++c :: l₂ ∧ callPorts f addr l₁ s t = some (s0,t0) ∧ t0.failed = false ∧
        calledPorts f addr l s t = (l₁++[c]).map Prod.snd := by
  induction l generalizing s t with
  | nil =>
    cases h
    exact .inl ⟨ho,rfl⟩
  | cons c l ih =>
    obtain ⟨r,i⟩ := c
    simp only [callPorts,bind_eq_bind,bind_eq_some_iff] at h
    obtain ⟨⟨s1,t1⟩,hp,h⟩ := h
    simp only [failed_restore] at h
    simp only [calledPorts,hp]
    cases hf : t1.failed with
    | true =>
      simp only [hf,if_true] at h ⊢
      cases h
      exact .inr ⟨by rw [failed_restore,hf],[],(r,i),l,s,t,rfl,rfl,ho,rfl⟩
    | false =>
      simp only [hf,Bool.false_eq_true,if_false] at h ⊢
      rcases ih h (by rw [failed_restore,hf]) with ⟨ht,ha⟩ | ⟨ht,l₁,c,l₂,s0,t0,rfl,hb,ho0,hc⟩
      · exact .inl ⟨ht,by rw [ha,map_cons]⟩
      · refine .inr ⟨ht,(r,i) :: l₁,c,l₂,s0,t0,rfl,?_,ho0,by rw [hc]; rfl⟩
        simp [callPorts,hp,failed_restore,hf,hb]

lemma runHooks_address {hooks : List (Hook E)} (h : ∀ hook ∈ hooks, ∀ s t, (hook s t).2.address = t.address)
    (s : State E) (t : Txn) : (runHooks hooks s t).2.address = t.address := by
  induction hooks generalizing s t with
  | nil => rfl
  | cons hook hooks ih =>
    have hr := ih (fun g hg => h g (mem_cons_of_mem _ hg)) (hook s t).1 (hook s t).2
    exact hr.trans (h hook mem_cons_self s t)

variable {i : ℕ} {r : Register E}

lemma captureTxnPre_address (h : captureTxnPre f i r s t = some (s',t')) : t'.address = t.address := by
  rcases (captureTxnPre_spec h).2 with rfl | ⟨rfl,-⟩ <;> rfl

lemma handleMaskPost_address (h : handleMaskPost f i r s t = some (s',t')) : t'.address = t.address := by
  rcases (handleMaskPost_spec h).2 with rfl | ⟨⟨data,rfl⟩,-⟩ <;> rfl

lemma portTransport_address (hk : r.KeepsAddress) (h : portTransport f i r s t = some (s',t')) :
    t'.address = t.address := by
  simp only [portTransport] at h
  split_ifs at h
  · cases h
    rfl
  · cases h
    rfl
  · obtain ⟨⟨s1,t1⟩,hb,h⟩ := bind_eq_some_iff.mp h
    cases h
    simp only [portBody] at hb
    split at hb
    · exact (captureTxnPre_address hb).trans
        (runHooks_address (fun hook hh => hk hook (mem_preHooks hh)) _ t)
    · obtain ⟨⟨s2,t2⟩,hha,hb⟩ := bind_eq_some_iff.mp hb
      have hho : (runHooks (r.postHooks t.command) s2 t2).2.address = t2.address :=
        runHooks_address (fun hook hh => hk hook (mem_postHooks hh)) s2 t2
      rw [Option.some.inj hb] at hho
      exact hho.trans (handleMaskPost_address hha)
    · cases hb
      rfl

lemma restore_address (ti : TargetInfo) (h : t'.address = (ti.enter addr t).address)
    (ha : t.address = addr) : (ti.restore addr t').address = addr := by
  rw [enter_address] at h
  unfold TargetInfo.restore
  split_ifs with ho
  · rfl
  · rw [h,if_neg ho,ha]

lemma callPorts_address (hk : ∀ c ∈ l, c.1.KeepsAddress) (ha : t.address = addr)
    (h : callPorts f addr l s t = some (s',t')) : t'.address = addr := by
  induction l generalizing s t with
  | nil =>
    cases h
    exact ha
  | cons c l ih =>
    simp only [callPorts,bind_eq_bind,bind_eq_some_iff] at h
    obtain ⟨⟨s1,t1⟩,hp,h⟩ := h
    have hb := restore_address c.1.info (portTransport_address (hk c mem_cons_self) hp) ha
    split_ifs at h
    · cases h
      exact hb
    · exact ih (fun d hd => hk d (mem_cons_of_mem _ hd)) hb h

lemma memTransport_address (k : ℕ) : (memTransport f k s t).2.address = t.address := by
  unfold memTransport
  split <;> rfl

lemma doCallbacks_address (hk : ∀ r ∈ f.registers, r.KeepsAddress) (h : doCallbacks f s t = some (s',t')) :
    t'.address = t.address :=
  callPorts_address (fun _ hc => hk _ (mem_registers_of_claimant hc)) rfl h

/-- The address is put back, whatever the callbacks and the memory answer. -/
lemma bTransport_address (hk : ∀ r ∈ f.registers, r.KeepsAddress) (h : bTransport f s t = some (s',t')) :
    t'.address = t.address := by
  simp only [bTransport,bind_eq_bind,bind_eq_some_iff] at h
  obtain ⟨best,-,h⟩ := h
  cases best with
  | none =>
    cases h
    rfl
  | some k =>
    obtain ⟨⟨s1,t1⟩,hp,h⟩ := bind_eq_some_iff.mp h
    have hf := doCallbacks_address hk hp
    have hb := restore_address (f.memory k).info
      (memTransport_address (f := f) (s := s1) (t := (f.memory k).info.enter t.address t1) k) hf
    split_ifs at h with hfa hok hok
    · exact (doCallbacks_address hk h).trans hf
    · cases h
      exact hf
    · exact (doCallbacks_address hk h).trans hb
    · cases h
      exact hb

end

section
variable {f : RegFile E} {addr : U64}

/-- The scan of `do_callbacks` has kept the claimants of a list with the least priority. -/
structure Scanned (addr : U64) (l : List (Register E × ℕ)) (acc : List (Register E × ℕ) × U32) : Prop where
  mem : ∀ c, c ∈ acc.1 ↔ c ∈ l ∧ c.1.info.claims addr = true ∧ c.1.info.priority = acc.2
  le : ∀ c ∈ l, c.1.info.claims addr = true → acc.1 ≠ [] ∧ acc.2 ≤ c.1.info.priority

lemma Scanned.add {l : List (Register E × ℕ)} {acc : List (Register E × ℕ) × U32} (h : Scanned addr l acc)
    (n : Register E × ℕ) : Scanned addr (l++[n]) (addClaimant addr acc n) := by
  obtain ⟨hm,hle⟩ := h
  unfold addClaimant
  split_ifs with hn hf heq
  · constructor <;> grind
  · constructor <;> grind
  · refine ⟨by grind,fun c hc hcl => ⟨by simp,?_⟩⟩
    grind
  · constructor <;> grind

lemma scanned_foldl (addr : U64) (l : List (Register E × ℕ)) :
    Scanned addr l (l.foldl (addClaimant addr) ([],0)) := by
  induction l using reverseRecOn with
  | nil => exact ⟨by simp,by simp⟩
  | append_singleton l n ih =>
    rw [foldl_append]
    exact ih.add n

lemma mem_claimants_iff {i : ℕ} : i ∈ (claimants f addr).map Prod.snd ↔ f.Strongest addr i := by
  obtain ⟨hm,hle⟩ := scanned_foldl addr f.registers.zipIdx
  have hz : ∀ {r : Register E} {j : ℕ}, (r,j) ∈ f.registers.zipIdx ↔ f.registers[j]? = some r :=
    fun {r j} => mem_zipIdx_iff_getElem?
  constructor
  · intro h
    obtain ⟨⟨r,j⟩,hc,rfl⟩ := List.mem_map.mp h
    obtain ⟨hin,hcl,hp⟩ := (hm (r,j)).mp hc
    refine ⟨r,hz.mp hin,hcl,fun r' hr' hcl' => ?_⟩
    obtain ⟨j',hj'⟩ := getElem?_of_mem hr'
    rw [hp]
    exact (hle (r',j') (hz.mpr hj') hcl').2
  · rintro ⟨r,hr,hcl,ha⟩
    obtain ⟨hne,hge⟩ := hle (r,i) (hz.mpr hr) hcl
    obtain ⟨⟨r',j'⟩,he⟩ := exists_mem_of_ne_nil _ hne
    obtain ⟨hin,hcl',hp⟩ := (hm (r',j')).mp he
    have hl := ha r' (mem_of_getElem? (hz.mp hin)) hcl'
    rw [hp] at hl
    exact List.mem_map.mpr ⟨(r,i),(hm (r,i)).mpr ⟨hz.mpr hr,hcl,le_antisymm hl hge⟩,rfl⟩

lemma RegFile.noTie_succ {n : ℕ} : f.NoTie addr (n+1) ↔ f.NoTie addr n ∧
    ((f.memory n).info.claims addr = true → ∀ i < n, (f.memory i).info.claims addr = true →
      (f.memory i).info.priority = (f.memory n).info.priority →
      ∃ l < n, (f.memory l).info.claims addr = true ∧ (f.memory l).info.priority < (f.memory n).info.priority) :=
  Nat.forall_lt_succ_right

/-- The memories before `n`, as the scan of `decode_address` sees them. -/
lemma foldlM_addMemory (f : RegFile E) (addr : U64) (n : ℕ) :
    ((List.range n).foldlM (addMemory f addr) none ≠ none ↔ f.NoTie addr n) ∧
      ∀ b, (List.range n).foldlM (addMemory f addr) none = some b →
        (∀ m, b = some m → m < n ∧ (f.memory m).info.claims addr = true) ∧
        ∀ j < n, (f.memory j).info.claims addr = true →
          ∃ m, b = some m ∧ (f.memory m).info.priority ≤ (f.memory j).info.priority := by
  induction n with
  | zero => simp [RegFile.NoTie]
  | succ n ih =>
    obtain ⟨hd,hbe⟩ := ih
    rw [range_succ,foldlM_append,RegFile.noTie_succ,← hd]
    cases hs : (List.range n).foldlM (addMemory f addr) none with
    | none => simp
    | some b =>
      obtain ⟨hli,hls⟩ := hbe b hs
      simp only [foldlM_cons,foldlM_nil,bind_eq_bind,bind_some,Option.pure_def,bind_fun_some,addMemory]
      cases hc : (f.memory n).info.claims addr with
      | false =>
        refine ⟨by simp,fun b' hb' => ?_⟩
        grind
      | true =>
        cases b with
        | none =>
          refine ⟨by grind,fun b' hb' => ?_⟩
          grind
        | some m =>
          obtain ⟨hm,hmc⟩ := hli m rfl
          rcases lt_trichotomy (f.memory n).info.priority (f.memory m).info.priority with hlt | heq | hgt
          · simp only [Bool.not_true,Bool.false_eq_true,if_false,if_pos hlt]
            refine ⟨by grind,fun b' hb' => ?_⟩
            grind
          · -- The strongest memory so far is as strong as this one.
            simp only [Bool.not_true,Bool.false_eq_true,if_false,heq,lt_irrefl,if_true]
            refine ⟨?_,by simp⟩
            simp only [ne_eq,not_true_eq_false,reduceCtorEq,not_false_eq_true,true_and,false_iff]
            intro ha
            obtain ⟨l,hl,hlc,hlt⟩ := ha trivial m hm hmc rfl
            obtain ⟨m',hm',hle⟩ := hls l hl hlc
            cases hm'
            exact absurd hlt (not_lt.mpr hle)
          · simp only [Bool.not_true,Bool.false_eq_true,if_false,if_neg hgt.not_gt,if_neg hgt.ne']
            refine ⟨by grind,fun b' hb' => ?_⟩
            grind

lemma RegFile.Best.decodeAddress_iff {k : ℕ} (h : f.Best addr k) :
    decodeAddress f addr = some (some k) ↔ f.NoTie addr f.memories := by
  obtain ⟨hd,hb⟩ := foldlM_addMemory f addr f.memories
  rw [← hd,decodeAddress]
  cases hs : (List.range f.memories).foldlM (addMemory f addr) none with
  | none => simp
  | some b =>
    obtain ⟨hl,hls⟩ := hb b hs
    obtain ⟨m,rfl,hle⟩ := hls k h.lt h.claims
    obtain ⟨hm,hc⟩ := hl m rfl
    have hkm : m = k := by
      by_contra hne
      exact absurd (h.best m hm hne hc) (not_lt.mpr hle)
    simp [hkm]

section
variable {s s1 : State E} {t t1 : Txn} {k : ℕ}

/-- The transaction as the memory gives it back still names the address. -/
lemma access_address (hk : ∀ r ∈ f.registers, r.KeepsAddress) (hp : doCallbacks f s t = some (s1,t1)) :
    ((f.memory k).info.restore t.address
      (memTransport f k s1 ((f.memory k).info.enter t.address t1)).2).address = t.address :=
  restore_address _ (memTransport_address k) (doCallbacks_address hk hp)

lemma calls_prefix (ho : t.failed = false) (hk : ∀ r ∈ f.registers, r.KeepsAddress)
    (hd : decodeAddress f t.address = some (some k)) :
    calls f s t <+: ((claimants f t.address).map Prod.snd).map .port++
      .memory k :: ((claimants f t.address).map Prod.snd).map .port := by
  simp only [calls,hd]
  have hp : (calledPorts f t.address (claimants f t.address) s t).map Called.port <+:
      ((claimants f t.address).map Prod.snd).map .port := calledPorts_prefix.map _
  cases hpr : doCallbacks f s t with
  | none => simpa using hp.trans (prefix_append _ _)
  | some x =>
    obtain ⟨s1,t1⟩ := x
    cases hf : t1.failed with
    | true => simpa [hf] using hp.trans (prefix_append _ _)
    | false =>
      rcases calledPorts_cases hpr ho with ⟨-,ha⟩ | ⟨hno,-⟩
      · simp only [ha,hf,Bool.false_eq_true,if_false,prefix_append_right_inj,prefix_cons_inj]
        split_ifs
        · rw [access_address hk hpr]
          exact calledPorts_prefix.map Called.port
        · exact nil_prefix
      · rw [hf] at hno
        cases hno

lemma calls_of_ok {s' : State E} {t' : Txn} (ho : t.failed = false)
    (hk : ∀ r ∈ f.registers, r.KeepsAddress) (hd : decodeAddress f t.address = some (some k))
    (h : bTransport f s t = some (s',t')) (hok : t'.response = .ok) :
    calls f s t = ((claimants f t.address).map Prod.snd).map .port++
      .memory k :: ((claimants f t.address).map Prod.snd).map .port := by
  obtain ⟨k',s1,t1,hd',hpr,hf,ha,hp⟩ := bTransport_ok h hok
  obtain rfl : k = k' := by simpa using hd.symm.trans hd'
  have hf' : t'.failed = false := by simp [Txn.failed,hok]
  rw [doCallbacks,access_address hk hpr] at hp
  rcases calledPorts_cases hpr ho with ⟨-,hal⟩ | ⟨hno,-⟩
  · rcases calledPorts_cases hp (by simp [Txn.failed,ha]) with ⟨-,hal'⟩ | ⟨hno,-⟩
    · simp [calls,hd,hal,hpr,hf,ha,access_address hk hpr,hal']
    · rw [hf'] at hno
      cases hno
  · rw [hf] at hno
    cases hno

lemma calls_of_failed (ho : t.failed = false) (hd : decodeAddress f t.address = some (some k))
    (hp : doCallbacks f s t = some (s1,t1)) (hf : t1.failed = true) : bTransport f s t = some (s1,t1) ∧
      ∃ l c l' s0 t0, claimants f t.address = l++c :: l' ∧ callPorts f t.address l s t = some (s0,t0) ∧
        t0.failed = false ∧ calls f s t = (l++[c]).map (.port ·.2) := by
  have hn : t1.response ≠ .ok := by
    intro hok
    simp [Txn.failed,hok] at hf
  rcases calledPorts_cases hp ho with ⟨hno,-⟩ | ⟨-,l,c,l',s0,t0,hl,hb,ho0,hc⟩
  · rw [hf] at hno
    cases hno
  · refine ⟨by simp [bTransport,hd,hp,hf,hn],l,c,l',s0,t0,hl,hb,ho0,?_⟩
    simp only [calls,hd,hp,hf,if_true,List.append_nil,hc,List.map_map]
    rfl

end

/-- The fan-out is exact unless two memories claim the address alike before the strongest one. -/
theorem fansOut_iff {s : State E} {t : Txn} {k : ℕ} (hopen : t.failed = false)
    (hkeeps : ∀ r ∈ f.registers, r.KeepsAddress) (hbest : f.Best t.address k) :
    FansOut f s t k ↔ f.NoTie t.address f.memories := by
  rw [← hbest.decodeAddress_iff]
  constructor
  · exact FansOut.decoded
  · intro hd
    refine ⟨hd,⟨_,claimants_nodup f t.address,fun _ => mem_claimants_iff, calls_prefix hopen hkeeps hd,?_⟩,?_⟩
    · exact fun s' t' h => ⟨bTransport_address hkeeps h,calls_of_ok hopen hkeeps hd h⟩
    · exact fun s1 t1 hp hf => calls_of_failed hopen hd hp hf

end

section
def pageAt (priority : U32) (refusal : Option TlmResponse) (h : refusal ≠ some .ok) : MemTarget :=
  ⟨⟨0,0x1000,priority,true,0,0,[]⟩,fun _ _ _ => refusal,none,fun _ _ _ => h⟩

lemma guardedFile_best : guardedFile.Best 0x10 0 :=
  ⟨by decide,by decide,fun j hj hne => absurd (Nat.lt_one_iff.mp hj) hne⟩

lemma guardedFile_keepsAddress : ∀ r ∈ guardedFile.registers, r.KeepsAddress := by
  intro r hr hook hh s t
  obtain ⟨e,he⟩ := guardedFile_passive r hr hook hh s t
  rw [he]

theorem fansOut_guardedFile : FansOut guardedFile cleared (ones 0x10 4) 0 ∧
    calls guardedFile cleared (ones 0x10 4) = [.port 0,.memory 0,.port 0] := by
  refine ⟨(fansOut_iff rfl guardedFile_keepsAddress guardedFile_best).mpr ?_,by decide +kernel⟩
  intro j hj _ i hi
  have hj1 : j < 1 := hj
  omega

/-- Two memories of priority 5 and a stronger one of priority 3. -/
def tiedFile : RegFile Unit :=
  ⟨3,fun k => pageAt (if k = 2 then 3 else 5) none (by simp),[word 0x10 0xFFFFFFFF [lookOn]]⟩

def refusingFile : RegFile Unit :=
  ⟨1,fun _ => pageAt 0 (some .commandError) (by decide),[word 0x10 0xFFFFFFFF [lookOn]]⟩

/-- The simulation ends at the tie, although the third memory is the strongest; and the callbacks do not follow a
refused access. -/
theorem tie_hides_strongest : tiedFile.Best 0x10 2 ∧ bTransport tiedFile cleared (ones 0x10 4) = none ∧
    calls tiedFile cleared (ones 0x10 4) = [] ∧ ¬ FansOut tiedFile cleared (ones 0x10 4) 2 ∧
    calls refusingFile cleared (ones 0x10 4) = [.port 0,.memory 0] := by
  refine ⟨⟨by decide,by decide,by decide⟩,by rfl,by decide +kernel,fun h => ?_,by decide +kernel⟩
  have hn : decodeAddress tiedFile 0x10 = none := by decide +kernel
  exact absurd (hn.symm.trans h.decoded) (by simp)

end

end Qbox.RegRouter
