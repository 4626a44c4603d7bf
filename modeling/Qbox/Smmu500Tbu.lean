import Qbox.GuardedRun
import Qbox.Smmu500Walk

/-! The front end `smmu500_tbu` of the SMMU-500: the bus path, DMI requests, and the ranges it invalidates. -/
namespace Qbox.Smmu500
open MachineWord DmaSocket BitVec Option

variable {M : Type}

section
lemma outputBase_aligned (g : Granule) (desc : U64) : outputBase g desc &&& lowMask 12 = 0 := by
  have hg : 12 ≤ g.grainsize := by cases g <;> decide
  refine eq_of_getLsbD_eq fun i hi => ?_
  simp only [outputBase,Granule.descmask,getLsbD_and,getLsbD_not,getLsbD_lowMask]
  by_cases h12 : i < 12
  · simp [hi,show i < g.grainsize by omega]
  · simp [h12]

variable [DmaSocket M]

lemma walk_aligned {pamax : ℕ} {banks : ℕ → ContextBank} {cb : ℕ} {req : WalkReq} {m m' : M} {l : PtwLeaf}
    (hva : req.va &&& lowMask 12 = 0) (h : walk pamax banks cb req m = (.ok l,m')) : l.pa &&& lowMask 12 = 0 := by
  rw [walk,walkWith] at h
  split_ifs at h with ho
  · cases h
    exact hva
  · split at h
    · cases h
    · split at h
      · cases h
      · rename_i w _ _ leaf _ _
        have hr := (Prod.mk.inj h).1
        simp only [walkResult] at hr
        split_ifs at hr
        split at hr
        · cases hr
        · cases hr
          have hb := outputBase_aligned w.granule leaf.desc
          refine eq_of_getLsbD_eq fun i hi => ?_
          have h1 := congrArg (fun v : U64 => v.getLsbD i) hb
          have h2 := congrArg (fun v : U64 => v.getLsbD i) hva
          grind

lemma smmu500Ptw64_aligned {cb : ℕ} {req req' : TransReq} {s s' : Smmu500 M} (hva : req.va &&& lowMask 12 = 0)
    (h : smmu500Ptw64 cb req s = some (req',s')) : req'.pa &&& lowMask 12 = 0 := by
  rw [smmu500Ptw64] at h
  rcases hw : walk s.pamax s.banks cb req.toWalkReq s.dma with ⟨(f | _) | l,m⟩
  · rw [hw] at h
    cases h
    exact hva
  · rw [hw] at h
    cases h
  · rw [hw] at h
    cases h
    exact walk_aligned hva hw

lemma smmu500At64_aligned {cb : ℕ} {va : U64} {wr s2 : Bool} {pageSize : ℕ} {s s' : Smmu500 M} {r : AtResult}
    (hva : va &&& lowMask 12 = 0) (h : smmu500At64 cb va wr s2 pageSize s = some (r,s')) :
    r.pa &&& lowMask 12 = 0 := by
  simp only [smmu500At64] at h
  split_ifs at h <;> obtain ⟨⟨req,s1⟩,hf,h⟩ := bind_eq_some_iff.mp h
  · have hpa := smmu500Ptw64_aligned hva hf
    split_ifs at h <;> obtain ⟨⟨req2,s2'⟩,hs,hr⟩ := bind_eq_some_iff.mp h <;> cases hr
    · exact smmu500Ptw64_aligned hpa hs
    · cases hs
      exact hpa
  · cases hf
    split_ifs at h <;> obtain ⟨⟨req2,s2'⟩,hs,hr⟩ := bind_eq_some_iff.mp h <;> cases hr
    · exact smmu500Ptw64_aligned hva hs
    · cases hs
      exact hva

end

section
variable [DmaSocket M]

def bypasses (addr sid : U64) (s : Smmu500 M) : Bool :=
  bit32 s.scr0 0 || (smmu500StreamIdMatch (masterId addr sid) s).isNone

inductive TranslateCase (addr sid : U64) (s : Smmu500 M) : IOMMUTLBEntry × Smmu500 M → Prop where
  | bypass (h : bypasses addr sid s = true) : TranslateCase addr sid s (⟨0,addr,allOnes 64,.rw⟩,s)
  | fault {s' : Smmu500 M} (h : bypasses addr sid s = false) : TranslateCase addr sid s (⟨0,0,0,.none⟩,s')
  | page {s' : Smmu500 M} {pa : U64} {perm : IOMMUAccessFlags} (h : bypasses addr sid s = false)
      (haligned : pa &&& lowMask 12 = 0) : TranslateCase addr sid s (⟨0,pa,lowMask 12,perm⟩,s')

variable {addr sid x : U64} {s : Smmu500 M}

lemma smmu500Translate_bypass (h : bypasses addr sid s = true) (cmd : TlmCommand) :
    smmu500Translate addr cmd sid s = some (⟨0,addr,allOnes 64,.rw⟩,s) := by
  rw [smmu500Translate]
  split_ifs with hc
  · rfl
  · simp only [bypasses,hc,Bool.false_or,isNone_iff_eq_none] at h
    rw [h]

lemma smmu500Translate_cases {cmd : TlmCommand} {r : IOMMUTLBEntry × Smmu500 M}
    (h : smmu500Translate addr cmd sid s = some r) : TranslateCase addr sid s r := by
  cases hby : bypasses addr sid s with
  | true =>
    rw [smmu500Translate_bypass hby] at h
    cases h
    exact .bypass hby
  | false =>
    obtain ⟨hc,hm⟩ := Bool.or_eq_false_iff.mp hby
    rw [smmu500Translate,hc] at h
    cases hcb : smmu500StreamIdMatch (masterId addr sid) s with
    | none => rw [hcb] at hm; cases hm
    | some cb =>
      simp only [hcb,Bool.false_eq_true,if_false] at h
      split_ifs at h
      obtain ⟨⟨r',s'⟩,hat,hr⟩ := bind_eq_some_iff.mp h
      cases hr
      split_ifs
      · exact .fault hby
      · refine .page hby (smmu500At64_aligned ?_ hat)
        rw [lookupAddress,addrmask,BitVec.and_assoc,BitVec.and_comm (lowMask vaWidth),← BitVec.and_assoc,and_not_and]
        exact zero_and

omit [DmaSocket M] in
lemma bypasses_congr (h : x >>> 32 = addr >>> 32) (sid : U64) (s : Smmu500 M) :
    bypasses x sid s = bypasses addr sid s := by
  rw [bypasses,masterId,h,bypasses,masterId]

lemma smmu500Translate_congr (hby : bypasses addr sid s = false)
    (h : x &&& ~~~lowMask 12 = addr &&& ~~~lowMask 12) (cmd : TlmCommand) :
    smmu500Translate x cmd sid s = smmu500Translate addr cmd sid s := by
  have hs : x >>> 32 = addr >>> 32 := by
    refine eq_of_getLsbD_eq fun i hi => ?_
    have hb := agreeAbove_iff.mpr h (32+i) (by omega)
    simpa using hb
  have hl : lookupAddress x = lookupAddress addr := by rw [lookupAddress,addrmask,h,lookupAddress,addrmask]
  have hma : masterId x sid = masterId addr sid := by rw [masterId,hs,masterId]
  obtain ⟨hc,hm⟩ := Bool.or_eq_false_iff.mp hby
  rw [smmu500Translate,smmu500Translate,hc,hma,hl]
  cases hcb : smmu500StreamIdMatch (masterId addr sid) s with
  | none => rw [hcb] at hm; cases hm
  | some cb => rfl

end

/-- `smmu500_tbu`; a context bank has the range of its grants while there are any. -/
structure Tbu where
  topologyId : U32 := 0
  dmiRange : ℕ → Option (U64 × U64) := fun _ => none

inductive TransportOutcome where
  | forwarded (addr : U64)
  | addressError
  deriving DecidableEq

def pagemask : U64 := lowMask 12

def refuses (perm : IOMMUAccessFlags) (cmd : TlmCommand) : Bool :=
  perm = .none || (cmd = .write && perm = .ro) || (cmd = .read && perm = .wo)

/-- The part of a region in the window of an address, of `2^32` bytes. -/
def clampToWindow (addr : U64) (dmi : TlmDmi) : TlmDmi := let window := addr >>> vaWidth
  let start := if dmi.start >>> vaWidth ≠ window then window <<< vaWidth else dmi.start
  { dmi with
    start := start
    endAddr := if dmi.endAddr >>> vaWidth ≠ window then ((window+1) <<< vaWidth)-1 else dmi.endAddr
    ptr := dmi.ptr+(start-dmi.start) }

namespace IOMMUTLBEntry
variable (te : IOMMUTLBEntry)

/-- The physical page of an entry, `PHYS.page_start` to `PHYS.page_end`. -/
def pageStart : U64 := te.translatedAddr &&& ~~~te.addrMask

def pageEnd : U64 := te.pageStart+(te.addrMask+1)

/-- The region granted for an address from one that the memory behind grants for the physical page. -/
def grant (addr : U64) (dmi : TlmDmi) : TlmDmi :=
  let deviceOffset := te.translatedAddr+(addr &&& pagemask)-te.pageStart
  let virtStart := addr-deviceOffset
  { start := virtStart, endAddr := virtStart+(te.addrMask+1)-1, ptr := dmi.ptr+(te.pageStart-dmi.start), access := .rw }

end IOMMUTLBEntry

namespace Tbu
def sid (t : Tbu) : U64 := t.topologyId.setWidth 64

/-- Widen the range of a bank by a grant. Without a bank the source would use the index `-1`. -/
def track (cb : Option ℕ) (dmi : TlmDmi) (t : Tbu) : Tbu := match cb with
  | none => t
  | some cb =>
    let range := match t.dmiRange cb with
      | none => (dmi.start,dmi.endAddr)
      | some (first,second) =>
        (if dmi.start < first then dmi.start else first,if second < dmi.endAddr then dmi.endAddr else second)
    { t with dmiRange := Function.update t.dmiRange cb (some range) }

variable [DmaSocket M]

/-- `b_transport`; nothing if the simulator stops. -/
def bTransport (addr : U64) (cmd : TlmCommand) (t : Tbu) (s : Smmu500 M) : Option (TransportOutcome × Smmu500 M) := do
  let (te,s) ← smmu500Translate addr cmd t.sid s
  return (if refuses te.perm cmd then .addressError else .forwarded (te.translatedAddr ||| (addr &&& pagemask)),s)

/-- `get_direct_mem_ptr`, with the memory's answers; nothing if an assertion fails. The page's rights are not looked
at. -/
def getDirectMemPtr (downstream : U64 → TlmCommand → Bool × TlmDmi) (addr : U64) (cmd : TlmCommand) (t : Tbu)
    (s : Smmu500 M) : Option ((Bool × TlmDmi) × Tbu × Smmu500 M) := do
  let (te,s) ← smmu500Translate addr cmd t.sid s
  if te.addrMask = allOnes 64 then
    if te.translatedAddr ≠ addr then none
    else
      let (ret,dmi) := downstream addr cmd
      return ((ret,clampToWindow addr dmi),t,s)
  else if te.pageEnd ≤ te.pageStart then none
  else
    let (ret,dmi) := downstream te.pageStart cmd
    if !ret then return ((false,dmi),t,s)
    else if dmi.endAddr < te.pageEnd then none
    else
      let dmi := te.grant addr dmi
      let masterId : U32 := t.topologyId ||| ((addr >>> 32) &&& 0xF).setWidth 32
      return ((true,dmi),t.track (smmu500StreamIdMatch masterId s) dmi,s)

def asked (te : IOMMUTLBEntry) (addr : U64) : U64 := if te.addrMask = allOnes 64 then addr else te.pageStart

def needs : TlmCommand → IOMMUAccessFlags
  | .read => .ro
  | .write => .wo
  | .ignore => .none

/-- A granted region stays within its translation: that did not fault, has the rights granted, and what is allowed in
the region reaches the byte it would be sent to. -/
structure Contained (downstream : U64 → TlmCommand → Bool × TlmDmi) (addr : U64) (cmd : TlmCommand) (t : Tbu)
    (s : Smmu500 M) (te : IOMMUTLBEntry) (granted : TlmDmi) : Prop where
  mapped : te.perm ≠ .none
  rights : granted.access ≤ te.perm
  bytes : ∀ x c, granted.Holds x → needs c ≤ granted.access → ∃ pa s', t.bTransport x c s = some (.forwarded pa,s') ∧
    granted.ptr+(x-granted.start) = (downstream (asked te addr) cmd).2.ptr+(pa-(downstream (asked te addr) cmd).2.start) ∧
    ((downstream (asked te addr) cmd).2.Holds (asked te addr) → (downstream (asked te addr) cmd).2.Holds pa)

def DmiContained (downstream : U64 → TlmCommand → Bool × TlmDmi) (addr : U64) (cmd : TlmCommand) (t : Tbu)
    (s : Smmu500 M) : Prop :=
  ∀ granted t' s', t.getDirectMemPtr downstream addr cmd s = some ((true,granted),t',s') →
    ∃ te s'', smmu500Translate addr cmd t.sid s = some (te,s'') ∧ Contained downstream addr cmd t s te granted

/-- The page is mapped for reads and for writes, to the same frame. -/
structure ReadWritePage (addr : U64) (t : Tbu) (s : Smmu500 M) (te : IOMMUTLBEntry) : Prop where
  perm : te.perm = .rw
  frame : ∀ c ∈ [TlmCommand.read,TlmCommand.write], ∃ te' s', smmu500Translate addr c t.sid s = some (te',s') ∧
    refuses te'.perm c = false ∧ te'.translatedAddr = te.translatedAddr

/-- The memory behind grants a region for the page of an entry, and the assertions hold. -/
structure PageGranted (downstream : U64 → TlmCommand → Bool × TlmDmi) (cmd : TlmCommand) (te : IOMMUTLBEntry) : Prop where
  translated : te.addrMask ≠ allOnes 64
  nonempty : te.pageStart < te.pageEnd
  ok : (downstream te.pageStart cmd).1 = true
  covered : te.pageEnd ≤ (downstream te.pageStart cmd).2.endAddr

/-- A page for which the memory behind grants a region is mapped for reads and for writes. -/
def GrantsReadWrite (downstream : U64 → TlmCommand → Bool × TlmDmi) (addr : U64) (cmd : TlmCommand) (t : Tbu)
    (s : Smmu500 M) : Prop :=
  ∀ te s', smmu500Translate addr cmd t.sid s = some (te,s') → PageGranted downstream cmd te → ReadWritePage addr t s te

variable {downstream : U64 → TlmCommand → Bool × TlmDmi} {addr : U64} {cmd : TlmCommand} {t : Tbu} {s : Smmu500 M}
  {s' : Smmu500 M}

lemma bTransport_eq_forwarded {x pa : U64} {c : TlmCommand} :
    t.bTransport x c s = some (.forwarded pa,s') ↔ ∃ te, smmu500Translate x c t.sid s = some (te,s') ∧
      refuses te.perm c = false ∧ te.translatedAddr ||| (x &&& pagemask) = pa := by
  rw [bTransport]
  constructor
  · intro h
    obtain ⟨⟨te,s1⟩,hte,hou⟩ := bind_eq_some_iff.mp h
    obtain ⟨ho,rfl⟩ := Prod.mk.inj (Option.some.inj hou)
    split_ifs at ho with hr
    exact ⟨te,hte,Bool.eq_false_iff.mpr hr,TransportOutcome.forwarded.inj ho⟩
  · rintro ⟨te,hte,hr,rfl⟩
    simp [hte,hr]

variable {pa : U64}

section
variable (ha : pa &&& lowMask 12 = 0) (perm : IOMMUAccessFlags)
include ha perm

lemma pageStart_page :
    IOMMUTLBEntry.pageStart ⟨0,pa,lowMask 12,perm⟩ = pa := and_not_of_and_eq_zero ha

lemma grant_page (addr : U64) (dmi : TlmDmi) :
    IOMMUTLBEntry.grant ⟨0,pa,lowMask 12,perm⟩ addr dmi =
      ⟨addr &&& ~~~lowMask 12,(addr &&& ~~~lowMask 12)+lowMask 12,dmi.ptr+(pa-dmi.start),.rw⟩ := by
  have hp : pa &&& ~~~lowMask 12 = pa := pageStart_page ha perm
  have hs : addr-(pa+(addr &&& lowMask 12)-pa) = addr &&& ~~~lowMask 12 := by
    rw [add_sub_cancel_left,sub_and]
  simp only [IOMMUTLBEntry.grant,IOMMUTLBEntry.pageStart,pagemask,hp,hs,TlmDmi.mk.injEq,true_and,and_true]
  ring

end

lemma toNat_shiftRight_window (x : U64) : (x >>> 32).toNat = x.toNat/2^32 := by
  rw [toNat_ushiftRight,Nat.shiftRight_eq_div_pow]

lemma toNat_window (addr : U64) : ((addr >>> 32) <<< 32).toNat = addr.toNat/2^32*2^32 ∧
      ((((addr >>> 32)+1) <<< 32)-1).toNat = addr.toNat/2^32*2^32+(2^32-1) := by
  have ho : (1 : U64).toNat = 1 := rfl
  have hs := toNat_shiftRight_window addr
  constructor
  · rw [toNat_shiftLeft,Nat.shiftLeft_eq]
    omega
  · rw [toNat_sub,toNat_shiftLeft,Nat.shiftLeft_eq,toNat_add]
    omega

variable {perm : IOMMUAccessFlags} {dmi granted : TlmDmi} {t' : Tbu} {te : IOMMUTLBEntry} {cb : ℕ}

lemma clampToWindow_holds {addr x : U64} (h : (clampToWindow addr dmi).Holds x) :
    x >>> 32 = addr >>> 32 ∧ (dmi.Holds addr → dmi.Holds x) := by
  obtain ⟨hf,hl⟩ := toNat_window addr
  have hw : ∀ y : U64, y >>> 32 = addr >>> 32 ↔ y.toNat/2^32 = addr.toNat/2^32 := fun y => by
    rw [← toNat_inj,toNat_shiftRight_window,toNat_shiftRight_window]
  have hs : (if dmi.start >>> 32 ≠ addr >>> 32 then (addr >>> 32) <<< 32 else dmi.start) ≤ x := h.1
  have he : x ≤ if dmi.endAddr >>> 32 ≠ addr >>> 32 then (((addr >>> 32)+1) <<< 32)-1 else dmi.endAddr := h.2
  rw [hw,TlmDmi.Holds,TlmDmi.Holds]
  simp only [ne_eq,hw] at hs he
  split_ifs at hs he <;> simp only [le_def] at hs he ⊢ <;> omega

lemma clampToWindow_byte (addr x : U64) (dmi : TlmDmi) :
    (clampToWindow addr dmi).ptr+(x-(clampToWindow addr dmi).start) = dmi.ptr+(x-dmi.start) := by
  simp only [clampToWindow]
  ring

lemma getDirectMemPtr_eq_true (h : t.getDirectMemPtr downstream addr cmd s = some ((true,granted),t',s')) :
    ∃ te, smmu500Translate addr cmd t.sid s = some (te,s') ∧
      (te.addrMask = allOnes 64 ∧ granted = clampToWindow addr (downstream addr cmd).2 ∨
        PageGranted downstream cmd te ∧ granted = te.grant addr (downstream te.pageStart cmd).2) := by
  obtain ⟨⟨te,s1⟩,hte,h⟩ := bind_eq_some_iff.mp h
  dsimp only at h
  split_ifs at h with hm ha he hre hen
  · obtain ⟨hr,hs⟩ := Prod.mk.inj (Option.some.inj h)
    obtain ⟨-,rfl⟩ := Prod.mk.inj hs
    exact ⟨te,hte,.inl ⟨hm,(Prod.mk.inj hr).2.symm⟩⟩
  · cases (Prod.mk.inj (Prod.mk.inj (Option.some.inj h)).1).1
  · obtain ⟨hr,hs⟩ := Prod.mk.inj (Option.some.inj h)
    obtain ⟨-,rfl⟩ := Prod.mk.inj hs
    refine ⟨te,hte,.inr ⟨⟨hm,not_le.mp he,by simpa using hre,not_lt.mp hen⟩,(Prod.mk.inj hr).2.symm⟩⟩

lemma getDirectMemPtr_page (hte : smmu500Translate addr cmd t.sid s = some (te,s'))
    (h : PageGranted downstream cmd te) : ∃ t', t.getDirectMemPtr downstream addr cmd s =
      some ((true,te.grant addr (downstream te.pageStart cmd).2),t',s') := by
  obtain ⟨hm,hlt,hok,he⟩ := h
  rw [getDirectMemPtr,hte]
  simp only [bind_eq_bind,bind_some,if_neg hm,if_neg (not_le.mpr hlt),hok,Bool.not_true,
    Bool.false_eq_true,if_false,if_neg (not_lt.mpr he)]
  exact ⟨_,rfl⟩

lemma contained_bypass (hby : bypasses addr t.sid s = true) :
    Contained downstream addr cmd t s ⟨0,addr,allOnes 64,.rw⟩ (clampToWindow addr (downstream addr cmd).2) := by
  refine ⟨nofun,IOMMUAccessFlags.le_rw _,fun x c hx _ => ?_⟩
  obtain ⟨hw,hr⟩ := clampToWindow_holds hx
  have hb := (bypasses_congr hw t.sid s).trans hby
  refine ⟨x,s,bTransport_eq_forwarded.mpr ⟨_,smmu500Translate_bypass hb c,by cases c <;> rfl,?_⟩,
    clampToWindow_byte addr x _,hr⟩
  grind

lemma ReadWritePage.forwards (h : ReadWritePage addr t s te) (c : TlmCommand) :
    ∃ te' s', smmu500Translate addr c t.sid s = some (te',s') ∧ refuses te'.perm c = false ∧
      te'.translatedAddr = te.translatedAddr := by
  cases c with
  | read => exact h.frame .read (by decide)
  | write => exact h.frame .write (by decide)
  | ignore =>
    -- An ignored command is translated as a read.
    obtain ⟨te',s',hte,hr,hf⟩ := h.frame .read (by decide)
    refine ⟨te',s',hte,?_,hf⟩
    revert hr
    cases te'.perm <;> decide

section
variable (ha : pa &&& lowMask 12 = 0)
include ha

lemma asked_page (perm : IOMMUAccessFlags) (addr : U64) :
    asked ⟨0,pa,lowMask 12,perm⟩ addr = pa :=
  (if_neg (by decide : (lowMask 12 : U64) ≠ allOnes 64)).trans (pageStart_page ha perm)

lemma frame_or (x : U64) : pa ||| (x &&& pagemask) = pa+(x &&& pagemask) :=
  (add_eq_or_of_and_eq_zero _ _ (and_of_le_lowMask ha (and_lowMask_le x 12))).symm

lemma PageGranted.holds
    (h : PageGranted downstream cmd ⟨0,pa,lowMask 12,perm⟩) (hpa : (downstream pa cmd).2.Holds pa) (x : U64) :
    (downstream pa cmd).2.Holds (pa+(x &&& lowMask 12)) := by
  obtain ⟨-,hlt,-,he⟩ := h
  have ho := and_lowMask_le x 12
  have hsu := toNat_base_add ha ho
  have hm : (lowMask 12 : U64).toNat = 4095 := by decide
  have hs : (lowMask 12+1 : U64).toNat = 4096 := by decide
  have hp : IOMMUTLBEntry.pageEnd ⟨0,pa,lowMask 12,perm⟩ = pa+(lowMask 12+1) :=
    congrArg (·+(lowMask 12+1)) (pageStart_page ha perm)
  rw [hp,pageStart_page ha] at hlt he
  obtain ⟨hf,-⟩ := hpa
  have he' := toNat_add pa (lowMask 12+1)
  rw [lt_def] at hlt
  rw [le_def] at ho he hf
  refine ⟨?_,?_⟩ <;> rw [le_def,hsu] <;> omega

end

lemma contained_page (hby : bypasses addr t.sid s = false)
    (ha : pa &&& lowMask 12 = 0) (hg : PageGranted downstream cmd ⟨0,pa,lowMask 12,perm⟩)
    (hp : ReadWritePage addr t s ⟨0,pa,lowMask 12,perm⟩) : Contained downstream addr cmd t s ⟨0,pa,lowMask 12,perm⟩
      (IOMMUTLBEntry.grant ⟨0,pa,lowMask 12,perm⟩ addr (downstream pa cmd).2) := by
  obtain rfl : perm = .rw := hp.perm
  rw [grant_page ha]
  refine ⟨nofun,IOMMUAccessFlags.le_refl _,fun x c hx _ => ?_⟩
  have hx := same_page_iff.mpr hx
  obtain ⟨te,s',hte,hr,hf⟩ := hp.forwards c
  rw [← smmu500Translate_congr hby hx c] at hte
  rw [asked_page ha]
  refine ⟨pa+(x &&& lowMask 12),s',bTransport_eq_forwarded.mpr ⟨te,hte,hr,hf ▸ frame_or ha x⟩,?_,
    fun hpa => hg.holds ha hpa x⟩
  · rw [← hx]
    show _+(x-(x &&& ~~~lowMask 12)) = _
    rw [sub_and_not]
    ring

lemma dmiContained_of_grantsReadWrite (h : GrantsReadWrite downstream addr cmd t s) :
    DmiContained downstream addr cmd t s := by
  intro granted t' s' hd
  obtain ⟨te,hte,hc⟩ := getDirectMemPtr_eq_true hd
  refine ⟨te,s',hte,?_⟩
  cases smmu500Translate_cases hte with
  | bypass hby =>
    rcases hc with ⟨-,rfl⟩ | ⟨hg,-⟩
    · exact contained_bypass hby
    · exact absurd rfl hg.translated
  | fault hby =>
    rcases hc with ⟨hm,-⟩ | ⟨hg,-⟩
    · cases hm
    · cases (h _ _ hte hg).perm
  | page hby ha =>
    rcases hc with ⟨hm,-⟩ | ⟨hg,rfl⟩
    · exact absurd hm (by decide : (lowMask 12 : U64) ≠ allOnes 64)
    · rw [pageStart_page ha]
      exact contained_page hby ha hg (h _ _ hte hg)

lemma DmiContained.grantsReadWrite (h : DmiContained downstream addr cmd t s) :
    GrantsReadWrite downstream addr cmd t s := by
  intro te s' hte hg
  obtain ⟨t',hd⟩ := getDirectMemPtr_page hte hg
  obtain ⟨te',s1,hte',hc⟩ := h _ _ _ hd
  obtain ⟨rfl,rfl⟩ := Prod.mk.inj (Option.some.inj (hte.symm.trans hte'))
  have hp := IOMMUAccessFlags.rw_le.mp hc.rights
  refine ⟨hp,fun c _ => ?_⟩
  cases smmu500Translate_cases hte with
  | bypass hby => exact absurd rfl hg.translated
  | fault hby => exact absurd rfl hc.mapped
  | @page _ pa perm hby ha =>
    rw [pageStart_page ha] at hc
    have hh : (IOMMUTLBEntry.grant ⟨0,pa,lowMask 12,perm⟩ addr (downstream pa cmd).2).Holds addr := by
      rw [grant_page ha]
      exact same_page_iff.mp rfl
    obtain ⟨pa',s2,hbu,hb,-⟩ := hc.bytes addr c hh (IOMMUAccessFlags.le_rw _)
    obtain ⟨te2,ht2,hr,rfl⟩ := bTransport_eq_forwarded.mp hbu
    refine ⟨te2,s2,ht2,hr,?_⟩
    rw [asked_page ha,grant_page ha] at hb
    cases smmu500Translate_cases ht2 with
    | bypass hb2 => cases hby.symm.trans hb2
    | fault => cases c <;> cases hr
    | @page _ pa2 perm2 _ ha2 =>
      rw [frame_or ha2] at hb
      have hb : (downstream pa cmd).2.ptr+(pa-(downstream pa cmd).2.start)+(addr-(addr &&& ~~~lowMask 12)) =
        (downstream pa cmd).2.ptr+(pa2+(addr &&& lowMask 12)-(downstream pa cmd).2.start) := hb
      rw [sub_and_not] at hb
      show pa2 = pa
      linear_combination -hb

/-- Whatever is granted stays within the translation exactly when only pages for reads and writes are granted. -/
theorem dmi_contained_iff (downstream : U64 → TlmCommand → Bool × TlmDmi) (addr : U64) (cmd : TlmCommand) (t : Tbu)
    (s : Smmu500 M) : DmiContained downstream addr cmd t s ↔ GrantsReadWrite downstream addr cmd t s :=
  ⟨DmiContained.grantsReadWrite,dmiContained_of_grantsReadWrite⟩

/-- A page that is not mapped for both is granted with too many rights. -/
lemma not_dmiContained (hte : (smmu500Translate addr cmd t.sid s).map Prod.fst = some te)
    (hg : PageGranted downstream cmd te) (hp : te.perm ≠ .rw) : ¬ DmiContained downstream addr cmd t s := by
  intro h
  obtain ⟨⟨te',s'⟩,hte',rfl⟩ := map_eq_some_iff.mp hte
  exact hp (h.grantsReadWrite te' s' hte' hg).perm

def wholeMemory (_ : U64) (_ : TlmCommand) : Bool × TlmDmi := (true,⟨0,0xFFFFFFFF,0,.rw⟩)

/-- Every stream uses bank 0, with the stage-1 table at `0x20000`; bank 1 has the stage-2 table at `0x30000`. -/
def tbuSmmu (cbar : U32) (words : List (U64 × U64)) : Smmu500 Ram where
  smr := fun _ => 0xFFFF0000
  banks := fun
    | 0 => { cbar := cbar, cba2r := 1, sctlr := 1, tcr2 := 5, tcrLpae := 25, ttbr0Low := 0x20000 }
    | _ => { sctlr := 1, tcrLpae := 0x50059, ttbr0Low := 0x30000 }
  dma := ⟨words,[]⟩

/-- An unmapped page is granted as a byte at zero, a read-only one for writes, and under a stage 2 that maps
everything a write through the pointer reaches another byte than on the bus. -/
theorem dmi_exceeds_translation : ((getDirectMemPtr wholeMemory 0x1000 .read {} (tbuSmmu 0x10000 [])).map Prod.fst =
        some (true,⟨0x1000,0x1000,0,.rw⟩) ∧
      ¬ DmiContained wholeMemory 0x1000 .read {} (tbuSmmu 0x10000 [])) ∧ ((getDirectMemPtr wholeMemory 0x1000 .read {}
          (tbuSmmu 0x10000 [(0x20000,0x21003),(0x21000,0x22003),(0x22008,0x54C3)])).map Prod.fst =
        some (true,⟨0x1000,0x1FFF,0x5000,.rw⟩) ∧
      ¬ DmiContained wholeMemory 0x1000 .read {}
          (tbuSmmu 0x10000 [(0x20000,0x21003),(0x21000,0x22003),(0x22008,0x54C3)])) ∧
    ((getDirectMemPtr wholeMemory 0x1000 .read {}
          (tbuSmmu 0x30100 [(0x20000,0x21003),(0x21000,0x22003),(0x22008,0x54C3),(0x30000,0x4C1)])).map Prod.fst =
        some (true,⟨0x1000,0x1FFF,0x5000,.rw⟩) ∧
      (bTransport 0x1000 .write {}
          (tbuSmmu 0x30100 [(0x20000,0x21003),(0x21000,0x22003),(0x22008,0x54C3),(0x30000,0x4C1)])).map Prod.fst =
        some (.forwarded 0x1000)) := by
  refine ⟨⟨by decide +kernel,?_⟩,⟨by decide +kernel,?_⟩,by decide +kernel,by decide +kernel⟩
  · have hte : (smmu500Translate 0x1000 .read 0 (tbuSmmu 0x10000 [])).map Prod.fst = some ⟨0,0,0,.none⟩ := by
      decide +kernel
    exact not_dmiContained hte ⟨by decide,by decide,rfl,by decide⟩ (by decide)
  · have hte : (smmu500Translate 0x1000 .read 0
        (tbuSmmu 0x10000 [(0x20000,0x21003),(0x21000,0x22003),(0x22008,0x54C3)])).map Prod.fst =
          some ⟨0,0x5000,0xFFF,.ro⟩ := by
      decide +kernel
    exact not_dmiContained hte ⟨by decide,by decide,rfl,by decide⟩ (by decide)

/-- The memory behind grants a region with the whole page of an entry or, in bypass, with the address. -/
structure GrantsWhole (downstream : U64 → TlmCommand → Bool × TlmDmi) (addr : U64) (cmd : TlmCommand)
    (te : IOMMUTLBEntry) : Prop where
  ok : (downstream (asked te addr) cmd).1 = true
  first : (downstream (asked te addr) cmd).2.start ≤ asked te addr
  last : (asked te addr).toNat+(if te.addrMask = allOnes 64 then 0 else te.addrMask.toNat) ≤
    (downstream (asked te addr) cmd).2.endAddr.toNat

/-- The assertions of a DMI request hold exactly when a region granted for a page ends after it. -/
theorem dmi_assertions_hold_iff {te : IOMMUTLBEntry} (hte : smmu500Translate addr cmd t.sid s = some (te,s'))
    (hd : GrantsWhole downstream addr cmd te) : t.getDirectMemPtr downstream addr cmd s ≠ none ↔
      (te.addrMask ≠ allOnes 64 →
        te.pageStart.toNat+te.addrMask.toNat < (downstream te.pageStart cmd).2.endAddr.toNat) := by
  obtain ⟨hok,-,hl⟩ := hd
  rw [getDirectMemPtr,hte]
  by_cases hm : te.addrMask = allOnes 64
  · have ha : te.translatedAddr = addr := by
      cases smmu500Translate_cases hte with
      | bypass => rfl
      | fault => exact absurd hm (by decide)
      | page => exact absurd hm (by decide : (lowMask 12 : U64) ≠ allOnes 64)
    simp [hm,ha]
  · simp only [asked,if_neg hm] at hok hl
    have hen : te.pageEnd = te.pageStart+(te.addrMask+1) := rfl
    simp only [bind_eq_bind,bind_some,hok,Bool.not_true,Bool.false_eq_true,if_false,ne_eq,hm,
      not_false_eq_true,true_imp_iff]
    split_ifs with he hs
    · simp only [not_true,false_iff]
      bv_omega
    · simp only [not_true,false_iff]
      bv_omega
    · simp only [not_false_eq_true,true_iff]
      bv_omega

/-- A page inside a larger region is granted. -/
theorem dmi_assertions_hold_page : getDirectMemPtr wholeMemory 0x1000 .read {}
      (tbuSmmu 0x10000 [(0x20000,0x21003),(0x21000,0x22003),(0x22008,0x5443)]) ≠ none := by
  have hm : (smmu500Translate 0x1000 .read 0
      (tbuSmmu 0x10000 [(0x20000,0x21003),(0x21000,0x22003),(0x22008,0x5443)])).map Prod.fst =
        some ⟨0,0x5000,0xFFF,.rw⟩ := by
    decide +kernel
  obtain ⟨⟨te,s'⟩,hte,rfl⟩ := map_eq_some_iff.mp hm
  exact (dmi_assertions_hold_iff hte ⟨rfl,by decide,by decide⟩).mpr (by decide)

/-- A region that ends with the page, as `PHYS.page_end` is the address after it. -/
theorem dmi_assertion_fails : (smmu500Translate 0x1000 .read 0
        (tbuSmmu 0x10000 [(0x20000,0x21003),(0x21000,0x22003),(0x22008,0x5443)])).map Prod.fst =
        some ⟨0,0x5000,0xFFF,.rw⟩ ∧
      GrantsWhole (fun _ _ => (true,⟨0x5000,0x5FFF,0,.rw⟩)) 0x1000 .read ⟨0,0x5000,0xFFF,.rw⟩ ∧
      getDirectMemPtr (fun _ _ => (true,⟨0x5000,0x5FFF,0,.rw⟩)) 0x1000 .read {}
        (tbuSmmu 0x10000 [(0x20000,0x21003),(0x21000,0x22003),(0x22008,0x5443)]) = none := by
  refine ⟨by decide +kernel,⟨rfl,by decide,by decide⟩,map_eq_none_iff (f := Prod.fst).mp (by decide +kernel)⟩

/-- `invalidate`: the range passed upstream, if the bank has grants. -/
def invalidate (cb : ℕ) (t : Tbu) : Option (U64 × U64) × Tbu :=
  (t.dmiRange cb,{ t with dmiRange := Function.update t.dmiRange cb none })

def Covers (cb : ℕ) (dmi : TlmDmi) (t : Tbu) : Prop :=
  ∃ first second, t.dmiRange cb = some (first,second) ∧ first ≤ dmi.start ∧ dmi.endAddr ≤ second

lemma covers_track (cb : ℕ) (dmi : TlmDmi) (t : Tbu) : Covers cb dmi (t.track (some cb) dmi) := by
  cases hr : t.dmiRange cb with
  | none => exact ⟨dmi.start,dmi.endAddr,by simp [track,hr],le_rfl,le_rfl⟩
  | some range =>
    refine ⟨if dmi.start < range.1 then dmi.start else range.1,if range.2 < dmi.endAddr then dmi.endAddr else range.2,
      by simp only [track,hr,Function.update_self],?_,?_⟩
    · split_ifs with h
      · exact le_rfl
      · exact not_lt.mp h
    · split_ifs with h
      · exact le_rfl
      · exact not_lt.mp h

lemma Covers.track (h : Covers cb dmi t) (cb' : Option ℕ) (dmi' : TlmDmi) :
    Covers cb dmi (t.track cb' dmi') := by
  obtain ⟨first,second,hr,hf,hs⟩ := h
  cases cb' with
  | none => exact ⟨first,second,hr,hf,hs⟩
  | some cb' =>
    by_cases hcb : cb = cb'
    · subst hcb
      refine ⟨if dmi'.start < first then dmi'.start else first,if second < dmi'.endAddr then dmi'.endAddr else second,
        by simp only [Tbu.track,hr,Function.update_self],?_,?_⟩
      · split_ifs with hlt
        · exact hlt.le.trans hf
        · exact hf
      · split_ifs with hlt
        · exact hs.trans hlt.le
        · exact hs
    · exact ⟨first,second,by simp only [Tbu.track,Function.update_of_ne hcb,hr],hf,hs⟩

lemma getDirectMemPtr_track {reply : Bool × TlmDmi}
    (h : t.getDirectMemPtr downstream addr cmd s = some (reply,t',s')) : t' = t ∨ ∃ cb, t' = t.track cb reply.2 := by
  obtain ⟨⟨te,s1⟩,-,h⟩ := bind_eq_some_iff.mp h
  dsimp only at h
  split_ifs at h <;> cases h
  · exact .inl rfl
  · exact .inl rfl
  · exact .inr ⟨_,rfl⟩

lemma getDirectMemPtr_covers (hby : bypasses addr t.sid s = false)
    (hcb : smmu500StreamIdMatch (t.topologyId ||| ((addr >>> 32) &&& 0xF).setWidth 32) s' = some cb)
    (h : t.getDirectMemPtr downstream addr cmd s = some ((true,granted),t',s')) : Covers cb granted t' := by
  obtain ⟨⟨te,s1⟩,hte,h⟩ := bind_eq_some_iff.mp h
  have hm : te.addrMask ≠ allOnes 64 := by
    cases smmu500Translate_cases hte with
    | bypass hby' => cases hby.symm.trans hby'
    | fault => exact (by decide : (0 : U64) ≠ allOnes 64)
    | page => exact (by decide : (lowMask 12 : U64) ≠ allOnes 64)
  dsimp only at h
  rw [if_neg hm] at h
  split_ifs at h <;> cases h
  rw [hcb]
  exact covers_track cb _ t

end Tbu

end Qbox.Smmu500
