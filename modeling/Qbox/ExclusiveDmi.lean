import Qbox.ExclusiveMonitor
import Qbox.GuardedRun

/-! Direct memory through the exclusive monitor: a granted region is cut back to the
addresses around the request that no locked region separates from it, and a new lock
takes back the regions that reach into it. -/
namespace Qbox.ExclusiveMonitor
open List Option

section
variable {I : Type}

/-- The loop of `get_direct_mem_ptr`: the bounds left, or nothing when a locked region has the address. -/
def clipLoop (addr : U64) : List (U64 × Region I) → U64 → U64 → Option (U64 × U64)
  | [], fixedStart, fixedEnd => some (fixedStart,fixedEnd)
  | e :: l, fixedStart, fixedEnd =>
    if e.2.endAddr < fixedStart then clipLoop addr l fixedStart fixedEnd
    else if fixedEnd < e.2.start then some (fixedStart,fixedEnd)
    else if e.2.start ≤ addr ∧ addr ≤ e.2.endAddr then none
    else
      let fixedStart := if e.2.endAddr < addr then e.2.endAddr+1 else fixedStart
      if addr < e.2.start then some (fixedStart,e.2.start-1) else clipLoop addr l fixedStart fixedEnd

def Region.Spares (r : Region I) (addr x : U64) : Prop := (r.endAddr < addr → r.endAddr < x) ∧ (addr < r.start → x < r.start)

variable {r : Region I} {addr x e : U64} {l : List (U64 × Region I)}

lemma Region.spares_of_left (hne : r.start ≤ r.endAddr) (h : r.endAddr < addr) : r.Spares addr x ↔ r.endAddr < x :=
  ⟨fun hs => hs.1 h,fun hx => ⟨fun _ => hx,fun hc => absurd (hne.trans_lt h) (not_lt.mpr hc.le)⟩⟩

lemma Region.spares_of_right (hne : r.start ≤ r.endAddr) (h : addr < r.start) : r.Spares addr x ↔ x < r.start :=
  ⟨fun hs => hs.2 h,fun hx => ⟨fun hc => absurd (hne.trans_lt hc) (not_lt.mpr h.le),fun _ => hx⟩⟩

lemma spares_of_forall_right (hne : ∀ a ∈ l, a.2.start ≤ a.2.endAddr)
    (he : addr ≤ e) (hl : ∀ a ∈ l, e < a.2.start) (hx : x ≤ e) : ∀ a ∈ l, a.2.Spares addr x := fun a ha =>
  (Region.spares_of_right (hne a ha) (he.trans_lt (hl a ha))).mpr (hx.trans_lt (hl a ha))

/-- The loop gives up exactly when a region has the address; otherwise the bounds enclose what no region separates
from it. -/
lemma clipLoop_spec {s : U64}
    (hne : ∀ a ∈ l, a.2.start ≤ a.2.endAddr) (hl : l.Pairwise (fun a b => a.2.endAddr < b.2.start))
    (hs : s ≤ addr) (he : addr ≤ e) : (clipLoop addr l s e = none ↔ ∃ a ∈ l, a.2.start ≤ addr ∧ addr ≤ a.2.endAddr) ∧
      ∀ c, clipLoop addr l s e = some c → (c.1 ≤ addr ∧ addr ≤ c.2) ∧
        ∀ x, c.1 ≤ x ∧ x ≤ c.2 ↔ (s ≤ x ∧ x ≤ e) ∧ ∀ a ∈ l, a.2.Spares addr x := by
  induction l generalizing s with
  | nil => simp [clipLoop,hs,he]
  | cons a l ih =>
    obtain ⟨hal,hl⟩ := pairwise_cons.mp hl
    obtain ⟨ha,ht⟩ := forall_mem_cons.mp hne
    have hp : ∀ b ∈ a :: l, a.2.start ≤ b.2.start := forall_mem_cons.mpr ⟨le_rfl,fun b hb => ha.trans (hal b hb).le⟩
    -- Past a bound with the address, the loop ends and keeps the bound.
    have hen : ∀ e', addr ≤ e' → (∀ b ∈ a :: l, e' < b.2.start) →
        ¬ ∃ b ∈ a :: l, b.2.start ≤ addr ∧ addr ≤ b.2.endAddr := by
      rintro e' he' hgt ⟨b,hb,hle,-⟩
      exact absurd (he'.trans_lt (hgt b hb)) (not_lt.mpr hle)
    rw [clipLoop]
    by_cases hbe : a.2.endAddr < s
    · obtain ⟨hn,hso⟩ := ih ht hl hs
      have hlf := hbe.trans_le hs
      rw [if_pos hbe]
      refine ⟨hn.trans (by simp [not_le.mpr hlf]),fun c hc => ⟨(hso c hc).1,fun x => ((hso c hc).2 x).trans ?_⟩⟩
      rw [forall_mem_cons,Region.spares_of_left ha hlf]
      exact and_congr_right fun hx => (and_iff_right (hbe.trans_le hx.1)).symm
    · rw [if_neg hbe]
      by_cases hby : e < a.2.start
      · have hgt := fun b hb => hby.trans_le (hp b hb)
        rw [if_pos hby]
        refine ⟨iff_of_false nofun (hen e he hgt),?_⟩
        rintro c ⟨⟩
        exact ⟨⟨hs,he⟩,fun x => ⟨fun hx => ⟨hx,spares_of_forall_right hne he hgt hx.2⟩,And.left⟩⟩
      · rw [if_neg hby]
        by_cases hin : a.2.start ≤ addr ∧ addr ≤ a.2.endAddr
        · rw [if_pos hin]
          exact ⟨iff_of_true rfl ⟨a,mem_cons_self ..,hin⟩,nofun⟩
        · rw [if_neg hin]
          by_cases hlf : a.2.endAddr < addr
          · have hst : ∀ x, a.2.endAddr+1 ≤ x ↔ a.2.endAddr < x := by
              intro x
              bv_omega
            obtain ⟨hn,hso⟩ := ih ht hl ((hst addr).mpr hlf)
            rw [if_pos hlf,if_neg (not_lt.mpr (ha.trans hlf.le))]
            refine ⟨hn.trans (by simp [hin]),fun c hc => ⟨(hso c hc).1,fun x => ((hso c hc).2 x).trans ?_⟩⟩
            rw [forall_mem_cons,Region.spares_of_left ha hlf,hst]
            exact ⟨fun h => ⟨⟨(not_lt.mp hbe).trans h.1.1.le,h.1.2⟩,h.1.1,h.2⟩,fun h => ⟨⟨h.2.1,h.1.2⟩,h.2.2⟩⟩
          · have hr : addr < a.2.start := by
              by_contra h
              exact hin ⟨not_lt.mp h,not_lt.mp hlf⟩
            have hla : ∀ x, x ≤ a.2.start-1 ↔ x < a.2.start := by
              intro x
              bv_omega
            have hgt := fun b hb =>
              ((hla _).mp le_rfl).trans_le (hp b hb)
            have he' := (hla addr).mpr hr
            rw [if_neg hlf,if_pos hr]
            refine ⟨iff_of_false nofun (hen _ he' hgt),?_⟩
            rintro c ⟨⟩
            refine ⟨⟨hs,he'⟩,fun x => ⟨fun hx => ?_,fun hx => ?_⟩⟩
            · exact ⟨⟨hx.1,((hla x).mp hx.2).le.trans (not_lt.mp hby)⟩,spares_of_forall_right hne he' hgt hx.2⟩
            · exact ⟨hx.1.1,(hla x).mpr ((hx.2 a (mem_cons_self ..)).2 hr)⟩

end

section
variable {I : Type} [LinearOrder I]

/-- `get_direct_mem_ptr`, with the answer of the target. -/
def getDirectMemPtr (addr : U64) (reply : Option TlmDmi) (m : ExclusiveMonitor I) : Option TlmDmi := do
  let dmi ← reply
  let (fixedStart,fixedEnd) ← clipLoop addr (m.regions.fromBeforeUpperBound addr) dmi.start dmi.endAddr
  pure { dmi with start := fixedStart, endAddr := fixedEnd, ptr := dmi.ptr+(fixedStart-dmi.start) }

/-- A grant is the target's region up to the nearest locked ones, with the pointer of its first byte. -/
structure ClippedAround (m : ExclusiveMonitor I) (addr : U64) (region granted : TlmDmi) : Prop where
  holds : granted.Holds addr
  clear : ∀ r, m.Locked r → ¬ (r.start ≤ addr ∧ addr ≤ r.endAddr)
  range : ∀ x, granted.Holds x ↔ region.Holds x ∧ ∀ r, m.Locked r → r.Spares addr x
  ptr : granted.ptr = region.ptr+(granted.start-region.start)
  access : granted.access = region.access

variable {m : ExclusiveMonitor I} {addr : U64}

namespace WellFormed
lemma clip_sorted (h : m.WellFormed) (addr : U64) :
    (m.regions.fromBeforeUpperBound addr).Pairwise (fun a b => a.2.endAddr < b.2.start) := by
  refine (m.regions.fromBeforeUpperBound_sorted addr).imp_of_mem fun {a b} ha hb hab => ?_
  have ha := (OrderedMap.mem_fromBeforeUpperBound.mp ha).1
  have hb := (OrderedMap.mem_fromBeforeUpperBound.mp hb).1
  rw [← h.keyed a ha,← h.keyed b hb] at hab
  by_contra hle
  have hm : a.2.Meets b.2 := ⟨hab.le.trans (h.nonempty b.2 (h.locked_of_mem hb)),not_lt.mp hle⟩
  rw [h.apart a.2 b.2 (h.locked_of_mem ha) (h.locked_of_mem hb) hm] at hab
  exact lt_irrefl _ hab

/-- A region not looked at ends before one that is, and that begins no later than the address. -/
lemma exists_before (h : m.WellFormed) {q : Region I} (hq : m.Locked q)
    (ho : (q.start,q) ∉ m.regions.fromBeforeUpperBound addr) :
    ∃ p ∈ m.regions.fromBeforeUpperBound addr, q.endAddr < p.2.start ∧ p.2.start ≤ addr := by
  have hh : ∃ a ∈ m.regions, a.1 ≤ addr ∧ q.start < a.1 := by
    by_contra hc
    refine ho (OrderedMap.mem_fromBeforeUpperBound.mpr ⟨hq,fun a ha hle => not_lt.mp fun hlt => hc ⟨a,ha,hle,hlt⟩⟩)
  obtain ⟨a,ha,hle,hlt⟩ := hh
  cases hb : m.regions.beforeUpperBound addr with
  | none => exact absurd (OrderedMap.beforeUpperBound_eq_none.mp hb a ha) (not_lt.mpr hle)
  | some p =>
    obtain ⟨hp,hpa,hm⟩ := OrderedMap.beforeUpperBound_eq_some.mp hb
    have hpl := h.locked_of_mem hp
    have hqp : q.start < p.2.start := by
      rw [h.keyed p hp]
      exact hlt.trans_le (hm a ha hle)
    refine ⟨p,OrderedMap.mem_fromBeforeUpperBound.mpr ⟨hp,hm⟩,?_,by rwa [h.keyed p hp]⟩
    by_contra hge
    have heq := h.apart q p.2 hq hpl ⟨hqp.le.trans (h.nonempty p.2 hpl),not_lt.mp hge⟩
    exact hqp.ne (by rw [heq])

/-- A request is refused exactly when a locked region has the address, and otherwise cut back. -/
lemma getDirectMemPtr_spec (h : m.WellFormed) {region : TlmDmi} (hr : region.Holds addr) :
    (m.getDirectMemPtr addr (some region) = none ↔ ∃ r, m.Locked r ∧ r.start ≤ addr ∧ addr ≤ r.endAddr) ∧
      ∀ granted, m.getDirectMemPtr addr (some region) = some granted → ClippedAround m addr region granted := by
  have hl : ∀ a ∈ m.regions.fromBeforeUpperBound addr, m.Locked a.2 := fun a ha =>
    h.locked_of_mem (OrderedMap.mem_fromBeforeUpperBound.mp ha).1
  have hne := fun a ha =>
    h.nonempty a.2 (hl a ha)
  obtain ⟨hn,hs⟩ := clipLoop_spec hne (h.clip_sorted addr) hr.1 hr.2
  have hin : (∃ a ∈ m.regions.fromBeforeUpperBound addr, a.2.start ≤ addr ∧ addr ≤ a.2.endAddr) ↔
      ∃ r, m.Locked r ∧ r.start ≤ addr ∧ addr ≤ r.endAddr := by
    constructor
    · rintro ⟨a,ha,hh⟩
      exact ⟨a.2,hl a ha,hh⟩
    · rintro ⟨r,hrl,hh⟩
      by_cases hm : (r.start,r) ∈ m.regions.fromBeforeUpperBound addr
      · exact ⟨_,hm,hh⟩
      · obtain ⟨p,-,he,hle⟩ := h.exists_before hrl hm
        exact absurd (he.trans_le hle) (not_lt.mpr hh.2)
  constructor
  · rw [← hin,← hn]
    cases hc : clipLoop addr (m.regions.fromBeforeUpperBound addr) region.start region.endAddr <;>
      simp [getDirectMemPtr,hc]
  · intro granted hg
    cases hc : clipLoop addr (m.regions.fromBeforeUpperBound addr) region.start region.endAddr with
    | none => simp [getDirectMemPtr,hc] at hg
    | some c =>
      obtain ⟨hho,hra⟩ := hs c hc
      have hcl : ¬ ∃ a ∈ m.regions.fromBeforeUpperBound addr, a.2.start ≤ addr ∧ addr ≤ a.2.endAddr := by
        rw [← hn,hc]
        nofun
      simp only [getDirectMemPtr,hc,bind_eq_bind,bind_some,Option.pure_def,Option.some.injEq] at hg
      subst hg
      refine ⟨hho,fun r hrl hh => hcl (hin.mpr ⟨r,hrl,hh⟩),fun x => (hra x).trans
        (and_congr_right fun _ => ⟨fun hx r hrl => ?_,fun hx a ha => ?_⟩),rfl,rfl⟩
      · by_cases hm : (r.start,r) ∈ m.regions.fromBeforeUpperBound addr
        · exact hx _ hm
        · -- What lies between the region and the address lies behind the one looked at.
          obtain ⟨p,hp,he,hle⟩ := h.exists_before hrl hm
          have hpe : p.2.endAddr < addr := by
            by_contra hge
            exact hcl ⟨p,hp,hle,not_lt.mp hge⟩
          refine (Region.spares_of_left (h.nonempty r hrl) (he.trans_le hle)).mpr ?_
          exact he.trans_le ((hne p hp).trans ((hx p hp).1 hpe).le)
      · exact hx a.2 (hl a ha)

end WellFormed

lemma ClippedAround.apart {region granted : TlmDmi} (hc : ClippedAround m addr region granted) {r : Region I}
    (hr : m.Locked r) : ¬ (granted.start ≤ r.endAddr ∧ r.start ≤ granted.endAddr) := by
  rintro ⟨hst,he⟩
  have hs := fun x hx => ((hc.range x).mp hx).2 r hr
  have hle := hc.holds.1.trans hc.holds.2
  by_cases hl : r.endAddr < addr
  · exact absurd ((hs granted.start ⟨le_rfl,hle⟩).1 hl) (not_lt.mpr hst)
  · by_cases hri : addr < r.start
    · exact absurd ((hs granted.endAddr ⟨hle,le_rfl⟩).2 hri) (not_lt.mpr he)
    · exact hc.clear r hr ⟨not_lt.mp hri,not_lt.mp hl⟩

end

section
variable {I : Type} [LinearOrder I]

/-- The monitor with the regions granted through it and not taken back. -/
structure DmiSystem (I : Type) [LinearOrder I] where
  monitor : ExclusiveMonitor I
  granted : List TlmDmi

/-- The steps of the monitor, in whatever order its transactions take them. -/
inductive DmiAction (I : Type) where
  | before (t : Txn I)
  | after (t : Txn I)
  /-- A DMI request, with the answer of the target. -/
  | request (addr : U64) (reply : Option TlmDmi)
  /-- A DMI invalidation by the target. -/
  | invalidate (start stop : U64)

/-- Initiators drop every region that has an address of an invalidated range. -/
def dropMeeting (start stop : U64) (granted : List TlmDmi) : List TlmDmi :=
  granted.filter (fun g => !(decide (g.start ≤ stop) && decide (start ≤ g.endAddr)))

/-- One step. A failed assertion would end the simulation. -/
def dmiStep (s : DmiSystem I) : DmiAction I → DmiSystem I
  | .before t => { s with monitor := ((s.monitor.beforeBTransport t).map Prod.snd).getD s.monitor }
  | .after t =>
    match s.monitor.afterBTransport t with
    | none => s
    | some out =>
      match out.locked with
      | none => { s with monitor := out.monitor }
      | some r => ⟨out.monitor,dropMeeting r.start r.endAddr s.granted⟩
  | .request addr reply =>
    match s.monitor.getDirectMemPtr addr reply with
    | none => s
    | some g => { s with granted := g :: s.granted }
  | .invalidate start stop => { s with granted := dropMeeting start stop s.granted }

def DmiAction.Contained : DmiAction I → Prop
  | .request addr (some region) => region.Holds addr
  | _ => True

def DmiAction.Proper : DmiAction I → Prop
  | .before t | .after t => t.Proper
  | _ => True

def GrantsClear (s : DmiSystem I) : Prop :=
  ∀ g ∈ s.granted, ∀ r, s.monitor.Locked r → ¬ (g.start ≤ r.endAddr ∧ r.start ≤ g.endAddr)

lemma mem_dropMeeting {start stop : U64} {granted : List TlmDmi} {g : TlmDmi} :
    g ∈ dropMeeting start stop granted ↔ g ∈ granted ∧ ¬ (g.start ≤ stop ∧ start ≤ g.endAddr) := by
  simp [dropMeeting,imp_iff_not_or]

lemma dmiStep_clear {s : DmiSystem I} (hwf : s.monitor.WellFormed) (hs : GrantsClear s) {a : DmiAction I}
    (hc : a.Contained) (hp : a.Proper) : (dmiStep s a).monitor.WellFormed ∧ GrantsClear (dmiStep s a) := by
  cases a with
  | before t =>
    obtain ⟨out,ho,hwf',hh,hsa,hl⟩ := hwf.beforeBTransport hp
    have hsu : ∀ r, out.2.Locked r → s.monitor.Locked r := by
      intro r hr
      by_cases hst : out.1 = false ∨ t.isStore = false
      · rwa [hsa hst] at hr
      · push Not at hst
        exact ((hl (by simpa using hst.2) (by simpa using hst.1) r).mp hr).1
    simp only [dmiStep,ho,map_some,getD_some]
    exact ⟨hwf',fun g hg r hr => hs g hg r (hsu r hr)⟩
  | after t =>
    obtain ⟨out,ho,hwf',ht,hk⟩ := hwf.afterBTransport hp
    by_cases hlo : (t.isStore = false ∧ t.exclusive) ∧ s.monitor.Free t
    · obtain ⟨hr,hl⟩ := ht hlo
      simp only [dmiStep,ho,hr]
      refine ⟨hwf',fun g hg r hrl => ?_⟩
      obtain ⟨hg,hf⟩ := mem_dropMeeting.mp hg
      rcases (hl r).mp hrl with rfl | hrl
      · exact fun h => hf ⟨h.1,h.2⟩
      · exact hs g hg r hrl.1
    · obtain ⟨hr,hm⟩ := hk hlo
      simp only [dmiStep,ho,hr,hm]
      exact ⟨hwf,hs⟩
  | request addr reply =>
    cases hg : s.monitor.getDirectMemPtr addr reply with
    | none =>
      simp only [dmiStep,hg]
      exact ⟨hwf,hs⟩
    | some g =>
      cases reply with
      | none => simp [getDirectMemPtr] at hg
      | some region =>
        have hcl := (hwf.getDirectMemPtr_spec hc).2 g hg
        simp only [dmiStep,hg]
        refine ⟨hwf,fun x hx r hr => ?_⟩
        rcases mem_cons.mp hx with rfl | hx
        · exact hcl.apart hr
        · exact hs x hx r hr
  | invalidate start stop => exact ⟨hwf,fun g hg => hs g (mem_dropMeeting.mp hg).1⟩

/-- Along every run of proper transactions each grant is the target's region up to the nearest locked ones, and has
none of their addresses. -/
theorem no_dmi_over_locked_region {s : DmiSystem I}
    (hs : GuardedRun dmiStep (fun _ a => a.Contained ∧ a.Proper) ⟨empty,[]⟩ s) :
    GrantsClear s ∧ ∀ addr region granted, region.Holds addr →
      s.monitor.getDirectMemPtr addr (some region) = some granted → ClippedAround s.monitor addr region granted := by
  have hi : s.monitor.WellFormed ∧ GrantsClear s := by
    refine hs.invariant (I := fun s => s.monitor.WellFormed ∧ GrantsClear s) ?_ ⟨empty_wellFormed,?_⟩
    · exact fun t a ht hg => dmiStep_clear ht.1 ht.2 hg.1 hg.2
    · exact fun g hg => absurd hg not_mem_nil
  exact ⟨hi.2,fun addr region granted hr => (hi.1.getDirectMemPtr_spec hr).2 granted⟩

def lockedWord : DmiSystem ℕ :=
  dmiStep (dmiStep ⟨empty,[]⟩ (.after ⟨0x1000,4,.read,true,0⟩)) (.request 0x2000 (some ⟨0,0xFFFF,0,.rw⟩))

theorem no_dmi_over_locked_word : lockedWord.granted = [⟨0x1004,0xFFFF,0x1004,.rw⟩] ∧ GrantsClear lockedWord ∧
    ∀ addr region granted, region.Holds addr → lockedWord.monitor.getDirectMemPtr addr (some region) = some granted →
      ClippedAround lockedWord.monitor addr region granted := by
  refine ⟨by decide +kernel,no_dmi_over_locked_region (.tail (.tail .refl ⟨trivial,?_⟩) ⟨?_,trivial⟩)⟩
  · show Txn.Proper _
    decide
  · exact ⟨by decide,by decide⟩

def wrappedLock : DmiSystem ℕ := dmiStep (dmiStep ⟨empty,[]⟩ (.after ⟨0xFFFFFFFFFFFFF000,0x1000,.read,true,0⟩))
    (.after ⟨0xFFFFFFFFFFFFF800,0x1000,.read,true,1⟩)

/-- The wrapped lock hides the first one, which is then granted. -/
theorem dmi_over_locked_region_wrapped :
    ∃ s : DmiSystem ℕ, GuardedRun dmiStep (fun _ a => a.Contained) ⟨empty,[]⟩ s ∧ ¬ GrantsClear s := by
  refine ⟨dmiStep wrappedLock (.request 0xFFFFFFFFFFFFFC00 (some ⟨0xFFFFFFFFFFFFF000,0xFFFFFFFFFFFFFFFF,0,.rw⟩)),
    .tail (.tail (.tail .refl trivial) trivial) ⟨by decide,by decide⟩,fun h => ?_⟩
  refine h ⟨0xFFFFFFFFFFFFF000,0xFFFFFFFFFFFFFFFF,0,.rw⟩ ?_ ⟨0xFFFFFFFFFFFFF000,0xFFFFFFFFFFFFFFFF,0⟩ ?_
    ⟨by decide,by decide⟩
  · decide +kernel
  · rw [Locked,OrderedMap.mem_def]
    decide +kernel

end
end Qbox.ExclusiveMonitor
