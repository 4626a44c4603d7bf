import Qbox.GuardedRun
import Qbox.Smmuv3Rights

/-! Runs of translations: what an IOTLB entry says about later walks, and when an
answer from the IOTLB is the one a walk would give. -/
namespace Qbox.Smmuv3
open MachineWord DmaSocket

/-- A call of `smmuv3_translate`. -/
structure Access where
  txn : Txn
  sid : U32
  ssid : U32
  isSecure : Bool
  deriving DecidableEq

section
variable {M : Type} [DmaSocket M]

def translateStep (s : Smmuv3 M) (a : Access) : Smmuv3 M := (smmuv3Translate a.txn a.sid a.ssid a.isSecure s).2

/-- Every translation that succeeds with one memory succeeds with the other, at the same
address. -/
def Persists (pamax : ℕ) (bus bus' : M) : Prop :=
  ∀ t iova access w b, walkLeaves pamax t iova access bus = (some w,b) →
    ∃ w' b', walkLeaves pamax t iova access bus' = (some w',b') ∧ w'.last.leaf.pa = w.last.leaf.pa

lemma Persists.refl (pamax : ℕ) (bus : M) : Persists pamax bus bus := fun _ _ _ w b h => ⟨w,b,h,rfl⟩

variable {pamax : ℕ} {bus bus' : M} {t : Tables} {tables : IOTLBTags → Tables} {s : Smmuv3 M} {a : Access}

lemma Persists.trans {bus1 bus2 bus3 : M} (h12 : Persists pamax bus1 bus2)
    (h23 : Persists pamax bus2 bus3) : Persists pamax bus1 bus3 := by
  intro t iova access w b h
  obtain ⟨w2,b2,h2,hp2⟩ := h12 t iova access w b h
  obtain ⟨w3,b3,h3,hp3⟩ := h23 t iova access w2 b2 h2
  exact ⟨w3,b3,h3,hp3.trans hp2⟩

/-- The memory after the configuration of the stream has been looked up. -/
def resolvedBus (s : Smmuv3 M) (a : Access) : M := (resolve a.txn a.sid a.ssid s.streams).2.core.bus

/-- A call leaves the page tables as they are, as far as a successful walk can tell. -/
structure TablesKept (s : Smmuv3 M) (a : Access) : Prop where
  resolving : Persists s.pamax s.bus (resolvedBus s a)
  walking : Persists s.pamax (resolvedBus s a) (translateStep s a).bus

/-- A call reads or writes, streams with equal tags have equal tables, and a kept answer reports a page mapped alike
with the same rights at both stages. -/
structure Cacheable (tables : IOTLBTags → Tables) (s : Smmuv3 M) (a : Access) : Prop where
  command : a.txn.command ≠ .ignore
  streams : ∀ t st, resolve a.txn a.sid a.ssid s.streams = (.tables t,st) →
    tables (tagsOf t a.isSecure st.core.regs.e2h) = t
  page : cachedEntry a.txn a.sid a.ssid a.isSecure s = none →
    ∀ w, freshWalk a.txn a.sid a.ssid s = some w → w.Fits ∧ w.Aligned ∧ w.SameRights

/-- What an entry with the given page size and output base says about walks of the tables `t`. -/
structure Serves (pamax : ℕ) (bus : M) (t : Tables) (size : ℕ) (base : U64) (e : IOMMUTLBEntry) : Prop where
  large : 12 ≤ size
  mask : e.addrMask = lowMask size
  aligned : base &&& lowMask size = 0
  addr : e.translatedAddr = base ||| (e.iova &&& lowMask size)
  walks : ∀ iova b, AgreeAbove size e.iova iova → (b = .ro ∨ b = .wo) → b ≤ e.perm →
    ∃ w bus', walkLeaves pamax t iova b bus = (some w,bus') ∧ w.last.leaf.pa = base ||| (iova &&& lowMask size)

lemma Serves.persists {size : ℕ} {base : U64} {e : IOMMUTLBEntry}
    (h : Serves pamax bus t size base e) (hp : Persists pamax bus bus') : Serves pamax bus' t size base e where
  large := h.large
  mask := h.mask
  aligned := h.aligned
  addr := h.addr
  walks := by
    intro iova b ha hb hle
    obtain ⟨w,b1,hw,hpa⟩ := h.walks iova b ha hb hle
    obtain ⟨w',b2,hw',hpa'⟩ := hp _ _ _ _ _ hw
    exact ⟨w',b2,hw',hpa'.trans hpa⟩

/-- Every cached entry still describes the tables of its tags. -/
def IotlbServes (tables : IOTLBTags → Tables) (s : Smmuv3 M) : Prop :=
  ∀ k e, s.iotlb.find k = some e → ∃ tags size base,
    k = tags.key (e.iova &&& ~~~lowMask size) ∧ Serves s.pamax s.bus (tables tags) size base e

lemma accessOf_cases (c : TlmCommand) : accessOf c = .ro ∨ accessOf c = .wo := by
  cases c <;> simp [accessOf]

lemma leafEntry_serves {iova : U64} {access : IOMMUAccessFlags}
    {w : Walked} (h : walkLeaves pamax t iova access bus = (some w,bus')) (ha : access = .ro ∨ access = .wo)
    (hf : w.Fits) (hal : w.Aligned) (hr : w.SameRights) :
    Serves pamax bus t w.last.leaf.pageSize w.offsetBase (leafEntry iova w.last.leaf) where
  large := walkLeaves_pageSize h
  mask := rfl
  aligned := w.aligned_iff.mp hal
  addr := (walkLeaves_page h hf).1
  walks := fun _ _ hag hb hle => walkLeaves_serves h hf hr ha hag hb hle

lemma translateStep_serves (h : IotlbServes tables s) (hke : TablesKept s a) (hc : Cacheable tables s a) :
    IotlbServes tables (translateStep s a) := by
  have hp := hke.resolving.trans hke.walking
  have hold (k : IOTLBKey) (e : IOMMUTLBEntry) (hf : s.iotlb.find k = some e) : ∃ tags size base,
      k = tags.key (e.iova &&& ~~~lowMask size) ∧
        Serves s.pamax (translateStep s a).bus (tables tags) size base e := by
    obtain ⟨tags,size,base,hk,hs⟩ := h k e hf
    exact ⟨tags,size,base,hk,hs.persists hp⟩
  have hw := hke.walking
  unfold translateStep at hold hw ⊢
  generalize hr : smmuv3Translate a.txn a.sid a.ssid a.isSecure s = r at hold hw ⊢
  have hca := smmuv3Translate_cases a.txn a.sid a.ssid a.isSecure s
  rw [hr] at hca
  cases hca with
  | answer hre | hit hre hfi | fault hre hfi hwa hpe => exact hold
  | @fill t st w bus hre hfi hwa =>
    intro k e hf
    rcases EvictingMap.find_put hf with ⟨rfl,rfl⟩ | ⟨-,hf'⟩
    · have hm : cachedEntry a.txn a.sid a.ssid a.isSecure s = none := by
        rw [cachedEntry_of_tables hre,hfi]
      obtain ⟨hft,ha,hri⟩ := hc.page hm w (freshWalk_eq_some.mpr ⟨t,st,bus,hre,hwa⟩)
      have hse := leafEntry_serves hwa (accessOf_cases _) hft ha hri
      have hb : resolvedBus s a = st.core.bus := by rw [resolvedBus,hre]
      rw [hb] at hw
      refine ⟨_,w.last.leaf.pageSize,w.offsetBase,rfl,?_⟩
      rw [hc.streams t st hre]
      exact hse.persists hw
    · exact hold k e hf'

/-- A call that neither disturbs the page tables nor goes beyond what the IOTLB can keep apart. -/
def Undisturbed (tables : IOTLBTags → Tables) (s : Smmuv3 M) (a : Access) : Prop :=
  TablesKept s a ∧ Cacheable tables s a

lemma run_serves {s0 : Smmuv3 M} (h0 : s0.iotlb = .empty)
    (hr : GuardedRun translateStep (Undisturbed tables) s0 s) : IotlbServes tables s := by
  refine hr.invariant (fun s a h hg => translateStep_serves h hg.1 hg.2) ?_
  intro k e hf
  rw [h0,EvictingMap.find_empty] at hf
  cases hf

/-- A walk of the address succeeds with the address that the front end forms from the entry. -/
def Transparent (s : Smmuv3 M) (a : Access) (e : IOMMUTLBEntry) : Prop :=
  (freshTranslate a.txn a.sid a.ssid a.isSecure s).perm ≠ .none ∧
    (freshTranslate a.txn a.sid a.ssid a.isSecure s).translatedAddr = busAddress e a.txn.address

lemma accessOf_le {c : TlmCommand} {perm : IOMMUAccessFlags} (hc : c ≠ .ignore) (h : refuses perm c = false) :
    accessOf c ≤ perm := by
  cases c with
  | read => exact (refuses_read perm).mp h
  | write => exact (refuses_write perm).mp h
  | ignore => exact absurd rfl hc

lemma tablesKept_of_bus_eq (hr : resolvedBus s a = s.bus)
    (hs : (translateStep s a).bus = s.bus) : TablesKept s a where
  resolving := hr ▸ Persists.refl s.pamax s.bus
  walking := by
    rw [hr,hs]
    exact Persists.refl s.pamax s.bus

end

def readAt (iova : U64) : Access := ⟨readTxn iova,0,0,false⟩

def sampleTables : Tables :=
  ⟨.s1,decodeSte 0x300B 0 0x0005005900000000 0x10000,decodeCd 0x80000019 0x00010005 0x20000 0 0 0⟩

end Qbox.Smmuv3
