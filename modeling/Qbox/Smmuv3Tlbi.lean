import Qbox.Smmuv3Commands

/-! Invalidation of the IOTLB by address. -/
namespace Qbox.Smmuv3
open MachineWord DmaSocket BitVec

variable (op : CmdOp)

def CmdOp.ByAddress : Prop := op = .tlbiNhVa ∨ op = .tlbiNhVaa ∨ op = .tlbiS2Ipa

variable (c : Cmd)

def Cmd.rangeStart : U64 := (if op = .tlbiS2Ipa then c.ipa else c.va) &&& ~~~c.rangeMask

def Cmd.rangeEnd : U64 := c.rangeStart op+c.rangeMask

/-- The command names the VMID of a key and, if it names an ASID, that one too. -/
def Cmd.Names (vmid asid : U16) : Prop := vmid = c.vmid ∧ (op = .tlbiNhVa → asid = c.asid)

/-- The commanded range meets the addresses from `first` to `last`. -/
def Cmd.Meets (first last : U64) : Prop := first ≤ c.rangeEnd op ∧ c.rangeStart op ≤ last

instance (op : CmdOp) (c : Cmd) (vmid asid : U16) : Decidable (c.Names op vmid asid) :=
  inferInstanceAs (Decidable (vmid = c.vmid ∧ (op = .tlbiNhVa → asid = c.asid)))

instance (op : CmdOp) (c : Cmd) (first last : U64) : Decidable (c.Meets op first last) :=
  inferInstanceAs (Decidable (first ≤ c.rangeEnd op ∧ c.rangeStart op ≤ last))

/-- A handler finds a named entry: it has the decoded granule tag, begins in the range, and with an ASID has VMID
zero. -/
def Cmd.Finds (k : IOTLBKey) : Prop :=
  k.tg = (decodeTlbiTg c.tg).2 ∧ (c.rangeStart op ≤ k.iova ∧ k.iova ≤ c.rangeEnd op) ∧ (op = .tlbiNhVa → c.vmid = 0)

section
variable {M : Type} {op : CmdOp} {c : Cmd} {s s' : Smmuv3 M}

/-- No entry is left that the command names and whose page meets the commanded range. -/
def TlbiComplete (op : CmdOp) (c : Cmd) (s : Smmuv3 M) : Prop :=
  ∀ k e, s.iotlb.find k = some e → c.Names op k.vmid k.asid → ¬ c.Meets op k.iova (k.iova ||| e.addrMask)

lemma find_iotlbInvIf {p : IOTLBKey → Bool} {k : IOTLBKey} {e : IOMMUTLBEntry} :
    (iotlbInvIf p s).iotlb.find k = some e ↔ s.iotlb.find k = some e ∧ ¬ p k = true := by
  rw [iotlbInvIf,EvictingMap.find_eraseIf]
  by_cases hp : p k = true
  · simp [hp]
  · simp [hp]

variable [DmaSocket M]

/-- Among the entries a command names, its handler keeps those it does not find. -/
lemma handleOp_find (hop : op.ByAddress) {k : IOTLBKey} (hn : c.Names op k.vmid k.asid) (e : IOMMUTLBEntry) :
    (handleOp op c s).iotlb.find k = some e ↔ s.iotlb.find k = some e ∧ ¬ c.Finds op k := by
  obtain ⟨hv,ha⟩ := hn
  rcases hop with rfl | rfl | rfl
  · refine find_iotlbInvIf.trans (and_congr_right fun _ => not_congr ?_)
    have hp := same_page_iff (k := clampShiftU64 ((decodeTlbiTg c.tg).1+c.scale)) (a := c.va) (x := k.iova)
    simp only [Bool.and_eq_true,beq_iff_eq,Cmd.Finds,Cmd.rangeStart,Cmd.rangeEnd,Cmd.rangeMask,reduceCtorEq,
      if_false,← hp,hv,ha rfl]
    tauto
  · refine find_iotlbInvIf.trans (and_congr_right fun _ => not_congr ?_)
    have hp := same_page_iff (k := clampShiftU64 ((decodeTlbiTg c.tg).1+c.scale)) (a := c.va) (x := k.iova)
    simp only [Bool.and_eq_true,beq_iff_eq,Cmd.Finds,Cmd.rangeStart,Cmd.rangeEnd,Cmd.rangeMask,reduceCtorEq,
      if_false,← hp]
    tauto
  · refine find_iotlbInvIf.trans (and_congr_right fun _ => not_congr ?_)
    have hp := same_page_iff (k := clampShiftU64 ((decodeTlbiTg c.tg).1+c.scale)) (a := c.ipa) (x := k.iova)
    simp only [Bool.and_eq_true,beq_iff_eq,Cmd.Finds,Cmd.rangeStart,Cmd.rangeEnd,Cmd.rangeMask,reduceCtorEq,
      if_true,← hp,hv]
    tauto

/-- An invalidation by address is complete exactly when every named entry that meets the range has the decoded granule
tag, begins in it and, with an ASID, belongs to VMID zero. -/
theorem tlbi_complete_iff (hop : decodeOp c.opcode = some op) (haddr : op.ByAddress) (hexec : execCmd c s = some s') :
    TlbiComplete op c s' ↔ ∀ k e, s.iotlb.find k = some e → c.Names op k.vmid k.asid →
      c.Meets op k.iova (k.iova ||| e.addrMask) → c.Finds op k := by
  have hs : s' = handleOp op c s := by
    rw [execCmd,hop] at hexec
    exact (Option.some.inj hexec).symm
  subst hs
  constructor
  · intro h k e hf hn hme
    by_contra hm
    exact h k e ((handleOp_find haddr hn e).mpr ⟨hf,hm⟩) hn hme
  · intro h k e hf hn hme
    obtain ⟨hf',hm⟩ := (handleOp_find haddr hn e).mp hf
    exact hm (h k e hf' hn hme)

end

def sampleTlbiNhVa (vmid asid : U16) (va : U64) : Cmd :=
  storeLe 8 (0x412 ||| (vmid.setWidth 64 <<< 32) ||| (asid.setWidth 64 <<< 48) : U64) ++ storeLe 8 va

def afterRead (iova : U64) (s : Smmuv3 Ram) : Smmuv3 Ram := (smmuv3Translate (readTxn iova) 0 0 false s).2

/-- A page of 4K of VMID zero is found. -/
theorem tlbi_complete_page : TlbiComplete .tlbiNhVa (sampleTlbiNhVa 0 1 0x1000)
      (handleOp .tlbiNhVa (sampleTlbiNhVa 0 1 0x1000)
        (afterRead 0x1000 (sampleSmmu 5 [(0x20000,0x21003),(0x21000,0x22003),(0x22008,0x5443)]))) := by
  have he : (afterRead 0x1000
      (sampleSmmu 5 [(0x20000,0x21003),(0x21000,0x22003),(0x22008,0x5443)])).iotlb.entries =
      [(⟨0,1,0x1000,0,3,false,0⟩,⟨0x1000,0x5000,0xFFF,.rw,0x5443,0,0,0,false⟩)] := by decide +kernel
  refine (tlbi_complete_iff (by decide +kernel) (Or.inl rfl) rfl).mpr fun k e hf _ _ => ?_
  have hm := EvictingMap.mem_entries.mpr hf
  rw [he,List.mem_singleton] at hm
  obtain ⟨rfl,rfl⟩ := Prod.mk.inj hm
  exact ⟨by decide +kernel,⟨by decide +kernel,by decide +kernel⟩,fun _ => by decide +kernel⟩

/-- A page of VMID 7 survives the command for it, and a block of 2M that for its second page. -/
theorem tlbi_leaves_entries : ¬ TlbiComplete .tlbiNhVa (sampleTlbiNhVa 7 1 0x1000)
        (handleOp .tlbiNhVa (sampleTlbiNhVa 7 1 0x1000) (afterRead 0x1000 (sampleSmmu 5
          [(0x1010,0x0005005900000007),(0x20000,0x21003),(0x21000,0x22003),(0x22008,0x5443)]))) ∧
      ¬ TlbiComplete .tlbiNhVa (sampleTlbiNhVa 0 1 0x1000)
        (handleOp .tlbiNhVa (sampleTlbiNhVa 0 1 0x1000)
          (afterRead 0x0 (sampleSmmu 5 [(0x20000,0x21003),(0x21000,0x200441)]))) := by
  constructor
  · intro h
    refine h ⟨7,1,0x1000,0,3,false,0⟩ ⟨0x1000,0x5000,0xFFF,.rw,0x5443,0,0,0,false⟩ (by decide +kernel)
      ⟨by decide +kernel,fun _ => by decide +kernel⟩ ⟨by decide +kernel,by decide +kernel⟩
  · intro h
    refine h ⟨0,1,0,0,3,false,0⟩ ⟨0,0x200000,0x1FFFFF,.rw,0x200441,0,0,0,false⟩ (by decide +kernel)
      ⟨by decide +kernel,fun _ => by decide +kernel⟩ ⟨by decide +kernel,by decide +kernel⟩

section
variable (c : Cmd)

def Cmd.atcSize : ℕ := (c.word1 &&& 0x3F).toNat

def Cmd.atcAddr : U64 := c.word1 &&& ~~~lowMask 12

/-- The range has every address of the block of `2 ^ size` pages around the commanded address. -/
def Cmd.AtcCovered (start stop : U64) : Prop :=
  start ≤ stop ∧ ∀ x : U64, x.toNat/2^(c.atcSize+12) = c.atcAddr.toNat/2^(c.atcSize+12) → start ≤ x ∧ x ≤ stop

variable {M : Type}

/-- Whoever is bound to a front end is told of a range with the commanded block. -/
def AtcInvCovers (s : Smmuv3 M) : Prop := ∀ t ∈ (handleCmdAtcInv c s).tbus, t.bound = true →
    ∃ start stop, t.events.head? = some (.invalidated start stop) ∧ c.AtcCovered start stop

lemma atcCovered_iff : c.AtcCovered c.atcAddr (c.atcAddr+1#64 <<< clampShiftU64 (c.atcSize+12)-1) ↔
      c.atcSize < 52 ∧ 2^(c.atcSize+12) ∣ c.atcAddr.toNat := by
  have hlt := c.atcAddr.isLt
  by_cases hs : c.atcSize < 52
  · have hn : clampShiftU64 (c.atcSize+12) = c.atcSize+12 := if_neg (by omega)
    have hr : (1#64 <<< (c.atcSize+12)).toNat = 2^(c.atcSize+12) := toNat_one_shiftLeft (by omega)
    have hp : 0 < 2^(c.atcSize+12) := Nat.two_pow_pos _
    have hd : 2^(c.atcSize+12) ∣ 2^64 := Nat.pow_dvd_pow 2 (by omega)
    rw [hn]
    simp only [hs,true_and,Cmd.AtcCovered]
    generalize 2^(c.atcSize+12) = r at *
    constructor
    · rintro ⟨-,h⟩
      -- the first address of the block is in the range only if the range begins with it
      have hf : (BitVec.ofNat 64 (c.atcAddr.toNat/r*r)).toNat = c.atcAddr.toNat/r*r := by
        exact Nat.mod_eq_of_lt ((Nat.div_mul_le_self _ _).trans_lt hlt)
      have hle := (h (BitVec.ofNat 64 (c.atcAddr.toNat/r*r)) (by rw [hf,Nat.mul_div_cancel _ hp])).1
      rw [le_def,hf] at hle
      exact Dvd.intro_left _ (le_antisymm (Nat.div_mul_le_self _ _) hle)
    · rintro ⟨q,hq⟩
      obtain ⟨k,hk⟩ := hd
      have hqk := Nat.lt_of_mul_lt_mul_left (hq ▸ hk ▸ hlt : r*q < r*k)
      have ht : r*q+r ≤ 2^64 := by
        rw [hk,← Nat.mul_succ]
        exact Nat.mul_le_mul_left r hqk
      have hst : (c.atcAddr+1#64 <<< (c.atcSize+12)-1).toNat = c.atcAddr.toNat+r-1 := by
        have ho : (1 : U64).toNat = 1 := rfl
        rw [toNat_sub,toNat_add,hr]
        omega
      refine ⟨by rw [le_def,hst]; omega,fun x hx => ?_⟩
      rw [hq,Nat.mul_div_cancel_left q hp] at hx
      have h1 := Nat.div_add_mod x.toNat r
      have h2 := Nat.mod_lt x.toNat hp
      rw [hx] at h1
      rw [le_def,le_def,hst]
      omega
  · have hn : clampShiftU64 (c.atcSize+12) = 63 := by
      rw [clampShiftU64]
      split_ifs <;> omega
    have hw : ∀ x : U64, x.toNat/2^(c.atcSize+12) = 0 := fun x =>
      Nat.div_eq_of_lt (x.isLt.trans_le (Nat.pow_le_pow_right two_pos (by omega)))
    rw [hn]
    simp only [hs,false_and,iff_false,Cmd.AtcCovered,hw,true_imp_iff]
    rintro ⟨-,h⟩
    have hf := (h 0).1
    have hl := (h (allOnes 64)).2
    have hz : c.atcAddr = 0 := by bv_omega
    rw [hz] at hl
    exact absurd hl (by decide)

lemma AtcInvCovers.covered {c : Cmd} {s : Smmuv3 M} (h : AtcInvCovers c s) {t : Tbu} (ht : t ∈ s.tbus)
    (hb : t.bound = true) : c.atcSize < 52 ∧ 2^(c.atcSize+12) ∣ c.atcAddr.toNat := by
  obtain ⟨start,stop,he,hc⟩ := h _ (List.mem_map_of_mem ht) (by simp [Tbu.upstreamInvalidate,hb,Tbu.show])
  simp only [Tbu.upstreamInvalidate,hb,if_true,Tbu.show,List.head?_cons] at he
  cases he
  exact (atcCovered_iff c).mp hc

/-- `ATC_INV` covers the block exactly when its size is below 52 and its address is the block's. -/
theorem atc_inv_covers_iff (c : Cmd) (s : Smmuv3 M) : AtcInvCovers c s ↔
    ((∃ t ∈ s.tbus, t.bound = true) → c.atcSize < 52 ∧ 2^(c.atcSize+12) ∣ c.atcAddr.toNat) := by
  constructor
  · rintro h ⟨t,ht,hbo⟩
    exact h.covered ht hbo
  · intro h t' ht' hbo
    obtain ⟨t,ht,rfl⟩ := List.mem_map.mp ht'
    have hb : t.bound = true := by
      by_contra hb
      simp [Tbu.upstreamInvalidate,hb] at hbo
    exact ⟨_,_,by simp only [Tbu.upstreamInvalidate,hb,if_true]; rfl,(atcCovered_iff c).mpr (h ⟨t,ht,hb⟩)⟩

/-- The pages around `0x1000` are invalidated from there on, and half of the address space for all of it. -/
theorem atc_inv_misses : let s : Smmuv3 Ram := { sampleSmmu 5 [] with tbus := [{ topologyId := 0 }] }
    ¬ AtcInvCovers (storeLe 8 (0x40 : U64) ++ storeLe 8 (0x1001 : U64)) s ∧
      ¬ AtcInvCovers (storeLe 8 (0x40 : U64) ++ storeLe 8 (0x34 : U64)) s := by
  refine ⟨fun h => ?_,fun h => ?_⟩
  · exact absurd (h.covered (List.mem_singleton_self _) rfl).2 (by decide +kernel)
  · exact absurd (h.covered (List.mem_singleton_self _) rfl).1 (by decide +kernel)

end

end Qbox.Smmuv3
