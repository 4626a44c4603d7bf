import Qbox.RegRouterMasks

/-! Bus writes to masked registers and banks: what is stored when the write is answered well, and what when it is not. -/
namespace Qbox.RegRouter
open List Option Register

variable {E : Type} {f : RegFile E} {i : ℕ} {r : Register E} {b : Bank} {s s' : State E} {t t' : Txn}

lemma masked_of_element {k : U64} (hb : r.bank = some b) (h : r.maskForElement b k ≠ fullMask r.width) :
    r.masked = true := by
  simp only [Register.masked,hb]
  cases hm : b.elementMasks with
  | nil => simpa [maskForElement,hm] using h
  | cons => rfl

/-- A bank's port accepts a write to whole elements, or reports an error and has stored nothing. -/
lemma captureTxnPre_bank (hb : r.bank = some b) (hm : r.masked = true) (hc : t.command = .write)
    (h : captureTxnPre f i r s t = some (s',t')) : s'.mems = s.mems ∧ (t' = { t with response := .burstError } ∨ t' = t ∧
      ∃ n ≠ 0, r.maskedTransactionElementCount b (r.decodeAccess b t.address) t.data.length = some n) := by
  rw [captureTxnPre,if_neg (by simp [hm,hc])] at h
  simp only [hb] at h
  obtain ⟨n,hn,h⟩ := bind_eq_some_iff.mp h
  split_ifs at h with hz
  · cases h
    exact ⟨rfl,.inl rfl⟩
  · obtain ⟨⟨s1,old⟩,hg,h⟩ := bind_eq_some_iff.mp h
    cases h
    exact ⟨(getElements_stored hg).1.mems,.inr ⟨rfl,n,hz,hn⟩⟩

/-- What was accepted is stored. -/
lemma handleMaskPost_bank {n : ℕ} (hb : r.bank = some b)
    (hn : r.maskedTransactionElementCount b (r.decodeAccess b t.address) t.data.length = some n) (hne : n ≠ 0)
    (hold : (s.captured i).length = t.data.length) (h : handleMaskPost f i r s t = some (s',t')) :
    t'.response = t.response := by
  have hl := (maskedTransactionElementCount_spec hn hne).1
  rw [handleMaskPost] at h
  by_cases hs : (!r.masked || t.command != .write) = true
  · rw [if_pos hs] at h
    cases h
    rfl
  · rw [if_neg hs] at h
    simp only [hb,hn,bind_eq_bind,bind_some] at h
    rw [if_neg (by rw [hold,hl,Nat.mul_comm]; simp [hne])] at h
    obtain ⟨⟨s1,stored⟩,-,h⟩ := bind_eq_some_iff.mp h
    cases h
    rfl

lemma portTransport_bank_pre (hp : r.Passive) (hh : r.hooked = true) (hm : r.masked = true)
    (hb : r.bank = some b) (hi : s.inCallback i = false) (hcm : t.command = .write)
    (hr : t.response = .incomplete) (h : portTransport f i r s t = some (s',t')) :
    s'.mems = s.mems ∧ (t' = { t with response := .burstError } ∨ t' = t ∧ (s'.captured i).length = t.data.length ∧
      s'.inCallback = s.inCallback ∧
      ∃ n ≠ 0, r.maskedTransactionElementCount b (r.decodeAccess b t.address) t.data.length = some n) := by
  have hon : r.OnElements (r.offset t.address) t.data.length := fun hn => absurd (hb.symm.trans hn) (by simp)
  have hpo := portTransport_pre hp hi hh hm hcm hr hon h
  obtain ⟨s1,hbo,rfl⟩ := exists_portBody hi hh h
  obtain ⟨e,he⟩ := hp.pre t.command { s with inCallback := Function.update s.inCallback i true } t
  simp only [portBody,hr,he] at hbo
  obtain ⟨hme,hc⟩ := captureTxnPre_bank hb hm hcm hbo
  refine ⟨hme,hc.imp_right fun hc => ?_⟩
  obtain ⟨ht,hco⟩ := hc
  refine ⟨ht,?_,?_,hco⟩
  · obtain ⟨-,-,-,hold⟩ := hpo.resolve_left (by simp [ht,hr])
    rw [hold,length_bytesAt]
  · exact (hpo.resolve_left (by simp [ht,hr])).2.2.1

lemma portTransport_bank_post {n : ℕ} (hp : r.Passive) (hho : r.hooked = true) (hba : r.bank = some b)
    (hi : s.inCallback i = false) (hr : t.response = .ok)
    (hn : r.maskedTransactionElementCount b (r.decodeAccess b t.address) t.data.length = some n) (hne : n ≠ 0)
    (hold : (s.captured i).length = t.data.length) (h : portTransport f i r s t = some (s',t')) : t'.response = .ok := by
  obtain ⟨s1,hb,rfl⟩ := exists_portBody hi hho h
  simp only [portBody,hr,bind_eq_bind,bind_eq_some_iff] at hb
  obtain ⟨⟨s2,t2⟩,hha,hh⟩ := hb
  obtain ⟨e,he⟩ := hp.post t.command s2 t2
  rw [he] at hh
  cases hh
  exact (handleMaskPost_bank hba hn hne (by exact hold) hha).trans hr

lemma memTransport_of_ne_ok {k : ℕ} (h : (memTransport f k s t).2.response ≠ .ok) : (memTransport f k s t).1 = s := by
  unfold memTransport at h ⊢
  split at h
  · rfl
  · exact absurd rfl h

/-- A write to a bank is not answered well and nothing is stored, or its elements are accepted. -/
lemma Addressed.bank_cases (hw : Addressed f t r i) (hma : r.masked = true) (hb : r.bank = some b)
    (hi : s.inCallback i = false) (h : bTransport f s t = some (s',t')) :
    t'.response ≠ .ok ∧ s'.mems = s.mems ∨ t'.response = .ok ∧ ∃ n ≠ 0, r.maskedTransactionElementCount b
      (r.decodeAccess b (r.info.enter t.address t).address) t.data.length = some n := by
  simp only [bTransport,bind_eq_bind,bind_eq_some_iff] at h
  obtain ⟨best,hbe,h⟩ := h
  cases best with
  | none =>
    cases h
    exact .inl ⟨by simp,rfl⟩
  | some k =>
    obtain ⟨⟨s1,t1⟩,hpr,h⟩ := bind_eq_some_iff.mp h
    rw [doCallbacks,hw.claimed] at hpr
    obtain ⟨t0,hp,rfl⟩ := callPorts_singleton hpr
    obtain ⟨hm,hc⟩ := portTransport_bank_pre hw.passive hw.hooked hma hb hi
      (by rw [enter_command]; exact hw.bus.command) (by rw [enter_response]; exact hw.bus.response) hp
    rcases hc with rfl | ⟨rfl,hold,hf,n,hne,hn⟩
    · -- The port refuses the write, so the memory is not asked.
      rw [restore_enter_response] at h
      obtain ⟨rfl,rfl⟩ : s1 = s' ∧ { t with response := .burstError } = t' := by simpa [Txn.failed] using h
      exact .inl ⟨by simp,hm⟩
    · have ho : t.failed = false := by simp [Txn.failed,hw.bus.response]
      rw [restore_enter] at h
      simp only [ho,Bool.false_eq_true,if_false,restore_response] at h
      split_ifs at h with hok
      · rw [memTransport_write (by rw [enter_command]; exact hw.bus.command) hok,restore_enter_response,doCallbacks,
          hw.claimed] at h
        obtain ⟨t2,hp',rfl⟩ := callPorts_singleton h
        refine .inr ⟨?_,n,hne,by simpa using hn⟩
        rw [restore_response]
        have ha : (r.info.enter t.address { t with response := .ok }).address = (r.info.enter t.address t).address := by
          rw [enter_address,enter_address]
        refine portTransport_bank_post hw.passive hw.hooked hb (by exact (congrFun hf i).trans hi)
          (enter_response ..) ?_ hne ?_ hp'
        · rw [ha]
          simpa using hn
        · simpa using hold
      · cases h
        exact .inl ⟨by rwa [restore_response],by rw [memTransport_of_ne_ok hok,hm]⟩

/-- The elements from `k` on take the writable bits of the data, and every other byte is as before. -/
structure StoresElements (r : Register E) (t : Txn) (mem mem' : U64 → U8) (k : U64) (n : ℕ) : Prop where
  start : t.address = r.info.address+r.elementOffset k
  whole : t.data.length = r.width*n
  inside : k.toNat+n ≤ r.count.toNat
  element : ∀ j < n, ∀ q < r.width, ∀ a, a = r.info.address+r.elementOffset (k+BitVec.ofNat 64 j)+BitVec.ofNat 64 q →
    mem' a = mem a &&& ~~~maskByte (r.elementMask (k+BitVec.ofNat 64 j)) q |||
      t.data.getD (r.width*j+q) 0 &&& maskByte (r.elementMask (k+BitVec.ofNat 64 j)) q
  other : ∀ a, (∀ j < n, ∀ q < r.width, a ≠ r.info.address+r.elementOffset (k+BitVec.ofNat 64 j)+BitVec.ofNat 64 q) →
    mem' a = mem a

lemma blended_getElem? (mask : ℕ → U8) {data old : List U8} {p : ℕ} (hp : p < data.length) :
    (blended mask data old)[p]? = some (blend (mask p) (data.getD p 0) (old.getD p 0)) := by
  simp [blended,hp]

/-- What an accepted write stores, byte by byte. -/
lemma Addressed.stored_byte (hw : Addressed f t r i) (hm : r.masked = true)
    (he : r.OnElements (t.address-r.info.address) t.data.length) (hi : s.inCallback i = false)
    (h : bTransport f s t = some (s',t')) (hok : t'.response = .ok) :
    (∀ k ≠ r.home, s'.mems k = s.mems k) ∧ (∀ p < t.data.length, s'.mems r.home (t.address+BitVec.ofNat 64 p) =
      blend (r.writeMask (r.info.enter t.address t).address p) (t.data.getD p 0)
        (s.mems r.home (t.address+BitVec.ofNat 64 p))) ∧
    ∀ a, (∀ p < t.data.length, a ≠ t.address+BitVec.ofNat 64 p) → s'.mems r.home a = s.mems r.home a := by
  rw [hw.stored hm he hi h hok]
  have hl := hw.bus.length
  refine ⟨fun k hk => Function.update_of_ne hk ..,fun p hp => ?_,fun a ha => ?_⟩
  · have hpo : (t.address+BitVec.ofNat 64 p-t.address).toNat = p := by bv_omega
    simp only [Function.update_self,hpo,blended_getElem? _ hp,getD_some,getD_eq_getElem?_getD,bytesAt_getElem? hp]
  · have ho := not_lt.mp fun hin => ha _ hin (add_toNat_sub _ a)
    rw [Function.update_self,List.getElem?_eq_none (by rw [length_blended]; exact ho),getD_none]

/-- The bytes of the elements that a bank accepts a write to, by their position in the data. -/
lemma element_position {k off : U64} {n j q : ℕ} (hb : r.bank = some b) (hc : Contiguous b.dims r.width k off n)
    (hj : j < n) : r.info.address+r.elementOffset (k+BitVec.ofNat 64 j)+BitVec.ofNat 64 q =
      r.info.address+off+BitVec.ofNat 64 (r.width*j+q) := by
  simp only [elementOffset,hb,elim_some,hc j hj,BitVec.ofNat_add,BitVec.add_assoc]

/-- A bus write to a masked bank stores the writable bits of whole elements and succeeds, or stores nothing. -/
theorem bank_write_all_or_nothing {k₀ : U64} (hw : Addressed f t r i) (hbank : r.bank = some b)
    (hmask : r.maskForElement b k₀ ≠ fullMask r.width) (hidle : s.inCallback i = false)
    (h : bTransport f s t = some (s',t')) :
    (t'.response ≠ .ok → s'.mems = s.mems) ∧ (t'.response = .ok → (∀ m ≠ r.home, s'.mems m = s.mems m) ∧
      ∃ k n, 0 < n ∧ StoresElements r t (s.mems r.home) (s'.mems r.home) k n) := by
  have hm := masked_of_element hbank hmask
  rcases hw.bank_cases hm hbank hidle h with ⟨hba,hme⟩ | ⟨hok,n,hne,hn⟩
  · exact ⟨fun _ => hme,fun hok => absurd hok hba⟩
  · refine ⟨fun hba => absurd hok hba,fun _ => ?_⟩
    obtain ⟨ho,hb,hre⟩ := hw.stored_byte hm (fun hno => absurd (hbank.symm.trans hno) (by simp)) hidle
      h hok
    obtain ⟨hl,hc,hr⟩ := maskedTransactionElementCount_spec hn hne
    have hof : r.info.address+(r.decodeAccess b (r.info.enter t.address t).address).byteOffset = t.address := by
      show r.info.address+r.offset (r.info.enter t.address t).address = t.address
      rw [offset_enter]
      bv_omega
    have hpl := fun j q hj => (element_position hbank hc hj).trans
      (congrArg (·+BitVec.ofNat 64 (r.width*j+q)) hof)
    refine ⟨ho,_,n,Nat.pos_of_ne_zero hne,?_,hl,by simpa [Register.count,hbank] using hr,?_,?_⟩
    · simpa using (hpl 0 0 (Nat.pos_of_ne_zero hne)).symm
    · rintro j hj q hq a rfl
      have hp : r.width*j+q < t.data.length := by
        have := Nat.mul_le_mul_left r.width (Nat.succ_le_of_lt hj)
        rw [Nat.mul_succ] at this
        omega
      rw [hpl j q hj,hb _ hp]
      simp only [writeMask,hbank,elementMaskAt,Nat.mul_add_div r.width_pos,Nat.div_eq_of_lt hq,Nat.add_zero,
        Nat.mul_add_mod,Nat.mod_eq_of_lt hq,blend,elementMask,elim_some]
      rw [BitVec.or_comm]
    · refine fun a ha => hre a fun p hp => ?_
      have hj := Nat.div_lt_of_lt_mul (hl ▸ hp)
      have hne' := ha _ hj _ (Nat.mod_lt p r.width_pos)
      rwa [hpl _ _ hj,Nat.div_add_mod] at hne'

/-- The memory after a write that respects its byte enables and the mask of the register. -/
def HonoursEnables (r : Register E) (t : Txn) (mem mem' : U64 → U8) : Prop :=
  ∀ p < t.data.length, mem' (t.address+BitVec.ofNat 64 p) = if byteEnabled t.byteEnable p then
    blend (r.writeMask (r.info.enter t.address t).address p) (t.data.getD p 0) (mem (t.address+BitVec.ofNat 64 p))
  else mem (t.address+BitVec.ofNat 64 p)

/-- The port stores whole elements, so a disabled byte is kept exactly when its data agrees with it in the writable
bits. -/
theorem enables_honoured_iff (hw : Addressed f t r i) (hmasked : r.masked = true)
    (helements : r.OnElements (t.address-r.info.address) t.data.length) (hidle : s.inCallback i = false)
    (h : bTransport f s t = some (s',t')) (hok : t'.response = .ok) :
    HonoursEnables r t (s.mems r.home) (s'.mems r.home) ↔ ∀ p < t.data.length, byteEnabled t.byteEnable p = false →
      blend (r.writeMask (r.info.enter t.address t).address p) (t.data.getD p 0)
        (s.mems r.home (t.address+BitVec.ofNat 64 p)) = s.mems r.home (t.address+BitVec.ofNat 64 p) := by
  obtain ⟨-,hb,-⟩ := hw.stored_byte hmasked helements hidle h hok
  refine forall_congr' fun p => imp_congr_right fun hp => ?_
  rw [hb p hp]
  cases byteEnabled t.byteEnable p with
  | true => simp
  | false => simp

section
/-- Four words from `0x20` on, the second with a read-only byte. -/
def wordBank : Register Unit := { word 0x20 0xFFFFFFFF [lookOn] with
    info := ⟨0x20,16,0,true,4,4,[(4,4)]⟩
    bank := some ⟨[(4,4)],[(1,0xFF00FFFF)]⟩ }

def bankFile : RegFile Unit := ⟨1,fun _ => page,[wordBank]⟩

lemma page_addressed {r : Register Unit} (hb : BusWrite t) (hh : r.postWrite = [lookOn])
    (hno : r.preRead++r.preWrite++r.postRead = []) (hhm : r.home = 0)
    (hc : claimants ⟨1,fun _ => page,[r]⟩ t.address = [(r,0)]) : Addressed ⟨1,fun _ => page,[r]⟩ t r 0 where
  bus := hb
  passive := by
    intro hook hho s t
    rw [hno,hh] at hho
    obtain rfl := mem_singleton.mp hho
    exact ⟨s.env,rfl⟩
  hooked := by simp [Register.hooked,hh]
  claimed := hc
  home := by
    intro k hk
    have hz : k = 0 := by
      simp only [decodeAddress,range_one,foldlM_cons,foldlM_nil,addMemory] at hk
      split_ifs at hk <;> simpa using hk.symm
    subst hz
    exact ⟨hhm.symm,by simp [page,TargetInfo.enter]⟩

lemma bankFile_addressed : Addressed bankFile (ones 0x24 8) wordBank 0 :=
  page_addressed ⟨rfl,rfl,by simp [ones]⟩ rfl rfl rfl rfl

/-- Two words are written, and the read-only byte of the first is kept. -/
theorem bank_write_two_words : ∃ s' t', bTransport bankFile cleared (ones 0x24 8) = some (s',t') ∧ t'.response = .ok ∧
    ∃ k n, 0 < n ∧ StoresElements wordBank (ones 0x24 8) (cleared.mems 0) (s'.mems 0) k n := by
  have hr : (bTransport bankFile cleared (ones 0x24 8)).map (fun x => x.2.response) = some .ok := by
    decide +kernel
  obtain ⟨⟨s',t'⟩,hc,hok⟩ := map_eq_some_iff.mp hr
  have hm : wordBank.maskForElement ⟨[(4,4)],[(1,0xFF00FFFF)]⟩ 1 ≠ fullMask wordBank.width := by decide
  exact ⟨s',t',hc,hok,((bank_write_all_or_nothing bankFile_addressed rfl hm rfl hc).2 hok).2⟩

def partialOnes (enable : List U8) (h : enable ≠ []) : Txn :=
  ⟨.write,0x10,[0xFF,0xFF,0xFF,0xFF],some ⟨enable,h⟩,.incomplete⟩

lemma guardedFile_addressed (enable : List U8) (h : enable ≠ []) :
    Addressed guardedFile (partialOnes enable h) (word 0x10 0xFF00FFFF [lookOn]) 0 :=
  page_addressed ⟨rfl,rfl,by simp [partialOnes]⟩ rfl rfl rfl (show claimants guardedFile 0x10 = _ from rfl)

/-- The read-only byte of a word need not be enabled. -/
theorem enables_honoured_word : ∃ s' t', bTransport guardedFile cleared (partialOnes [0xFF,0xFF,0,0xFF] (by simp)) =
    some (s',t') ∧ HonoursEnables (word 0x10 0xFF00FFFF [lookOn]) (partialOnes [0xFF,0xFF,0,0xFF] (by simp))
      (cleared.mems 0) (s'.mems 0) := by
  have hr : (bTransport guardedFile cleared (partialOnes [0xFF,0xFF,0,0xFF] (by simp))).map
      (fun x => x.2.response) = some .ok := by decide +kernel
  obtain ⟨⟨s',t'⟩,hc,hok⟩ := map_eq_some_iff.mp hr
  refine ⟨s',t',hc,(enables_honoured_iff (guardedFile_addressed ..) (by decide) (fun _ => ⟨by decide,.inl rfl⟩) rfl hc
    hok).mpr ?_⟩
  decide +kernel

/-- A writable byte is written although not enabled, in a register and in a bank. -/
theorem disabled_byte_written : byteEnabled (partialOnes [0,0xFF,0xFF,0xFF] (by simp)).byteEnable 0 = false ∧
    (bTransport guardedFile cleared (partialOnes [0,0xFF,0xFF,0xFF] (by simp))).map
      (fun x => (x.2.response,x.1.mems 0 0x10)) = some (.ok,0xFF) ∧
    (bTransport bankFile cleared { partialOnes [0,0xFF,0xFF,0xFF] (by simp) with address := 0x24 }).map
      (fun x => (x.2.response,x.1.mems 0 0x24)) = some (.ok,0xFF) := by
  decide +kernel

end

end Qbox.RegRouter
