import Qbox.RegRouter

/-! Which bus writes keep the read-only bits of registers. A write is masked after the fact, by the port of
the register that its first address leads to: what the port stores over the written bytes, and when no port
is needed. -/
namespace Qbox.RegRouter
open List Option Function Register
open BitVec hiding not_not not_or

variable {E : Type}

/-- The states differ at most in direct pointers, in what the callbacks keep, and in the memories. -/
structure Stored (s s' : State E) (mems : ℕ → U64 → U8) : Prop where
  mems : s'.mems = mems
  inCallback : s'.inCallback = s.inCallback
  captured : s'.captured = s.captured

section
variable {f : RegFile E} {i : ℕ} {r : Register E} {s s' : State E}

lemma Stored.refl (s : State E) : Stored s s s.mems := ⟨rfl,rfl,rfl⟩

lemma Stored.trans {s'' : State E} {mems mems' : ℕ → U64 → U8} (h : Stored s s' mems) (h' : Stored s' s'' mems') :
    Stored s s'' mems' := ⟨h'.mems,h'.inCallback.trans h.inCallback,h'.captured.trans h.captured⟩

lemma checkDmi_stored (h : checkDmi f i r s = some s') : Stored s s' s.mems := by
  unfold checkDmi at h
  split at h
  · cases h
    exact .refl s
  · split_ifs at h
    cases h
    exact ⟨rfl,rfl,rfl⟩

variable {addr idx off : U64} {bytes data : List U8} {n : ℕ}

lemma transportRead_stored {len : ℕ} (h : transportRead f i r addr len s = some (s',bytes)) :
    Stored s s' s.mems ∧ bytes = bytesAt (s.mems r.home) addr len := by
  unfold transportRead at h
  split at h
  · cases h
  · obtain ⟨x,hx,heq⟩ := map_eq_some_iff.mp h
    obtain ⟨rfl,rfl⟩ := Prod.mk.inj heq
    exact ⟨checkDmi_stored hx,rfl⟩

lemma transportWrite_stored (h : transportWrite f i r addr data s = some s') :
    Stored s s' (Function.update s.mems r.home (writeAt (s.mems r.home) addr data)) := by
  unfold transportWrite at h
  split at h
  · cases h
  · have hx := checkDmi_stored h
    exact ⟨hx.mems,hx.inCallback,hx.captured⟩

lemma directReads_eq (hs : n ≤ 1 ∨ r.info.stride = BitVec.ofNat 64 r.width) (mem : U64 → U8) (addr : U64) :
    directReads r mem n addr = bytesAt mem addr (r.width*n) := by
  induction n generalizing addr with
  | zero => simp [directReads,bytesAt]
  | succ n ih =>
    rw [directReads,Nat.mul_succ,Nat.add_comm,bytesAt_add]
    rcases hs with ho | hs
    · obtain rfl : n = 0 := by omega
      simp [directReads,bytesAt]
    · rw [ih (.inr hs),hs]

lemma directWrites_eq (hs : n ≤ 1 ∨ r.info.stride = BitVec.ofNat 64 r.width)
    (hda : data.length = r.width*n) (hl : data.length ≤ 2^64) (mem : U64 → U8) (addr : U64) :
    directWrites r n addr data mem = writeAt mem addr data := by
  induction n generalizing addr data mem with
  | zero =>
    obtain rfl : data = [] := eq_nil_of_length_eq_zero (by simpa using hda)
    simp [directWrites]
  | succ n ih =>
    rw [Nat.mul_succ] at hda
    have ht : (data.take r.width).length = r.width := by simp; omega
    have hd : (data.drop r.width).length = r.width*n := by simp; omega
    have ha : writeAt mem addr (data.take r.width++data.drop r.width) = _ :=
      writeAt_append mem addr (by rw [ht,hd]; omega)
    rw [take_append_drop,ht] at ha
    rw [directWrites,ha]
    rcases hs with ho | hs
    · obtain rfl : n = 0 := by omega
      obtain hn : data.drop r.width = [] := eq_nil_of_length_eq_zero (by simpa using hd)
      simp [directWrites,hn]
    · rw [ih (.inr hs) hd (by omega),hs]

lemma transportReads_stored (h : transportReads f i r n addr s = some (s',bytes)) : Stored s s' s.mems := by
  induction n generalizing addr s bytes with
  | zero =>
    cases h
    exact .refl s'
  | succ n ih =>
    simp only [transportReads,bind_eq_bind,bind_eq_some_iff] at h
    obtain ⟨⟨s1,first⟩,hf,⟨s2,rest⟩,hr,h⟩ := h
    cases h
    have hs := (transportRead_stored hf).1
    have hs' := ih hr
    rw [hs.mems] at hs'
    exact hs.trans hs'

lemma transportWrites_flags (h : transportWrites f i r n addr data s = some s') : s'.inCallback = s.inCallback := by
  induction n generalizing addr s data with
  | zero =>
    cases h
    rfl
  | succ n ih =>
    simp only [transportWrites,bind_eq_bind,bind_eq_some_iff] at h
    obtain ⟨s1,hf,hr⟩ := h
    exact (ih hr).trans (transportWrite_stored hf).inCallback

lemma get_stored (h : get f i r idx n s = some (s',bytes)) :
    Stored s s' s.mems ∧ (n = 1 ∨ r.info.stride = BitVec.ofNat 64 r.width →
      bytes = bytesAt (s.mems r.home) (r.info.address+r.info.stride*idx) (r.width*n)) := by
  simp only [get] at h
  split_ifs at h with _ _ hst
  · cases h
    exact ⟨.refl s,fun hst => directReads_eq (hst.imp_left Eq.le) _ _⟩
  · exact (transportRead_stored h).imp_right fun hb _ => hb
  · exact ⟨transportReads_stored h,fun hs => absurd hs hst⟩

lemma set_stored (h : set f i r data idx n s = some s') :
    s'.inCallback = s.inCallback ∧ (n = 1 ∨ r.info.stride = BitVec.ofNat 64 r.width →
      data.length = r.width*n → data.length ≤ 2^64 → s'.mems = Function.update s.mems r.home
        (writeAt (s.mems r.home) (r.info.address+r.info.stride*idx) data)) := by
  simp only [set] at h
  split_ifs at h with _ _ hst
  · cases h
    exact ⟨rfl,fun hst hd hl => by rw [directWrites_eq (hst.imp_left Eq.le) hd hl]⟩
  · have hsr := transportWrite_stored h
    exact ⟨hsr.inCallback,fun _ _ _ => hsr.mems⟩
  · exact ⟨transportWrites_flags h,fun hs => absurd hs hst⟩

lemma getBytes_stored (h : getBytes f i r off s = some (s',bytes)) :
    Stored s s' s.mems ∧ bytes = bytesAt (s.mems r.home) (r.info.address+off) r.width := by
  unfold getBytes at h
  split_ifs at h
  · cases h
    exact ⟨.refl s,rfl⟩
  · exact transportRead_stored h

lemma setBytes_stored (h : setBytes f i r data off s = some s') :
    Stored s s' (Function.update s.mems r.home (writeAt (s.mems r.home) (r.info.address+off) data)) := by
  unfold setBytes at h
  split_ifs at h
  · cases h
    exact ⟨rfl,rfl,rfl⟩
  · exact transportWrite_stored h

end

/-- The bytes of consecutive elements, each blended with its old value under its mask. -/
def blended (mask : ℕ → U8) (data old : List U8) : List U8 := data.mapIdx fun p b => blend (mask p) b (old.getD p 0)

@[simp] lemma length_blended (mask : ℕ → U8) (data old : List U8) : (blended mask data old).length = data.length := by
  simp [blended]

/-- The elements from `flat` on lie one after the other. -/
def Contiguous (dims : List (U64 × U64)) (width : ℕ) (flat off : U64) (n : ℕ) : Prop :=
  ∀ k < n, offsetOfFlat dims (flat+BitVec.ofNat 64 k) = off+BitVec.ofNat 64 (width*k)

section
variable {f : RegFile E} {i : ℕ} {r : Register E} {s s' : State E} {b : Bank} {flat off : U64} {n : ℕ}

lemma Contiguous.first {dims : List (U64 × U64)} {width : ℕ} (h : Contiguous dims width flat off (n+1)) :
    offsetOfFlat dims flat = off := by
  simpa using h 0 (by omega)

lemma Contiguous.rest {dims : List (U64 × U64)} {width : ℕ} (h : Contiguous dims width flat off (n+1)) :
    Contiguous dims width (flat+1) (off+BitVec.ofNat 64 width) n := by
  intro k hk
  have hf : flat+1+BitVec.ofNat 64 k = flat+BitVec.ofNat 64 (k+1) := by bv_omega
  rw [hf,h (k+1) (by omega),BitVec.add_assoc,← ofNat_add,Nat.mul_succ,Nat.add_comm]

lemma byteOffsetForFlat_eq {x : U64} (h : byteOffsetForFlat b flat = some x) : x = offsetOfFlat b.dims flat := by
  unfold byteOffsetForFlat at h
  split_ifs at h
  exact (Option.some.inj h).symm

lemma getElementMask_eq {x : U64} (h : r.getElementMask b flat = some x) : x = r.maskForElement b flat := by
  unfold getElementMask at h
  split_ifs at h
  exact (Option.some.inj h).symm

lemma getElements_stored {bytes : List U8} (h : getElements f i r b n flat s = some (s',bytes)) :
    Stored s s' s.mems ∧ ∀ off, Contiguous b.dims r.width flat off n →
      bytes = bytesAt (s.mems r.home) (r.info.address+off) (r.width*n) := by
  induction n generalizing flat s bytes with
  | zero =>
    cases h
    exact ⟨.refl s',fun _ _ => by simp [bytesAt]⟩
  | succ n ih =>
    simp only [getElements,bind_eq_bind,bind_eq_some_iff] at h
    obtain ⟨x,hx,⟨s1,first⟩,hf,⟨s2,rest⟩,hr,h⟩ := h
    cases h
    obtain ⟨hs,rfl⟩ := getBytes_stored hf
    obtain ⟨hs',hr'⟩ := ih hr
    rw [hs.mems] at hs' hr'
    refine ⟨hs.trans hs',fun off ho => ?_⟩
    obtain rfl := (byteOffsetForFlat_eq hx).trans ho.first
    rw [hr' _ ho.rest,Nat.mul_succ,Nat.add_comm,bytesAt_add,BitVec.add_assoc]

lemma blended_append (mask : ℕ → U8) (data rest old : List U8) : blended mask (data++rest) old =
      blended mask data old++blended (fun p => mask (data.length+p)) rest (old.drop data.length) := by
  simp only [blended,mapIdx_append,append_cancel_left_eq]
  simp [Nat.add_comm]

lemma blended_congr {mask mask' : ℕ → U8} {data old old' : List U8}
    (h : ∀ p < data.length, mask p = mask' p ∧ old.getD p 0 = old'.getD p 0) :
    blended mask data old = blended mask' data old' := by
  refine ext_getElem (by simp) fun p hp _ => ?_
  rw [length_blended] at hp
  simp only [blended,getElem_mapIdx,(h p hp).1,(h p hp).2]

/-- The mask at each position of a write that starts at an element of a bank. -/
def elementMaskAt (r : Register E) (b : Bank) (flat : U64) (p : ℕ) : U8 :=
  maskByte (r.maskForElement b (flat+BitVec.ofNat 64 (p/r.width))) (p%r.width)

lemma elementMaskAt_rest (p : ℕ) : elementMaskAt r b flat (r.width+p) = elementMaskAt r b (flat+1) p := by
  have hf : flat+BitVec.ofNat 64 (p/r.width+1) = flat+1+BitVec.ofNat 64 (p/r.width) := by bv_omega
  rw [elementMaskAt,Nat.add_div_left p r.width_pos,Nat.add_mod_left,hf]
  rfl

lemma writeWithMask_element {data old : List U8} (hd : data.length = r.width) :
    writeWithMask r.width (r.maskForElement b flat) data (old.take r.width) = blended (elementMaskAt r b flat) data old := by
  refine blended_congr fun p hp => ?_
  rw [hd] at hp
  simp [elementMaskAt,Nat.div_eq_of_lt hp,hp]

lemma maskElements_stored {data old stored : List U8} (h : maskElements f i r b n flat data old s = some (s',stored)) :
    s'.inCallback = s.inCallback ∧ ∀ off, Contiguous b.dims r.width flat off n →
      data.length = r.width*n → data.length ≤ 2^64 → stored = blended (elementMaskAt r b flat) data old ∧
      s'.mems = Function.update s.mems r.home (writeAt (s.mems r.home) (r.info.address+off) stored) := by
  induction n generalizing flat s data old stored with
  | zero =>
    cases h
    refine ⟨rfl,fun off _ hd _ => ?_⟩
    obtain rfl : data = [] := eq_nil_of_length_eq_zero (by simpa using hd)
    exact ⟨rfl,by simp⟩
  | succ n ih =>
    simp only [maskElements,bind_eq_bind,bind_eq_some_iff] at h
    obtain ⟨mask,hm,x,hx,s1,hf,⟨s2,rest⟩,hr,h⟩ := h
    cases h
    obtain rfl := getElementMask_eq hm
    have hs := setBytes_stored hf
    obtain ⟨hfl,hr'⟩ := ih hr
    refine ⟨hfl.trans hs.inCallback,fun off ho hd hl => ?_⟩
    rw [Nat.mul_succ] at hd
    have ht : (data.take r.width).length = r.width := by simp; omega
    have hdr : (data.drop r.width).length = r.width*n := by simp; omega
    obtain rfl := (byteOffsetForFlat_eq hx).trans ho.first
    obtain ⟨rfl,hme⟩ := hr' _ ho.rest hdr (by omega)
    rw [writeWithMask_element ht] at hs ⊢
    have hsp : blended (elementMaskAt r b flat) data old = blended (elementMaskAt r b flat) (data.take r.width) old++
          blended (elementMaskAt r b (flat+1)) (data.drop r.width) (old.drop r.width) := by
      conv_lhs => rw [← take_append_drop r.width data]
      rw [blended_append,ht]
      simp [elementMaskAt_rest]
    refine ⟨hsp.symm,?_⟩
    have ha : writeAt (s.mems r.home) (r.info.address+x)
        (blended (elementMaskAt r b flat) (data.take r.width) old++
          blended (elementMaskAt r b (flat+1)) (data.drop r.width) (old.drop r.width)) = _ :=
      writeAt_append _ _ (by rw [length_blended,length_blended,ht,hdr]; omega)
    rw [hme,hs.mems,update_self,update_idem,ha,length_blended,ht,BitVec.add_assoc]

end

section
variable {f : RegFile E} {i : ℕ} {r : Register E} {s s' : State E} {t t' : Txn}
  {b : Bank} {n : ℕ} {a : BankAccess} {hook : Hook E} {cmd : TlmCommand}

lemma contiguous_of_start {flat off : U64} (ho : offsetOfFlat b.dims flat = off)
    (h : n = 1 ∨ ∃ count, b.dims = [(BitVec.ofNat 64 r.width,count)]) : Contiguous b.dims r.width flat off n := by
  intro k hk
  rcases h with rfl | ⟨count,hd⟩
  · obtain rfl : k = 0 := by omega
    simpa using ho
  · have hf : ∀ x, offsetOfFlat b.dims x = x*BitVec.ofNat 64 r.width := by
      intro x
      simp [hd,offsetOfFlat,totalCount]
    rw [hf] at ho
    rw [hf,BitVec.add_mul,ho,← ofNat_mul,Nat.mul_comm]

lemma isElementStart_spec (h : isElementStart b a = some true) :
    offsetOfFlat b.dims a.index = a.byteOffset ∧ a.index < totalCount b.dims := by
  unfold isElementStart at h
  split_ifs at h
  · obtain ⟨x,hx,heq⟩ := map_eq_some_iff.mp h
    refine ⟨by rw [← byteOffsetForFlat_eq hx]; simpa using heq,not_le.mp fun hle => ?_⟩
    simp [byteOffsetForFlat,hle] at hx
  · cases h

/-- The elements a bank's port accepts a write to lie one after the other, from the written address on. -/
lemma maskedTransactionElementCount_spec {len : ℕ}
    (h : r.maskedTransactionElementCount b a len = some n) (hn : n ≠ 0) :
    len = r.width*n ∧ Contiguous b.dims r.width a.index a.byteOffset n ∧ a.index.toNat+n ≤ (totalCount b.dims).toNat := by
  have hno : ∀ {c : ℕ}, some 0 = some c → c ≠ 0 → False := fun h hc => hc (Option.some.inj h).symm
  simp only [maskedTransactionElementCount,bind_eq_bind,bind_eq_some_iff] at h
  obtain ⟨start,hst,h⟩ := h
  cases start with
  | false => exact (hno h hn).elim
  | true =>
    obtain ⟨hof,hr⟩ := isElementStart_spec hst
    rw [lt_def] at hr
    have hm := Nat.div_add_mod len r.width
    rw [if_neg (by simp)] at h
    by_cases hl : len = 0 ∨ len%r.width ≠ 0
    · rw [if_pos hl] at h
      exact (hno h hn).elim
    · rw [if_neg hl] at h
      rw [not_or,not_not] at hl
      by_cases ho : len/r.width = 1
      · rw [if_pos ho] at h
        cases h
        rw [ho,hl.2] at hm
        exact ⟨by omega,contiguous_of_start hof (.inl rfl),hr⟩
      · rw [if_neg ho] at h
        split at h
        · rename_i stride count hd
          split_ifs at h with hs hf
          · exact (hno h hn).elim
          · exact (hno h hn).elim
          · cases h
            rw [not_not] at hs
            refine ⟨by omega,contiguous_of_start hof (.inr ⟨count,by rw [hd,hs]⟩),?_⟩
            rw [not_or,not_lt,toNat_sub_of_le (le_def.mpr hr.le)] at hf
            omega
        · exact (hno h hn).elim

/-- The mask at each position of a write, by the address the port is given. -/
def Register.writeMask (r : Register E) (addr : U64) (p : ℕ) : U8 := match r.bank with
  | none => maskByte r.mask (p%r.width)
  | some b => elementMaskAt r b (r.decodeAccess b addr).index p

/-- A write begins with an element, and has one or meets no gaps. Banks check this themselves. -/
def Register.OnElements (r : Register E) (offset : U64) (len : ℕ) : Prop :=
  r.bank = none → offset%r.info.stride = 0 ∧ (len = r.width ∨ r.info.stride = BitVec.ofNat 64 r.width)

lemma Register.OnElements.whole {offset : U64} {len : ℕ} (h : r.OnElements offset len) (hb : r.bank = none)
    (hl : ¬(len = 0 ∨ len%r.width ≠ 0)) : offset%r.info.stride = 0 ∧ len = r.width*(len/r.width) ∧
      (len/r.width = 1 ∨ r.info.stride = BitVec.ofNat 64 r.width) := by
  rw [not_or,not_not] at hl
  obtain ⟨hm,hs⟩ := h hb
  refine ⟨hm,(Nat.mul_div_cancel' (Nat.dvd_of_mod_eq_zero hl.2)).symm,hs.imp_left fun ho => ?_⟩
  rw [ho,Nat.div_self r.width_pos]

lemma mul_div_of_mod {offset stride : U64} (h : offset%stride = 0) : stride*(offset/stride) = offset := by
  apply eq_of_toNat_eq
  have hm : offset.toNat%stride.toNat = 0 := by
    rw [← toNat_umod,h]
    rfl
  have hd := Nat.div_add_mod offset.toNat stride.toNat
  rw [toNat_mul,toNat_udiv,Nat.mod_eq_of_lt]
  · omega
  · have := offset.isLt
    omega

/-- What the port captures before a masked write: the old bytes, unless it reports an error. -/
lemma captureTxnPre_spec (h : captureTxnPre f i r s t = some (s',t')) :
    s'.inCallback = s.inCallback ∧ (t' = { t with response := .burstError } ∨ t' = t ∧
      (r.masked = true → t.command = .write → r.OnElements (r.offset t.address) t.data.length → s'.mems = s.mems ∧
        s'.captured i = bytesAt (s.mems r.home) (r.info.address+r.offset t.address) t.data.length)) := by
  rw [captureTxnPre] at h
  by_cases hsk : (!r.masked || t.command != .write) = true
  · rw [if_pos hsk] at h
    cases h
    exact ⟨rfl,.inr ⟨rfl,fun hm hcm => by simp [hm,hcm] at hsk⟩⟩
  · rw [if_neg hsk] at h
    cases hba : r.bank with
    | none =>
      simp only [hba] at h
      split_ifs at h with hl
      obtain ⟨⟨s1,old⟩,hg,h⟩ := bind_eq_some_iff.mp h
      cases h
      obtain ⟨hs,hb⟩ := get_stored hg
      refine ⟨hs.inCallback,.inr ⟨rfl,fun _ _ hon => ⟨hs.mems,?_⟩⟩⟩
      obtain ⟨hmo,hd,ho⟩ := hon.whole hba hl
      rw [hb ho,mul_div_of_mod hmo,← hd]
      exact update_self ..
    | some b =>
      simp only [hba] at h
      obtain ⟨n,hn,h⟩ := bind_eq_some_iff.mp h
      split_ifs at h with hz
      · cases h
        exact ⟨rfl,.inl rfl⟩
      · obtain ⟨⟨s1,old⟩,hg,h⟩ := bind_eq_some_iff.mp h
        cases h
        obtain ⟨hs,hb⟩ := getElements_stored hg
        refine ⟨hs.inCallback,.inr ⟨rfl,fun _ _ _ => ⟨hs.mems,?_⟩⟩⟩
        obtain ⟨hd,hc,-⟩ := maskedTransactionElementCount_spec hn hz
        rw [hb _ hc,hd]
        exact update_self ..

/-- What the port stores after a masked write: the data blended with what was captured. -/
lemma handleMaskPost_spec (h : handleMaskPost f i r s t = some (s',t')) :
    s'.inCallback = s.inCallback ∧ (t' = { t with response := .burstError } ∨ (∃ data, t' = { t with data := data }) ∧
      (r.masked = true → t.command = .write → r.OnElements (r.offset t.address) t.data.length →
        t.data.length ≤ 2^64 → s'.mems = Function.update s.mems r.home (writeAt (s.mems r.home)
          (r.info.address+r.offset t.address) (blended (r.writeMask t.address) t.data (s.captured i))))) := by
  rw [handleMaskPost] at h
  by_cases hs : (!r.masked || t.command != .write) = true
  · rw [if_pos hs] at h
    cases h
    exact ⟨rfl,.inr ⟨⟨t.data,rfl⟩,fun hma hcm => by simp [hma,hcm] at hs⟩⟩
  · rw [if_neg hs] at h
    cases hb : r.bank with
    | none =>
      have hm : r.writeMask t.address = fun p => maskByte r.mask (p%r.width) := by
        funext p
        simp [writeMask,hb]
      simp only [hb] at h
      split_ifs at h with hr
      obtain ⟨s1,hse,h⟩ := bind_eq_some_iff.mp h
      cases h
      obtain ⟨hf,hme⟩ := set_stored hse
      refine ⟨hf,.inr ⟨⟨_,rfl⟩,fun _ _ hon hle => ?_⟩⟩
      obtain ⟨hmo,hd,ho⟩ := hon.whole hb hr
      have hl : (writeWithMask r.width r.mask t.data (s.captured i)).length = t.data.length := length_blended ..
      rw [hme ho (hl.trans hd) (hl.le.trans hle),mul_div_of_mod hmo,hm]
      rfl
    | some b =>
      have hm : r.writeMask t.address = elementMaskAt r b (r.decodeAccess b t.address).index := by
        funext p
        simp [writeMask,hb]
      simp only [hb] at h
      obtain ⟨n,hn,h⟩ := bind_eq_some_iff.mp h
      split_ifs at h with hz
      · cases h
        exact ⟨rfl,.inl rfl⟩
      · obtain ⟨⟨s1,stored⟩,hms,h⟩ := bind_eq_some_iff.mp h
        cases h
        obtain ⟨hf,hst⟩ := maskElements_stored hms
        refine ⟨hf,.inr ⟨⟨_,rfl⟩,fun _ _ _ hle => ?_⟩⟩
        obtain ⟨hd,hc,-⟩ := maskedTransactionElementCount_spec hn (not_or.mp hz).1
        obtain ⟨rfl,hme⟩ := hst _ hc hd hle
        rw [hm]
        exact hme

/-- The user callbacks keep to themselves: the registers and the transaction are as before. -/
def Register.Passive (r : Register E) : Prop :=
  ∀ hook ∈ r.preRead++r.preWrite++r.postRead++r.postWrite, ∀ s t, ∃ e, hook s t = ({ s with env := e },t)

lemma runHooks_passive {hooks : List (Hook E)} (h : ∀ hook ∈ hooks, ∀ s t, ∃ e, hook s t = ({ s with env := e },t))
    (s : State E) (t : Txn) : ∃ e, runHooks hooks s t = ({ s with env := e },t) := by
  induction hooks generalizing s with
  | nil => exact ⟨s.env,rfl⟩
  | cons hook hooks ih =>
    obtain ⟨e,he⟩ := h hook (mem_cons_self ..) s t
    obtain ⟨e',he'⟩ := ih (fun g hg => h g (mem_cons_of_mem _ hg)) { s with env := e }
    refine ⟨e',?_⟩
    rw [runHooks] at he' ⊢
    rw [foldl_cons,he,he']

lemma mem_preHooks (h : hook ∈ r.preHooks cmd) : hook ∈ r.preRead++r.preWrite++r.postRead++r.postWrite := by
  cases cmd <;> simp_all [preHooks]

lemma mem_postHooks (h : hook ∈ r.postHooks cmd) : hook ∈ r.preRead++r.preWrite++r.postRead++r.postWrite := by
  cases cmd <;> simp_all [postHooks]

lemma Register.Passive.pre (h : r.Passive) (cmd : TlmCommand) (s : State E) (t : Txn) :
    ∃ e, runHooks (r.preHooks cmd) s t = ({ s with env := e },t) :=
  runHooks_passive (fun hook hh => h hook (mem_preHooks hh)) s t

lemma Register.Passive.post (h : r.Passive) (cmd : TlmCommand) (s : State E) (t : Txn) :
    ∃ e, runHooks (r.postHooks cmd) s t = ({ s with env := e },t) :=
  runHooks_passive (fun hook hh => h hook (mem_postHooks hh)) s t

lemma flag_restored {flags : ℕ → Bool} (h : flags i = false) :
    Function.update (Function.update flags i true) i false = flags := by
  rw [update_idem,← h,update_eq_self]

/-- A port without callbacks or mask leaves the registers and the transaction alone. -/
lemma portTransport_transparent (hp : r.Passive) (hi : s.inCallback i = false)
    (h : r.hooked = false ∨ r.masked = false) : ∃ e, portTransport f i r s t = some ({ s with env := e },t) := by
  by_cases hh : r.hooked = true
  · have hm := h.resolve_left (by simp [hh])
    have hc : ∀ s t, captureTxnPre f i r s t = some (s,t) := by simp [captureTxnPre,hm]
    have hha : ∀ s t, handleMaskPost f i r s t = some (s,t) := by simp [handleMaskPost,hm]
    have hb : ∀ s, ∃ e, portBody f i r s t = some ({ s with env := e },t) := by
      intro s
      obtain ⟨e,he⟩ := hp.pre t.command s t
      obtain ⟨e',he'⟩ := hp.post t.command s t
      cases hr : t.response <;> simp only [portBody,hr]
      case incomplete => exact ⟨e,by rw [hc,he]⟩
      case ok => exact ⟨e',by rw [hha]; simp [he']⟩
      all_goals exact ⟨s.env,rfl⟩
    obtain ⟨e,he⟩ := hb { s with inCallback := Function.update s.inCallback i true }
    refine ⟨e,?_⟩
    simp [portTransport,hh,hi,he,flag_restored hi]
  · exact ⟨s.env,by simp [portTransport,hh]⟩

lemma exists_portBody (hi : s.inCallback i = false) (hh : r.hooked = true)
    (h : portTransport f i r s t = some (s',t')) :
    ∃ s1, portBody f i r { s with inCallback := Function.update s.inCallback i true } t = some (s1,t') ∧
      s' = { s1 with inCallback := Function.update s1.inCallback i false } := by
  simp only [portTransport,hh,hi,Bool.not_true,Bool.false_eq_true,if_false,bind_eq_bind,bind_eq_some_iff] at h
  obtain ⟨⟨s1,t1⟩,hb,h⟩ := h
  cases h
  exact ⟨s1,hb,rfl⟩

lemma portTransport_pre (hp : r.Passive) (hi : s.inCallback i = false) (hh : r.hooked = true)
    (hm : r.masked = true) (hcm : t.command = .write) (hr : t.response = .incomplete)
    (hon : r.OnElements (r.offset t.address) t.data.length) (h : portTransport f i r s t = some (s',t')) :
    t'.response = .burstError ∨ t' = t ∧ s'.mems = s.mems ∧ s'.inCallback = s.inCallback ∧
      s'.captured i = bytesAt (s.mems r.home) (r.info.address+r.offset t.address) t.data.length := by
  obtain ⟨s1,hb,rfl⟩ := exists_portBody hi hh h
  obtain ⟨e,he⟩ := hp.pre t.command { s with inCallback := Function.update s.inCallback i true } t
  simp only [portBody,hr,he] at hb
  obtain ⟨hf,hs⟩ := captureTxnPre_spec hb
  refine hs.imp (fun hbu => by rw [hbu]) fun hs => ?_
  obtain ⟨hme,hc⟩ := hs.2 hm hcm hon
  exact ⟨hs.1,hme,by rw [hf,flag_restored hi],hc⟩

lemma portTransport_post (hp : r.Passive) (hi : s.inCallback i = false) (hho : r.hooked = true)
    (hm : r.masked = true) (hc : t.command = .write) (hr : t.response = .ok)
    (hon : r.OnElements (r.offset t.address) t.data.length) (hl : t.data.length ≤ 2^64)
    (h : portTransport f i r s t = some (s',t')) : t'.response = .burstError ∨ s'.inCallback = s.inCallback ∧
      s'.mems = Function.update s.mems r.home (writeAt (s.mems r.home) (r.info.address+r.offset t.address)
        (blended (r.writeMask t.address) t.data (s.captured i))) := by
  obtain ⟨s1,hb,rfl⟩ := exists_portBody hi hho h
  simp only [portBody,hr,bind_eq_bind,bind_eq_some_iff] at hb
  obtain ⟨⟨s2,t2⟩,hha,hh⟩ := hb
  obtain ⟨e,he⟩ := hp.post t.command s2 t2
  rw [he] at hh
  cases hh
  obtain ⟨hf,hs⟩ := handleMaskPost_spec hha
  refine hs.imp (fun hbu => by rw [hbu]) fun hs => ?_
  exact ⟨by rw [hf,flag_restored hi],hs.2 hm hc hon hl⟩

end

section
variable {f : RegFile E} {s s' : State E} {t t' : Txn}
  {addr : U64} {acc : List (Register E × ℕ) × U32} {c : Register E × ℕ} {l : List (Register E × ℕ)}

lemma addClaimant_sublist (addr : U64) (acc : List (Register E × ℕ) × U32) (c : Register E × ℕ) :
    Sublist (addClaimant addr acc c).1 (acc.1++[c]) := by
  unfold addClaimant
  split_ifs
  · simp
  · simp
  · simp
  · simp

lemma foldl_addClaimant_sublist (addr : U64) (l : List (Register E × ℕ)) (acc : List (Register E × ℕ) × U32) :
    Sublist (l.foldl (addClaimant addr) acc).1 (acc.1++l) := by
  induction l generalizing acc with
  | nil => simp
  | cons c l ih =>
    have hf := (addClaimant_sublist addr acc c).append_right l
    simpa using (ih (addClaimant addr acc c)).trans hf

lemma mem_registers_of_claimant (h : c ∈ claimants f addr) : c.1 ∈ f.registers := by
  have hm : c ∈ f.registers.zipIdx := by
    simpa using (foldl_addClaimant_sublist addr f.registers.zipIdx ([],0)).subset h
  exact (mem_zipIdx' hm).2 ▸ getElem_mem _

lemma claimants_nodup (f : RegFile E) (addr : U64) : ((claimants f addr).map Prod.snd).Nodup := by
  have hs := (foldl_addClaimant_sublist addr f.registers.zipIdx ([],0)).map Prod.snd
  refine Nodup.sublist hs ?_
  simp [nodup_range']

variable (ti : TargetInfo)

@[simp] lemma enter_data (addr : U64) (t : Txn) : (ti.enter addr t).data = t.data := by
  unfold TargetInfo.enter
  split_ifs <;> rfl

@[simp] lemma enter_command (addr : U64) (t : Txn) : (ti.enter addr t).command = t.command := by
  unfold TargetInfo.enter
  split_ifs <;> rfl

@[simp] lemma enter_response (addr : U64) (t : Txn) : (ti.enter addr t).response = t.response := by
  unfold TargetInfo.enter
  split_ifs <;> rfl

lemma enter_address (addr : U64) (t : Txn) :
    (ti.enter addr t).address = if ti.useOffset then addr-ti.address else t.address := by
  unfold TargetInfo.enter
  split_ifs <;> rfl

@[simp] lemma enter_byteEnable (addr : U64) (t : Txn) : (ti.enter addr t).byteEnable = t.byteEnable := by
  unfold TargetInfo.enter
  split_ifs <;> rfl

@[simp] lemma restore_response (addr : U64) (t : Txn) : (ti.restore addr t).response = t.response := by
  unfold TargetInfo.restore
  split_ifs <;> rfl

lemma restore_enter (t : Txn) : ti.restore t.address (ti.enter t.address t) = t := by
  unfold TargetInfo.restore TargetInfo.enter
  split_ifs <;> rfl

lemma restore_enter_response (t : Txn) (response : TlmResponse) :
    ti.restore t.address { ti.enter t.address t with response := response } = { t with response := response } := by
  unfold TargetInfo.restore TargetInfo.enter
  split_ifs <;> rfl

lemma offset_enter (r : Register E) (t : Txn) :
    r.offset (r.info.enter t.address t).address = t.address-r.info.address := by
  unfold Register.offset TargetInfo.enter
  split_ifs <;> rfl

lemma callPorts_transparent (hp : ∀ c ∈ l, c.1.Passive) (hi : ∀ i, s.inCallback i = false) (ho : t.failed = false)
    (h : ∀ c ∈ l, c.1.hooked = false ∨ c.1.masked = false) (hca : callPorts f t.address l s t = some (s',t')) :
    t' = t ∧ Stored s s' s.mems := by
  induction l generalizing s with
  | nil =>
    obtain ⟨rfl,rfl⟩ := Prod.mk.inj (Option.some.inj hca)
    exact ⟨rfl,.refl s⟩
  | cons c l ih =>
    obtain ⟨r,i⟩ := c
    obtain ⟨e,he⟩ := portTransport_transparent (f := f) (t := r.info.enter t.address t)
      (hp _ (mem_cons_self ..)) (hi i) (h _ (mem_cons_self ..))
    simp only [callPorts,he,bind_eq_bind,bind_some,restore_enter,ho,Bool.false_eq_true,if_false] at hca
    obtain ⟨ht,hs⟩ := ih (s := { s with env := e }) (fun c hc => hp c (mem_cons_of_mem _ hc)) hi
      (fun c hc => h c (mem_cons_of_mem _ hc)) hca
    exact ⟨ht,hs.mems,hs.inCallback,hs.captured⟩

lemma bTransport_ok (h : bTransport f s t = some (s',t')) (hok : t'.response = .ok) :
    ∃ k s1 t1, decodeAddress f t.address = some (some k) ∧ doCallbacks f s t = some (s1,t1) ∧ t1.failed = false ∧
      (memTransport f k s1 ((f.memory k).info.enter t.address t1)).2.response = .ok ∧
      doCallbacks f (memTransport f k s1 ((f.memory k).info.enter t.address t1)).1
        ((f.memory k).info.restore t.address (memTransport f k s1 ((f.memory k).info.enter t.address t1)).2) =
          some (s',t') := by
  simp only [bTransport,bind_eq_bind,bind_eq_some_iff] at h
  obtain ⟨best,hb,h⟩ := h
  cases best with
  | none =>
    cases h
    cases hok
  | some k =>
    obtain ⟨⟨s1,t1⟩,hp,h⟩ := bind_eq_some_iff.mp h
    refine ⟨k,s1,t1,hb,hp,?_⟩
    cases hf : t1.failed with
    | true =>
      simp only [hf,if_true] at h
      split_ifs at h with ho1
      · simp [Txn.failed,ho1] at hf
      · cases h
        exact absurd hok ho1
    | false =>
      simp only [hf,Bool.false_eq_true,if_false,restore_response] at h
      split_ifs at h with ho1
      · exact ⟨rfl,ho1,h⟩
      · cases h
        rw [restore_response] at hok
        exact absurd hok ho1

lemma memTransport_write {k : ℕ} (hc : t.command = .write) (h : (memTransport f k s t).2.response = .ok) :
    memTransport f k s t = ({ s with
          mems := Function.update s.mems k
            (transfer .write (byteEnabled t.byteEnable) t.address t.data (s.mems k)).2 },
        { t with response := .ok }) := by
  unfold memTransport at h ⊢
  cases hr : (f.memory k).refuses t.command t.address t.data.length with
  | none => simp only [hc,transfer]
  | some response =>
    rw [hr] at h
    exact absurd (hr.trans (congrArg some h)) ((f.memory k).refuses_ne_ok _ _ _)

end

namespace Register
variable (r : Register E)

def count : U64 := r.bank.elim r.number fun b => totalCount b.dims

def elementOffset (k : U64) : U64 := r.bank.elim (r.info.stride*k) fun b => offsetOfFlat b.dims k

def elementMask (k : U64) : U64 := r.bank.elim r.mask fun b => r.maskForElement b k

/-- The register keeps a byte at the address, and `m` is the part of its mask for this byte. -/
def HasByte (a : U64) (m : U8) : Prop :=
  ∃ k j, k < r.count ∧ j < r.width ∧ a = r.info.address+r.elementOffset k+BitVec.ofNat 64 j ∧ m = maskByte (r.elementMask k) j

end Register

/-- Every bit outside a mask is as before, in every register. -/
def KeepsReadOnly (f : RegFile E) (s s' : State E) : Prop :=
  ∀ r ∈ f.registers, ∀ a m, r.HasByte a m → s'.mems r.home a &&& ~~~m = s.mems r.home a &&& ~~~m

structure BusWrite (t : Txn) : Prop where
  command : t.command = .write
  response : t.response = .incomplete
  length : t.data.length < 2^32

/-- No port has a mask to apply, and no enabled byte of the write falls on one with a read-only bit. -/
structure Clear (f : RegFile E) (t : Txn) : Prop where
  transparent : ∀ c ∈ claimants f t.address, c.1.hooked = false ∨ c.1.masked = false
  writable : ∀ k, decodeAddress f t.address = some (some k) → ∀ r ∈ f.registers, r.home = k → ∀ a m, r.HasByte a m →
    ∀ p < t.data.length, byteEnabled t.byteEnable p = true →
    a = ((f.memory k).info.enter t.address t).address+BitVec.ofNat 64 p → m = 0xFF

/-- One masked register with a callback claims the first address alone; the write goes to its own memory, at the same
address, in whole elements; and where an element is writable no register has a read-only bit. -/
structure Masked (f : RegFile E) (t : Txn) (r : Register E) (i : ℕ) : Prop where
  claimed : claimants f t.address = [(r,i)]
  hooked : r.hooked = true
  masked : r.masked = true
  home : ∀ k, decodeAddress f t.address = some (some k) →
    k = r.home ∧ ((f.memory k).info.enter t.address t).address = t.address
  elements : r.OnElements (t.address-r.info.address) t.data.length
  agrees : ∀ q ∈ f.registers, q.home = r.home → ∀ a m, q.HasByte a m → ∀ p < t.data.length,
    a = t.address+BitVec.ofNat 64 p → ~~~m &&& r.writeMask (r.info.enter t.address t).address p = 0

/-- A write goes to the memory of a register with a callback, that claims the first address alone. -/
structure Addressed (f : RegFile E) (t : Txn) (r : Register E) (i : ℕ) : Prop where
  bus : BusWrite t
  passive : r.Passive
  hooked : r.hooked = true
  claimed : claimants f t.address = [(r,i)]
  home : ∀ k, decodeAddress f t.address = some (some k) →
    k = r.home ∧ ((f.memory k).info.enter t.address t).address = t.address

def Guarded (f : RegFile E) (t : Txn) : Prop := BusWrite t ∧ (Clear f t ∨ ∃ r i, Masked f t r i)

section
variable {f : RegFile E} {s s' : State E} {t t' : Txn}

lemma blend_readOnly {m w new old : U8} (h : ~~~m &&& w = 0) : blend w new old &&& ~~~m = old &&& ~~~m := by
  ext i hi
  have hb := congrArg (fun x : U8 => x.getLsbD i) h
  simp only [getLsbD_and,getLsbD_not,hi,decide_true,Bool.true_and] at hb
  simp only [blend,getElem_and,getElem_or,getElem_not]
  cases hm : m[i] <;> cases hw : w[i] <;> simp_all

lemma add_toNat_sub (addr a : U64) : a = addr+BitVec.ofNat 64 (a-addr).toNat := by
  bv_omega

lemma Clear.keeps (hpa : ∀ r ∈ f.registers, r.Passive) (hi : ∀ i, s.inCallback i = false)
    (hbu : BusWrite t) (hcl : Clear f t) (h : bTransport f s t = some (s',t')) (hok : t'.response = .ok) :
    KeepsReadOnly f s s' := by
  obtain ⟨k,s1,t1,hd,hpr,-,hme,hpo⟩ := bTransport_ok h hok
  have hp : ∀ c ∈ claimants f t.address, c.1.Passive := fun c hc => hpa _ (mem_registers_of_claimant hc)
  have ho : t.failed = false := by simp [Txn.failed,hbu.response]
  obtain ⟨rfl,hb⟩ := callPorts_transparent hp hi ho hcl.transparent hpr
  rw [memTransport_write (by rw [enter_command]; exact hbu.command) hme,restore_enter_response] at hpo
  obtain ⟨-,ha⟩ := callPorts_transparent hp
    (fun i => by rw [hb.inCallback]; exact hi i) rfl hcl.transparent hpo
  intro r hr a m hby
  simp only [ha.mems,hb.mems,enter_byteEnable,enter_data]
  by_cases hh : r.home = k
  · subst hh
    simp only [update_self,transfer]
    split_ifs with he
    · by_cases hl : (a-((f.memory r.home).info.enter t1.address t1).address).toNat < t1.data.length
      · have hm := hcl.writable _ hd r hr rfl a m hby _ hl he (add_toNat_sub _ a)
        simp [hm]
      · rw [List.getElem?_eq_none (not_lt.mp hl),getD_none]
    · rfl
  · rw [update_of_ne hh]

lemma overwritten {mem : U64 → U8} {addr : U64} {data : List U8} {enabled : ℕ → Bool} {stored : List U8}
    (hl : stored.length = data.length) (a : U64) :
    writeAt (transfer .write enabled addr data mem).2 addr stored a = stored[(a-addr).toNat]?.getD (mem a) := by
  rw [writeAt_apply]
  by_cases ha : (a-addr).toNat < data.length
  · rw [List.getElem?_eq_getElem (hl ▸ ha),getD_some,getD_some]
  · have hd := List.getElem?_eq_none (not_lt.mp ha)
    have hs := List.getElem?_eq_none (hl ▸ not_lt.mp ha)
    simp only [hs,getD_none,transfer,hd,ite_self]

lemma callPorts_singleton {r : Register E} {i : ℕ} {addr : U64} (h : callPorts f addr [(r,i)] s t = some (s',t')) :
    ∃ t1, portTransport f i r s (r.info.enter addr t) = some (s',t1) ∧ t' = r.info.restore addr t1 := by
  simp only [callPorts,bind_eq_bind,bind_eq_some_iff] at h
  obtain ⟨⟨s1,t1⟩,hp,h⟩ := h
  split_ifs at h <;> cases h <;> exact ⟨t1,hp,rfl⟩

/-- A write to a masked register stores the blended bytes over the written range. -/
lemma Addressed.stored {r : Register E} {i : ℕ} (hw : Addressed f t r i) (hm : r.masked = true)
    (he : r.OnElements (t.address-r.info.address) t.data.length) (hi : s.inCallback i = false)
    (h : bTransport f s t = some (s',t')) (hok : t'.response = .ok) : s'.mems = Function.update s.mems r.home fun a =>
      (blended (r.writeMask (r.info.enter t.address t).address) t.data
        (bytesAt (s.mems r.home) t.address t.data.length))[(a-t.address).toNat]?.getD (s.mems r.home a) := by
  obtain ⟨k,s1,t1,hd,hpr,ho,hmem,hpo⟩ := bTransport_ok h hok
  obtain ⟨rfl,hpl⟩ := hw.home k hd
  have hon : r.OnElements (r.offset (r.info.enter t.address t).address) (r.info.enter t.address t).data.length := by
    rw [offset_enter,enter_data]
    exact he
  -- Before: the old bytes are captured.
  rw [doCallbacks,hw.claimed] at hpr
  obtain ⟨t0,hp,rfl⟩ := callPorts_singleton hpr
  have hc := portTransport_pre hw.passive hi hw.hooked hm
    (by rw [enter_command]; exact hw.bus.command) (by rw [enter_response]; exact hw.bus.response) hon hp
  rw [offset_enter,enter_data] at hc
  have hba : r.info.address+(t.address-r.info.address) = t.address := by bv_omega
  obtain ⟨rfl,hme,hf,hold⟩ := hc.resolve_left fun hb => by
    simp [Txn.failed,hb] at ho
  rw [restore_enter] at hmem hpo
  -- The memory stores the data, and after it the port the blended bytes.
  rw [memTransport_write (by rw [enter_command]; exact hw.bus.command) hmem,restore_enter_response,doCallbacks,
    hw.claimed] at hpo
  obtain ⟨t2,hp',rfl⟩ := callPorts_singleton hpo
  have hon' : r.OnElements (r.offset (r.info.enter t.address { t with response := .ok }).address)
      (r.info.enter t.address { t with response := .ok }).data.length := by
    rw [offset_enter r { t with response := .ok },enter_data]
    exact he
  have hcm : (r.info.enter t.address { t with response := .ok }).command = .write := by
    rw [enter_command]
    exact hw.bus.command
  have hl : (r.info.enter t.address { t with response := .ok }).data.length ≤ 2^64 := by
    rw [enter_data]
    exact hw.bus.length.le.trans (by norm_num)
  have ha := portTransport_post hw.passive (by exact (congrFun hf i).trans hi) hw.hooked
    hm hcm (enter_response ..) hon' hl hp'
  obtain ⟨-,hme'⟩ := ha.resolve_left fun hb => by
    rw [restore_response,hb] at hok
    cases hok
  have had : (r.info.enter t.address { t with response := .ok }).address = (r.info.enter t.address t).address := by
    rw [enter_address,enter_address]
  rw [hme']
  simp only [enter_data,enter_byteEnable,had,offset_enter,hba,hpl,hme,hold,update_self,update_idem]
  congr 1
  funext a
  rw [overwritten (by simp)]

lemma Masked.stored (hp : ∀ r ∈ f.registers, r.Passive) (hi : ∀ i, s.inCallback i = false)
    (hb : BusWrite t) {r : Register E} {i : ℕ} (hm : Masked f t r i)
    (h : bTransport f s t = some (s',t')) (hok : t'.response = .ok) : s'.mems = Function.update s.mems r.home fun a =>
      (blended (r.writeMask (r.info.enter t.address t).address) t.data
        (bytesAt (s.mems r.home) t.address t.data.length))[(a-t.address).toNat]?.getD (s.mems r.home a) := by
  have hme : (r,i) ∈ claimants f t.address := by simp [hm.claimed]
  have hw : Addressed f t r i := ⟨hb,hp _ (mem_registers_of_claimant hme),hm.hooked,hm.claimed,hm.home⟩
  exact hw.stored hm.masked hm.elements (hi i) h hok

lemma Masked.keeps (hp : ∀ r ∈ f.registers, r.Passive) (hi : ∀ i, s.inCallback i = false)
    (hbu : BusWrite t) {r : Register E} {i : ℕ} (hm : Masked f t r i)
    (h : bTransport f s t = some (s',t')) (hok : t'.response = .ok) : KeepsReadOnly f s s' := by
  intro q hq a m hb
  rw [hm.stored hp hi hbu h hok]
  by_cases hh : q.home = r.home
  · rw [hh,update_self]
    by_cases hl : (a-t.address).toNat < t.data.length
    · have ha := hm.agrees q hq hh a m hb _ hl (add_toNat_sub _ a)
      have hb' : (blended (r.writeMask (r.info.enter t.address t).address) t.data
          (bytesAt (s.mems r.home) t.address t.data.length))[(a-t.address).toNat]? =
          some (blend (r.writeMask (r.info.enter t.address t).address (a-t.address).toNat)
            (t.data.get ⟨_,hl⟩) (s.mems r.home a)) := by
        simp only [blended,getElem?_mapIdx,List.getElem?_eq_getElem hl,map_some,
          getD_eq_getElem?_getD,bytesAt_getElem? hl,getD_some,← add_toNat_sub,get_eq_getElem]
      rw [hb',getD_some,blend_readOnly ha]
    · rw [List.getElem?_eq_none (by rw [length_blended]; exact not_lt.mp hl),getD_none]
  · rw [update_of_ne hh]

/-- A guarded write that is answered well keeps every read-only bit. -/
lemma Guarded.keeps (hp : ∀ r ∈ f.registers, r.Passive) (hi : ∀ i, s.inCallback i = false)
    (hg : Guarded f t) (h : bTransport f s t = some (s',t')) (hok : t'.response = .ok) : KeepsReadOnly f s s' := by
  obtain ⟨hb,hc | ⟨r,i,hm⟩⟩ := hg
  · exact hc.keeps hp hi hb h hok
  · exact hm.keeps hp hi hb h hok

end

section
variable {f : RegFile E} {i : ℕ} {r : Register E} {s s' : State E} {t t' : Txn} {addr : U64}

lemma portBody_flags (hp : r.Passive) (h : portBody f i r s t = some (s',t')) : s'.inCallback = s.inCallback := by
  obtain ⟨e,he⟩ := hp.pre t.command s t
  cases hr : t.response <;> simp only [portBody,hr] at h
  case incomplete =>
    rw [he] at h
    have hf := (captureTxnPre_spec h).1
    exact hf
  case ok =>
    obtain ⟨⟨s1,t1⟩,hh,h⟩ := bind_eq_some_iff.mp h
    obtain ⟨e',he'⟩ := hp.post t.command s1 t1
    rw [he'] at h
    cases h
    have hf := (handleMaskPost_spec hh).1
    exact hf
  all_goals
    cases h
    rfl

lemma portTransport_flags (hp : r.Passive) (h : portTransport f i r s t = some (s',t')) :
    s'.inCallback = s.inCallback := by
  unfold portTransport at h
  split_ifs at h with hh hbu
  · cases h
    rfl
  · cases h
    rfl
  · obtain ⟨⟨s1,t1⟩,hb,h⟩ := bind_eq_some_iff.mp h
    cases h
    simp only [portBody_flags hp hb]
    exact flag_restored (by simpa using hbu)

lemma callPorts_flags {l : List (Register E × ℕ)} (hp : ∀ c ∈ l, c.1.Passive)
    (h : callPorts f addr l s t = some (s',t')) : s'.inCallback = s.inCallback := by
  induction l generalizing s t with
  | nil =>
    cases h
    rfl
  | cons c l ih =>
    simp only [callPorts,bind_eq_bind,bind_eq_some_iff] at h
    obtain ⟨⟨s1,t1⟩,hpo,h⟩ := h
    have hf := portTransport_flags (hp _ (mem_cons_self ..)) hpo
    split_ifs at h
    · cases h
      exact hf
    · exact (ih (fun c hc => hp c (mem_cons_of_mem _ hc)) h).trans hf

lemma doCallbacks_flags (hp : ∀ r ∈ f.registers, r.Passive) (h : doCallbacks f s t = some (s',t')) :
    s'.inCallback = s.inCallback :=
  callPorts_flags (fun _ hc => hp _ (mem_registers_of_claimant hc)) h

lemma memTransport_flags (k : ℕ) : (memTransport f k s t).1.inCallback = s.inCallback := by
  unfold memTransport
  split <;> rfl

/-- Whatever a transaction does, the flags are afterwards as they were before. -/
lemma bTransport_flags (hp : ∀ r ∈ f.registers, r.Passive) (h : bTransport f s t = some (s',t')) :
    s'.inCallback = s.inCallback := by
  simp only [bTransport,bind_eq_bind,bind_eq_some_iff] at h
  obtain ⟨best,-,h⟩ := h
  cases best with
  | none =>
    cases h
    rfl
  | some k =>
    obtain ⟨⟨s1,t1⟩,hpr,h⟩ := bind_eq_some_iff.mp h
    have hb := doCallbacks_flags hp hpr
    cases hf : t1.failed <;> simp only [hf,Bool.false_eq_true,if_false,if_true] at h <;> split_ifs at h
    · exact (doCallbacks_flags hp h).trans ((memTransport_flags k).trans hb)
    · cases h
      exact (memTransport_flags k).trans hb
    · exact (doCallbacks_flags hp h).trans hb
    · cases h
      exact hb

end

/-- The states reached by transactions of any kind, one after the other. -/
inductive Reaches (f : RegFile E) (s : State E) : State E → Prop where
  | start : Reaches f s s
  | step {u v : State E} {t t' : Txn} (h : Reaches f s u) (hcall : bTransport f u t = some (v,t')) : Reaches f s v

lemma Reaches.flags {f : RegFile E} {s u : State E} (hp : ∀ r ∈ f.registers, r.Passive) (h : Reaches f s u) :
    u.inCallback = s.inCallback := by
  induction h with
  | start => rfl
  | step _ hc ih => exact (bTransport_flags hp hc).trans ih

/-- In every run over registers whose callbacks keep to themselves, a write that meets the condition and is answered
well keeps every bit outside the masks. -/
theorem readOnly_kept {f : RegFile E} {s u v : State E} {t t' : Txn} (hpassive : ∀ r ∈ f.registers, r.Passive)
    (hidle : ∀ i, s.inCallback i = false) (hrun : Reaches f s u) (hguard : Guarded f t)
    (hcall : bTransport f u t = some (v,t')) (hok : t'.response = .ok) : KeepsReadOnly f u v :=
  hguard.keeps hpassive (fun i => by rw [hrun.flags hpassive]; exact hidle i) hcall hok

section
def page : MemTarget := ⟨⟨0,0x1000,0,true,0,0,[]⟩,fun _ _ _ => none,none,fun _ _ _ => by simp⟩

def word (address mask : U64) (hooks : List (Hook Unit)) : Register Unit where
  info := ⟨address,4,0,true,4,4,[]⟩
  home := 0
  number := 1
  width := 4
  mask := mask
  bank := none
  preRead := []
  preWrite := []
  postRead := []
  postWrite := hooks
  width_pos := by decide

def lookOn : Hook Unit := fun s t => (s,t)

def guardedFile : RegFile Unit := ⟨1,fun _ => page,[word 0x10 0xFF00FFFF [lookOn]]⟩

def cleared : State Unit := ⟨fun _ _ => 0,fun _ => false,fun _ => [],fun _ => false,()⟩

def ones (address : U64) (len : ℕ) : Txn := ⟨.write,address,List.replicate len 0xFF,none,.incomplete⟩

lemma guardedFile_passive : ∀ r ∈ guardedFile.registers, r.Passive := by
  intro r hr hook hh s t
  obtain rfl := mem_singleton.mp hr
  obtain rfl : hook = lookOn := by simpa [word] using hh
  exact ⟨s.env,rfl⟩

lemma guardedFile_masked : Masked guardedFile (ones 0x10 4) (word 0x10 0xFF00FFFF [lookOn]) 0 where
  claimed := rfl
  hooked := rfl
  masked := by decide
  home := by
    intro k hk
    obtain rfl : (0 : ℕ) = k := by simpa using (show some (some 0) = some (some k) from hk)
    exact ⟨rfl,rfl⟩
  elements := fun _ => ⟨by decide,.inl rfl⟩
  agrees := by
    intro q hq _ a m hb p hp ha
    obtain rfl := mem_singleton.mp hq
    obtain ⟨k,j,hk,hj,ha',rfl⟩ := hb
    have hj4 : j < 4 := hj
    have hp4 : p < 4 := by simpa [ones] using hp
    have hk1 : k < 1 := hk
    obtain rfl : k = 0 := by bv_omega
    have had : (0x10 : U64)+BitVec.ofNat 64 p = 0x10+4*0+BitVec.ofNat 64 j := ha.symm.trans ha'
    obtain rfl : p = j := by bv_omega
    interval_cases p <;> decide

/-- A write to the whole register keeps its read-only byte. -/
theorem readOnly_kept_word : Guarded guardedFile (ones 0x10 4) ∧ ∃ v t',
    bTransport guardedFile cleared (ones 0x10 4) = some (v,t') ∧ t'.response = .ok ∧
      KeepsReadOnly guardedFile cleared v := by
  have hg : Guarded guardedFile (ones 0x10 4) := ⟨⟨rfl,rfl,by simp [ones]⟩,.inr ⟨_,_,guardedFile_masked⟩⟩
  have hr : (bTransport guardedFile cleared (ones 0x10 4)).map (fun x => x.2.response) = some .ok := by
    decide +kernel
  obtain ⟨⟨v,t'⟩,hc,hok⟩ := map_eq_some_iff.mp hr
  exact ⟨hg,v,t',hc,hok,readOnly_kept guardedFile_passive (fun _ => rfl) .start hg hc hok⟩

def afterWrite (registers : List (Register Unit)) (t : Txn) : Option (TlmResponse × U8) :=
  (bTransport ⟨1,fun _ => page,registers⟩ cleared t).map fun x => (x.2.response,x.1.mems 0 0x12)

/-- The read-only third byte is written without a user callback, by a write that starts before the register, and by an
unaligned one; with a callback and alignment it is kept. -/
theorem readOnly_byte_written : afterWrite [word 0x10 0xFF00FFFF []] (ones 0x10 4) = some (.ok,0xFF) ∧
    afterWrite [word 0xC 0xFFFFFFFF [lookOn],word 0x10 0xFF00FFFF [lookOn]] (ones 0xC 8) = some (.ok,0xFF) ∧
    afterWrite [word 0xC 0x00FFFFFF [lookOn],word 0x10 0xFF00FFFF [lookOn]] (ones 0xF 4) = some (.ok,0xFF) ∧
    afterWrite [word 0x10 0xFF00FFFF [lookOn]] (ones 0x10 4) = some (.ok,0) := by
  decide +kernel

end

end Qbox.RegRouter
