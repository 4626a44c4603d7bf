import Qbox.RegRouterMasks

/-! What a model writes as expressions over its registers: assignments, compound assignments and fields. -/
namespace Qbox.RegRouter
open MachineWord

variable {E : Type}

inductive RegOp where
  | add | sub | div | mul | and | or | xor | shl | shr

/-- The operators; nothing for a division by zero or an undefined shift. -/
def RegOp.apply {w : ℕ} : RegOp → BitVec w → BitVec w → Option (BitVec w)
  | .add, a, b => some (a+b)
  | .sub, a, b => some (a-b)
  | .div, a, b => if b = 0 then none else some (a/b)
  | .mul, a, b => some (a*b)
  | .and, a, b => some (a &&& b)
  | .or, a, b => some (a ||| b)
  | .xor, a, b => some (a ^^^ b)
  | .shl, a, b => if max w 32 ≤ b.toNat then none else some (a <<< b.toNat)
  | .shr, a, b => if max w 32 ≤ b.toNat then none else some (a >>> b.toNat)

def maskForField (w start length : ℕ) : Option (BitVec w) := if length = 0 ∨ w ≤ start ∨ w-start < length then none
  else if length = w then some (BitVec.allOnes w)
  else some (BitVec.allOnes w >>> (w-length))

section
variable (f : RegFile E) (i : ℕ) (r : Register E)

/-- What `set` stores in an element under the mask. -/
def maskedElement (data cur : List U8) : List U8 :=
  if r.mask = fullMask r.width then data else writeWithMask r.width r.mask data cur

def directMaskedWrites : ℕ → U64 → List U8 → (U64 → U8) → U64 → U8
  | 0, _, _, mem => mem
  | n+1, addr, data, mem =>
    directMaskedWrites n (addr+r.info.stride) (data.drop r.width)
      (writeAt mem addr (maskedElement r (data.take r.width) (bytesAt mem addr r.width)))

def maskedWrites : ℕ → U64 → List U8 → State E → Option (State E)
  | 0, _, _, s => some s
  | n+1, idx, data, s => do
    let (s,cur) ← (if r.mask = fullMask r.width then some (s,[]) else get f i r idx 1 s)
    let s ← transportWrite f i r (r.info.address+r.info.stride*idx) (maskedElement r (data.take r.width) cur) s
    maskedWrites n (idx+1) (data.drop r.width) s

/-- `set` under the mask. -/
def setMasked (data : List U8) (idx : U64) (length : ℕ) (s : State E) : Option (State E) :=
  let addr := r.info.address+r.info.stride*idx
  if r.number < idx+BitVec.ofNat 64 length then none
  else if s.dmi i then
    some { s with mems := Function.update s.mems r.home (directMaskedWrites r length addr data (s.mems r.home)) }
  else if (length = 1 ∨ r.info.stride = BitVec.ofNat 64 r.width) ∧ r.mask = fullMask r.width then
    transportWrite f i r addr data s
  else maskedWrites f i r length idx data s

/-- `proxy_data::get`. -/
def getValue (s : State E) : Option (State E × BitVec (8*r.width)) :=
  (get f i r 0 1 s).map fun x => (x.1,loadLe _ x.2)

/-- `proxy_data::set`. -/
def setValue (v : BitVec (8*r.width)) (s : State E) : Option (State E) := setMasked f i r (storeLe r.width v) 0 1 s

/-- The assignment of another register. The source does not read it. -/
def assignRegister (_other : Register E) (s : State E) : Option (State E) := do
  let (s,v) ← getValue f i r s
  setValue f i r v s

def opAssign (op : RegOp) (v : BitVec (8*r.width)) (s : State E) : Option (State E) := do
  let (s,old) ← getValue f i r s
  let x ← op.apply old v
  setValue f i r x s

/-- The assignment to `gs_bitfield`. -/
def assignField (start length : ℕ) (v : BitVec (8*r.width)) (s : State E) : Option (State E) := do
  let fieldMask ← maskForField (8*r.width) start length
  if v &&& ~~~fieldMask ≠ 0 then none
  else
    let s ← opAssign f i r .and (~~~(fieldMask <<< start)) s
    opAssign f i r .or ((v &&& fieldMask) <<< start) s

def readField (start length : ℕ) (s : State E) : Option (State E × BitVec (8*r.width)) := do
  let fieldMask ← maskForField (8*r.width) start length
  let (s,v) ← getValue f i r s
  some (s,v >>> start &&& fieldMask)

/-- The accesses of a register to its own memory succeed. -/
structure Register.Accessible : Prop where
  width : r.width ≤ 8
  number : 1 ≤ r.number
  reads : (f.memory r.home).refuses .read r.info.address r.width = none
  writes : (f.memory r.home).refuses .write r.info.address r.width = none
  grants : ∀ start stop, (f.memory r.home).grants = some (start,stop) → start+r.info.address+r.info.size ≤ stop

def Register.value (s : State E) : BitVec (8*r.width) := loadLe _ (bytesAt (s.mems r.home) r.info.address r.width)

/-- The mask of the writable bits. -/
def Register.writable : BitVec (8*r.width) := r.mask.setWidth _

/-- The register has a value, and no byte outside it has changed. -/
structure Holds (s s' : State E) (x : BitVec (8*r.width)) : Prop where
  value : r.value s' = x
  frame : ∀ k a, (k = r.home → ∀ p < r.width, a ≠ r.info.address+BitVec.ofNat 64 p) → s'.mems k a = s.mems k a

end

section
/-- `write_with_mask` on an element, as a value. -/
lemma writeWithMask_storeLe {w : ℕ} (mask : U64) (v old : BitVec (8*w)) :
    writeWithMask w mask (storeLe w v) (storeLe w old) =
      storeLe w (v &&& mask.setWidth _ ||| old &&& ~~~mask.setWidth _) := by
  refine List.ext_getElem (by simp [writeWithMask]) fun k hk hk' => ?_
  have hw : k < w := by simpa using hk'
  simp only [writeWithMask,storeLe,List.getElem_mapIdx,List.getElem_map,List.getElem_range,List.getD_eq_getElem?_getD,
    List.getElem?_map,List.getElem?_range hw,Option.map_some,Option.getD_some,Nat.mod_eq_of_lt hw,blend,maskByte]
  ext q hq
  have hb : 8*k+q < 8*w := by omega
  simp [hb]

lemma setWidth_fullMask {w : ℕ} (hw : w ≤ 8) : (fullMask w).setWidth (8*w) = BitVec.allOnes (8*w) := by
  ext q hq
  have hq64 : q < 64 := by omega
  simp only [fullMask,BitVec.getElem_setWidth,BitVec.getLsbD_ofNat,Nat.testBit_two_pow_sub_one,hq64,hq,decide_true,
    Bool.and_self,BitVec.getElem_allOnes]

variable {r : Register E} {s s' s'' : State E}

lemma maskedElement_storeLe (hw : r.width ≤ 8) (v old : BitVec (8*r.width)) :
    maskedElement r (storeLe r.width v) (storeLe r.width old) =
      storeLe r.width (v &&& r.writable ||| old &&& ~~~r.writable) := by
  unfold maskedElement
  split_ifs with hf
  · simp [Register.writable,hf,setWidth_fullMask hw]
  · exact writeWithMask_storeLe r.mask v old

lemma storeLe_value (r : Register E) (s : State E) :
    storeLe r.width (r.value s) = bytesAt (s.mems r.home) r.info.address r.width := by
  have h : storeLe (bytesAt (s.mems r.home) r.info.address r.width).length (r.value s) = _ := storeLe_loadLe (by simp)
  rwa [length_bytesAt] at h

lemma Holds.of_writeAt (hw : r.width ≤ 8) {x : BitVec (8*r.width)} (h : s'.mems = Function.update s.mems r.home
    (writeAt (s.mems r.home) r.info.address (storeLe r.width x))) : Holds r s s' x where
  value := by
    have hb : bytesAt (s'.mems r.home) r.info.address r.width = storeLe r.width x := by
      refine List.ext_getElem (by simp) fun k hk hk' => ?_
      have hkw : k < r.width := by simpa using hk
      simp only [bytesAt,List.getElem_map,List.getElem_range,h,Function.update_self]
      exact writeAt_getElem _ _ hk' (by omega)
    rw [Register.value,hb,loadLe_storeLe x le_rfl]
  frame := by
    intro k a ha
    rw [h]
    by_cases hk : k = r.home
    · subst hk
      rw [Function.update_self]
      exact writeAt_of_forall_ne _ _ (by simpa using ha rfl)
    · rw [Function.update_of_ne hk]

lemma Holds.trans {x y : BitVec (8*r.width)} (h : Holds r s s' x) (h' : Holds r s' s'' y) : Holds r s s'' y :=
  ⟨h'.value,fun k a ha => (h'.frame k a ha).trans (h.frame k a ha)⟩

end

section
variable {f : RegFile E} {r : Register E} (h : r.Accessible f) (i : ℕ) (s : State E)

include h

lemma Register.Accessible.checkDmi : ∃ s', checkDmi f i r s = some s' := by
  unfold RegRouter.checkDmi
  cases hg : (f.memory r.home).grants with
  | none => exact ⟨s,rfl⟩
  | some g => exact ⟨_,if_neg (not_lt.mpr (h.grants g.1 g.2 hg))⟩

lemma Register.Accessible.get : ∃ s', get f i r 0 1 s = some (s',bytesAt (s.mems r.home) r.info.address r.width) ∧
    s'.mems = s.mems := by
  have hi : ¬ r.number < 0+BitVec.ofNat 64 1 := not_lt.mpr h.number
  have hso : (RegRouter.get f i r 0 1 s).isSome := by
    simp only [RegRouter.get,if_neg hi,true_or,if_true]
    split_ifs
    · rfl
    · obtain ⟨s',hs'⟩ := h.checkDmi i s
      simp [transportRead,h.reads,hs']
  obtain ⟨⟨s',bytes⟩,hg⟩ := Option.isSome_iff_exists.mp hso
  obtain ⟨hst,hb⟩ := get_stored hg
  refine ⟨s',?_,hst.mems⟩
  rw [hg,hb (.inl rfl)]
  simp

lemma Register.Accessible.getValue : ∃ s', getValue f i r s = some (s',r.value s) ∧ s'.mems = s.mems := by
  obtain ⟨s',hg,hm⟩ := h.get i s
  exact ⟨s',by rw [RegRouter.getValue,hg]; rfl,hm⟩

lemma Register.Accessible.transportWrite {data : List U8} (hd : data.length = r.width) :
    ∃ s', transportWrite f i r r.info.address data s = some s' ∧
      s'.mems = Function.update s.mems r.home (writeAt (s.mems r.home) r.info.address data) := by
  obtain ⟨s',hs'⟩ := h.checkDmi i
    { s with mems := Function.update s.mems r.home (writeAt (s.mems r.home) r.info.address data) }
  have hw : RegRouter.transportWrite f i r r.info.address data s = some s' := by
    simp [RegRouter.transportWrite,hd,h.writes,hs']
  exact ⟨s',hw,(transportWrite_stored hw).mems⟩

/-- On each of the three ways to the memory a value is stored in its writable bits. -/
lemma Register.Accessible.setValue (v : BitVec (8*r.width)) :
    ∃ s', setValue f i r v s = some s' ∧ Holds r s s' (v &&& r.writable ||| r.value s &&& ~~~r.writable) := by
  have hi : ¬ r.number < 0+BitVec.ofNat 64 1 := not_lt.mpr h.number
  have he := maskedElement_storeLe h.width v (r.value s)
  rw [storeLe_value] at he
  have ht : (storeLe r.width v).take r.width = storeLe r.width v := List.take_of_length_le (by simp)
  simp only [RegRouter.setValue,setMasked,if_neg hi,true_or,true_and,mul_zero,add_zero]
  split_ifs with hd hf
  · refine ⟨_,rfl,.of_writeAt h.width ?_⟩
    simp [directMaskedWrites,ht,he]
  · -- Every bit is writable, and the value is sent as it is.
    obtain ⟨s',hs',hm⟩ := h.transportWrite i s (length_storeLe r.width v)
    refine ⟨s',hs',.of_writeAt h.width ?_⟩
    rw [hm,← he,maskedElement,if_pos hf]
  · obtain ⟨s1,hg,hm⟩ := h.get i s
    obtain ⟨s',hs',hm'⟩ := h.transportWrite i s1
      ((congrArg List.length he).trans (length_storeLe ..))
    refine ⟨s',?_,.of_writeAt h.width ?_⟩
    · simp only [maskedWrites,if_neg hf,hg,ht,mul_zero,add_zero,hs',Option.bind_eq_bind,Option.bind_some]
    · rw [hm',hm,he]

end

section
variable {f : RegFile E} {r : Register E} (h : r.Accessible f) (i : ℕ) (s : State E)

include h

/-- What an expression stores: a value made from the old one, in the writable bits. -/
lemma Register.Accessible.update (x : BitVec (8*r.width) → Option (BitVec (8*r.width))) {y : BitVec (8*r.width)}
    (hx : x (r.value s) = some y) :
    ∃ s', (do let (s,v) ← RegRouter.getValue f i r s; let y ← x v; RegRouter.setValue f i r y s) = some s' ∧
      Holds r s s' (r.value s &&& ~~~r.writable ||| y &&& r.writable) := by
  obtain ⟨s1,hg,hm⟩ := h.getValue i s
  obtain ⟨s',hs,hh⟩ := h.setValue i s1 y
  have hv : r.value s1 = r.value s := by rw [Register.value,Register.value,hm]
  refine ⟨s',by simp [hg,hx,hs],?_⟩
  rw [BitVec.or_comm,← hv]
  exact ⟨hh.value,fun k a ha => by rw [hh.frame k a ha,hm]⟩

lemma Register.Accessible.opAssign {op : RegOp} {v y : BitVec (8*r.width)} (hy : op.apply (r.value s) v = some y) :
    ∃ s', opAssign f i r op v s = some s' ∧ Holds r s s' (r.value s &&& ~~~r.writable ||| y &&& r.writable) :=
  h.update i s (fun old => op.apply old v) hy

end

lemma maskForField_spec {w start length : ℕ} (hp : 0 < length) (hfi : start+length ≤ w) :
    ∃ mask, maskForField w start length = some mask ∧ ∀ k, mask.getLsbD k = decide (k < length) := by
  unfold maskForField
  rw [if_neg (by omega)]
  split_ifs with hf
  · refine ⟨_,rfl,fun k => ?_⟩
    simp [hf]
  · refine ⟨_,rfl,fun k => ?_⟩
    simp only [BitVec.getLsbD_ushiftRight,BitVec.getLsbD_allOnes]
    congr 1
    exact propext ⟨fun _ => by omega,fun _ => by omega⟩

/-- The bits of a register after an assignment to a field of it. -/
def fieldAssigned {w : ℕ} (writable old v : BitVec w) (start length k : ℕ) : Bool :=
  if start ≤ k ∧ k < start+length ∧ writable.getLsbD k = true then v.getLsbD (k-start) else old.getLsbD k

lemma blend_and_mask {w : ℕ} (old new mask : BitVec w) : (old &&& ~~~mask ||| new &&& mask) &&& mask = new &&& mask := by
  ext k hk
  cases hm : mask[k] <;> simp [hm]

lemma getLsbD_of_lt_two_pow {w length k : ℕ} {v : BitVec w} (hv : v.toNat < 2^length) (hk : length ≤ k) :
    v.getLsbD k = false :=
  Nat.testBit_lt_two_pow (hv.trans_le (Nat.pow_le_pow_right (by decide) hk))

/-- The field is cleared and then set, each in the writable bits. -/
lemma fieldAssigned_eq {w start length : ℕ} {mask writable old v x₁ x₂ : BitVec w}
    (hm : ∀ k, mask.getLsbD k = decide (k < length))
    (h₁ : x₁ = old &&& ~~~writable ||| (old &&& ~~~(mask <<< start)) &&& writable)
    (h₂ : x₂ = x₁ &&& ~~~writable ||| (x₁ ||| (v &&& mask) <<< start) &&& writable) (k : ℕ) :
    x₂.getLsbD k = fieldAssigned writable old v start length k := by
  subst h₁ h₂
  unfold fieldAssigned
  by_cases hk : k < w
  · simp only [BitVec.getLsbD_or,BitVec.getLsbD_and,BitVec.getLsbD_not,BitVec.getLsbD_shiftLeft,hk,decide_true,
      Bool.true_and,hm]
    by_cases hs : start ≤ k
    · have hin : k-start < length ↔ k < start+length := by omega
      cases hw : writable.getLsbD k <;> by_cases he : k < start+length <;>
        simp [hs,not_lt.mpr hs,hin,he]
    · cases hw : writable.getLsbD k <;> simp [hs,not_le.mp hs]
  · simp [BitVec.getLsbD_of_ge _ _ (not_lt.mp hk)]

section
variable (f : RegFile E) (i : ℕ) (r other : Register E) (s : State E)

/-- The expressions over a register mean what they say, with another one on the right of the assignment. -/
structure Means : Prop where
  assign : ∃ s', assignRegister f i r other s = some s' ∧
    Holds r s s' (r.value s &&& ~~~r.writable ||| (other.value s).setWidth _ &&& r.writable)
  op : ∀ op v y, op.apply (r.value s) v = some y → ∃ s', opAssign f i r op v s = some s' ∧
    Holds r s s' (r.value s &&& ~~~r.writable ||| y &&& r.writable)
  field : ∀ start length v, 0 < length → start+length ≤ 8*r.width → v.toNat < 2^length →
    ∃ s' x, assignField f i r start length v s = some s' ∧ Holds r s s' x ∧
      (∀ k, x.getLsbD k = fieldAssigned r.writable (r.value s) v start length k) ∧
      ∃ s'' y, readField f i r start length s' = some (s'',y) ∧
        ∀ k < length, r.writable.getLsbD (start+k) = true → y.getLsbD k = v.getLsbD k

variable {f r} {s}

lemma Register.Accessible.assignField (h : r.Accessible f) {start length : ℕ} {v : BitVec (8*r.width)} (hp : 0 < length)
    (hfi : start+length ≤ 8*r.width) (hv : v.toNat < 2^length) :
    ∃ s' x, assignField f i r start length v s = some s' ∧ Holds r s s' x ∧
      ∀ k, x.getLsbD k = fieldAssigned r.writable (r.value s) v start length k := by
  obtain ⟨mask,hf,hm⟩ := maskForField_spec hp hfi
  have hin : v &&& ~~~mask = 0#_ := by
    ext k hk
    rcases lt_or_ge k length with hlt | hge
    · simp [← BitVec.getLsbD_eq_getElem,hm,hlt]
    · simp [← BitVec.getLsbD_eq_getElem,getLsbD_of_lt_two_pow hv hge]
  obtain ⟨s1,hs1,hh⟩ := h.opAssign i s (show RegOp.and.apply _ (~~~(mask <<< start)) = _ from rfl)
  obtain ⟨s',hs',hh'⟩ := h.opAssign i s1 (show RegOp.or.apply _ ((v &&& mask) <<< start) = _ from rfl)
  refine ⟨s',_,by simp [RegRouter.assignField,hf,hin,hs1,hs'],hh.trans hh',fun k => ?_⟩
  exact fieldAssigned_eq hm hh.value rfl k

lemma Register.Accessible.readField (h : r.Accessible f) {start length : ℕ} (hp : 0 < length)
    (hfi : start+length ≤ 8*r.width) : ∃ s' y, readField f i r start length s = some (s',y) ∧
      ∀ k < length, y.getLsbD k = (r.value s).getLsbD (start+k) := by
  obtain ⟨mask,hf,hm⟩ := maskForField_spec hp hfi
  obtain ⟨s',hg,-⟩ := h.getValue i s
  exact ⟨s',_,by simp [RegRouter.readField,hf,hg]; rfl,fun k hk => by simp [hm,hk]⟩

/-- Everything but the assignment of another register means what it says; that does when the two agree in the writable
bits. -/
theorem expressions_mean_iff (h : r.Accessible f) :
    Means f i r other s ↔ r.value s &&& r.writable = (other.value s).setWidth _ &&& r.writable := by
  obtain ⟨s₀,ha,hh⟩ := h.update i s some rfl
  constructor
  · rintro ⟨⟨s',hs',hh'⟩,-,-⟩
    obtain rfl : s₀ = s' := Option.some.inj (ha.symm.trans hs')
    have hva := congrArg (· &&& r.writable) (hh.value.symm.trans hh'.value)
    simpa only [blend_and_mask] using hva
  · intro hag
    refine ⟨⟨s₀,ha,hag ▸ hh⟩,fun op v y hy => h.opAssign i s hy,fun start length v hp hf hv => ?_⟩
    obtain ⟨s',x,hs',hx,hb⟩ := h.assignField i hp hf hv
    obtain ⟨s'',y,hy,hr⟩ := h.readField i hp hf
    refine ⟨s',x,hs',hx,hb,s'',y,hy,fun k hk hw => ?_⟩
    rw [hr k hk,hx.value,hb,fieldAssigned,if_pos ⟨by omega,by omega,hw⟩,Nat.add_sub_cancel_left]

end

section
/-- Two words of one memory; a byte of the first is read-only. -/
def exprFile : RegFile Unit := ⟨1,fun _ => page,[word 0x10 0xFF00FFFF [],word 0x14 0xFFFFFFFF []]⟩

lemma exprFile_accessible (address mask : U64) : (word address mask []).Accessible exprFile :=
  ⟨show 4 ≤ 8 by decide,show (1 : U64) ≤ 1 from le_rfl,rfl,rfl,fun _ _ h => by cases h⟩

theorem expressions_mean_equal_words : Means exprFile 0 (word 0x10 0xFF00FFFF []) (word 0x14 0xFFFFFFFF []) cleared :=
  (expressions_mean_iff 0 _ (exprFile_accessible 0x10 0xFF00FFFF)).mpr (by decide +kernel)

def secondSet : State Unit := { cleared with mems := fun _ => writeAt (fun _ => 0) 0x14 [0x78,0x56,0x34,0x12] }

/-- The assignment of a register leaves the one on the left as it was. -/
theorem assigned_register_ignored : ((word 0x14 0xFFFFFFFF []).value secondSet).toNat = 0x12345678 ∧
    (assignRegister exprFile 0 (word 0x10 0xFF00FFFF []) (word 0x14 0xFFFFFFFF []) secondSet).map
      (fun s => ((word 0x10 0xFF00FFFF []).value s).toNat) = some 0 := by
  decide +kernel

end

end Qbox.RegRouter
