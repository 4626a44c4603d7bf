import Qbox.Dwmac

/-! The transmission of the frames of a ring or chain of descriptors: what `tx`, called again and again, sends, and what
it leaves in memory. -/
namespace Qbox.Dwmac
open MachineWord List BitVec Option

section
variable (mem : U64 → U8)

def disowned (ds : List U32) : U64 → U8 := fun a =>
  if a ∈ ds.map fun d => d.setWidth 64+3 then mem a &&& 0x7F else mem a

lemma disowned_nil : disowned mem [] = mem := by
  funext a
  simp [disowned]

lemma disowned_disowned (ds es : List U32) : disowned (disowned mem ds) es = disowned mem (ds++es) := by
  funext a
  have ht : mem a &&& 0x7F &&& 0x7F = mem a &&& 0x7F := by rw [BitVec.and_assoc,BitVec.and_self]
  simp only [disowned,map_append,mem_append]
  by_cases hds : a ∈ ds.map fun d => d.setWidth 64+3
  · rw [if_pos hds,if_pos (Or.inl hds),ht,ite_self]
  · simp only [hds,if_false,false_or]

lemma disowned_of_forall_ne {mem : U64 → U8} {ds : List U32} {a : U64} (h : ∀ d ∈ ds, a ≠ d.setWidth 64+3) :
    disowned mem ds a = mem a := by
  rw [disowned,if_neg]
  intro ha
  obtain ⟨d,hd,ha⟩ := List.mem_map.mp ha
  exact h d hd ha.symm

lemma storeLe_disown (v : U32) : storeLe 4 (v &&& ~~~(1#32 <<< 31)) = (storeLe 4 v).modify 3 (· &&& 0x7F) := by
  have hk : ∀ i, ((~~~(1#32 <<< 31)) >>> (8*i)).setWidth 8 = allOnes 8 →
      ((v &&& ~~~(1#32 <<< 31)) >>> (8*i)).setWidth 8 = (v >>> (8*i)).setWidth 8 := fun i hi => by
    rw [ushiftRight_and_distrib,setWidth_and,hi,and_allOnes]
  have ho : ((v &&& ~~~(1#32 <<< 31)) >>> (8*3)).setWidth 8 = (v >>> (8*3)).setWidth 8 &&& 0x7F#8 := by
    rw [ushiftRight_and_distrib,setWidth_and]
    rfl
  have hf : List.range 4 = [0,1,2,3] := rfl
  simp only [storeLe,hf,map_cons,map_nil,hk 0 (by decide),hk 1 (by decide),hk 2 (by decide),ho]
  rfl

lemma storeLe_word {bytes : List U8} (h : 4 ≤ bytes.length) : storeLe 4 (DmaDesc.word ⟨bytes⟩ 0) = bytes.take 4 := by
  have ht : (bytes.take 4).length = 4 := by simp [h]
  have hl : storeLe (bytes.take 4).length (loadLe 32 (bytes.take 4)) = bytes.take 4 := storeLe_loadLe (by omega)
  rwa [ht] at hl

lemma bytes_disown {bytes : List U8} (h : 4 ≤ bytes.length) :
    (DmaDesc.disown ⟨bytes⟩).bytes = bytes.modify 3 (· &&& 0x7F) := by
  have ht : (bytes.take 4).length = 4 := by simp [h]
  rw [DmaDesc.disown,DmaDesc.withWord0,storeLe_disown,storeLe_word h]
  refine ext_getElem? fun k => ?_
  by_cases hk : k < 4
  · rw [getElem?_append_left (by simpa [ht] using hk)]
    simp [getElem?_modify,getElem?_take,if_pos hk]
  · rw [getElem?_append_right (by simp [ht]; omega)]
    simp only [length_modify,ht,getElem?_drop,getElem?_modify,Nat.add_sub_cancel' (not_lt.mp hk),
      if_neg (show 3 ≠ k by omega)]
    simp

lemma writeAt_disown (d : U32) {size : ℕ} (h : 4 ≤ size) :
    writeAt mem (d.setWidth 64) (DmaDesc.disown ⟨bytesAt mem (d.setWidth 64) size⟩).bytes = disowned mem [d] := by
  funext a
  rw [bytes_disown (by rwa [length_bytesAt]),writeAt_apply,getElem?_modify,disowned]
  have ht : a ∈ [d].map (fun d => d.setWidth 64+3) ↔ 3 = (a-d.setWidth 64).toNat := by
    rw [map_singleton,mem_singleton]
    constructor <;> intro ha <;> bv_omega
  simp only [ht]
  rcases lt_or_ge (a-d.setWidth 64).toNat size with hin | ho
  · have had : d.setWidth 64+BitVec.ofNat 64 (a-d.setWidth 64).toNat = a := by bv_omega
    rw [bytesAt_getElem? hin,had]
    split_ifs <;> rfl
  · rw [List.getElem?_eq_none (by rwa [length_bytesAt]),if_neg (by omega)]
    rfl

lemma own_eq (addr : U64) {size : ℕ} (h : 4 ≤ size) :
    DmaDesc.own ⟨bytesAt mem addr size⟩ = (mem (addr+3)).getLsbD 7 := by
  have hw : storeLe 4 (DmaDesc.word ⟨bytesAt mem addr size⟩ 0) = (bytesAt mem addr size).take 4 :=
    storeLe_word (by rwa [length_bytesAt])
  have ht := congrArg (·[3]?) hw
  simp only [getElem?_take,if_pos (show 3 < 4 by decide),bytesAt_getElem? (show 3 < size by omega)] at ht
  have hb : (DmaDesc.word ⟨bytesAt mem addr size⟩ 0 >>> 24).setWidth 8 = mem (addr+3) := Option.some.inj ht
  rw [← hb,getLsbD_setWidth,getLsbD_ushiftRight]
  rfl

variable (desc : DmaDesc)

lemma word_disown_zero : desc.disown.word 0 = desc.word 0 &&& ~~~(1#32 <<< 31) := by
  have hf : ((storeLe 4 (desc.word 0 &&& ~~~(1#32 <<< 31))++desc.bytes.drop 4).drop (4*0)).take 4 =
      storeLe 4 (desc.word 0 &&& ~~~(1#32 <<< 31)) := take_left' (length_storeLe ..)
  rw [DmaDesc.disown,DmaDesc.withWord0,DmaDesc.word,hf]
  exact loadLe_storeLe _ (by decide)

lemma word_disown_succ (i : ℕ) : desc.disown.word (i+1) = desc.word (i+1) := by
  have hr : (storeLe 4 (desc.word 0 &&& ~~~(1#32 <<< 31))++desc.bytes.drop 4).drop (4*(i+1)) =
      desc.bytes.drop (4*(i+1)) := by
    rw [show 4*(i+1) = 4+4*i by omega,← drop_drop,← drop_drop,drop_left' (length_storeLe ..)]
  rw [DmaDesc.disown,DmaDesc.withWord0,DmaDesc.word,hr]
  rfl

lemma moveToNextTxDesc_disown (s : Dwmac) : s.moveToNextTxDesc desc.disown = s.moveToNextTxDesc desc := by
  have hr : desc.disown.txEndRing = desc.txEndRing := by
    rw [DmaDesc.txEndRing,word_disown_zero,getLsbD_and]
    exact Bool.and_true _
  have hc : desc.disown.txChained = desc.txChained := by
    rw [DmaDesc.txChained,word_disown_zero,getLsbD_and]
    exact Bool.and_true _
  have hs : desc.disown.buffer2Size = desc.buffer2Size := by
    rfl
  have hd3 : desc.disown.des3 = desc.des3 := word_disown_succ desc 2
  rw [moveToNextTxDesc,moveToNextTxDesc,hr,hc,hs,hd3]

end

section
def Payload.append (bytes : List U8) (p : Payload) : Payload := fill p.size bytes { p with size := p.size+bytes.length }

lemma Payload.append_nil (p : Payload) : p.append [] = p := by
  simp [Payload.append,Payload.fill]

lemma Payload.append_append (p : Payload) (first rest : List U8) :
    (p.append first).append rest = p.append (first++rest) := by
  have hb : ((p.append first).append rest).buffer = (p.append (first++rest)).buffer := by
    funext i
    simp only [Payload.append,Payload.fill]
    rcases lt_or_ge i p.size with hbe | ha
    · rw [if_neg (by omega),if_neg (by omega),if_neg (by omega)]
    · rw [if_pos ha,if_pos ha]
      rcases lt_or_ge i (p.size+first.length) with hin | ho
      · rw [if_neg (by omega),getElem?_append_left (by omega)]
      · have hp : first.length ≤ i-p.size := by omega
        rw [if_pos ho,getElem?_append_right hp,List.getElem?_eq_none hp,getD_none,Nat.sub_sub]
  have hs : ((p.append first).append rest).size = (p.append (first++rest)).size := by
    simp only [Payload.append,Payload.fill,length_append,Nat.add_assoc]
  exact congrArg₂ Payload.mk hb hs

lemma Payload.data_append (p : Payload) (bytes : List U8) : (p.append bytes).data = p.data++bytes := by
  simp only [Payload.data,Payload.append,Payload.fill,range_add,map_append,List.map_map]
  refine congrArg₂ _ (map_congr_left fun i hi => if_neg (by simpa using hi)) ?_
  refine ext_getElem (by simp) fun i h _ => ?_
  have hi : i < bytes.length := by simpa using h
  simp [hi]

variable {s : Dwmac} {desc : DmaDesc}

lemma loadBuffer_size (desc : DmaDesc) (s : Dwmac) : s.loadBuffer s.txFrame.size desc =
    if s.txFrame.size+desc.buffer1Size ≤ Payload.capacity then
      .ok { s with txFrame := s.txFrame.append (s.busRead desc.des2 desc.buffer1Size) }
    else .error .exited := by
  rw [loadBuffer,Payload.resize]
  split_ifs
  · simp [Payload.append,busRead]
  · rfl

lemma DmaDesc.buffer1Size_le (desc : DmaDesc) : desc.buffer1Size ≤ Payload.capacity := by
  rw [DmaDesc.buffer1Size,Payload.capacity]
  omega

lemma loadBuffer_zero (desc : DmaDesc) (s : Dwmac) : s.loadBuffer 0 desc =
    .ok { s with txFrame := Payload.append (s.busRead desc.des2 desc.buffer1Size) ⟨s.txFrame.buffer,0⟩ } := by
  rw [loadBuffer,Payload.resize,if_pos (by simpa using desc.buffer1Size_le)]
  simp [Payload.append,busRead]

end

variable (d : U32) (s : Dwmac)

def txDescAt : DmaDesc := ⟨s.busRead d s.descSize⟩

def txNext : U32 := if (s.txDescAt d).txEndRing then s.txDescAddr
  else if (s.txDescAt d).txChained then (s.txDescAt d).des3 else s.strideFrom d

def segment : List U8 := s.busRead (s.txDescAt d).des2 (s.txDescAt d).buffer1Size

def frameBytes (f : List U32) (s : Dwmac) : List U8 := f.flatMap fun d => s.segment d

def SingleBuffer (d : U32) : Prop := (s.txDescAt d).txEndRing = false → (s.txDescAt d).txChained = false →
    (s.txDescAt d).buffer2Size = 0 ∧ (s.txDescAt d).des3 = 0

def ChecksumOff (d : U32) : Prop := s.configuration.getLsbD 10 = true → (s.txDescAt d).checksumInsertion = 0

/-- Descriptors that overlap neither each other nor their buffers. -/
structure Separate (s : Dwmac) (ds : List U32) : Prop where
  descs : ds.Pairwise fun d e => ∀ i < s.descSize, ∀ j < s.descSize,
    d.setWidth 64+BitVec.ofNat 64 i ≠ e.setWidth 64+BitVec.ofNat 64 j
  buffers : ∀ d ∈ ds, ∀ e ∈ ds, ∀ i < (s.txDescAt d).buffer1Size, ∀ j < s.descSize,
    (s.txDescAt d).des2.setWidth 64+BitVec.ofNat 64 i ≠ e.setWidth 64+BitVec.ofNat 64 j

/-- A frame in memory: owned descriptors from a first to a last segment, at least a header long. -/
structure TxFrame (s : Dwmac) (f : List U32) : Prop where
  first : ∃ d ∈ f.head?, (s.txDescAt d).firstSegment = true
  middle : ∀ d ∈ f.dropLast, (s.txDescAt d).lastSegment = false
  last : ∀ d ∈ f.getLast?, (s.txDescAt d).lastSegment = true
  own : ∀ d ∈ f, (s.txDescAt d).own = true
  single : ∀ d ∈ f, s.SingleBuffer d
  checksum : ∀ d ∈ f, s.ChecksumOff d
  size : 14 ≤ (s.frameBytes f).length

instance (s : Dwmac) (d : U32) : Decidable (s.SingleBuffer d) := inferInstanceAs (Decidable (_ → _ → _))

instance (s : Dwmac) (d : U32) : Decidable (s.ChecksumOff d) := inferInstanceAs (Decidable (_ → _))

-- The instances for quantifiers over all words, which would be found first, do not compute.
instance (s : Dwmac) (ds : List U32) : Decidable (s.Separate ds) :=
  have (d e : U32) : Decidable (∀ i < (s.txDescAt d).buffer1Size, ∀ j < s.descSize,
    (s.txDescAt d).des2.setWidth 64+BitVec.ofNat 64 i ≠ e.setWidth 64+BitVec.ofNat 64 j) := inferInstance
  have (d : U32) := decidableBAll (fun e => ∀ i < (s.txDescAt d).buffer1Size, ∀ j < s.descSize,
    (s.txDescAt d).des2.setWidth 64+BitVec.ofNat 64 i ≠ e.setWidth 64+BitVec.ofNat 64 j) ds
  have := decidableBAll (fun d => ∀ e ∈ ds, ∀ i < (s.txDescAt d).buffer1Size, ∀ j < s.descSize,
    (s.txDescAt d).des2.setWidth 64+BitVec.ofNat 64 i ≠ e.setWidth 64+BitVec.ofNat 64 j) ds
  decidable_of_iff (_ ∧ _) ⟨fun h => ⟨h.1,h.2⟩,fun h => ⟨h.descs,h.buffers⟩⟩

instance (s : Dwmac) (f : List U32) : Decidable (s.TxFrame f) :=
  have := decidableExistsMem (p := fun d => (s.txDescAt d).firstSegment = true) f.head?
  have := decidableBAll (fun d => (s.txDescAt d).lastSegment = false) f.dropLast
  have := decidableForallMem (p := fun d => (s.txDescAt d).lastSegment = true) f.getLast?
  have := decidableBAll (fun d => (s.txDescAt d).own = true) f
  have := decidableBAll (fun d => s.SingleBuffer d) f
  have := decidableBAll (fun d => s.ChecksumOff d) f
  decidable_of_iff (_ ∧ _ ∧ _ ∧ _ ∧ _ ∧ _ ∧ _)
    ⟨fun ⟨h1,h2,h3,h4,h5,h6,h7⟩ => ⟨h1,h2,h3,h4,h5,h6,h7⟩,
      fun h => ⟨h.first,h.middle,h.last,h.own,h.single,h.checksum,h.size⟩⟩

/-- Descriptors of a state that have been given back, with everything else that `tx` reads as it was. -/
structure TxProgress (s : Dwmac) (done : List U32) (t : Dwmac) : Prop where
  busMode : t.busMode = s.busMode
  txDescAddr : t.txDescAddr = s.txDescAddr
  configuration : t.configuration = s.configuration
  mem : t.mem = disowned s.mem done

lemma length_segment : (s.segment d).length = (s.txDescAt d).buffer1Size := length_bytesAt ..

lemma length_segment_le : (s.segment d).length ≤ Payload.capacity := by
  rw [length_segment]
  exact (s.txDescAt d).buffer1Size_le

def txReached (mem : U64 → U8) (done : List U32) (d : U32) (p : Payload) (t : Dwmac) : Dwmac :=
  { t with currentTxDesc := d, mem := disowned mem done, txFrame := p }

namespace TxProgress
variable {s t : Dwmac} {done rest : List U32} {d : U32}

section
variable (h : TxProgress s done t)
include h

lemma descSize : t.descSize = s.descSize := by
  rw [Dwmac.descSize,Dwmac.descSize,h.busMode]

section
variable (hs : Separate s (done++d::rest))
include hs

lemma txDescAt : t.txDescAt d = s.txDescAt d := by
  rw [Dwmac.txDescAt,Dwmac.txDescAt,h.descSize,busRead,busRead,h.mem]
  refine congrArg DmaDesc.mk (bytesAt_congr fun k hk => disowned_of_forall_ne fun e he => ?_)
  have hne := (pairwise_append.mp hs.descs).2.2 e he d (by simp) 3 (by have := four_le_descSize s; omega) k hk
  exact hne.symm

lemma segment : t.segment d = s.segment d := by
  rw [Dwmac.segment,Dwmac.segment,h.txDescAt hs,busRead,busRead,h.mem]
  refine bytesAt_congr fun k hk => disowned_of_forall_ne fun e he => ?_
  exact hs.buffers d (by simp) e (by simp [he]) k hk 3 (by have := four_le_descSize s; omega)

lemma disown :
    TxProgress s (done++[d]) (t.busWrite d (s.txDescAt d).disown.bytes) where
  busMode := h.busMode
  txDescAddr := h.txDescAddr
  configuration := h.configuration
  mem := by
    have hd : s.txDescAt d = ⟨bytesAt t.mem (d.setWidth 64) t.descSize⟩ := (h.txDescAt hs).symm
    rw [busWrite,hd,writeAt_disown t.mem d (four_le_descSize t),h.mem,disowned_disowned]

omit hs in
lemma txReached (done' : List U32) (d : U32) (p : Payload) :
    TxProgress s done' (t.txReached s.mem done' d p) :=
  ⟨h.busMode,h.txDescAddr,h.configuration,rfl⟩

omit hs in
lemma moveToNextTxDesc (hcu : t.currentTxDesc = d) (hsi : s.SingleBuffer d) :
    t.moveToNextTxDesc (s.txDescAt d) = .ok { t with currentTxDesc := s.txNext d } := by
  rw [Dwmac.moveToNextTxDesc,txNext,hcu,h.txDescAddr]
  have hst : t.strideFrom d = s.strideFrom d := by rw [strideFrom,strideFrom,h.descSize,dsl,dsl,h.busMode]
  rw [hst]
  split_ifs with hr hc hs
  · rfl
  · rfl
  · have hn := hsi (by simpa using hr) (by simpa using hc)
    simp [hn] at hs
  · rfl

lemma loadBuffer :
    t.loadBuffer t.txFrame.size (s.txDescAt d) = if t.txFrame.size+(s.segment d).length ≤ Payload.capacity then
        .ok { t with txFrame := t.txFrame.append (s.segment d) }
      else .error .exited := by
  rw [loadBuffer_size,length_segment,← h.segment hs,Dwmac.segment,h.txDescAt hs]

end

end

end TxProgress

section
variable {s t : Dwmac} {done rest f : List U32} {d : U32} {n : ℕ}

lemma frameBytes_cons (d : U32) (f : List U32) (s : Dwmac) : s.frameBytes (d::f) = s.segment d++s.frameBytes f := rfl

lemma txSegments_turn {e : U32} (hse : Separate s (done++d::e::rest)) (hn : s.txNext d = e)
    (ho : (s.txDescAt e).own = true) (hsi : s.SingleBuffer d) (hm : (s.txDescAt d).lastSegment = false)
    (hs : TxProgress s done t) (hc : t.currentTxDesc = d) : txSegments (n+1) (s.txDescAt d) t =
      if t.txFrame.size+(s.segment e).length ≤ Payload.capacity then
        txSegments n (s.txDescAt e) (t.txReached s.mem (done++[d]) e (t.txFrame.append (s.segment e)))
      else .error .exited := by
  have hse' : Separate s ((done++[d])++e::rest) := by simpa using hse
  have hb : TxProgress s (done++[d]) (t.txReached s.mem (done++[d]) e t.txFrame) := hs.txReached _ _ _
  have hw : ({ t with currentTxDesc := e } : Dwmac).busWrite d (s.txDescAt d).disown.bytes =
      t.txReached s.mem (done++[d]) e t.txFrame := by
    have hme := (hs.disown hse).mem
    rw [txReached,← hme]
    rfl
  have hr : (t.txReached s.mem (done++[d]) e t.txFrame).readTxDesc = s.txDescAt e := hb.txDescAt hse'
  rw [txSegments,if_neg (by simp [hm]),hs.moveToNextTxDesc hc hsi,hn,hc]
  simp only [Except.bind,hw,hr]
  rw [if_neg (by simp [ho]),hb.loadBuffer hse']
  have hsz : (t.txReached s.mem (done++[d]) e t.txFrame).txFrame.size = t.txFrame.size := rfl
  rw [hsz]
  split_ifs <;> rfl

/-- The loop of `tx` gives back the descriptors but the last and joins the buffers, unless the frame gets too long. -/
lemma txSegments_frame (hse : Separate s (done++d::(f++rest)))
    (hc : List.IsChain (fun d e => s.txNext d = e) (d::f)) (ho : ∀ e ∈ f, (s.txDescAt e).own = true)
    (hsi : ∀ e ∈ d::f, s.SingleBuffer e) (hm : ∀ e ∈ (d::f).dropLast, (s.txDescAt e).lastSegment = false)
    (hl : (s.txDescAt (f.getLastD d)).lastSegment = true) (hs : TxProgress s done t) (hcu : t.currentTxDesc = d)
    (hn : f.length < n) (hsz : t.txFrame.size ≤ Payload.capacity) : txSegments n (s.txDescAt d) t =
      if t.txFrame.size+(s.frameBytes f).length ≤ Payload.capacity then
        .ok (s.txDescAt (f.getLastD d),
          t.txReached s.mem (done++(d::f).dropLast) (f.getLastD d) (t.txFrame.append (s.frameBytes f)))
      else .error .exited := by
  induction f generalizing d done t n with
  | nil =>
    obtain ⟨n,rfl⟩ : ∃ m, n = m+1 := ⟨n-1,by omega⟩
    have hme : disowned s.mem (done++([d] : List U32).dropLast) = t.mem := by simp [hs.mem]
    have hf : t.txFrame.size+(s.frameBytes []).length ≤ Payload.capacity := hsz
    rw [txSegments,if_pos (show (s.txDescAt d).lastSegment = true from hl),if_pos hf,txReached,hme]
    simp [frameBytes,flatMap_nil,Payload.append_nil,← hcu]
  | cons e f ih =>
    obtain ⟨n,rfl⟩ : ∃ m, n = m+1 := ⟨n-1,by omega⟩
    obtain ⟨hne,hc⟩ := isChain_cons_cons.mp hc
    rw [getLastD_cons] at hl
    rw [txSegments_turn hse hne (ho e (by simp)) (hsi d (by simp)) (hm d (by simp)) hs hcu]
    have hse' : Separate s ((done++[d])++e::(f++rest)) := by simpa using hse
    have hle : (s.frameBytes (e::f)).length = (s.segment e).length+(s.frameBytes f).length := by
      rw [frameBytes_cons,length_append]
    by_cases hf : t.txFrame.size+(s.segment e).length ≤ Payload.capacity
    · have hr : TxProgress s (done++[d]) (t.txReached s.mem (done++[d]) e (t.txFrame.append (s.segment e))) :=
        hs.txReached _ _ _
      rw [if_pos hf,ih hse' hc (fun e he => ho e (by simp [he])) (fun e he => hsi e (by simp [he]))
        (fun e he => hm e (by simp [he])) hl hr rfl (by simpa using hn) hf]
      have hsu : (t.txReached s.mem (done++[d]) e (t.txFrame.append (s.segment e))).txFrame.size+
          (s.frameBytes f).length = t.txFrame.size+(s.frameBytes (e::f)).length := by
        rw [hle,← Nat.add_assoc]
        rfl
      have hd : done++[d]++(e::f).dropLast = done++(d::e::f).dropLast := by simp
      have hfr : (t.txFrame.append (s.segment e)).append (s.frameBytes f) = t.txFrame.append (s.frameBytes (e::f)) :=
        Payload.append_append ..
      rw [hsu,getLastD_cons,← hd,← hfr]
      rfl
    · rw [if_neg hf,if_neg (by omega)]

/-- What a call of `tx` that sends a frame leaves. -/
structure FrameSent (s : Dwmac) (done : List U32) (next : U32) (bytes : List U8) (t t' : Dwmac) : Prop where
  progress : TxProgress s done t'
  current : t'.currentTxDesc = next
  sent : t'.sent = t.sent++[bytes]
  suspended : t'.intr.getTxState = .suspended

lemma txClose_frame (hsp : Separate s (done++d::rest)) (hsi : s.SingleBuffer d) (hc : s.ChecksumOff d)
    (hs : TxProgress s done t) (hcu : t.currentTxDesc = d) (hsz : 14 ≤ t.txFrame.size) :
    ∃ t', t.txClose (s.txDescAt d) = .ok (true,t') ∧ FrameSent s (done++[d]) (s.txNext d) t.txFrame.data t t' := by
  have hf : t.checksummed (s.txDescAt d) = t.txFrame := by
    rw [checksummed,if_neg]
    rintro ⟨hco,hi⟩
    exact hi (hc (hs.configuration ▸ hco))
  have hse : TxProgress s done ((t.sendFrame (s.txDescAt d)).setTxState .closing) :=
    ⟨hs.busMode,hs.txDescAddr,hs.configuration,hs.mem⟩
  have hb := hse.disown hsp
  have hm := hb.moveToNextTxDesc hcu hsi
  have hcl : t.txClose (s.txDescAt d) = .ok (true,Dwmac.txDone (s.txDescAt d)
      { ((t.sendFrame (s.txDescAt d)).setTxState .closing).busWrite d (s.txDescAt d).disown.bytes with
        currentTxDesc := s.txNext d }) := by
    have hh : ((t.sendFrame (s.txDescAt d)).setTxState .closing).currentTxDesc = d := hcu
    rw [txClose,if_neg (by omega)]
    simp [moveToNextTxDesc_disown,hh,hm,Except.bind]
  refine ⟨_,hcl,?_⟩
  have hd : ∀ u : Dwmac, TxProgress s (done++[d]) u → TxProgress s (done++[d]) (u.txDone (s.txDescAt d)) := by
    intro u hu
    rw [txDone]
    split_ifs <;> exact ⟨hu.busMode,hu.txDescAddr,hu.configuration,hu.mem⟩
  refine ⟨hd _ ⟨hb.busMode,hb.txDescAddr,hb.configuration,hb.mem⟩,?_,?_,?_⟩
  · rw [txDone]
    split_ifs <;> rfl
  · rw [← hf,txDone]
    split_ifs <;> rfl
  · rw [txDone]
    split_ifs <;> rfl

def txLoaded (bytes : List U8) (t : Dwmac) : Dwmac :=
  { (t.setTxState .fetching).setTxState .reading with txFrame := Payload.append bytes ⟨t.txFrame.buffer,0⟩ }

lemma tx_eq (hse : Separate s (done++d::rest)) (ho : (s.txDescAt d).own = true)
    (hf : (s.txDescAt d).firstSegment = true) (hs : TxProgress s done t) (hc : t.currentTxDesc = d)
    (hsu : t.intr.getTxState = .suspended) (n : ℕ) :
    t.tx n = (txSegments n (s.txDescAt d) (t.txLoaded (s.segment d))).bind fun (desc,t) => t.txClose desc := by
  have hr : (t.setTxState .fetching).readTxDesc = s.txDescAt d := by
    have hd : (t.setTxState .fetching).readTxDesc = t.txDescAt t.currentTxDesc := rfl
    rw [hd,hc,hs.txDescAt hse]
  have hb : ((t.setTxState .fetching).setTxState .reading).busRead (s.txDescAt d).des2 (s.txDescAt d).buffer1Size =
      s.segment d := by
    rw [← hs.segment hse,segment,hs.txDescAt hse]
    rfl
  rw [tx,if_neg (by simp [hsu]),txFetch,hr,if_neg (by simp [ho]),if_neg (by simp [hf]),loadBuffer_zero,hb]
  rfl

lemma getLast?_cons (d : U32) (f : List U32) : (d::f).getLast? = some (f.getLastD d) := by
  rw [getLast?_eq_some_getLast (cons_ne_nil d f),getLast_eq_getLastD]

lemma dropLast_append_last (d : U32) (f : List U32) : (d::f).dropLast++[f.getLastD d] = d::f := by
  rw [← getLast_eq_getLastD (cons_ne_nil d f)]
  exact dropLast_append_getLast _

end

section
variable {s t : Dwmac} {done f : List U32} {frames : List (List U32)} {d stop : U32}

lemma txAll_stops (ho : t.readTxDesc.own = false) (hs : t.intr.getTxState = .suspended) (k n : ℕ) :
    t.txAll (k+1) n =
      .ok (((t.setTxState .fetching).setTxState .suspended).interruptsFire txBufUnavailable) := by
  have htx : t.tx n = .ok (false,((t.setTxState .fetching).setTxState .suspended).interruptsFire txBufUnavailable) := by
    have hr : (t.setTxState .fetching).readTxDesc.own = false := ho
    rw [tx,if_neg (by simp [hs]),txFetch,if_pos (by simp [hr])]
  rw [txAll,htx]
  rfl

lemma TxFrame.ne_nil (hf : s.TxFrame f) : f ≠ [] := by
  rintro rfl
  simpa using hf.first

lemma exists_next (frames : List (List U32)) (stop : U32) : ∃ next more, frames.flatten++[stop] = next::more := by
  cases h : frames.flatten with
  | nil => exact ⟨stop,[],rfl⟩
  | cons d ds => exact ⟨d,ds++[stop],rfl⟩

/-- Between two calls of `tx`: descriptors given back, frames that follow, and the one after them. -/
structure TxRun (s : Dwmac) (done : List U32) (frames : List (List U32)) (stop : U32) (t : Dwmac) : Prop where
  whole : ∀ f ∈ frames, s.TxFrame f
  separate : Separate s (done++frames.flatten)
  chain : List.IsChain (fun d e => s.txNext d = e) (frames.flatten++[stop])
  progress : TxProgress s done t
  current : (frames.flatten++[stop]).head? = some t.currentTxDesc
  suspended : t.intr.getTxState = .suspended

lemma TxRun.tx_eq (h : TxRun s done ((d::f)::frames) stop t) {n : ℕ} (hn : (d::f).length ≤ n) :
    t.tx n = if (s.frameBytes (d::f)).length ≤ Payload.capacity then
        ((t.txLoaded (s.segment d)).txReached s.mem (done++(d::f).dropLast) (f.getLastD d)
          (Payload.append (s.frameBytes (d::f)) ⟨t.txFrame.buffer,0⟩)).txClose (s.txDescAt (f.getLastD d))
      else .error .exited := by
  have hf := h.whole _ mem_cons_self
  have hs := h.progress
  have hcu := (Option.some.inj h.current).symm
  have hc := (isChain_append.mp (isChain_append.mp h.chain).1).1
  have hfi : (s.txDescAt d).firstSegment = true := by simpa using hf.first
  have hlo : TxProgress s done (t.txLoaded (s.segment d)) := ⟨hs.busMode,hs.txDescAddr,hs.configuration,hs.mem⟩
  have hsi : (t.txLoaded (s.segment d)).txFrame.size = (s.segment d).length := Nat.zero_add _
  have hl : (s.frameBytes (d::f)).length = (s.segment d).length+(s.frameBytes f).length := by
    rw [frameBytes_cons,length_append]
  have hfr : (t.txLoaded (s.segment d)).txFrame.append (s.frameBytes f) =
      Payload.append (s.frameBytes (d::f)) ⟨t.txFrame.buffer,0⟩ := Payload.append_append ..
  rw [Dwmac.tx_eq h.separate (hf.own d (by simp)) hfi hs hcu h.suspended,txSegments_frame h.separate hc
    (fun e he => hf.own e (by simp [he])) hf.single hf.middle (hf.last _ (getLast?_cons d f)) hlo hcu
    (by simpa using hn) (by rw [hsi]; exact length_segment_le d s),hsi,← hl,hfr]
  split_ifs <;> simp only [Except.bind]

lemma TxRun.sent (h : TxRun s done (f::frames) stop t) (hfi : (s.frameBytes f).length ≤ Payload.capacity) :
    ∃ u, (∀ k n, f.length ≤ n → t.txAll (k+1) n = u.txAll k n) ∧ TxRun s (done++f) frames stop u ∧
      u.sent = t.sent++[s.frameBytes f] := by
  have hf := h.whole f mem_cons_self
  have hs := h.progress
  obtain ⟨d,f,rfl⟩ := exists_cons_of_ne_nil hf.ne_nil
  obtain ⟨next,more,hne⟩ := exists_next frames stop
  have hc := h.chain
  have hsp := h.separate
  rw [flatten_cons,List.append_assoc,hne,isChain_split] at hc
  have hm := (isChain_append.mp hc.1).2.2 _ (getLast?_cons d f) next rfl
  have hl := mem_of_getLast? (getLast?_cons d f)
  have hlo : TxProgress s done (t.txLoaded (s.segment d)) := ⟨hs.busMode,hs.txDescAddr,hs.configuration,hs.mem⟩
  have hr := hlo.txReached (done++(d::f).dropLast) (f.getLastD d)
    (Payload.append (s.frameBytes (d::f)) ⟨t.txFrame.buffer,0⟩)
  have hsp' : Separate s ((done++(d::f).dropLast)++f.getLastD d::frames.flatten) := by
    rw [← dropLast_append_last d f] at hsp
    simpa using hsp
  have hd : Payload.data (Payload.append (s.frameBytes (d::f)) ⟨t.txFrame.buffer,0⟩) = s.frameBytes (d::f) :=
    Payload.data_append ..
  obtain ⟨u,hcl,hse⟩ := txClose_frame hsp' (hf.single _ hl) (hf.checksum _ hl) hr rfl
    (hf.size.trans_eq (Nat.zero_add _).symm)
  rw [List.append_assoc,dropLast_append_last,hm] at hse
  refine ⟨u,fun k n hn => ?_,?_,?_⟩
  · rw [txAll,h.tx_eq hn,if_pos hfi,hcl]
    rfl
  · exact
      { whole := fun f hf => h.whole f (by simp [hf])
        separate := by rwa [List.append_assoc]
        chain := hne ▸ hc.2
        progress := hse.progress
        current := by
          rw [hne,hse.current]
          rfl
        suspended := hse.suspended }
  · rw [← hd]
    exact hse.sent

lemma TxRun.exits (h : TxRun s done (f::frames) stop t) (hl : ¬(s.frameBytes f).length ≤ Payload.capacity)
    {k n : ℕ} (hn : f.length ≤ n) : t.txAll (k+1) n = .error .exited := by
  obtain ⟨d,f,rfl⟩ := exists_cons_of_ne_nil (h.whole f mem_cons_self).ne_nil
  rw [txAll,h.tx_eq hn,if_neg hl]
  rfl

/-- Frames that are not too long are all sent in order, and the last call stops behind them. -/
lemma txAll_frames (h : TxRun s done frames stop t)
    (hst : ∀ u, TxProgress s (done++frames.flatten) u → (u.txDescAt stop).own = false)
    (hfi : ∀ f ∈ frames, (s.frameBytes f).length ≤ Payload.capacity) :
    ∃ t', (∀ k n, frames.length < k → (∀ f ∈ frames, f.length ≤ n) → t.txAll k n = .ok t') ∧
      TxProgress s (done++frames.flatten) t' ∧ t'.currentTxDesc = stop ∧
      t'.sent = t.sent++frames.map fun f => s.frameBytes f := by
  induction frames generalizing done t with
  | nil =>
    have hs := h.progress
    have hcu := (Option.some.inj h.current).symm
    have hd : done++([] : List (List U32)).flatten = done := List.append_nil done
    rw [hd] at hst ⊢
    have ho : t.readTxDesc.own = false := by
      have hr : t.readTxDesc = t.txDescAt t.currentTxDesc := rfl
      rw [hr,hcu]
      exact hst t hs
    refine ⟨((t.setTxState .fetching).setTxState .suspended).interruptsFire txBufUnavailable,fun k n hk _ => ?_,
      ⟨hs.busMode,hs.txDescAddr,hs.configuration,hs.mem⟩,hcu,(List.append_nil _).symm⟩
    obtain ⟨k,rfl⟩ : ∃ m, k = m+1 := ⟨k-1,by simp at hk; omega⟩
    exact txAll_stops ho h.suspended k n
  | cons f frames ih =>
    obtain ⟨u,htx,hu,hse⟩ := h.sent (hfi f (by simp))
    rw [flatten_cons,← List.append_assoc] at hst ⊢
    obtain ⟨t',ha,hp,hc,hm⟩ := ih hu hst fun f hf => hfi f (by simp [hf])
    refine ⟨t',fun k n hk hn => ?_,hp,hc,?_⟩
    · obtain ⟨k,rfl⟩ : ∃ m, k = m+1 := ⟨k-1,by simp at hk; omega⟩
      rw [htx k n (hn f (by simp))]
      exact ha k n (by simpa using hk) fun f hf => hn f (by simp [hf])
    · rw [hm,hse,List.append_assoc]
      rfl

/-- A frame that is too long ends the simulation when its turn comes. -/
lemma txAll_exits (h : TxRun s done frames stop t)
    (hl : ∃ f ∈ frames, ¬(s.frameBytes f).length ≤ Payload.capacity) {k n : ℕ} (hk : frames.length < k)
    (hn : ∀ f ∈ frames, f.length ≤ n) : t.txAll k n = .error .exited := by
  induction frames generalizing done t k with
  | nil =>
    obtain ⟨f,hf,-⟩ := hl
    cases hf
  | cons f frames ih =>
    obtain ⟨k,rfl⟩ : ∃ m, k = m+1 := ⟨k-1,by simp at hk; omega⟩
    by_cases hfi : (s.frameBytes f).length ≤ Payload.capacity
    · obtain ⟨u,htx,hu,-⟩ := h.sent hfi
      have hla : ∃ f ∈ frames, ¬(s.frameBytes f).length ≤ Payload.capacity := by
        obtain ⟨g,hg,hl⟩ := hl
        rcases mem_cons.mp hg with rfl | hg
        · exact absurd hfi hl
        · exact ⟨g,hg,hl⟩
      rw [htx k n (hn f (by simp))]
      exact ih hu hla (by simpa using hk) fun f hf => hn f (by simp [hf])
    · exact h.exits hfi (hn f (by simp))

/-- A well-formed ring or chain: a cycle that begins with whole frames, then one descriptor that is not owned, if any.
-/
structure TxRing (s : Dwmac) (frames : List (List U32)) (rest : List U32) : Prop where
  started : s.intr.getTxState = .suspended
  current : (frames.flatten++rest).head? = some s.currentTxDesc
  cycle : List.IsChain (fun d e => s.txNext d = e) (frames.flatten++rest++[s.currentTxDesc])
  separate : s.Separate frames.flatten
  frames : ∀ f ∈ frames, s.TxFrame f
  stop : ∀ d ∈ rest.head?, (s.txDescAt d).own = false

instance (s : Dwmac) (frames : List (List U32)) (rest : List U32) : Decidable (s.TxRing frames rest) :=
  have := decidableForallMem (p := fun d => (s.txDescAt d).own = false) rest.head?
  decidable_of_iff (_ ∧ _ ∧ _ ∧ _ ∧ _ ∧ _)
    ⟨fun ⟨h1,h2,h3,h4,h5,h6⟩ => ⟨h1,h2,h3,h4,h5,h6⟩,fun h => ⟨h.started,h.current,h.cycle,h.separate,h.frames,h.stop⟩⟩

/-- `tx`, called until it returns false, sends the frames, clears only their own bits, and stops at the next
descriptor, which is not owned. -/
def SendsRing (s : Dwmac) (frames : List (List U32)) (rest : List U32) : Prop :=
  ∃ t : Dwmac, (∀ k n, frames.length < k → (∀ f ∈ frames, f.length ≤ n) → s.txAll k n = .ok t) ∧
    (t.sent = s.sent++frames.map fun f => s.frameBytes f) ∧ t.mem = disowned s.mem frames.flatten ∧
    (rest++frames.flatten).head? = some t.currentTxDesc ∧ t.readTxDesc.own = false

variable {rest : List U32}

lemma TxRing.exists_stop (ring : s.TxRing frames rest) : ∃ stop : U32,
    (rest++frames.flatten).head? = some stop ∧ TxRun s [] frames stop s ∧
      (stop ∈ frames.flatten ∨ (s.txDescAt stop).own = false) := by
  have hcy := ring.cycle
  have hc := ring.current
  have hs : TxProgress s [] s := ⟨rfl,rfl,rfl,(disowned_nil s.mem).symm⟩
  cases rest with
  | nil =>
    rw [List.append_nil] at hcy hc
    refine ⟨s.currentTxDesc,hc,⟨ring.frames,ring.separate,hcy,hs,?_,ring.started⟩,.inl (mem_of_mem_head? hc)⟩
    rw [head?_append,hc]
    rfl
  | cons d rest =>
    rw [List.append_assoc,List.cons_append,isChain_split] at hcy
    refine ⟨d,rfl,⟨ring.frames,ring.separate,hcy.1,hs,?_,ring.started⟩,.inr (ring.stop d rfl)⟩
    rw [← hc,head?_append,head?_append]
    rfl

lemma own_of_disowned (h : stop ∈ done ∨ (s.txDescAt stop).own = false) (ht : TxProgress s done t) :
    (t.txDescAt stop).own = false := by
  have ho : ∀ u : Dwmac, (u.txDescAt stop).own = (u.mem (stop.setWidth 64+3)).getLsbD 7 := fun u =>
    own_eq u.mem _ (four_le_descSize u)
  rw [ho] at h ⊢
  rw [ht.mem,disowned]
  split_ifs with hd
  · rw [getLsbD_and]
    exact Bool.and_false _
  · rcases h with hm | hf
    · exact absurd (List.mem_map_of_mem hm) hd
    · exact hf

lemma TxRing.exits (ring : s.TxRing frames rest) (hl : ∃ f ∈ frames, ¬(s.frameBytes f).length ≤ Payload.capacity)
    {k n : ℕ} (hk : frames.length < k) (hn : ∀ f ∈ frames, f.length ≤ n) : s.txAll k n = .error .exited := by
  obtain ⟨stop,-,hr,-⟩ := ring.exists_stop
  exact txAll_exits hr hl hk hn

lemma TxRing.sends (ring : s.TxRing frames rest) (hf : ∀ f ∈ frames, (s.frameBytes f).length ≤ Payload.capacity) :
    s.SendsRing frames rest := by
  obtain ⟨stop,hh,hru,hs⟩ := ring.exists_stop
  obtain ⟨t,ha,hp,hc,hse⟩ := txAll_frames hru (fun u hu => own_of_disowned hs hu) hf
  refine ⟨t,ha,hse,hp.mem,by rw [hh,hc],?_⟩
  have hr : t.readTxDesc = t.txDescAt t.currentTxDesc := rfl
  rw [hr,hc]
  exact own_of_disowned hs hp

/-- A well-formed ring is sent exactly when each of its frames fits in the frame buffer. -/
theorem txRing_sends_iff (s : Dwmac) (frames : List (List U32)) (rest : List U32) (ring : s.TxRing frames rest) :
    s.SendsRing frames rest ↔ ∀ f ∈ frames, (s.frameBytes f).length ≤ Payload.capacity := by
  refine ⟨?_,ring.sends⟩
  rintro ⟨t,ha,-⟩
  by_contra hfi
  have hl : ∃ f ∈ frames, ¬(s.frameBytes f).length ≤ Payload.capacity := by
    simpa only [not_forall,exists_prop] using hfi
  have ht : ∀ f ∈ frames, f.length ≤ frames.flatten.length := fun f hf => (sublist_flatten_of_mem hf).length_le
  have hok := ha (frames.length+1) frames.flatten.length (by omega) ht
  rw [ring.exits hl (by omega) ht] at hok
  cases hok

end

lemma separate_of_intervals {s : Dwmac} {ds : List U32}
    (hds : ds.Pairwise fun d e => d.toNat+s.descSize ≤ e.toNat ∨ e.toNat+s.descSize ≤ d.toNat)
    (hb : ∀ d ∈ ds, ∀ e ∈ ds, (s.txDescAt d).des2.toNat+(s.txDescAt d).buffer1Size ≤ e.toNat ∨
      e.toNat+s.descSize ≤ (s.txDescAt d).des2.toNat) : s.Separate ds := by
  have hdc : s.descSize ≤ 32 := by
    rw [descSize]
    split_ifs <;> omega
  have ha : ∀ (a : U32) (i : ℕ), i < 2^32 → (a.setWidth 64+BitVec.ofNat 64 i).toNat = a.toNat+i := by
    intro a i hi
    bv_omega
  have hne : ∀ (a b : U32) (i j : ℕ), i < 2^32 → j < 2^32 → a.toNat+i ≠ b.toNat+j →
      a.setWidth 64+BitVec.ofNat 64 i ≠ b.setWidth 64+BitVec.ofNat 64 j := by
    intro a b i j hi hj hij heq
    have hn := congrArg BitVec.toNat heq
    rw [ha a i hi,ha b j hj] at hn
    exact hij hn
  constructor
  · refine hds.imp fun {d e} hde i hi j hj => hne d e i j (by omega) (by omega) ?_
    omega
  · intro d hd e he i hi j hj
    have hs := (s.txDescAt d).buffer1Size_le
    rw [Payload.capacity] at hs
    have hde := hb d hd e he
    exact hne _ e i j (by omega) (by omega) (by omega)

def sampleTxMemory (words : List U32) : U64 → U8 := fun a =>
  (words.flatMap (storeLe 4))[a.toNat]?.getD (a.setWidth 8)

def sampleTx (words : List U32) : Dwmac := step { mem := sampleTxMemory words } (.write 0x1018 0x2000)

def sampleRing : Dwmac := sampleTx
  [0x90000000,8,0x100,0,0xA0000000,8,0x110,0,0xB0000000,14,0x120,0,0x00200000,0,0,0]

/-- Both frames are sent, and the ring stops at its last descriptor. -/
theorem txRing_sends_sample :
    sampleRing.TxRing [[0,0x10],[0x20]] [0x30] ∧ sampleRing.SendsRing [[0,0x10],[0x20]] [0x30] := by
  have ring : sampleRing.TxRing [[0,0x10],[0x20]] [0x30] := by decide +kernel
  exact ⟨ring,(txRing_sends_iff _ _ _ ring).mpr (by decide +kernel)⟩

def longRing : Dwmac := sampleTx [0x90000000,0x1FFF,0x100,0,0xA0200000,1000,0x100,0]

lemma longRing_length : (longRing.frameBytes [0,0x10]).length = 9191 := by
  have hf : (longRing.txDescAt 0#32).buffer1Size = 8191 := by decide +kernel
  have hs : (longRing.txDescAt 16#32).buffer1Size = 1000 := by decide +kernel
  simp [frameBytes,length_segment,hf,hs]

lemma longRing_separate : longRing.Separate [0,0x10] := by
  have hf : (longRing.txDescAt 0#32).des2 = 0x100 := by decide +kernel
  have hs : (longRing.txDescAt 16#32).des2 = 0x100 := by decide +kernel
  have hsi : longRing.descSize = 16 := by decide +kernel
  refine separate_of_intervals (by decide +kernel) ?_
  simp [hf,hs,hsi]

lemma longRing_ring : longRing.TxRing [[0,0x10]] [] where
  started := by decide +kernel
  current := by decide +kernel
  cycle := by decide +kernel
  separate := longRing_separate
  frames := forall_mem_singleton.mpr
    { first := ⟨0,rfl,by decide +kernel⟩
      middle := forall_mem_singleton.mpr (by decide +kernel)
      last := fun d hd => by
        obtain rfl : (0x10 : U32) = d := Option.some.inj hd
        decide +kernel
      own := forall_mem_cons.mpr ⟨by decide +kernel,forall_mem_singleton.mpr (by decide +kernel)⟩
      single := forall_mem_cons.mpr ⟨by decide +kernel,forall_mem_singleton.mpr (by decide +kernel)⟩
      checksum := forall_mem_cons.mpr ⟨by decide +kernel,forall_mem_singleton.mpr (by decide +kernel)⟩
      size := by
        rw [longRing_length]
        decide }
  stop := by simp

/-- A frame of 9191 bytes does not fit in the frame buffer, and nothing is sent. -/
theorem long_frame_exits : longRing.TxRing [[0,0x10]] [] ∧ longRing.txAll 2 2 = .error .exited ∧
    ¬longRing.SendsRing [[0,0x10]] [] := by
  have hl : ∃ f ∈ [[0,0x10]], ¬(longRing.frameBytes f).length ≤ Payload.capacity :=
    ⟨[0,0x10],by simp,by rw [longRing_length]; decide⟩
  have he : longRing.txAll 2 2 = .error .exited := longRing_ring.exits hl (by decide) (by simp)
  refine ⟨longRing_ring,he,?_⟩
  rintro ⟨t,ha,-⟩
  rw [ha 2 2 (by decide) (by simp)] at he
  cases he

end Qbox.Dwmac
