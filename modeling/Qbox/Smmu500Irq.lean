import Qbox.Smmu500Grants

/-! The context interrupt lines of the SMMU-500 against the registers they stand for, over runs of register writes,
translations and resets. -/
namespace Qbox.Smmu500
open MachineWord DmaSocket List Function

variable {M : Type}

/-- The level the registers of a bank ask of its line: `FSR.TF` and `SCTLR.CFIE`. -/
def ctxLevel (s : Smmu500 M) (cb : ℕ) : Bool := bit32 (s.faults cb).fsr 1 && bit32 (s.banks cb).sctlr 6

def CtxLinesFollow (s : Smmu500 M) : Prop := ∀ cb < s.numCb, s.irqContext cb = s.ctxLevel cb

instance (s : Smmu500 M) : Decidable s.CtxLinesFollow := inferInstanceAs (Decidable (∀ cb < s.numCb, _))

/-- A write of `SCTLR` of a bank; it has no callback. -/
def writeSctlr (cb : ℕ) (v : U32) (s : Smmu500 M) : Smmu500 M :=
  { s with banks := Function.update s.banks cb { s.banks cb with sctlr := v } }

/-- A write of `FSR` of a bank; the callback updates the lines of all banks. -/
def writeFsr (cb : ℕ) (v : U32) (s : Smmu500 M) : Smmu500 M :=
  let s := { s with faults := Function.update s.faults cb { s.faults cb with fsr := v } }
  if cb < s.numCb then (List.range s.numCb).foldl (fun s i => smmu500UpdateCtxIrq i s) s else s

variable (image : Smmu500 M)

/-- The callback of `reset`: the registers are loaded from the image. No line is written. -/
def reset (value : Bool) (s : Smmu500 M) : Smmu500 M :=
  if value then { image with pamax := s.pamax, numCb := s.numCb, irqContext := s.irqContext, dma := s.dma } else s

def powerOn : Smmu500 M := { image with irqContext := fun _ => false }

inductive CtxAction (M : Type) where
  | writeSctlr (cb : ℕ) (v : U32)
  | writeFsr (cb : ℕ) (v : U32)
  /-- A write of the upper half of an ATS register, with what it asks for. -/
  | writeGats (v : U64) (wr s2 : Bool)
  | translate (addr : U64) (cmd : TlmCommand) (sid : U64)
  | reset (value : Bool)
  /-- Writes of other registers, and memory that changes. -/
  | other (t : Smmu500 M)

def withOthers (t s : Smmu500 M) : Smmu500 M := { t with
    numCb := s.numCb
    banks := fun cb => { t.banks cb with sctlr := (s.banks cb).sctlr }
    faults := fun cb => { t.faults cb with fsr := (s.faults cb).fsr }
    irqContext := s.irqContext }

/-- `CFIE` changes only while `TF` is clear, and reset comes only while every line is asked what it is asked after. -/
def KeepsCtxLevels (s : Smmu500 M) : CtxAction M → Prop
  | .writeSctlr cb v => cb < s.numCb → bit32 (s.faults cb).fsr 1 = true → bit32 v 6 = bit32 (s.banks cb).sctlr 6
  | .reset value => value = true → ∀ cb < s.numCb, image.ctxLevel cb = s.ctxLevel cb
  | .writeFsr _ _ | .writeGats _ _ _ | .translate _ _ _ | .other _ => True

/-- The bank that the stage-2 walks of a bank are made on. -/
def s2Bank (banks : ℕ → ContextBank) (cb : ℕ) : ℕ := (walkReq banks cb 0 false).s2Cb

/-- The banks that an action can report a fault for have a line. -/
def BanksHaveLines (s : Smmu500 M) : CtxAction M → Prop
  | .writeGats v _ _ => (v &&& addrmask).toNat < s.numCb ∧ s2Bank s.banks (v &&& addrmask).toNat < s.numCb
  | .translate addr _ sid => ∀ cb ∈ smmu500StreamIdMatch (masterId addr sid) s, s2Bank s.banks cb < s.numCb
  | .writeSctlr _ _ | .writeFsr _ _ | .reset _ | .other _ => True

variable {s s' s'' : Smmu500 M} {W : ℕ → Prop} {cb : ℕ}

/-- Lines of the banks `W` may have been written with the level asked for; the others are as they were. -/
def LinesWritten (W : ℕ → Prop) (s s' : Smmu500 M) : Prop :=
  s'.numCb = s.numCb ∧ s'.banks = s.banks ∧ ∀ cb, W cb ∧ s'.irqContext cb = s'.ctxLevel cb ∨
    s'.irqContext cb = s.irqContext cb ∧ s'.ctxLevel cb = s.ctxLevel cb

lemma LinesWritten.refl (W : ℕ → Prop) (s : Smmu500 M) : LinesWritten W s s := ⟨rfl,rfl,fun _ => .inr ⟨rfl,rfl⟩⟩

lemma LinesWritten.trans (h1 : LinesWritten W s s') (h2 : LinesWritten W s' s'') : LinesWritten W s s'' := by
  refine ⟨h2.1.trans h1.1,h2.2.1.trans h1.2.1,fun cb => ?_⟩
  rcases h2.2.2 cb with hn | ⟨hi,hl⟩
  · exact .inl hn
  · rw [hi,hl]
    exact h1.2.2 cb

lemma LinesWritten.follows (h : LinesWritten W s s') (hs : s.CtxLinesFollow) : s'.CtxLinesFollow := by
  intro cb hcb
  rw [h.1] at hcb
  rcases h.2.2 cb with ⟨-,hn⟩ | ⟨hi,hl⟩
  · exact hn
  · rw [hi,hl,hs cb hcb]

lemma LinesWritten.irqContext (h : LinesWritten W s s') (hcb : ¬W cb) : s'.irqContext cb = s.irqContext cb := by
  rcases h.2.2 cb with ⟨hw,-⟩ | ⟨hi,-⟩
  · exact absurd hw hcb
  · exact hi

lemma LinesWritten.of_level (hb : s'.banks = s.banks) (hn : s'.numCb = s.numCb)
    (hi : s'.irqContext = s.irqContext) (hf : ∀ cb, (s'.faults cb).fsr = (s.faults cb).fsr) :
    LinesWritten W s s' := by
  refine ⟨hn,hb,fun cb => .inr ⟨congrFun hi cb,?_⟩⟩
  rw [ctxLevel,hb,hf,ctxLevel]

lemma updateCtxIrq_written (hcb : W cb) (f : FaultRegs) (s : Smmu500 M) :
    LinesWritten W s (smmu500UpdateCtxIrq cb { s with faults := Function.update s.faults cb f }) := by
  refine ⟨rfl,rfl,fun i => ?_⟩
  by_cases h : i = cb
  · subst h
    exact .inl ⟨hcb,update_self ..⟩
  · refine .inr ⟨update_of_ne h ..,?_⟩
    have hf : Function.update s.faults cb f i = s.faults i := update_of_ne h ..
    show (bit32 (Function.update s.faults cb f i).fsr 1 && _) = _
    rw [hf]
    rfl

lemma smmu500Fault_written (hcb : W cb) (va : U64) (stage : Stage) (s : Smmu500 M) :
    LinesWritten W s (smmu500Fault cb va stage s) := updateCtxIrq_written hcb _ s

lemma raise_written (hcb : W cb) {req : WalkReq} (hs2 : W req.s2Cb) (f : PtwFault) (s : Smmu500 M) :
    LinesWritten W s (raise cb req f s) := by
  refine LinesWritten.trans ?_ (smmu500Fault_written hcb _ _ _)
  cases f.nested with
  | none => exact .refl W s
  | some descaddr =>
    refine (smmu500Fault_written hs2 descaddr .two s).trans (.of_level rfl rfl rfl fun i => ?_)
    simp only [update_apply]
    split_ifs with h
    · rw [h]
      rfl
    · rfl

section
variable [DmaSocket M]

lemma smmu500Ptw64_written (hcb : W cb) {req req' : TransReq} (hs2 : W req.s2Cb)
    (h : smmu500Ptw64 cb req s = some (req',s')) : LinesWritten W s s' := by
  rw [smmu500Ptw64] at h
  split at h <;> cases h
  · exact .of_level rfl rfl rfl fun _ => rfl
  · exact .trans (.of_level rfl rfl rfl fun _ => rfl) (raise_written hcb hs2 _ _)

lemma smmu500At64_written (hcb : W cb) (hs2 : W (s2Bank s.banks cb)) {va : U64} {wr b : Bool} {pageSize : ℕ}
    {r : AtResult} (h : smmu500At64 cb va wr b pageSize s = some (r,s')) : LinesWritten W s s' :=
  smmu500At64_rel (.refl W) .trans (fun hr hw => smmu500Ptw64_written hcb (hr ▸ hs2) hw) h

lemma smmu500Gat_written {v : U64} (hcb : W (v &&& addrmask).toNat) (hs2 : W (s2Bank s.banks (v &&& addrmask).toNat))
    {wr b : Bool} (h : smmu500Gat v wr b s = some s') : LinesWritten W s s' := by
  obtain ⟨⟨r,s1⟩,hat,hr⟩ := Option.bind_eq_some_iff.mp h
  cases hr
  exact (smmu500At64_written hcb hs2 hat).trans (.of_level rfl rfl rfl fun _ => rfl)

lemma smmu500Translate_written {addr sid : U64} (hW : ∀ cb < s.numCb, W cb)
    (hs2 : ∀ cb ∈ smmu500StreamIdMatch (masterId addr sid) s, W (s2Bank s.banks cb)) {cmd : TlmCommand}
    {te : IOMMUTLBEntry} (h : smmu500Translate addr cmd sid s = some (te,s')) : LinesWritten W s s' := by
  rcases smmu500Translate_state h with rfl | ⟨cb,r,hm,hn,hat⟩
  · exact .refl W s'
  · exact smmu500At64_written (hW cb hn) (hs2 cb hm) hat

end

lemma foldl_updateCtxIrq_written (l : List ℕ) (hl : ∀ i ∈ l, W i) (s : Smmu500 M) :
    LinesWritten W s (l.foldl (fun s i => smmu500UpdateCtxIrq i s) s) := by
  induction l generalizing s with
  | nil => exact .refl W s
  | cons i l ih =>
    have hi := updateCtxIrq_written (hl i (by simp)) (s.faults i) s
    rw [update_eq_self] at hi
    exact hi.trans (ih (fun j hj => hl j (by simp [hj])) _)

/-- The callback of `FSR` leaves every line it goes through with the level its registers ask for. -/
lemma foldl_updateCtxIrq_irqContext {l : List ℕ} (hcb : cb ∈ l) (s : Smmu500 M) :
    (l.foldl (fun s i => smmu500UpdateCtxIrq i s) s).irqContext cb =
      (l.foldl (fun s i => smmu500UpdateCtxIrq i s) s).ctxLevel cb := by
  induction l generalizing s with
  | nil => simp at hcb
  | cons i l ih =>
    rcases mem_cons.mp hcb with rfl | hm
    · have hr := foldl_updateCtxIrq_written l (fun _ _ => trivial) (smmu500UpdateCtxIrq cb s)
      rcases hr.2.2 cb with ⟨-,hn⟩ | ⟨hi,hl⟩
      · exact hn
      · rw [foldl_cons,hi,hl]
        exact update_self ..
    · exact ih hm _

lemma foldl_updateCtxIrq_numCb (l : List ℕ) (s : Smmu500 M) :
    (l.foldl (fun s i => smmu500UpdateCtxIrq i s) s).numCb = s.numCb :=
  (foldl_updateCtxIrq_written l (fun _ _ => trivial) s).1

lemma writeFsr_numCb (cb : ℕ) (v : U32) (s : Smmu500 M) : (writeFsr cb v s).numCb = s.numCb := by
  rw [writeFsr]
  split_ifs
  · exact foldl_updateCtxIrq_numCb ..
  · rfl

lemma writeFsr_follows (cb : ℕ) (v : U32) (hs : s.CtxLinesFollow) :
    (writeFsr cb v s).CtxLinesFollow := by
  intro i hi
  rw [writeFsr_numCb] at hi
  by_cases h : cb < s.numCb
  · rw [writeFsr,if_pos h]
    exact foldl_updateCtxIrq_irqContext (mem_range.mpr hi) _
  · have hne : i ≠ cb := fun hcb => h (hcb ▸ hi)
    rw [writeFsr,if_neg h,ctxLevel]
    show _ = (bit32 (Function.update s.faults cb _ i).fsr 1 && _)
    rw [update_of_ne hne]
    exact hs i hi

lemma writeFsr_irqContext (i : ℕ) (v : U32) (hcb : s.numCb ≤ cb) :
    (writeFsr i v s).irqContext cb = s.irqContext cb := by
  rw [writeFsr]
  split_ifs
  · refine (foldl_updateCtxIrq_written (W := (· < s.numCb)) _ (fun j hj => mem_range.mp hj) _).irqContext ?_
    exact not_lt.mpr hcb
  · rfl

lemma writeSctlr_follows_iff (cb : ℕ) (v : U32) (hs : s.CtxLinesFollow) : (writeSctlr cb v s).CtxLinesFollow ↔
    (cb < s.numCb → bit32 (s.faults cb).fsr 1 = true → bit32 v 6 = bit32 (s.banks cb).sctlr 6) := by
  have hse : (writeSctlr cb v s).ctxLevel cb = (bit32 (s.faults cb).fsr 1 && bit32 v 6) := by
    simp [ctxLevel,writeSctlr]
  have ho : ∀ i ≠ cb, (writeSctlr cb v s).ctxLevel i = s.ctxLevel i := fun i hi => by
    simp [ctxLevel,writeSctlr,update_of_ne hi]
  constructor
  · intro h hcb htf
    have hn := h cb hcb
    rw [hse,htf,Bool.true_and] at hn
    rw [← hn]
    exact (hs cb hcb).trans (by rw [ctxLevel,htf,Bool.true_and])
  · intro h i hi
    by_cases hcb : i = cb
    · subst hcb
      rw [hse]
      refine (hs i hi).trans ?_
      rw [ctxLevel]
      cases htf : bit32 (s.faults i).fsr 1 with
      | false => rfl
      | true => rw [h hi htf]
    · rw [ho i hcb]
      exact hs i hi

lemma reset_follows_iff (value : Bool) (hs : s.CtxLinesFollow) :
    (reset image value s).CtxLinesFollow ↔ (value = true → ∀ cb < s.numCb, image.ctxLevel cb = s.ctxLevel cb) := by
  cases value with
  | false => exact iff_of_true hs (by simp)
  | true =>
    rw [forall_prop_of_true rfl]
    refine forall_congr' fun cb => forall_congr' fun hcb => ?_
    rw [← hs cb hcb]
    exact eq_comm

lemma powerOn_follows_iff : (powerOn image).CtxLinesFollow ↔ ∀ cb < image.numCb, image.ctxLevel cb = false :=
  forall_congr' fun _ => forall_congr' fun _ => eq_comm

variable [DmaSocket M]

/-- One action. An access that ends the simulation changes nothing here. -/
def ctxStep (s : Smmu500 M) : CtxAction M → Smmu500 M
  | .writeSctlr cb v => writeSctlr cb v s
  | .writeFsr cb v => writeFsr cb v s
  | .writeGats v wr s2 => (smmu500Gat v wr s2 s).getD s
  | .translate addr cmd sid => ((smmu500Translate addr cmd sid s).map Prod.snd).getD s
  | .reset value => reset image value s
  | .other t => withOthers t s

lemma ctxStep_writeGats {v : U64} (hcb : W (v &&& addrmask).toNat) (hs2 : W (s2Bank s.banks (v &&& addrmask).toNat))
    (image : Smmu500 M) (wr b : Bool) : LinesWritten W s (ctxStep image s (.writeGats v wr b)) := by
  rw [ctxStep]
  cases h : smmu500Gat v wr b s with
  | none => exact .refl W s
  | some s' => exact smmu500Gat_written hcb hs2 h

lemma ctxStep_translate {addr sid : U64} (hW : ∀ cb < s.numCb, W cb)
    (hs2 : ∀ cb ∈ smmu500StreamIdMatch (masterId addr sid) s, W (s2Bank s.banks cb)) (image : Smmu500 M)
    (cmd : TlmCommand) : LinesWritten W s (ctxStep image s (.translate addr cmd sid)) := by
  rw [ctxStep]
  cases h : smmu500Translate addr cmd sid s with
  | none => exact .refl W s
  | some r => exact smmu500Translate_written hW hs2 h

/-- One action keeps the lines right exactly when it keeps the levels asked for or updates the lines. -/
lemma ctxStep_follows_iff (hs : s.CtxLinesFollow) (a : CtxAction M) :
    (ctxStep image s a).CtxLinesFollow ↔ KeepsCtxLevels image s a := by
  cases a with
  | writeSctlr cb v => exact writeSctlr_follows_iff cb v hs
  | reset value => exact reset_follows_iff image value hs
  | writeFsr cb v => exact iff_of_true (writeFsr_follows cb v hs) trivial
  | writeGats v wr b =>
    have h : LinesWritten (fun _ => True) s (ctxStep image s (.writeGats v wr b)) :=
      ctxStep_writeGats trivial trivial image wr b
    exact iff_of_true (h.follows hs) trivial
  | translate addr cmd sid =>
    have h : LinesWritten (fun _ => True) s (ctxStep image s (.translate addr cmd sid)) :=
      ctxStep_translate (fun _ _ => trivial) (fun _ _ => trivial) image cmd
    exact iff_of_true (h.follows hs) trivial
  | other t => exact iff_of_true hs trivial

/-- No action writes a line that does not exist, when the banks it reports faults for have lines. -/
lemma ctxStep_irqContext (a : CtxAction M) (h : BanksHaveLines s a) :
    (ctxStep image s a).numCb = s.numCb ∧ ∀ cb, s.numCb ≤ cb → (ctxStep image s a).irqContext cb = s.irqContext cb := by
  cases a with
  | writeSctlr cb v | other t => exact ⟨rfl,fun _ _ => rfl⟩
  | reset value => cases value <;> exact ⟨rfl,fun _ _ => rfl⟩
  | writeFsr cb v => exact ⟨writeFsr_numCb cb v s,fun _ hcb => writeFsr_irqContext _ v hcb⟩
  | writeGats v wr b =>
    have hw := ctxStep_writeGats (W := (· < s.numCb)) h.1 h.2 image wr b
    exact ⟨hw.1,fun _ hcb => hw.irqContext (not_lt.mpr hcb)⟩
  | translate addr cmd sid =>
    have hw := ctxStep_translate (W := (· < s.numCb)) (fun _ hcb => hcb) h image cmd
    exact ⟨hw.1,fun _ hcb => hw.irqContext (not_lt.mpr hcb)⟩

lemma foldl_ctxStep_irqContext {l : List (CtxAction M)}
    (h : GuardedRun.Along (ctxStep image) BanksHaveLines s l) : (l.foldl (ctxStep image) s).numCb = s.numCb ∧
      ∀ cb, s.numCb ≤ cb → (l.foldl (ctxStep image) s).irqContext cb = s.irqContext cb := by
  induction l generalizing s with
  | nil => exact ⟨rfl,fun _ _ => rfl⟩
  | cons a l ih =>
    obtain ⟨hn,hi⟩ := ctxStep_irqContext image a h.1
    obtain ⟨hn',hi'⟩ := ih h.2
    refine ⟨hn'.trans hn,fun cb hcb => ?_⟩
    exact (hi' cb (hn.symm ▸ hcb)).trans (hi cb hcb)

/-- From power-on the lines follow along a run exactly when the reset values ask for no interrupt, `CFIE` of a bank
changes only while its `TF` is clear, and reset comes only while every line is asked what it is asked after. Only
existing lines are written while every faulting bank has one. -/
theorem ctxLinesFollow_iff (image : Smmu500 M) (l : List (CtxAction M)) :
    ((∀ l', l' <+: l → (l'.foldl (ctxStep image) (powerOn image)).CtxLinesFollow) ↔
      (∀ cb < image.numCb, image.ctxLevel cb = false) ∧
        GuardedRun.Along (ctxStep image) (KeepsCtxLevels image) (powerOn image) l) ∧
    (GuardedRun.Along (ctxStep image) BanksHaveLines (powerOn image) l →
      ∀ cb, image.numCb ≤ cb → (l.foldl (ctxStep image) (powerOn image)).irqContext cb = false) := by
  refine ⟨?_,fun h => (foldl_ctxStep_irqContext image h).2⟩
  rw [← powerOn_follows_iff]
  by_cases h : (powerOn image).CtxLinesFollow
  · rw [and_iff_right h]
    exact GuardedRun.forall_prefix_iff_along (J := fun _ => True) (I := CtxLinesFollow) (fun _ _ _ _ _ => trivial)
      (fun _ a _ hs => ctxStep_follows_iff image hs a) trivial h l
  · exact iff_of_false (fun ha => h (ha [] ( nil_prefix ..))) (fun ha => h ha.1)

/-- A lookup faults on bank 0. Enabled afterwards the line stays low; enabled before, it stays high through a reset.
-/
theorem ctxLine_misses_enable_and_reset : let image : Smmu500 Ram := { dma := ⟨[],[]⟩ }
    let late := ([.writeSctlr 0 1,.writeGats 0 false true,.writeSctlr 0 0x41] : List (CtxAction Ram)).foldl
      (ctxStep image) (powerOn image)
    let early := ([.writeSctlr 0 0x41,.writeGats 0 false true,.reset true] : List (CtxAction Ram)).foldl
      (ctxStep image) (powerOn image)
    (late.irqContext 0 = false ∧ late.ctxLevel 0 = true ∧ ¬late.CtxLinesFollow) ∧
      early.irqContext 0 = true ∧ early.ctxLevel 0 = false ∧ ¬early.CtxLinesFollow := by
  decide +kernel

end Qbox.Smmu500
