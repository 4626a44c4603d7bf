import Qbox.GsMemoryFlat

/-! Runs of transactions, debug transactions and direct accesses through granted pointers,
against the same runs on an array of bytes. -/
namespace Qbox.GsMemory
open Memory List BitVec

variable {p : Params} {host : Host}

def Grant.Holds (g : Grant) (addr : U64) : Prop := g.start ≤ addr ∧ addr ≤ g.endAddr

instance (g : Grant) (addr : U64) : Decidable (g.Holds addr) := inferInstanceAs (Decidable (_ ∧ _))

def Grant.index (g : Grant) (addr : U64) : ℕ := (addr-g.start).toNat

structure System where
  mem : Memory
  grants : List Grant

inductive Action where
  | transport (txn : Txn)
  | transportDbg (txn : Txn)
  | requestDmi (addr : U64)
  /-- A byte is read through a granted pointer. -/
  | dmiRead (k : ℕ) (addr : U64)
  /-- A byte is written through a granted pointer. -/
  | dmiWrite (k : ℕ) (addr : U64) (v : U8)

inductive Result where
  | done (r : Reply)
  | debug (n : ℕ) (r : Reply)
  | dmi (r : DmiReply)
  | byte (v : U8)
  | none
  deriving DecidableEq

def Memory.poke (m : Memory) (r : Region) (k : ℕ) (v : U8) : Memory :=
  { m with heap := Function.update m.heap r (Function.update (m.heap r) k v) }

namespace System
def start (heap : Region → Contents) : System := ⟨{ heap := heap },[]⟩

def step (p : Params) (host : Host) (s : System) : Action → Option (Result × System)
  | .transport txn => (bTransport p host txn s.mem).map fun x => (.done x.1,{ s with mem := x.2 })
  | .transportDbg txn => (GsMemory.transportDbg p host txn s.mem).map fun x => (.debug x.1 x.2.1,{ s with mem := x.2.2 })
  | .requestDmi addr =>
    (getDirectMemPtr p host addr s.mem).map fun x => (.dmi x.1,⟨x.2,s.grants++x.1.grant.toList⟩)
  | .dmiRead k addr =>
    match s.grants[k]? with
    | some g => if g.Holds addr then some (.byte (s.mem.heap g.region (g.index addr)),s) else some (.none,s)
    | none => some (.none,s)
  | .dmiWrite k addr v =>
    match s.grants[k]? with
    | some g =>
      if g.Holds addr ∧ g.writable then some (.none,{ s with mem := s.mem.poke g.region (g.index addr) v })
      else some (.none,s)
    | none => some (.none,s)

def run (p : Params) (host : Host) : List Action → System → Option (List Result × System)
  | [], s => some ([],s)
  | a :: l, s =>
    match s.step p host a with
    | none => none
    | some (r,s) => (run p host l s).map fun x => (r :: x.1,x.2)

end System

structure Flat where
  bytes : ℕ → U8
  grants : List Grant

namespace Flat
/-- A step of the array. A granted pointer leads for each address to the byte a transaction has there. -/
def Step (p : Params) (s : Flat) (a : Action) (r : Result) (s' : Flat) : Prop := match a with
  | .transport txn => ∃ reply bytes, flatTransport p txn s.bytes = some (reply,bytes) ∧ r = .done reply ∧
      s' = { s with bytes := bytes }
  | .transportDbg txn => ∃ reply bytes, flatTransport p txn s.bytes = some (reply,bytes) ∧
      r = .debug (if reply.response = .ok then txn.data.length else 0) reply ∧ s' = { s with bytes := bytes }
  | .requestDmi _ => ∃ reply, r = .dmi reply ∧ s' = { s with grants := s.grants++reply.grant.toList }
  | .dmiRead k addr =>
    s' = s ∧ ((∃ g, s.grants[k]? = some g ∧ g.Holds addr) ∧
        (∃ off, p.offset addr = some off ∧ off < p.size ∧ r = .byte (s.bytes off.toNat)) ∨
      ¬ (∃ g, s.grants[k]? = some g ∧ g.Holds addr) ∧ r = .none)
  | .dmiWrite k addr v =>
    r = .none ∧ ((∃ g, s.grants[k]? = some g ∧ g.Holds addr ∧ g.writable) ∧
        (∃ off, p.offset addr = some off ∧ off < p.size ∧
          s' = { s with bytes := overwrite (fun _ => true) s.bytes off.toNat [v] }) ∨
      ¬ (∃ g, s.grants[k]? = some g ∧ g.Holds addr ∧ g.writable) ∧ s' = s)

def Run (p : Params) : Flat → List Action → List Result → Flat → Prop
  | s, [], rs, s' => rs = [] ∧ s' = s
  | s, a :: l, rs, s' => ∃ r t rs', Step p s a r t ∧ Run p t l rs' s' ∧ rs = r :: rs'

end Flat

/-- A granted pointer leads for each address of its range to the byte that a transaction uses there. -/
def Grant.Ok (p : Params) (m : Memory) (g : Grant) : Prop :=
  ∀ addr, g.Holds addr → ∃ off, p.offset addr = some off ∧ off < p.size ∧ m.find p off.toNat = some g.region ∧
    off.toNat = g.region.address+g.index addr

variable {m m' : Memory} {addr : U64} {s : System} {a : Action}

lemma Grant.Ok.extend (h : Extends p m m') {g : Grant} (hg : g.Ok p m) : g.Ok p m' := by
  intro addr ha
  obtain ⟨off,ho,hs,hf,hi⟩ := hg addr ha
  exact ⟨off,ho,hs,h _ _ (lt_def.mp hs) hf,hi⟩

lemma grant_ok {r : Region} {off : U64} (hof : p.offset addr = some off) (hh : r.Has off.toNat)
    (hle : r.address+r.len ≤ p.size.toNat) (hf : ∀ a, r.Has a → m.find p a = some r) : (p.grant r).Ok p m := by
  have hp : 0 < r.len := by
    have := hh.1
    have := hh.2
    omega
  -- The first byte of the region, as a bus address.
  obtain ⟨base,hst,hlt,hba⟩ : ∃ base : U64, (p.grant r).start = BitVec.ofNat 64 r.address+base ∧
      r.address+base.toNat < 2^64 ∧ ∀ a : U64, base ≤ a → p.offset a = some (a-base) := by
    by_cases hr : p.relativeAddresses = true
    · refine ⟨0,by simp [Params.grant,hr],by simp; omega,fun a _ => by simp [Params.offset,hr]⟩
    · have hge : ¬ addr < p.address := fun h => by simp [Params.offset,hr,h] at hof
      have heq : off = addr-p.address := by simpa [Params.offset,hr,hge,eq_comm] using hof
      refine ⟨p.address,by simp [Params.grant,hr],?_,fun a ha => by simp [Params.offset,hr,not_lt.mpr ha]⟩
      have hn : off.toNat = addr.toNat-p.address.toNat := by
        rw [heq]
        exact toNat_sub_of_le (not_lt.mp hge)
      have := hh.1
      omega
  have hs : (p.grant r).start.toNat = r.address+base.toNat := by
    rw [hst,toNat_add,toNat_ofNat]
    omega
  have he : (p.grant r).endAddr = (p.grant r).start+BitVec.ofNat 64 r.len-1 := rfl
  rintro a ⟨ha,ha'⟩
  -- A range that would pass the end of the address space is empty.
  have hbo : r.address+base.toNat ≤ a.toNat ∧ a.toNat < r.address+base.toNat+r.len := by
    rw [le_def,hs] at ha
    rw [he,le_def] at ha'
    have hl : (BitVec.ofNat 64 r.len).toNat = r.len := by
      rw [toNat_ofNat]
      omega
    have hsu : ((p.grant r).start+BitVec.ofNat 64 r.len-1).toNat = (r.address+base.toNat+r.len-1) % 2^64 := by
      have hon : (1 : U64).toNat = 1 := rfl
      rw [toNat_sub,toNat_add,hs,hl,hon]
      omega
    omega
  have hb : base ≤ a := by
    rw [le_def]
    omega
  have ho := toNat_sub_of_le hb
  refine ⟨a-base,hba a hb,?_,hf _ ⟨by omega,by omega⟩,?_⟩
  · rw [lt_def]
    omega
  · have hi : (p.grant r).index a = a.toNat-(r.address+base.toNat) := by
      rw [Grant.index,toNat_sub_of_le ha,hs]
    rw [hi]
    show (a-base).toNat = r.address+(a.toNat-(r.address+base.toNat))
    omega

lemma flat_poke (hv : m.Valid p host) {r : Region} {k : ℕ} (hlt : r.address+k < p.size.toNat)
    (hf : m.find p (r.address+k) = some r) (v : U8) :
    (m.poke r k v).flat p host = overwrite (fun _ => true) (m.flat p host) (r.address+k) [v] := by
  obtain ⟨hle,hh,ha⟩ := hv.find_region hlt hf
  have hp : r.piece (r.address+k) 1 = 1 := by
    have := hh.2
    simp only [Region.piece]
    omega
  -- It is a copy of one byte into the block.
  have hpo : m.poke r k v = m.writeSubBlocks r (r.address+k) [v] := by
    simp only [poke,writeSubBlocks,length_singleton,hp,Nat.add_sub_cancel_left]
    congr 2
    funext j
    by_cases hj : j = k
    · subst hj
      simp
    · rw [Function.update_of_ne hj,if_neg (by omega)]
  have hw := flat_writeSubBlocks hv hle ha hh [v]
  rw [length_singleton,hp] at hw
  rw [hpo,hw]
  rfl

/-- What holds of a system along a run. -/
structure System.Inv (p : Params) (host : Host) (s : System) : Prop where
  valid : s.mem.Valid p host
  grants : ∀ g ∈ s.grants, g.Ok p s.mem

def System.flat (p : Params) (host : Host) (s : System) : Flat := ⟨s.mem.flat p host,s.grants⟩

def Action.NoWrap (p : Params) : Action → Prop
  | .transport txn | .transportDbg txn => txn.NoWrap p
  | .requestDmi _ | .dmiRead _ _ | .dmiWrite _ _ _ => True

instance (p : Params) : (a : Action) → Decidable (a.NoWrap p)
  | .transport _ | .transportDbg _ => inferInstanceAs (Decidable (Txn.NoWrap p _))
  | .requestDmi _ | .dmiRead _ _ | .dmiWrite _ _ _ => inferInstanceAs (Decidable True)

lemma System.Inv.extend (h : s.Inv p host) (hk : Kept p host s.mem m) : System.Inv p host { s with mem := m } :=
  ⟨hk.valid,fun g hg => (h.grants g hg).extend hk.extend⟩

lemma getDirectMemPtr_spec (hv : m.Valid p host) : Gives (Backs p host) (getDirectMemPtr p host addr m) fun x =>
      x.2.flat p host = m.flat p host ∧ Kept p host m x.2 ∧ ∀ g, x.1.grant = some g → g.Ok p x.2 := by
  have hs : ∀ resp, Gives (Backs p host) (some ((⟨resp,none⟩ : DmiReply),m)) fun x =>
      x.2.flat p host = m.flat p host ∧ Kept p host m x.2 ∧ ∀ g, x.1.grant = some g → g.Ok p x.2 :=
    fun resp => .pure ⟨rfl,.refl hv,fun g hg => by cases hg⟩
  rw [getDirectMemPtr]
  split_ifs with hd
  · exact hs _
  · cases ho : p.offset addr with
    | none => exact hs _
    | some off =>
      dsimp only
      split_ifs with hsi
      · exact hs _
      · have hlt := lt_def.mp (not_le.mp hsi)
        refine (access_spec hv hlt).elim id fun ⟨r,m1⟩ ⟨hv1,hfl,he,hh,hle,hf⟩ => ?_
        refine .pure ⟨hfl,⟨hv1,he⟩,fun g hg => ?_⟩
        obtain rfl : p.grant r = g := Option.some.inj hg
        exact grant_ok ho hh hle hf

def Action.Supported : Action → Prop
  | .transport txn | .transportDbg txn => txn.Supported
  | .requestDmi _ | .dmiRead _ _ | .dmiWrite _ _ _ => True

/-- One step of the memory is one of the array. -/
lemma System.step_flat (hin : s.Inv p host) (hw : a.NoWrap p) :
    Gives (Backs p host ∧ a.Supported) (s.step p host a) fun x =>
      Flat.Step p (s.flat p host) a x.1 (x.2.flat p host) ∧ x.2.Inv p host := by
  cases a with
  | transport txn =>
    exact (bTransport_spec hin.valid hw).map fun x hx => ⟨⟨x.1,_,hx.1,rfl,rfl⟩,hin.extend hx.2⟩
  | transportDbg txn =>
    rw [step,GsMemory.transportDbg]
    refine (bTransport_spec hin.valid hw).elim id fun ⟨reply,m⟩ ⟨hfl,hke⟩ => ?_
    exact .pure ⟨⟨reply,_,hfl,rfl,rfl⟩,hin.extend hke⟩
  | requestDmi addr =>
    refine ((getDirectMemPtr_spec hin.valid).mono And.left fun _ => id).map fun ⟨reply,m⟩ ⟨hfl,hke,hgr⟩ => ?_
    refine ⟨⟨reply,rfl,congrArg (Flat.mk · _) hfl⟩,hke.valid,fun g hg => ?_⟩
    rcases mem_append.mp hg with hold | hn
    · exact (hin.grants g hold).extend hke.extend
    · exact hgr g (Option.mem_toList.mp hn)
  | dmiRead k addr =>
    rw [step]
    cases hk : s.grants[k]? with
    | none => exact .pure ⟨⟨rfl,.inr ⟨by simp [flat,hk],rfl⟩⟩,hin⟩
    | some g =>
      dsimp only
      split_ifs with hh
      · obtain ⟨off,ho,hlt,hf,hi⟩ := hin.grants g (mem_of_getElem? hk) addr hh
        have hb : s.mem.flat p host _ = _ := flat_of_find (lt_def.mp hlt) hf
        rw [hi,Nat.add_sub_cancel_left] at hb
        refine .pure ⟨⟨rfl,.inl ⟨⟨g,hk,hh⟩,off,ho,hlt,?_⟩⟩,hin⟩
        simp [flat,hi,hb]
      · exact .pure ⟨⟨rfl,.inr ⟨by simpa [flat,hk] using hh,rfl⟩⟩,hin⟩
  | dmiWrite k addr v =>
    rw [step]
    cases hk : s.grants[k]? with
    | none => exact .pure ⟨⟨rfl,.inr ⟨by simp [flat,hk],rfl⟩⟩,hin⟩
    | some g =>
      dsimp only
      split_ifs with hh
      · obtain ⟨off,ho,hlt,hf,hi⟩ := hin.grants g (mem_of_getElem? hk) addr hh.1
        have hl := lt_def.mp hlt
        refine .pure ⟨⟨rfl,.inl ⟨⟨g,hk,hh⟩,off,ho,hlt,?_⟩⟩,hin.extend ⟨hin.valid,fun _ _ _ h => h⟩⟩
        rw [hi] at hl hf
        simp [flat,flat_poke hin.valid hl hf,hi]
      · exact .pure ⟨⟨rfl,.inr ⟨by simpa [flat,hk] using hh,rfl⟩⟩,hin⟩

/-- A run of the memory is one of the array, and it does not end early when the host backs the memory. -/
lemma System.run_flat {l : List Action} (hi : s.Inv p host) (hl : ∀ a ∈ l, a.NoWrap p) :
    Gives (Backs p host ∧ ∀ a ∈ l, a.Supported) (run p host l s) fun x =>
      Flat.Run p (s.flat p host) l x.1 (x.2.flat p host) := by
  induction l generalizing s with
  | nil => exact .pure ⟨rfl,rfl⟩
  | cons a l ih =>
    rw [run]
    refine (step_flat hi (hl a mem_cons_self)).elim (fun hn h => hn ⟨h.1,h.2 a mem_cons_self⟩)
      fun ⟨r,s1⟩ ⟨hf,hi1⟩ => ?_
    refine ((ih hi1 fun b hb => hl b (mem_cons_of_mem a hb)).mono ?_ fun _ => id).map fun ⟨rs,s2⟩ hr => ?_
    · exact fun h => ⟨h.1,fun b hb => h.2 b (mem_cons_of_mem a hb)⟩
    · exact ⟨r,_,rs,hf,hr,rfl⟩

/-- The memory is an array of bytes: a run of accesses answers as the array does, and does not end early when the host
backs the memory in the end. -/
theorem memory_is_flat (p : Params) (host : Host) (heap : Region → Contents) (l : List Action)
    (hl : ∀ a ∈ l, a.NoWrap p) : (∀ rs s, System.run p host l (System.start heap) = some (rs,s) →
        Flat.Run p ((System.start heap).flat p host) l rs (s.flat p host)) ∧
      (Backs p host → (∀ a ∈ l, a.Supported) → (System.run p host l (System.start heap)).isSome) :=
  have hr := System.run_flat (s := .start heap) ⟨trivial,fun g hg => by cases hg⟩ hl
  ⟨fun _ _ h => hr.result h,fun hb hs => hr.isSome ⟨hb,hs⟩⟩

def smallHost : Host where
  mapFile _ := none
  mapMemCreate _ := none
  alloc r := if 4 < r.len then none else some fun _ => 0xCC

lemma everyOther_ne_nil : ([0xFF,0] : List U8) ≠ [] := by decide

lemma eightBytes_lt : ([1,2,3,4,5,6,7,8] : List U8).length < 2^32 := by decide

/-- A write over three blocks with two byte enables, a read, a grant, a write through its pointer, a read. -/
def smallRun : List Action :=
  [.transport ⟨.write,0x1002,[1,2,3,4,5,6,7,8],some ⟨[0xFF,0],everyOther_ne_nil⟩,0xFFFFFFFF,eightBytes_lt⟩,
    .transport { command := .read, address := 0x1002, data := [0,0,0,0,0,0,0,0] },
    .requestDmi 0x1005,.dmiWrite 0 0x1006 9,.transportDbg { command := .read, address := 0x1004, data := [0,0,0,0] }]

def smallParams : Params := { size := 64, address := 0x1000, relativeAddresses := false, maxBlockSize := 16, minBlockSize := 4 }

/-- Small blocks on a host that refuses larger ones. -/
theorem memory_is_flat_small : ∃ s : System, System.run smallParams smallHost smallRun (System.start fun _ _ => 0) =
      some ([.done ⟨.ok,[1,2,3,4,5,6,7,8],true⟩,.done ⟨.ok,[1,0xCC,3,0xCC,5,0xCC,7,0xCC],true⟩,
        .dmi ⟨none,some ⟨0x1004,0x1007,⟨4,4⟩,true⟩⟩,.none,.debug 4 ⟨.ok,[3,0xCC,9,0xCC],true⟩],s) ∧
      Flat.Run smallParams ((System.start fun _ _ => 0).flat smallParams smallHost) smallRun
        [.done ⟨.ok,[1,2,3,4,5,6,7,8],true⟩,.done ⟨.ok,[1,0xCC,3,0xCC,5,0xCC,7,0xCC],true⟩,
          .dmi ⟨none,some ⟨0x1004,0x1007,⟨4,4⟩,true⟩⟩,.none,.debug 4 ⟨.ok,[3,0xCC,9,0xCC],true⟩]
        (s.flat smallParams smallHost) := by
  have hr : (System.run smallParams smallHost smallRun (System.start fun _ _ => 0)).map Prod.fst =
      some [.done ⟨.ok,[1,2,3,4,5,6,7,8],true⟩,.done ⟨.ok,[1,0xCC,3,0xCC,5,0xCC,7,0xCC],true⟩,
        .dmi ⟨none,some ⟨0x1004,0x1007,⟨4,4⟩,true⟩⟩,.none,.debug 4 ⟨.ok,[3,0xCC,9,0xCC],true⟩] := by
    decide +kernel
  obtain ⟨⟨rs,s⟩,hs,rfl⟩ := Option.map_eq_some_iff.mp hr
  exact ⟨s,hs,(memory_is_flat smallParams smallHost _ smallRun (by decide +kernel)).1 _ s hs⟩

end Qbox.GsMemory
