import Qbox.MachineWord

/-! The memory a module reaches through its DMA socket. -/
namespace Qbox
open MachineWord List

/-- `dma_read` and `dma_write`: an access can fail, and a read too can change what lies behind. -/
class DmaSocket (M : Type) where
  dmaRead : U64 → ℕ → M → Option (List U8) × M
  dmaWrite : U64 → List U8 → M → Bool × M

namespace DmaSocket
variable {M : Type} [DmaSocket M]

def dmaRead64 (addr : U64) (m : M) : Option U64 × M := match dmaRead addr 8 m with
  | (some bytes,m) => (some (loadLe 64 bytes),m)
  | (none,m) => (none,m)

def dmaWrite64 (addr v : U64) (m : M) : Bool × M := dmaWrite addr (storeLe 8 v) m

def PureReads (M : Type) [DmaSocket M] : Prop := ∀ addr n (m : M), (dmaRead addr n m).2 = m

lemma PureReads.dmaRead64 (h : PureReads M) (addr : U64) (m : M) : (DmaSocket.dmaRead64 addr m).2 = m := by
  have hr := h addr 8 m
  rw [DmaSocket.dmaRead64]
  split
  · next heq => rw [heq] at hr; exact hr
  · next heq => rw [heq] at hr; exact hr

end DmaSocket

/-- Memory behind a DMA socket: a write changes at most its bytes, and one that succeeds sets them. -/
class ByteMemory (M : Type) [DmaSocket M] where
  byteAt : M → U64 → U8
  byteAt_write_of_ne (m : M) (addr x : U64) (bytes : List U8) :
    (∀ i < bytes.length, x ≠ addr+BitVec.ofNat 64 i) → byteAt (DmaSocket.dmaWrite addr bytes m).2 x = byteAt m x
  byteAt_write (m : M) (addr : U64) (bytes : List U8) : (DmaSocket.dmaWrite addr bytes m).1 = true →
    bytes.length ≤ 2^64 → ∀ (i : ℕ) (h : i < bytes.length),
      byteAt (DmaSocket.dmaWrite addr bytes m).2 (addr+BitVec.ofNat 64 i) = bytes[i]

namespace ByteMemory
variable {M : Type} [DmaSocket M] [ByteMemory M]

def readBytes (m : M) (addr : U64) (n : ℕ) : List U8 := (List.range n).map (fun i => byteAt m (addr+BitVec.ofNat 64 i))

lemma readBytes_congr {m m' : M} {addr : U64} {n : ℕ}
    (h : ∀ i < n, byteAt m' (addr+BitVec.ofNat 64 i) = byteAt m (addr+BitVec.ofNat 64 i)) :
    readBytes m' addr n = readBytes m addr n :=
  map_congr_left fun i hi => h i (mem_range.mp hi)

lemma readBytes_write {m : M} {addr : U64} {bytes : List U8} (hok : (DmaSocket.dmaWrite addr bytes m).1 = true)
    (hl : bytes.length ≤ 2^64) : readBytes (DmaSocket.dmaWrite addr bytes m).2 addr bytes.length = bytes := by
  refine ext_getElem (by simp [readBytes]) fun i h1 h2 => ?_
  simpa [readBytes] using byteAt_write m addr bytes hok hl i h2

end ByteMemory

/-- Aligned 64-bit words, others zero, and the bytes written over them, newest first. -/
structure Ram where
  words : List (U64 × U64)
  written : List (U64 × U8) := []
  deriving DecidableEq

namespace Ram
def byte (r : Ram) (addr : U64) : U8 := match r.written.lookup addr with
  | some b => b
  | none =>
    match r.words.lookup (addr &&& ~~~lowMask 3) with
    | some v => (v >>> (8*(addr &&& lowMask 3).toNat)).setWidth 8
    | none => 0

def range (addr : U64) (n : ℕ) : List U64 := (List.range n).map (fun i => addr+BitVec.ofNat 64 i)

instance : DmaSocket Ram where
  dmaRead addr n r := (some ((range addr n).map r.byte),r)
  dmaWrite addr bytes r := (true,{ r with written := (range addr bytes.length).zip bytes ++ r.written })

lemma pureReads : DmaSocket.PureReads Ram := fun _ _ _ => rfl

lemma lookup_zip {α β : Type} [BEq α] [LawfulBEq α] {keys : List α} {vals : List β} (hn : keys.Nodup) {i : ℕ}
    (hk : i < keys.length) (hv : i < vals.length) : (keys.zip vals).lookup keys[i] = some vals[i] := by
  induction keys generalizing vals i with
  | nil => cases hk
  | cons k keys ih =>
    obtain ⟨hno,hn⟩ := nodup_cons.mp hn
    cases vals with
    | nil => cases hv
    | cons v vals =>
      cases i with
      | zero => simp
      | succ i =>
        have hk' := Nat.lt_of_succ_lt_succ hk
        have hne : keys[i] ≠ k := fun h => hno (h ▸ getElem_mem hk')
        rw [zip_cons_cons,getElem_cons_succ,getElem_cons_succ,lookup_cons,beq_eq_false_iff_ne.mpr hne]
        exact ih hn hk' (Nat.lt_of_succ_lt_succ hv)

lemma range_nodup (addr : U64) {n : ℕ} (hn : n ≤ 2^64) : (range addr n).Nodup := by
  refine Nodup.map_on (fun i hi j hj h => ?_) nodup_range
  have hi := mem_range.mp hi
  have hj := mem_range.mp hj
  have hna := congrArg BitVec.toNat (add_left_cancel h)
  rwa [BitVec.toNat_ofNat,BitVec.toNat_ofNat,Nat.mod_eq_of_lt (by omega),Nat.mod_eq_of_lt (by omega)] at hna

instance : ByteMemory Ram where
  byteAt := byte
  byteAt_write_of_ne m addr x bytes h := by
    have hnone : ((range addr bytes.length).zip bytes).lookup x = none := by
      refine List.lookup_eq_none_iff.mpr fun p hp => ?_
      obtain ⟨i,hi,heq⟩ := List.mem_map.mp (of_mem_zip hp).1
      rw [← heq]
      exact bne_iff_ne.mpr (h i (mem_range.mp hi))
    simp only [DmaSocket.dmaWrite,byte,lookup_append,hnone,Option.none_or]
  byteAt_write m addr bytes _ hlen i h := by
    have hrange : i < (range addr bytes.length).length := by simpa [range] using h
    have hsome := lookup_zip (range_nodup addr hlen) hrange h
    have hget : (range addr bytes.length)[i] = addr+BitVec.ofNat 64 i := by simp [range]
    rw [hget] at hsome
    simp only [DmaSocket.dmaWrite,byte,lookup_append,hsome,Option.some_or]

end Ram

/-- A target that answers every read with the same word and drops what is written to it. -/
structure SameWord where
  word : U64

namespace SameWord

instance : DmaSocket SameWord where
  dmaRead _ n r := (some (storeLe n r.word),r)
  dmaWrite _ _ r := (true,r)

end SameWord

/-- A bus without a target: every access fails, and the reads are counted. -/
structure NoTarget where
  reads : ℕ

instance : DmaSocket NoTarget where
  dmaRead _ _ r := (none,⟨r.reads+1⟩)
  dmaWrite _ _ r := (false,r)

end Qbox
