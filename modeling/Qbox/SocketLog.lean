import Qbox.DmaSocket

/-! Accesses through a DMA socket written down as they are made. The log is a ghost: a map between sockets
under which every access is answered alike carries a client from one to the other, and forgetting the log is
such a map. -/
namespace Qbox
open DmaSocket

/-- Under `f` the accesses of one socket are answered as those of another. -/
structure SocketHom {M N : Type} [DmaSocket M] [DmaSocket N] (f : N → M) : Prop where
  read : ∀ addr n x, dmaRead addr n (f x) = Prod.map id f (dmaRead addr n x)
  write : ∀ addr bytes x, dmaWrite addr bytes (f x) = Prod.map id f (dmaWrite addr bytes x)

namespace SocketHom
variable {M N : Type} [DmaSocket M] [DmaSocket N] {f : N → M}

lemma read64 (h : SocketHom f) (addr : U64) (x : N) : dmaRead64 addr (f x) = Prod.map id f (dmaRead64 addr x) := by
  rw [dmaRead64,h.read,dmaRead64]
  rcases dmaRead addr 8 x with ⟨_ | bytes,x'⟩
  · rfl
  · rfl

lemma write64 (h : SocketHom f) (addr v : U64) (x : N) :
    dmaWrite64 addr v (f x) = Prod.map id f (dmaWrite64 addr v x) :=
  h.write addr _ x

end SocketHom

/-- What is behind a socket, with the reads, the successful writes and a client's notes, newest first. -/
structure Logged (M : Type) where
  mem : M
  reads : List U64 := []
  writes : List (U64 × List U8) := []
  notes : List U64 := []

namespace Logged
variable {M : Type}

def start (m : M) : Logged M := { mem := m }

variable (addr : U64) (l : Logged M)

def note : Logged M := { l with notes := addr :: l.notes }

variable [DmaSocket M]

instance : DmaSocket (Logged M) where
  dmaRead addr n l := let r := dmaRead addr n l.mem
    (r.1,{ l with mem := r.2, reads := addr :: l.reads })
  dmaWrite addr bytes l := let r := dmaWrite addr bytes l.mem
    (r.1,{ l with mem := r.2, writes := if r.1 then (addr,bytes) :: l.writes else l.writes })

lemma mem_hom : SocketHom (Logged.mem (M := M)) := ⟨fun _ _ _ => rfl,fun _ _ _ => rfl⟩

lemma dmaRead64_log : (dmaRead64 addr l).2 = { l with mem := (dmaRead64 addr l.mem).2, reads := addr :: l.reads } := by
  simp only [dmaRead64,DmaSocket.dmaRead]
  rcases dmaRead addr 8 l.mem with ⟨_ | bytes,m⟩
  · rfl
  · rfl

@[simp] lemma dmaRead64_reads : (dmaRead64 addr l).2.reads = addr :: l.reads := by rw [dmaRead64_log]

@[simp] lemma dmaRead64_writes : (dmaRead64 addr l).2.writes = l.writes := by rw [dmaRead64_log]

@[simp] lemma dmaRead64_notes : (dmaRead64 addr l).2.notes = l.notes := by rw [dmaRead64_log]

@[simp] lemma dmaWrite64_reads (v : U64) (l : Logged M) : (dmaWrite64 addr v l).2.reads = l.reads := rfl

lemma dmaWrite64_writes (v : U64) (l : Logged M) : (dmaWrite64 addr v l).2.writes =
    if (dmaWrite64 addr v l).1 then (addr,MachineWord.storeLe 8 v) :: l.writes else l.writes :=
  rfl

@[simp] lemma dmaWrite64_notes (v : U64) (l : Logged M) : (dmaWrite64 addr v l).2.notes = l.notes := rfl

end Logged
end Qbox
