import Qbox.Smmuv3Tbu

/-! The command queues: opcodes, the handlers that invalidate caches, and the
consumer loops of both worlds. -/
namespace Qbox.Smmuv3
open MachineWord DmaSocket Core

variable {M : Type} [DmaSocket M]

inductive CmdOp where
  | prefetchConfig | prefetchAddr
  | cfgiSte | cfgiSteRange | cfgiCd | cfgiCdAll | cfgiAll
  | tlbiNhAll | tlbiNhAsid | tlbiNhVa | tlbiNhVaa
  | tlbiEl3All | tlbiEl3Va | tlbiEl2All | tlbiEl2Asid | tlbiEl2Va | tlbiEl2Vaa
  | tlbiS12Vmall | tlbiS2Ipa | tlbiNsnhAll
  | atcInv | priResp | resume | stallTerm | sync
  deriving DecidableEq

def decodeOp (opcode : U8) : Option CmdOp := match opcode.toNat with
  | 0x01 => some .prefetchConfig
  | 0x02 => some .prefetchAddr
  | 0x03 => some .cfgiSte
  | 0x04 => some .cfgiSteRange
  | 0x05 => some .cfgiCd
  | 0x06 => some .cfgiCdAll
  | 0x07 => some .cfgiAll
  | 0x10 => some .tlbiNhAll
  | 0x11 => some .tlbiNhAsid
  | 0x12 => some .tlbiNhVa
  | 0x13 => some .tlbiNhVaa
  | 0x18 => some .tlbiEl3All
  | 0x1A => some .tlbiEl3Va
  | 0x20 => some .tlbiEl2All
  | 0x21 => some .tlbiEl2Asid
  | 0x22 => some .tlbiEl2Va
  | 0x23 => some .tlbiEl2Vaa
  | 0x28 => some .tlbiS12Vmall
  | 0x2A => some .tlbiS2Ipa
  | 0x30 => some .tlbiNsnhAll
  | 0x40 => some .atcInv
  | 0x41 => some .priResp
  | 0x44 => some .resume
  | 0x45 => some .stallTerm
  | 0x46 => some .sync
  | _ => none

/-- A command is its sixteen bytes. -/
abbrev Cmd := List U8

namespace Cmd
variable (c : Cmd)

def word0 : U64 := dword c 0
def word1 : U64 := dword c 1
def opcode : U8 := c.headD 0
def sid : U32 := loadLe 32 ((c.drop 4).take 4)
def stag : U32 := loadLe 32 ((c.drop 4).take 4)
def asidBytes : U16 := loadLe 16 ((c.drop 6).take 2)
def tg : BitVec 2 := (extract64 c.word0 10 2).setWidth 2
def scale : ℕ := (extract64 c.word0 20 4).toNat
def vmid : U16 := (extract64 c.word0 32 16).setWidth 16
def asid : U16 := (extract64 c.word0 48 16).setWidth 16
def va : U64 := c.word1 &&& ~~~lowMask 12
def ipa : U64 := c.word1 &&& 0x000FFFFFFFFFF000

end Cmd

/-- `decode_tlbi_tg`: the page shift and the granule tag; the don't-care encoding is
taken for 4K. -/
def decodeTlbiTg (tg : BitVec 2) : ℕ × U8 := match tg.toNat with
  | 2 => (14,2)
  | 3 => (16,1)
  | _ => (12,0)

def clampShiftU64 (shift : ℕ) : ℕ := if 63 < shift then 63 else shift

variable (c : Cmd)

def Cmd.rangeMask : U64 := lowMask (clampShiftU64 ((decodeTlbiTg c.tg).1+c.scale))

variable (s : Smmuv3 M)

def iotlbInvAll : Smmuv3 M := { s with iotlb := .empty }

def iotlbInvIf (p : IOTLBKey → Bool) (s : Smmuv3 M) : Smmuv3 M := { s with iotlb := s.iotlb.eraseIf p }

def iotlbInvAsid (asid : U16) : Smmuv3 M → Smmuv3 M := iotlbInvIf (fun k => k.asid == asid)

def iotlbInvVmid (vmid : U16) : Smmuv3 M → Smmuv3 M := iotlbInvIf (fun k => k.vmid == vmid)

def iotlbInvIova (vmid asid : U16) (iova : U64) (tg : U8) (addrMask : U64) : Smmuv3 M → Smmuv3 M :=
  iotlbInvIf fun k =>
    k.vmid == vmid && k.asid == asid && k.iova &&& ~~~addrMask == iova &&& ~~~addrMask && k.tg == tg

def handleCmdTlbiNhVa : Smmuv3 M → Smmuv3 M := iotlbInvIova 0 c.asid c.va (decodeTlbiTg c.tg).2 c.rangeMask

def handleCmdTlbiNhVaa : Smmuv3 M → Smmuv3 M := iotlbInvIf fun k =>
    k.iova &&& ~~~c.rangeMask == c.va &&& ~~~c.rangeMask && k.tg == (decodeTlbiTg c.tg).2

def handleCmdTlbiS2Ipa : Smmuv3 M → Smmuv3 M := iotlbInvIf fun k =>
    k.vmid == c.vmid && k.iova &&& ~~~c.rangeMask == c.ipa &&& ~~~c.rangeMask &&
      k.tg == (decodeTlbiTg c.tg).2

def handleCmdCfgiSte : Smmuv3 M :=
  { s with streams := { s.streams with steCache := s.streams.steCache.remove c.sid } }

def clearSteCache : Smmuv3 M := { s with streams := { s.streams with steCache := .empty } }

def clearCdCache : Smmuv3 M := { s with streams := { s.streams with cdCache := .empty } }

/-- `handle_cmd_atc_inv`: the range goes to every front end. -/
def handleCmdAtcInv : Smmuv3 M := let addrLo := c.word1 &&& ~~~lowMask 12
  let range : U64 := 1#64 <<< clampShiftU64 ((c.word1 &&& 0x3F).toNat+12)
  { s with tbus := s.tbus.map (Tbu.upstreamInvalidate addrLo (addrLo+range-1)) }

/-- The message of a sync command, with the global error of its world. -/
def syncMessage (onFail : Core M → Core M) (c : Cmd) (core : Core M) : Core M :=
  let msiaddr := c.word1 &&& 0x000FFFFFFFFFFFFC
  if msiaddr = 0 then core
  else match dmaWrite msiaddr (storeLe 4 ((c.word0 >>> 32).setWidth 32 : U32)) core.bus with
    | (true,bus) => { core with bus := bus }
    | (false,bus) => onFail { core with bus := bus }

def Cmd.signalsIrq : Bool := extract32 (c.word0.setWidth 32) 12 2 == 1

def handleCmdSync : Smmuv3 M := if c.signalsIrq then
    s.mapCore fun core =>
      let core := syncMessage (Core.setGerror gerrorBitMsiCmdqAbt) c core
      { core with irq := core.irq.trigger .cmdSync }
  else s

def handleCmdResume : Smmuv3 M := match s.stalledTxns.lookup c.stag with
  | none => s
  | some t =>
    let t := { t with aborted := t.aborted || decide (c.getD 11 0 ≠ 0), resumed := true }
    { s with stalledTxns := s.stalledTxns.replace c.stag t }

/-- The switch of `consume_cmdq`. -/
def handleOp (op : CmdOp) (c : Cmd) (s : Smmuv3 M) : Smmuv3 M := match op with
  | .prefetchConfig | .prefetchAddr | .priResp | .stallTerm => s
  | .cfgiSte => handleCmdCfgiSte c s
  | .cfgiSteRange => clearSteCache s
  | .cfgiCd | .cfgiCdAll => clearCdCache s
  | .cfgiAll => clearCdCache (clearSteCache s)
  | .tlbiNhAll | .tlbiEl3All | .tlbiEl2All | .tlbiNsnhAll => iotlbInvAll s
  | .tlbiNhAsid | .tlbiEl2Asid => iotlbInvAsid c.asidBytes s
  | .tlbiNhVa | .tlbiEl3Va | .tlbiEl2Va => handleCmdTlbiNhVa c s
  | .tlbiNhVaa | .tlbiEl2Vaa => handleCmdTlbiNhVaa c s
  | .tlbiS12Vmall => iotlbInvVmid c.vmid s
  | .tlbiS2Ipa => handleCmdTlbiS2Ipa c s
  | .atcInv => handleCmdAtcInv c s
  | .resume => handleCmdResume c s
  | .sync => handleCmdSync c s

/-- One command of the non-secure queue; nothing stands for an illegal opcode. -/
def execCmd : Option (Smmuv3 M) := (decodeOp c.opcode).map (fun op => handleOp op c s)

/-- The switch of `consume_secure_cmdq`, without the secure caches, which nothing reads. -/
def handleSecureOp (op : CmdOp) (c : Cmd) (s : Smmuv3 M) : Option (Smmuv3 M) := match op with
  | .prefetchConfig | .prefetchAddr | .cfgiSte | .cfgiSteRange | .cfgiCd | .cfgiCdAll | .cfgiAll => some s
  | .tlbiNsnhAll | .tlbiNhAll | .tlbiNhAsid | .tlbiNhVa | .tlbiNhVaa | .tlbiS12Vmall | .tlbiS2Ipa =>
    some (iotlbInvAll s)
  | .sync =>
    some (if c.signalsIrq then
        s.mapCore (syncMessage (setSecureGerror gerrorBitMsiCmdqAbt) c)
      else s)
  | _ => none

/-- What a command of the secure queue can do. -/
lemma handleSecureOp_cases {op : CmdOp} {c : Cmd} {s s' : Smmuv3 M} (h : handleSecureOp op c s = some s') :
    s' = s ∨ s' = iotlbInvAll s ∨ s' = s.mapCore (syncMessage (setSecureGerror gerrorBitMsiCmdqAbt) c) := by
  cases op with
  | sync =>
    cases h
    split_ifs
    · exact .inr (.inr rfl)
    · exact .inl rfl
  | _ => cases h <;> first | exact .inl rfl | exact .inr (.inl rfl)

def execSecureCmd : Option (Smmuv3 M) := (decodeOp c.opcode).bind (fun op => handleSecureOp op c s)

/-- The loop of both consumers: the index it stops at, an error code if early, and the state. -/
def consumeLoop (exec : Cmd → Smmuv3 M → Option (Smmuv3 M)) (base : U64) (log2size : ℕ) (prod : U32) :
    ℕ → U32 → Smmuv3 M → U32 × Option U32 × Smmuv3 M
  | 0, cons, s => (cons,none,s)
  | n+1, cons, s =>
    if prod &&& lowMask (log2size+1) = cons &&& lowMask (log2size+1) then (cons,none,s)
    else match dmaRead (base+(cons &&& lowMask log2size).setWidth 64*16) 16 s.bus with
      | (none,bus) => (cons,some 2,s.setBus bus)
      | (some cmd,bus) =>
        match exec cmd (s.setBus bus) with
        | none => (cons,some 1,s.setBus bus)
        | some s => consumeLoop exec base log2size prod n ((cons+1) &&& lowMask (log2size+1)) s

def cmdqBase (lo hi : U32) : U64 := ((hi.setWidth 64 &&& 0xFFFFF) <<< 32) ||| (lo.setWidth 64 &&& ~~~0x1F)

/-- The loop turns at most once for each index a queue of this size can hold. -/
def consumeFuel (log2size : ℕ) : ℕ := 2^(log2size+1)

def consumeCmdq : Smmuv3 M := let log2size := queueLog2size s.regs.cmdqBaseLo
  if log2size = 0 then s
  else
    let (cons,err,s) := consumeLoop execCmd (cmdqBase s.regs.cmdqBaseLo s.regs.cmdqBaseHi) log2size
      s.regs.cmdqProd (consumeFuel log2size) s.regs.cmdqCons s
    let s := s.mapCore (fun c => { c with regs := { c.regs with cmdqCons := cons } })
    match err with
    | none => s
    | some cerror => s.mapCore (setCmdqErr cerror)

def consumeSecureCmdq : Smmuv3 M := let log2size := queueLog2size s.regs.sCmdqBaseLo
  if log2size = 0 then s
  else
    let (cons,err,s) := consumeLoop execSecureCmd (cmdqBase s.regs.sCmdqBaseLo s.regs.sCmdqBaseHi) log2size
      s.regs.sCmdqProd (consumeFuel log2size) s.regs.sCmdqCons s
    let s := s.mapCore (fun c => { c with regs := { c.regs with sCmdqCons := cons } })
    match err with
    | none => s
    | some cerror => s.mapCore (setSecureCmdqErr cerror)

section
variable {R : Smmuv3 M → Smmuv3 M → Prop} (hrefl : ∀ s, R s s) (htrans : ∀ {s1 s2 s3}, R s1 s2 → R s2 s3 → R s1 s3)
  (hbus : ∀ s bus, R s (s.setBus bus))

include hrefl htrans hbus

/-- What fetching and every command relate, the loop relates. -/
lemma consumeLoop_rel (exec : Cmd → Smmuv3 M → Option (Smmuv3 M)) (he : ∀ {c s s'}, exec c s = some s' → R s s')
    (base : U64) (log2size : ℕ) (prod : U32) (n : ℕ) (cons : U32) (s : Smmuv3 M) :
    R s (consumeLoop exec base log2size prod n cons s).2.2 := by
  induction n generalizing cons s with
  | zero => exact hrefl s
  | succ n ih =>
    rw [consumeLoop]
    split_ifs
    · exact hrefl s
    · split
      · exact hbus s _
      · split
        · exact hbus s _
        · next s' hs' => exact htrans (htrans (hbus s _) (he hs')) (ih _ s')

omit [DmaSocket M] hrefl hbus in
lemma consumed_rel {s : Smmuv3 M} {r : U32 × Option U32 × Smmuv3 M} (hl : R s r.2.2)
    {setCons setErr : U32 → Core M → Core M} (hc : ∀ s cons, R s (s.mapCore (setCons cons)))
    (he : ∀ s cerror, R s (s.mapCore (setErr cerror))) : R s (match r.2.1 with
      | none => r.2.2.mapCore (setCons r.1)
      | some cerror => (r.2.2.mapCore (setCons r.1)).mapCore (setErr cerror)) := by
  rcases r with ⟨cons,_ | cerror,s1⟩
  · exact htrans hl (hc s1 cons)
  · exact htrans (htrans hl (hc s1 cons)) (he _ cerror)

lemma consumeCmdq_rel (he : ∀ {c s s'}, execCmd c s = some s' → R s s')
    (hc : ∀ s cons, R s (s.mapCore fun c => { c with regs := { c.regs with cmdqCons := cons } }))
    (her : ∀ s cerror, R s (s.mapCore (setCmdqErr cerror))) (s : Smmuv3 M) : R s (consumeCmdq s) := by
  simp only [consumeCmdq]
  split_ifs
  · exact hrefl s
  · exact consumed_rel (R := R) htrans (consumeLoop_rel hrefl htrans hbus execCmd he _ _ _ _ _ s) hc her

lemma consumeSecureCmdq_rel (he : ∀ {c s s'}, execSecureCmd c s = some s' → R s s')
    (hc : ∀ s cons, R s (s.mapCore fun c => { c with regs := { c.regs with sCmdqCons := cons } }))
    (her : ∀ s cerror, R s (s.mapCore (setSecureCmdqErr cerror))) (s : Smmuv3 M) :
    R s (consumeSecureCmdq s) := by
  simp only [consumeSecureCmdq]
  split_ifs
  · exact hrefl s
  · exact consumed_rel (R := R) htrans (consumeLoop_rel hrefl htrans hbus execSecureCmd he _ _ _ _ _ s) hc her

end

end Qbox.Smmuv3
