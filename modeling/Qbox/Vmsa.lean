import Qbox.MachineWord

/-! Translation by the tables of VMSAv8-64, for one stage and accesses at the lowest exception level. A table is a page of
64-bit descriptors, selected by the next slice of the address. The memory is undefined where an access is aborted. -/
namespace Qbox.Vmsa
/-- The sizes of a regime, in address bits. -/
structure Regime where
  /-- The offset within a page, which is also the size of a table. -/
  pageBits : ℕ
  /-- The first level that has block descriptors. -/
  blockLevel : ℕ
  inputBits : ℕ
  outputBits : ℕ
  /-- Leaves with a clear access flag do not fault. -/
  ignoreAccessFlag : Bool

inductive Fault where
  | externalAbort | translation | addressSize | accessFlag | permission
  deriving DecidableEq

/-- A translated address with the size of the page or block it lies in. -/
structure Mapping where
  pa : ℕ
  sizeBits : ℕ
  writable : Bool
  deriving DecidableEq

/-- What the tables on the way to a leaf forbid below them. -/
structure Restriction where
  noUser : Bool := false
  readOnly : Bool := false

/-- The hierarchical permissions of a table descriptor, `APTable`. -/
def Restriction.under (r : Restriction) (desc : U64) : Restriction :=
  ⟨r.noUser || desc.getLsbD 61,r.readOnly || desc.getLsbD 62⟩

inductive Entry where
  | invalid | table | leaf
  deriving DecidableEq

namespace Regime
variable (r : Regime)

def stride : ℕ := r.pageBits-3

/-- The lowest bit of the slice that a level selects by. -/
def bottom (level : ℕ) : ℕ := r.pageBits+(3-level)*r.stride

def slice (level iova : ℕ) : ℕ := iova/2^r.bottom level % 2^r.stride

/-- An address field, above its lowest bit. -/
def field (low : ℕ) (word : ℕ) : ℕ := word % 2^48/2^low*2^low

/-- The level whose slice holds the highest input bits. -/
def startLevel : ℕ := 4-(r.inputBits-r.pageBits+r.stride-1)/r.stride

def entry (level : ℕ) (desc : U64) : Entry := if desc.getLsbD 0 then
    if desc.getLsbD 1 then (if level = 3 then .leaf else .table)
    else if level ≠ 3 ∧ r.blockLevel ≤ level then .leaf else .invalid
  else .invalid

def mapped (write : Bool) (iova level : ℕ) (restriction : Restriction) (desc : U64) : Except Fault Mapping :=
  let base := field (r.bottom level) desc.toNat
  let readOnly := desc.getLsbD 7 || restriction.readOnly
  if 2^r.outputBits ≤ base then .error .addressSize
  else if !desc.getLsbD 10 && !r.ignoreAccessFlag then .error .accessFlag
  else if !desc.getLsbD 6 || restriction.noUser then .error .permission
  else if readOnly && write then .error .permission
  else .ok ⟨base+iova % 2^r.bottom level,r.bottom level,!readOnly⟩

/-- The walk from a table with `n` levels below it, which is one of level `3 - n`. -/
def walkFrom (r : Regime) (mem : ℕ → Option U64) (write : Bool) (iova : ℕ) :
    ℕ → ℕ → Restriction → Except Fault Mapping
  | 0, base, restriction =>
    match mem (base+r.slice 3 iova*8) with
    | none => .error .externalAbort
    | some desc =>
      match r.entry 3 desc with
      | .leaf => r.mapped write iova 3 restriction desc
      | _ => .error .translation
  | n+1, base, restriction =>
    match mem (base+r.slice (2-n) iova*8) with
    | none => .error .externalAbort
    | some desc =>
      match r.entry (2-n) desc with
      | .invalid => .error .translation
      | .leaf => r.mapped write iova (2-n) restriction desc
      | .table =>
        let next := field r.pageBits desc.toNat
        if 2^r.outputBits ≤ next then .error .addressSize
        else r.walkFrom mem write iova n next (restriction.under desc)

/-- The start table has as many entries as the highest slice has values, and is aligned to its size. -/
def startBase (ttb : ℕ) : ℕ := field (3+r.inputBits-r.bottom r.startLevel) ttb

def translate (mem : ℕ → Option U64) (ttb iova : ℕ) (write : Bool) : Except Fault Mapping :=
  if 2^r.outputBits ≤ r.startBase ttb then .error .addressSize
  else r.walkFrom mem write iova (3-r.startLevel) (r.startBase ttb) {}

/-- No table on the way restricts the lowest exception level, and every block is aligned. -/
def PlainFrom (r : Regime) (mem : ℕ → Option U64) (iova : ℕ) : ℕ → ℕ → Prop
  | 0, _ => True
  | n+1, base => ∀ desc, mem (base+r.slice (2-n) iova*8) = some desc → match r.entry (2-n) desc with
    | .invalid => True
    | .leaf => field r.pageBits desc.toNat = field (r.bottom (2-n)) desc.toNat
    | .table => desc.getLsbD 61 = false ∧
      (field r.pageBits desc.toNat < 2^r.outputBits → r.PlainFrom mem iova n (field r.pageBits desc.toNat))

def Plain (mem : ℕ → Option U64) (ttb iova : ℕ) : Prop := r.PlainFrom mem iova (3-r.startLevel) (r.startBase ttb)

end Regime
end Qbox.Vmsa
