import Qbox.MachineWord

/-! Access rights, commands and direct memory regions, as the components exchange
them. -/
namespace Qbox
inductive IOMMUAccessFlags where
  | none | ro | wo | rw
  deriving DecidableEq, Repr

namespace IOMMUAccessFlags
def bits : IOMMUAccessFlags → BitVec 2
  | none => 0
  | ro => 1
  | wo => 2
  | rw => 3

def ofBits (b : BitVec 2) : IOMMUAccessFlags := if b = 0 then none else if b = 1 then ro else if b = 2 then wo else rw

instance : AndOp IOMMUAccessFlags := ⟨fun a b => ofBits (a.bits &&& b.bits)⟩
instance : OrOp IOMMUAccessFlags := ⟨fun a b => ofBits (a.bits ||| b.bits)⟩
instance : Complement IOMMUAccessFlags := ⟨fun a => ofBits (~~~a.bits)⟩

/-- Rights contained in other rights. -/
instance : LE IOMMUAccessFlags := ⟨fun a b => a &&& b = a⟩

instance (a b : IOMMUAccessFlags) : Decidable (a ≤ b) := inferInstanceAs (Decidable (a &&& b = a))

lemma le_refl (a : IOMMUAccessFlags) : a ≤ a := by
  cases a <;> decide

lemma le_trans {a b c : IOMMUAccessFlags} (h1 : a ≤ b) (h2 : b ≤ c) : a ≤ c := by
  revert h1 h2
  cases a <;> cases b <;> cases c <;> decide

lemma and_le_left (a b : IOMMUAccessFlags) : a &&& b ≤ a := by
  cases a <;> cases b <;> decide

lemma le_rw (a : IOMMUAccessFlags) : a ≤ rw := by
  cases a <;> decide

lemma rw_le {a : IOMMUAccessFlags} : rw ≤ a ↔ a = rw := by
  cases a <;> decide

end IOMMUAccessFlags

/-- `tlm::tlm_command`. -/
inductive TlmCommand where
  | read | write | ignore
  deriving DecidableEq, Repr

/-- `tlm::tlm_response_status`. -/
inductive TlmResponse where
  | ok | incomplete | genericError | addressError | commandError | burstError | byteEnableError
  deriving DecidableEq, Repr

/-- A byte-enable array; it repeats along the data, so it has an element. -/
structure ByteEnable where
  bytes : List U8
  nonempty : bytes ≠ [] := by decide
  deriving DecidableEq

def ByteEnable.enables (be : ByteEnable) (i : ℕ) : Bool := be.bytes.getD (i % be.bytes.length) 0 == 0xFF

/-- Byte `i` of the data is enabled; without an array every byte is. -/
def byteEnabled (be : Option ByteEnable) (i : ℕ) : Bool := be.all (·.enables i)

/-- `tlm::tlm_dmi`: a range, the host pointer of its first byte, and the access
granted on it. -/
structure TlmDmi where
  start : U64
  endAddr : U64
  ptr : U64
  access : IOMMUAccessFlags
  deriving DecidableEq

def TlmDmi.Holds (region : TlmDmi) (addr : U64) : Prop := region.start ≤ addr ∧ addr ≤ region.endAddr

end Qbox
