import ManyRs.Cbor.Basic

/-! Modelled from the spec: `many_identity::Address`, an opaque identifier that supports
equality and anonymity, known to the storages through its bytes (`Address::to_vec`). -/
namespace ManyRs
open ManyRs.Cbor

structure Address where
  bytes : Bytes
  deriving DecidableEq, Repr

namespace Address

/-- `Address::anonymous()`, the single byte 0. -/
def anonymous : Address := ⟨[0]⟩

def isAnonymous (a : Address) : Bool := a = anonymous

/-- `Address::to_vec`. -/
def toVec (a : Address) : Bytes := a.bytes

theorem toVec_injective : Function.Injective toVec
  | ⟨_⟩, ⟨_⟩, rfl => rfl

end Address

end ManyRs
