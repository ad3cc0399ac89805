import Handover.Table
import Handover.Text.Blank

/-!
Contract: the address by which a node of the cluster is known.

An address is any text, in practice `host:port`. Addresses are ordered by their
code points, and every listing of nodes in this library is in that order.
-/

set_option autoImplicit false

namespace Handover

/-- The `host:port` name of a node. -/
structure Address where
  text : String
deriving DecidableEq, Repr, Inhabited

namespace Address

instance : LT Address := ⟨fun left right => left.text < right.text⟩

instance : LE Address := ⟨fun left right => left.text ≤ right.text⟩

instance : DecidableLT Address := fun left right =>
  inferInstanceAs (Decidable (left.text < right.text))

instance : Std.IsLinearOrder Address where
  le_refl address := Std.le_refl address.text
  le_trans _ _ _ := Std.le_trans (α := String)
  le_antisymm left right first second := by
    cases left
    cases right
    exact congrArg Address.mk (Std.le_antisymm (α := String) first second)
  le_total left right := Std.le_total (a := left.text) (b := right.text)

instance : Std.LawfulOrderLT Address where
  lt_iff left right := Std.LawfulOrderLT.lt_iff left.text right.text

instance : Keyed Address Address := ⟨id⟩

def isBlank (address : Address) : Bool := Text.isBlank address.text

def trim (address : Address) : Address := ⟨Text.trim address.text⟩

def inOrder (addresses : List Address) : List Address :=
  addresses.mergeSort fun left right => decide (left.text ≤ right.text)

/-- The distinct addresses of a list in address order. -/
def distinct (addresses : List Address) : List Address := (Table.ofList addresses).rows

end Address

end Handover
