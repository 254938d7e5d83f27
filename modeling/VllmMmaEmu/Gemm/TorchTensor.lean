import VllmMmaEmu.Core.Types
import Mathlib.Algebra.BigOperators.Group.List.Basic

/-!
# Tensors and checks of the torch operators

What the entry points look at before they launch a kernel. A failed check is an
error with the text of the source.
-/

namespace MmaEmu

inductive ScalarType where
  | byte
  | float8E4m3fn
  | float
  | bfloat16
  | half
  | other (name : String)
  deriving DecidableEq, Repr

/-- The type as it is printed in messages. -/
def ScalarType.name : ScalarType → String
  | byte => "unsigned char"
  | float8E4m3fn => "c10::Float8_e4m3fn"
  | float => "float"
  | bfloat16 => "c10::BFloat16"
  | half => "c10::Half"
  | other name => name

/-- Sizes and strides of a tensor, counted in elements. -/
structure TensorMeta where
  sizes : List ℕ
  strides : List ℕ
  rank : strides.length = sizes.length := by rfl

namespace TensorMeta

variable (t : TensorMeta)

def dim : ℕ := t.sizes.length
def size (i : ℕ) : ℕ := t.sizes.getD i 0
def stride (i : ℕ) : ℕ := t.strides.getD i 0
def numel : ℕ := t.sizes.prod

/-- Elements in a dense suffix of the axes; axes of size one may have any stride. -/
def denseFrom : List (ℕ × ℕ) → Option ℕ
  | [] => some 1
  | (size, stride) :: axes => do
    let inner ← denseFrom axes
    if size = 1 then some inner else if stride = inner then some (inner * size) else none

def isContiguous : Bool := t.numel == 0 || (denseFrom (t.sizes.zip t.strides)).isSome

end TensorMeta

structure TorchTensor extends TensorMeta where
  isCuda : Bool
  dtype : ScalarType

def torchCheck (cond : Bool) (message : String) : Except String Unit :=
  if cond then .ok () else .error message

/-- `design_space::contains` -/
def designSpaceContains (set : List ℕ) (value : ℤ) : Bool := set.any fun x => (x : ℤ) == value

/-- A `switch` over template arguments. -/
def selectCase (cases : List ℕ) (value : ℤ) (message : String) : Except String {x // x ∈ cases} :=
  if h : 0 ≤ value ∧ value.toNat ∈ cases then .ok ⟨value.toNat, h.2⟩
  else .error (message ++ toString value)

lemma of_torchCheck {cond : Bool} {message : String} {u : Unit}
    (h : torchCheck cond message = .ok u) : cond = true := by
  cases cond
  · cases h
  · rfl

end MmaEmu
