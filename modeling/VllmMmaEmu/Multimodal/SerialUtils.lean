import VllmMmaEmu.Library.Dict

/-!
# Multimodal payloads on the wire

The part of `MsgpackEncoder` and `MsgpackDecoder` (`vllm/v1/serial_utils.py`) that writes and reads
`MultiModalKwargsItems`, with the classes of `vllm/multimodal/inputs.py`. The sizes of the element
types are those of torch.
-/

namespace VllmV1.Serial

open Python

/-- A tensor is its element type, its shape and its bytes. -/
structure Tensor (itemsize : String → Option Nat) where
  dtype : String
  shape : List Nat
  data : List UInt8
  sized : ∃ n ∈ itemsize dtype, 0 < n ∧ data.length = n * shape.prod

def Tensor.nbytes {itemsize : String → Option Nat} (t : Tensor itemsize) : Nat := t.data.length

/-- A tuple is read as a list; a float is its bits. -/
inductive NestedTensors (itemsize : String → Option Nat) where
  | tensor (t : Tensor itemsize)
  | int (n : Int)
  | bool (b : Bool)
  | float (bits : UInt64)
  | list (l : List (NestedTensors itemsize))

structure Slice where
  start : Option Int
  stop : Option Int
  step : Option Int
  deriving DecidableEq, Repr

inductive NestedSlices where
  | slice (s : Slice)
  | list (l : List NestedSlices)

/-- `BaseMultiModalField` with its three classes. -/
inductive MultiModalField where
  | batched
  | flat (slices : NestedSlices) (dim : Int)
  | shared (batchSize : Int)

structure MultiModalFieldElem (itemsize : String → Option Nat) where
  modality : String
  key : String
  data : Option (NestedTensors itemsize)
  field : MultiModalField

/-- The elements stand under their keys, and all are of one modality. -/
structure MultiModalKwargsItem (itemsize : String → Option Nat) where
  elems : Dict String (MultiModalFieldElem itemsize)
  keyed : ∀ p ∈ elems.entries, p.2.key = p.1
  modality : ∃ e ∈ elems.values, ∀ e' ∈ elems.values, e'.modality = e.modality

abbrev MultiModalKwargsItems (itemsize : String → Option Nat) :=
  Dict String (List (MultiModalKwargsItem itemsize))

/-- What the encoder hands to msgpack. -/
inductive PyVal where
  | none
  | bool (b : Bool)
  | int (n : Int)
  | float (bits : UInt64)
  | str (s : String)
  | bytes (b : List UInt8)
  | ext (code : Nat) (b : List UInt8)
  | slice (s : Slice)
  | list (l : List PyVal)
  | tuple (l : List PyVal)
  | dict (d : List (String × PyVal))

def customTypeRawView : Nat := 3

def PyVal.ofOption : Option Int → PyVal
  | Option.none => .none
  | some n => .int n

mutual

/-- What msgpack makes of a value on its way: tuples become lists, `enc_hook` turns a slice into a
tuple and `ext_hook` a raw view into bytes. -/
def PyVal.wire : PyVal → PyVal
  | .ext code b => if code = customTypeRawView then .bytes b else .ext code b
  | .slice s => .list [.ofOption s.start, .ofOption s.stop, .ofOption s.step]
  | .list l => .list (wireList l)
  | .tuple l => .list (wireList l)
  | .dict d => .dict (wireDict d)
  | .none => .none
  | .bool b => .bool b
  | .int n => .int n
  | .float bits => .float bits
  | .str s => .str s
  | .bytes b => .bytes b

def PyVal.wireList : List PyVal → List PyVal
  | [] => []
  | v :: rest => v.wire :: wireList rest

def PyVal.wireDict : List (String × PyVal) → List (String × PyVal)
  | [] => []
  | (k, v) :: rest => (k, v.wire) :: wireDict rest

end

/-- A buffer of a message: the packed value, or the bytes of a tensor. -/
inductive Buffer where
  | message (v : PyVal)
  | bytes (b : List UInt8)

section Encoder

variable {itemsize : String → Option Nat} (sizeThreshold : Int)

def encodeTensor (auxBuffers : List Buffer) (t : Tensor itemsize) : PyVal × List Buffer :=
  let shape := PyVal.tuple (t.shape.map fun n : Nat => PyVal.int n)
  if (t.nbytes : Int) < sizeThreshold then
    (.tuple [.str t.dtype, shape, .ext customTypeRawView t.data], auxBuffers)
  else
    (.tuple [.str t.dtype, shape, .int auxBuffers.length], auxBuffers ++ [.bytes t.data])

mutual

def encodeNestedTensors (auxBuffers : List Buffer) : NestedTensors itemsize → PyVal × List Buffer
  | .tensor t => encodeTensor sizeThreshold auxBuffers t
  | .int n => (.int n, auxBuffers)
  | .bool b => (.bool b, auxBuffers)
  | .float bits => (.float bits, auxBuffers)
  | .list l =>
    let (vs, auxBuffers) := encodeNestedList auxBuffers l
    (.list vs, auxBuffers)

def encodeNestedList (auxBuffers : List Buffer) :
    List (NestedTensors itemsize) → List PyVal × List Buffer
  | [] => ([], auxBuffers)
  | nt :: rest =>
    let (v, auxBuffers) := encodeNestedTensors auxBuffers nt
    let (vs, auxBuffers) := encodeNestedList auxBuffers rest
    (v :: vs, auxBuffers)

end

mutual

def NestedSlices.toPy : NestedSlices → PyVal
  | .slice s => .slice s
  | .list l => .list (NestedSlices.listToPy l)

def NestedSlices.listToPy : List NestedSlices → List PyVal
  | [] => []
  | s :: rest => s.toPy :: NestedSlices.listToPy rest

end

def encodeMmField : MultiModalField → PyVal
  | .batched => .tuple [.str "batched"]
  | .flat slices dim => .tuple [.str "flat", slices.toPy, .int dim]
  | .shared batchSize => .tuple [.str "shared", .int batchSize]

def encodeMmFieldElem (auxBuffers : List Buffer) (e : MultiModalFieldElem itemsize) :
    PyVal × List Buffer :=
  let (data, auxBuffers) := match e.data with
    | none => (PyVal.none, auxBuffers)
    | some data => encodeNestedTensors sizeThreshold auxBuffers data
  (.dict [("modality", .str e.modality), ("key", .str e.key), ("data", data),
    ("field", encodeMmField e.field)], auxBuffers)

/-- A list comprehension whose elements may add buffers. -/
def encodeEach {α β : Type} (encode : List Buffer → α → β × List Buffer) (auxBuffers : List Buffer) :
    List α → List β × List Buffer
  | [] => ([], auxBuffers)
  | a :: rest =>
    let (v, auxBuffers) := encode auxBuffers a
    let (vs, auxBuffers) := encodeEach encode auxBuffers rest
    (v :: vs, auxBuffers)

def encodeMmItem (auxBuffers : List Buffer) (item : MultiModalKwargsItem itemsize) :
    PyVal × List Buffer :=
  let (vs, auxBuffers) := encodeEach (encodeMmFieldElem sizeThreshold) auxBuffers item.elems.values
  (.list vs, auxBuffers)

/-- The items of one modality in `_encode_mm_items`. -/
def encodeModality (auxBuffers : List Buffer) (p : String × List (MultiModalKwargsItem itemsize)) :
    (String × PyVal) × List Buffer :=
  let (vs, auxBuffers) := encodeEach (encodeMmItem sizeThreshold) auxBuffers p.2
  ((p.1, .list vs), auxBuffers)

def encodeMmItems (auxBuffers : List Buffer) (items : MultiModalKwargsItems itemsize) :
    PyVal × List Buffer :=
  let (d, auxBuffers) := encodeEach (encodeModality sizeThreshold) auxBuffers items.entries
  (.dict d, auxBuffers)

def encode (items : MultiModalKwargsItems itemsize) : List Buffer :=
  let (v, bufs) := encodeMmItems sizeThreshold [.bytes []] items
  bufs.set 0 (.message v)

end Encoder

section Decoder

variable (itemsize : String → Option Nat) (auxBuffers : List Buffer)

/-- `aux_buffers[data]` for an integer, the bytes themselves else. -/
def readBuffer : PyVal → Except PyError (List UInt8)
  | .int i => match (if i < 0 then auxBuffers.reverse[(-i - 1).toNat]? else auxBuffers[i.toNat]?) with
    | some (.bytes b) => .ok b
    | some (.message _) => .error .typeError
    | none => .error .indexError
  | .bytes b => .ok b
  | _ => .error .typeError

/-- A shape of a message holds sizes. -/
def decodeSize : PyVal → Except PyError Nat
  | .int n => if 0 ≤ n then .ok n.toNat else .error (.runtimeError "invalid shape")
  | _ => .error .typeError

def decodeShape : PyVal → Except PyError (List Nat)
  | .list l => l.mapM decodeSize
  | _ => .error .typeError

/-- The bytes seen as elements of the type in that shape. -/
def viewTensor (dtype : String) (shape : List Nat) (data : List UInt8) :
    Except PyError (Tensor itemsize) :=
  if h : ∃ n ∈ itemsize dtype, 0 < n ∧ data.length = n * shape.prod then .ok ⟨dtype, shape, data, h⟩
  else .error (.runtimeError "shape is invalid for input")

def decodeTensor : PyVal → Except PyError (Tensor itemsize)
  | .list [.str dtype, shape, data] => do
    let buffer ← readBuffer auxBuffers data
    let shape ← decodeShape shape
    if itemsize dtype = none then .error .attributeError
    else if buffer = [] ∧ 0 ∉ shape then .error .assertionError
    else viewTensor itemsize dtype shape buffer
  | .list _ => .error (.valueError "not enough values to unpack")
  | _ => .error .typeError

/-- The first element of a list is a string. -/
def startsWithStr : List PyVal → Bool
  | .str _ :: _ => true
  | _ => false

mutual

def decodeNestedTensors : PyVal → Except PyError (NestedTensors itemsize)
  | .int n => .ok (.int n)
  | .bool b => .ok (.bool b)
  | .float bits => .ok (.float bits)
  | .list l =>
    if startsWithStr l then do
      let t ← decodeTensor itemsize auxBuffers (.list l)
      return .tensor t
    else do
      let nts ← decodeNestedList l
      return .list nts
  | _ => .error .typeError

def decodeNestedList : List PyVal → Except PyError (List (NestedTensors itemsize))
  | [] => .ok []
  | v :: rest => do
    let nt ← decodeNestedTensors v
    let nts ← decodeNestedList rest
    return nt :: nts

end

/-- An argument of `slice`. -/
def decodeBound : PyVal → Except PyError (Option Int)
  | .none => .ok none
  | .int n => .ok (some n)
  | _ => .error .typeError

/-- `slice(*obj)`. -/
def decodeSlice : List PyVal → Except PyError Slice
  | [stop] => do return ⟨none, ← decodeBound stop, none⟩
  | [start, stop] => do return ⟨← decodeBound start, ← decodeBound stop, none⟩
  | [start, stop, step] => do return ⟨← decodeBound start, ← decodeBound stop, ← decodeBound step⟩
  | _ => .error .typeError

/-- The first element of a list is neither a list nor a tuple. -/
def startsWithScalar : List PyVal → Bool
  | [] => false
  | .list _ :: _ => false
  | .tuple _ :: _ => false
  | _ :: _ => true

mutual

def decodeNestedSlices : PyVal → Except PyError NestedSlices
  | .list l =>
    if startsWithScalar l then do
      let s ← decodeSlice l
      return .slice s
    else do
      let ss ← decodeSlicesList l
      return .list ss
  | .tuple l =>
    if startsWithScalar l then do
      let s ← decodeSlice l
      return .slice s
    else do
      let ss ← decodeSlicesList l
      return .list ss
  | _ => .error .assertionError

def decodeSlicesList : List PyVal → Except PyError (List NestedSlices)
  | [] => .ok []
  | v :: rest => do
    let s ← decodeNestedSlices v
    let ss ← decodeSlicesList rest
    return s :: ss

end

/-- The factory methods that the encoder names. -/
def decodeMmField : PyVal → Except PyError MultiModalField
  | .list [.str "batched"] => .ok .batched
  | .list [.str "flat", slices, .int dim] => do
    let slices ← decodeNestedSlices slices
    return .flat slices dim
  | .list [.str "flat", slices] => do
    let slices ← decodeNestedSlices slices
    return .flat slices 0
  | .list [.str "shared", .int batchSize] => .ok (.shared batchSize)
  | _ => .error .typeError

/-- `obj[key]`. -/
def dictItem (d : List (String × PyVal)) (key : String) : Except PyError PyVal :=
  match Dict.lookupEntry d key with
  | none => .error .keyError
  | some v => .ok v

/-- The data of an element, which may be missing. -/
def decodeData : PyVal → Except PyError (Option (NestedTensors itemsize))
  | .none => .ok none
  | v => do
    let data ← decodeNestedTensors itemsize auxBuffers v
    return some data

def decodeMmFieldElem : PyVal → Except PyError (MultiModalFieldElem itemsize)
  | .dict d => do
    let data ← dictItem d "data"
    let data ← decodeData itemsize auxBuffers data
    let field ← dictItem d "field"
    let field ← decodeMmField field
    match d.length, dictItem d "modality", dictItem d "key" with
    | 4, .ok (.str modality), .ok (.str key) => return ⟨modality, key, data, field⟩
    | _, _, _ => .error .typeError
  | _ => .error .typeError

/-- `from_elems`, and the assertion of `__init__` that there is one modality. The keys are right by
construction. -/
def fromElems (elems : List (MultiModalFieldElem itemsize)) :
    Except PyError (MultiModalKwargsItem itemsize) :=
  let d := Dict.ofPairs (elems.map fun e => (e.key, e))
  if h : (∀ p ∈ d.entries, p.2.key = p.1) ∧
      ∃ e ∈ d.values, ∀ e' ∈ d.values, e'.modality = e.modality then
    .ok ⟨d, h.1, h.2⟩
  else .error .assertionError

def decodeMmItem : PyVal → Except PyError (MultiModalKwargsItem itemsize)
  | .list l => do
    let elems ← l.mapM (decodeMmFieldElem itemsize auxBuffers)
    fromElems itemsize elems
  | _ => .error .typeError

/-- The items of one modality in `_decode_mm_items`. -/
def decodeModality (p : String × PyVal) :
    Except PyError (String × List (MultiModalKwargsItem itemsize)) :=
  match p.2 with
  | .list l => do
    let items ← l.mapM (decodeMmItem itemsize auxBuffers)
    return (p.1, items)
  | _ => .error .typeError

def decodeMmItems : PyVal → Except PyError (MultiModalKwargsItems itemsize)
  | .dict d => do
    let entries ← d.mapM (decodeModality itemsize auxBuffers)
    return Dict.ofPairs entries
  | _ => .error .typeError

/-- `decode`, for the type `MultiModalKwargsItems`. -/
def decode (bufs : List Buffer) : Except PyError (MultiModalKwargsItems itemsize) :=
  match bufs.head? with
  | some (.message v) => decodeMmItems itemsize bufs v.wire
  | some (.bytes _) => .error .typeError
  | none => .error .indexError

end Decoder

end VllmV1.Serial
