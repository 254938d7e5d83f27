import VllmMmaEmu.Library.BitFields

/-!
# Scalar types

The two classes `ScalarType`, the one of `vllm/scalar_type.py` and the one of
`csrc/core/scalar_type.hpp`, that are kept in sync by hand.
-/

namespace ScalarTypes

/-- `NanRepr`, a plain `Enum`. -/
inductive NanRepr where
  | none
  | ieee754
  | extdRangeMaxMin
  deriving DecidableEq, Repr

namespace NanRepr

def value : NanRepr → Int
  | none => 0
  | ieee754 => 1
  | extdRangeMaxMin => 2

/-- `==` with an integer: a member of a plain `Enum` is equal to no integer. -/
def eqInt (_ : NanRepr) (_ : Int) : Bool := false

end NanRepr

structure PyScalarType where
  exponent : Int
  mantissa : Int
  signed : Bool
  bias : Int
  finiteValuesOnly : Bool := false
  nanRepr : NanRepr := .ieee754
  deriving DecidableEq, Repr

namespace PyScalarType

/-- `or_and_advance`, with the values of `val` and `offset`. -/
def orAndAdvance (s : Int × Nat) (member : Int) (bitWidth : Nat) : Int × Nat :=
  let bitMask : Int := 2 ^ bitWidth - 1
  (Int.lor s.1 (Int.land member bitMask <<< s.2), s.2 + bitWidth)

def id (t : PyScalarType) : Int :=
  let s := orAndAdvance (0, 0) t.exponent 8
  let s := orAndAdvance s t.mantissa 8
  let s := orAndAdvance s t.signed.toInt 1
  let s := orAndAdvance s t.bias 32
  let s := orAndAdvance s t.finiteValuesOnly.toInt 1
  (orAndAdvance s t.nanRepr.value 8).1

def sizeBits (t : PyScalarType) : Int := t.exponent + t.mantissa + t.signed.toInt

def isSigned (t : PyScalarType) : Bool := t.signed

def isFloatingPoint (t : PyScalarType) : Bool := t.exponent ≠ 0

def hasBias (t : PyScalarType) : Bool := t.bias ≠ 0

def hasInfs (t : PyScalarType) : Bool := !t.finiteValuesOnly

def hasNans (t : PyScalarType) : Bool := !t.nanRepr.eqInt NanRepr.none.value

def isIeee754 (t : PyScalarType) : Bool :=
  t.nanRepr.eqInt NanRepr.ieee754.value && !t.finiteValuesOnly

def str (t : PyScalarType) : String :=
  if t.isFloatingPoint then
    let ret := "float" ++ toString t.sizeBits ++ "_e" ++ toString t.exponent ++ "m" ++
      toString t.mantissa
    if !t.isIeee754 then
      let ret := if t.finiteValuesOnly then ret ++ "f" else ret
      if t.nanRepr ≠ .none then ret ++ "n" else ret
    else ret
  else
    let ret := (if t.isSigned then "int" else "uint") ++ toString t.sizeBits
    if t.hasBias then ret ++ "b" ++ toString t.bias else ret

/-- The fields are such as the C++ class can hold. -/
structure InRange (t : PyScalarType) : Prop where
  exponent : 0 ≤ t.exponent ∧ t.exponent < 2 ^ 8
  mantissa : 0 ≤ t.mantissa ∧ t.mantissa < 2 ^ 8
  bias : -2 ^ 31 ≤ t.bias ∧ t.bias < 2 ^ 31

end PyScalarType

/-- `nan_repr` is an enumeration over the unsigned bytes. -/
structure CppScalarType where
  exponent : BitVec 8
  mantissa : BitVec 8
  signed : Bool
  bias : BitVec 32
  finiteValuesOnly : Bool := false
  nanRepr : BitVec 8 := 1
  deriving DecidableEq, Repr

namespace CppScalarType

def nanNone : BitVec 8 := 0

def nanIeee754 : BitVec 8 := 1

def nanExtdRangeMaxMin : BitVec 8 := 2

/-- `or_and_advance`, for a member that was cast to `int64_t`. -/
def orAndAdvance (result : BitVec 64 × Nat) (member : BitVec 64) (bits : Nat) : BitVec 64 × Nat :=
  (result.1 ||| (member &&& (1#64 <<< bits - 1)) <<< result.2, result.2 + bits)

/-- `id`, over the members in the order of the constructor. -/
def id (t : CppScalarType) : BitVec 64 :=
  let result := orAndAdvance (0, 0) (t.exponent.setWidth 64) 8
  let result := orAndAdvance result (t.mantissa.setWidth 64) 8
  let result := orAndAdvance result ((BitVec.ofBool t.signed).setWidth 64) 1
  let result := orAndAdvance result (t.bias.signExtend 64) 32
  let result := orAndAdvance result ((BitVec.ofBool t.finiteValuesOnly).setWidth 64) 1
  (orAndAdvance result (t.nanRepr.setWidth 64) 8).1

/-- `extract_and_advance`, before the cast to the type of the member. -/
def extractAndAdvance (id : BitVec 64) (bitOffset bits : Nat) : BitVec 64 × Nat :=
  (id.sshiftRight bitOffset &&& (1#64 <<< bits - 1), bitOffset + bits)

def fromId (id : BitVec 64) : CppScalarType :=
  let (exponent, bitOffset) := extractAndAdvance id 0 8
  let (mantissa, bitOffset) := extractAndAdvance id bitOffset 8
  let (signed, bitOffset) := extractAndAdvance id bitOffset 1
  let (bias, bitOffset) := extractAndAdvance id bitOffset 32
  let (finiteValuesOnly, bitOffset) := extractAndAdvance id bitOffset 1
  let (nanRepr, _) := extractAndAdvance id bitOffset 8
  { exponent := exponent.setWidth 8
    mantissa := mantissa.setWidth 8
    signed := signed ≠ 0
    bias := bias.setWidth 32
    finiteValuesOnly := finiteValuesOnly ≠ 0
    nanRepr := nanRepr.setWidth 8 }

def isSigned (t : CppScalarType) : Bool := t.signed

def sizeBits (t : CppScalarType) : Int := t.mantissa.toNat + t.exponent.toNat + t.isSigned.toInt

def isFloatingPoint (t : CppScalarType) : Bool := t.exponent.toNat > 0

def isIeee754 (t : CppScalarType) : Bool :=
  t.isFloatingPoint && t.finiteValuesOnly == false && t.nanRepr == nanIeee754

def hasNans (t : CppScalarType) : Bool := t.isFloatingPoint && t.nanRepr != nanNone

def hasInfs (t : CppScalarType) : Bool := t.isFloatingPoint && t.finiteValuesOnly == false

def hasBias (t : CppScalarType) : Bool := t.bias.toInt ≠ 0

def str (t : CppScalarType) : String :=
  if t.isFloatingPoint then
    let ret := "float" ++ toString t.sizeBits ++ "_e" ++ toString (t.exponent.toNat : Int) ++ "m" ++
      toString (t.mantissa.toNat : Int)
    if !t.isIeee754 then
      let ret := if t.finiteValuesOnly then ret ++ "f" else ret
      if t.nanRepr ≠ nanNone then ret ++ "n" else ret
    else ret
  else
    let ret := (if t.isSigned then "int" else "uint") ++ toString t.sizeBits
    if t.hasBias then ret ++ "b" ++ toString t.bias.toInt else ret

end CppScalarType

/-- The C++ type with the fields of a Python type. -/
def PyScalarType.toCpp (t : PyScalarType) : CppScalarType where
  exponent := .ofInt 8 t.exponent
  mantissa := .ofInt 8 t.mantissa
  signed := t.signed
  bias := .ofInt 32 t.bias
  finiteValuesOnly := t.finiteValuesOnly
  nanRepr := .ofInt 8 t.nanRepr.value

/-- The ids are the same number, which both can read and which no other type has. -/
structure IdsAgree (t : PyScalarType) : Prop where
  same : t.toCpp.id.toInt = t.id
  from_python : CppScalarType.fromId (.ofInt 64 t.id) = t.toCpp
  from_cpp : CppScalarType.fromId t.toCpp.id = t.toCpp
  injective : ∀ u : PyScalarType, u.InRange → u.id = t.id → u = t

/-- The two classes answer alike. -/
structure AnswersAgree (t : PyScalarType) : Prop where
  isIeee754 : t.isIeee754 = t.toCpp.isIeee754
  hasNans : t.hasNans = t.toCpp.hasNans
  hasInfs : t.hasInfs = t.toCpp.hasInfs
  hasBias : t.hasBias = t.toCpp.hasBias
  sizeBits : t.sizeBits = t.toCpp.sizeBits
  str : t.str = t.toCpp.str

open BitFields

lemma PyScalarType.orAndAdvance_pack (fields : List (Nat × Nat)) (member : Int) (bits : Nat) :
    orAndAdvance (pack fields, width fields) member bits =
      (((pack (fields ++ [((member % 2 ^ bits).toNat, bits)]) : Nat) : Int),
        width (fields ++ [((member % 2 ^ bits).toNat, bits)])) := by
  have hpos : (0 : Int) < 2 ^ bits := by positivity
  obtain ⟨n, hn⟩ : ∃ n : Nat, member % 2 ^ bits = n :=
    Int.eq_ofNat_of_zero_le (Int.emod_nonneg _ hpos.ne')
  have hlt : n < 2 ^ bits := by
    have := Int.emod_lt_of_pos member hpos
    rw [hn] at this
    exact_mod_cast this
  have hshift : ((n : Int) <<< width fields) = ((n <<< width fields : Nat) : Int) := by
    rw [Int.shiftLeft_eq, Nat.shiftLeft_eq]
    push_cast
    rfl
  unfold orAndAdvance
  simp only [land_mask, hn, hshift, Int.toNat_natCast]
  refine Prod.ext ?_ ?_
  · show ((pack fields ||| n <<< width fields : Nat) : Int) = _
    rw [or_shiftLeft (pack_lt fields), pack_append, pack, pack, Nat.mod_eq_of_lt hlt]
    simp
  · simp [width]

lemma mask_toNat {bits : Nat} (h : bits < 64) : (1#64 <<< bits - 1).toNat = 2 ^ bits - 1 := by
  have hlt : 2 ^ bits < 2 ^ 64 := Nat.pow_lt_pow_right (by omega) h
  have hpos := Nat.two_pow_pos bits
  have hshift : (1#64 <<< bits).toNat = 2 ^ bits := by
    rw [BitVec.toNat_shiftLeft, BitVec.toNat_ofNat, Nat.shiftLeft_eq]
    norm_num
    omega
  have hone : (1 : BitVec 64).toNat = 1 := rfl
  rw [BitVec.toNat_sub, hshift, hone]
  omega

lemma CppScalarType.orAndAdvance_pack {fields : List (Nat × Nat)} {member : BitVec 64} {bits n : Nat}
    (hmember : member.toNat % 2 ^ bits = n) (hbits : bits < 64) (hwidth : width fields + bits ≤ 64) :
    orAndAdvance (.ofNat 64 (pack fields), width fields) member bits =
      (.ofNat 64 (pack (fields ++ [(n, bits)])), width (fields ++ [(n, bits)])) := by
  have hn : n < 2 ^ bits := hmember ▸ Nat.mod_lt _ (Nat.two_pow_pos _)
  have hfields : pack fields < 2 ^ 64 :=
    (pack_lt fields).trans_le (Nat.pow_le_pow_right (by omega) (by omega))
  have hall : pack (fields ++ [(n, bits)]) = pack fields + 2 ^ width fields * n := by
    rw [pack_append, pack, pack, Nat.mod_eq_of_lt hn]
    ring
  have hlt : n <<< width fields < 2 ^ 64 := by
    rw [Nat.shiftLeft_eq, mul_comm]
    calc 2 ^ width fields * n < 2 ^ width fields * 2 ^ bits := by gcongr
      _ = 2 ^ (width fields + bits) := (pow_add _ _ _).symm
      _ ≤ 2 ^ 64 := Nat.pow_le_pow_right (by omega) hwidth
  have hand : member.toNat &&& (2 ^ bits - 1) = n := by
    rw [Nat.and_two_pow_sub_one_eq_mod, hmember]
  unfold orAndAdvance
  refine Prod.ext (BitVec.eq_of_toNat_eq ?_) (by simp [width])
  simp only
  rw [BitVec.toNat_or, BitVec.toNat_shiftLeft, BitVec.toNat_and, mask_toNat hbits, hand,
    BitVec.toNat_ofNat, BitVec.toNat_ofNat, Nat.mod_eq_of_lt hfields, Nat.mod_eq_of_lt hlt, hall,
    ← or_shiftLeft (pack_lt fields), Nat.mod_eq_of_lt (Nat.or_lt_two_pow hfields hlt)]

lemma CppScalarType.extractAndAdvance_pack (before rest : List (Nat × Nat)) (value bits : Nat)
    (hwidth : width (before ++ (value, bits) :: rest) < 64) :
    extractAndAdvance (.ofNat 64 (pack (before ++ (value, bits) :: rest))) (width before) bits =
      (.ofNat 64 (value % 2 ^ bits), width (before ++ [(value, bits)])) := by
  have hbits : bits < 64 := by
    simp [width] at hwidth
    omega
  have hlt : pack (before ++ (value, bits) :: rest) < 2 ^ 63 :=
    (pack_lt _).trans_le (Nat.pow_le_pow_right (by omega) (by omega))
  have hmsb : (BitVec.ofNat 64 (pack (before ++ (value, bits) :: rest))).msb = false := by
    rw [BitVec.msb_eq_false_iff_two_mul_lt, BitVec.toNat_ofNat]
    omega
  unfold extractAndAdvance
  refine Prod.ext (BitVec.eq_of_toNat_eq ?_) (by simp [width])
  have hsmall : value % 2 ^ bits < 2 ^ 64 :=
    (Nat.mod_lt _ (Nat.two_pow_pos _)).trans (Nat.pow_lt_pow_right (by omega) hbits)
  simp only
  rw [BitVec.sshiftRight_eq_of_msb_false hmsb, BitVec.toNat_and, BitVec.toNat_ushiftRight,
    mask_toNat hbits, Nat.and_two_pow_sub_one_eq_mod, Nat.shiftRight_eq_div_pow,
    BitVec.toNat_ofNat, BitVec.toNat_ofNat, Nat.mod_eq_of_lt (hlt.trans (by omega)), pack_field,
    Nat.mod_eq_of_lt hsmall]

namespace PyScalarType

variable {t u : PyScalarType}

/-- The fields of an id. -/
def bitFields (t : PyScalarType) : List (Nat × Nat) :=
  [((t.exponent % 2 ^ 8).toNat, 8), ((t.mantissa % 2 ^ 8).toNat, 8),
    ((t.signed.toInt % 2 ^ 1).toNat, 1), ((t.bias % 2 ^ 32).toNat, 32),
    ((t.finiteValuesOnly.toInt % 2 ^ 1).toNat, 1), ((t.nanRepr.value % 2 ^ 8).toNat, 8)]

lemma id_eq_pack (t : PyScalarType) : t.id = pack t.bitFields := by
  unfold id
  have hzero : ((0, 0) : Int × Nat) = (((pack [] : Nat) : Int), width []) := rfl
  simp only [hzero, orAndAdvance_pack]
  rfl

lemma byte_toNat (n : Int) : ((BitVec.ofInt 8 n).setWidth 64).toNat % 2 ^ 8 = (n % 2 ^ 8).toNat := by
  rw [BitVec.toNat_setWidth, BitVec.toNat_ofInt]
  norm_num
  omega

lemma bool_toNat (b : Bool) :
    ((BitVec.ofBool b).setWidth 64).toNat % 2 ^ 1 = (b.toInt % 2 ^ 1).toNat := by
  cases b <;> rfl

lemma word_toNat (n : Int) :
    ((BitVec.ofInt 32 n).signExtend 64).toNat % 2 ^ 32 = (n % 2 ^ 32).toNat := by
  rw [BitVec.toNat_signExtend, BitVec.toNat_setWidth, BitVec.toNat_ofInt]
  split_ifs
  · norm_num
    omega
  · norm_num
    omega

lemma toCpp_id (t : PyScalarType) : t.toCpp.id = .ofNat 64 (pack t.bitFields) := by
  unfold CppScalarType.id
  have hzero : ((0, 0) : BitVec 64 × Nat) = (.ofNat 64 (pack []), width []) := rfl
  simp only [toCpp, hzero]
  rw [CppScalarType.orAndAdvance_pack (byte_toNat t.exponent),
    CppScalarType.orAndAdvance_pack (byte_toNat t.mantissa),
    CppScalarType.orAndAdvance_pack (bool_toNat t.signed),
    CppScalarType.orAndAdvance_pack (word_toNat t.bias),
    CppScalarType.orAndAdvance_pack (bool_toNat t.finiteValuesOnly),
    CppScalarType.orAndAdvance_pack (byte_toNat t.nanRepr.value)]
  · rfl
  all_goals simp

lemma byte_read (n : Int) :
    (BitVec.ofNat 64 ((n % 2 ^ 8).toNat % 2 ^ 8)).setWidth 8 = BitVec.ofInt 8 n := by
  refine BitVec.eq_of_toNat_eq ?_
  rw [BitVec.toNat_setWidth, BitVec.toNat_ofNat, BitVec.toNat_ofInt]
  norm_num
  omega

lemma bool_read (b : Bool) :
    decide (BitVec.ofNat 64 ((b.toInt % 2 ^ 1).toNat % 2 ^ 1) ≠ 0) = b := by
  cases b <;> rfl

lemma word_read (n : Int) :
    (BitVec.ofNat 64 ((n % 2 ^ 32).toNat % 2 ^ 32)).setWidth 32 = BitVec.ofInt 32 n := by
  refine BitVec.eq_of_toNat_eq ?_
  rw [BitVec.toNat_setWidth, BitVec.toNat_ofNat, BitVec.toNat_ofInt]
  norm_num
  omega

lemma fromId_pack (t : PyScalarType) :
    CppScalarType.fromId (.ofNat 64 (pack t.bitFields)) = t.toCpp := by
  have hread : ∀ (before rest : List (Nat × Nat)) (p : Nat × Nat),
      t.bitFields = before ++ p :: rest →
      CppScalarType.extractAndAdvance (.ofNat 64 (pack t.bitFields)) (width before) p.2 =
        (.ofNat 64 (p.1 % 2 ^ p.2), width (before ++ [p])) := by
    rintro before rest ⟨value, bits⟩ hsplit
    rw [hsplit]
    refine CppScalarType.extractAndAdvance_pack before rest value bits ?_
    rw [← hsplit]
    simp [bitFields]
  have hexponent := hread [] _ _ rfl
  have hmantissa := hread [_] _ _ rfl
  have hsigned := hread [_, _] _ _ rfl
  have hbias := hread [_, _, _] _ _ rfl
  have hfinite := hread [_, _, _, _] _ _ rfl
  have hnan := hread [_, _, _, _, _] _ _ rfl
  simp only [List.nil_append, List.cons_append, width_nil, width_cons]
    at hexponent hmantissa hsigned hbias hfinite hnan
  unfold CppScalarType.fromId
  simp only [hexponent, hmantissa, hsigned, hbias, hfinite, hnan, byte_read, bool_read, word_read]
  rfl

lemma ofInt_inj {w : Nat} {a b : Int} (h : BitVec.ofInt w a = BitVec.ofInt w b) :
    a % 2 ^ w = b % 2 ^ w := by
  have hpos : (0 : Int) < 2 ^ w := by positivity
  have hnat := congrArg BitVec.toNat h
  rw [BitVec.toNat_ofInt, BitVec.toNat_ofInt] at hnat
  push_cast at hnat
  have ha := Int.emod_nonneg a hpos.ne'
  have hb := Int.emod_nonneg b hpos.ne'
  omega

/-- Two types whose C++ types are the same are the same. -/
lemma eq_of_toCpp (ht : t.InRange) (hu : u.InRange) (h : u.toCpp = t.toCpp) : u = t := by
  obtain ⟨e, m, s, b, f, n⟩ := t
  obtain ⟨e', m', s', b', f', n'⟩ := u
  obtain ⟨he, hm, hb⟩ := ht
  obtain ⟨he', hm', hb'⟩ := hu
  simp only [toCpp, CppScalarType.mk.injEq] at h
  obtain ⟨hexponent, hmantissa, hsigned, hbias, hfinite, hnan⟩ := h
  have hexponent := ofInt_inj hexponent
  have hmantissa := ofInt_inj hmantissa
  have hbias := ofInt_inj hbias
  have hn : n' = n := by
    cases n' <;> cases n <;> first | rfl | exact absurd hnan (by decide)
  simp only [PyScalarType.mk.injEq] at he hm hb he' hm' hb' ⊢
  exact ⟨by omega, by omega, hsigned, by omega, hfinite, hn⟩

/-- The ids of both languages are the same number and name one type. -/
theorem idsAgree (ht : t.InRange) : IdsAgree t where
  same := by
    have hlt : pack t.bitFields < 2 ^ 58 := pack_lt t.bitFields
    have hnat : (BitVec.ofNat 64 (pack t.bitFields)).toNat = pack t.bitFields := by
      rw [BitVec.toNat_ofNat]
      omega
    rw [toCpp_id, id_eq_pack, BitVec.toInt_eq_toNat_of_lt (by omega), hnat]
  from_python := by
    rw [id_eq_pack, BitVec.ofInt_natCast, fromId_pack]
  from_cpp := by rw [toCpp_id, fromId_pack]
  injective u hu h := by
    rw [id_eq_pack, id_eq_pack, Nat.cast_inj] at h
    refine eq_of_toCpp ht hu ?_
    rw [← fromId_pack, h, fromId_pack]

lemma toCpp_exponent (ht : t.InRange) : (t.toCpp.exponent.toNat : Int) = t.exponent := by
  have := ht.exponent
  rw [toCpp, BitVec.toNat_ofInt]
  norm_num
  omega

lemma toCpp_mantissa (ht : t.InRange) : (t.toCpp.mantissa.toNat : Int) = t.mantissa := by
  have := ht.mantissa
  rw [toCpp, BitVec.toNat_ofInt]
  norm_num
  omega

lemma toCpp_bias (ht : t.InRange) : t.toCpp.bias.toInt = t.bias :=
  BitVec.toInt_ofInt_eq_self (by decide) ht.bias.1 ht.bias.2

lemma toCpp_isFloatingPoint (ht : t.InRange) :
    t.toCpp.isFloatingPoint = t.isFloatingPoint := by
  have hexponent := toCpp_exponent ht
  have := ht.exponent
  rw [CppScalarType.isFloatingPoint, isFloatingPoint, decide_eq_decide]
  omega

lemma toCpp_nanRepr (t : PyScalarType) :
    (t.toCpp.nanRepr = CppScalarType.nanNone ↔ t.nanRepr = .none) ∧
      (t.toCpp.nanRepr = CppScalarType.nanIeee754 ↔ t.nanRepr = .ieee754) := by
  have hrepr : t.toCpp.nanRepr = .ofInt 8 t.nanRepr.value := rfl
  rw [hrepr]
  cases t.nanRepr <;> decide

lemma sizeBits_eq (ht : t.InRange) : t.sizeBits = t.toCpp.sizeBits := by
  rw [CppScalarType.sizeBits, toCpp_exponent ht, toCpp_mantissa ht, sizeBits,
    add_comm t.exponent]
  rfl

lemma hasBias_eq (ht : t.InRange) : t.hasBias = t.toCpp.hasBias := by
  rw [CppScalarType.hasBias, toCpp_bias ht, hasBias]

/-- A floating-point type that follows IEEE 754. -/
def Ieee754 (t : PyScalarType) : Prop :=
  t.exponent ≠ 0 ∧ t.finiteValuesOnly = false ∧ t.nanRepr = .ieee754

lemma toCpp_isIeee754 (ht : t.InRange) : t.toCpp.isIeee754 = true ↔ t.Ieee754 := by
  have hfinite : t.toCpp.finiteValuesOnly = t.finiteValuesOnly := rfl
  simp only [CppScalarType.isIeee754, toCpp_isFloatingPoint ht, isFloatingPoint, hfinite, Ieee754,
    Bool.and_eq_true, decide_eq_true_eq, beq_iff_eq, t.toCpp_nanRepr.2, and_assoc]

lemma isIeee754_eq_iff (ht : t.InRange) : t.isIeee754 = t.toCpp.isIeee754 ↔ ¬t.Ieee754 := by
  have hpython : t.isIeee754 = false := rfl
  rw [hpython, ← toCpp_isIeee754 ht]
  cases t.toCpp.isIeee754 <;> simp

lemma hasNans_eq_iff (ht : t.InRange) :
    t.hasNans = t.toCpp.hasNans ↔ t.exponent ≠ 0 ∧ t.nanRepr ≠ .none := by
  have hpython : t.hasNans = true := rfl
  rw [hpython, eq_comm, CppScalarType.hasNans, toCpp_isFloatingPoint ht, Bool.and_eq_true,
    bne_iff_ne, ne_eq, t.toCpp_nanRepr.1, isFloatingPoint, decide_eq_true_eq]

lemma hasInfs_eq_iff (ht : t.InRange) :
    t.hasInfs = t.toCpp.hasInfs ↔ t.exponent ≠ 0 ∨ t.finiteValuesOnly = true := by
  have hfinite : t.toCpp.finiteValuesOnly = t.finiteValuesOnly := rfl
  rw [CppScalarType.hasInfs, toCpp_isFloatingPoint ht, hfinite, hasInfs, isFloatingPoint]
  by_cases h : t.exponent = 0
  · cases t.finiteValuesOnly <;> simp [h]
  · cases t.finiteValuesOnly <;> simp [h]

lemma str_eq_iff (ht : t.InRange) : t.str = t.toCpp.str ↔ ¬t.Ieee754 := by
  have hfinite : t.toCpp.finiteValuesOnly = t.finiteValuesOnly := rfl
  have hsigned : t.toCpp.isSigned = t.isSigned := rfl
  have hpython : t.isIeee754 = false := rfl
  have hnan : t.toCpp.nanRepr ≠ CppScalarType.nanNone ↔ t.nanRepr ≠ .none :=
    not_congr t.toCpp_nanRepr.1
  unfold str CppScalarType.str
  simp only [toCpp_isFloatingPoint ht, ← sizeBits_eq ht, toCpp_exponent ht, toCpp_mantissa ht,
    toCpp_bias ht, ← hasBias_eq ht, hfinite, hsigned, hpython, hnan]
  by_cases h : t.Ieee754
  · obtain ⟨hexponent, hfin, hrepr⟩ := h
    have hcpp := (toCpp_isIeee754 ht).mpr ⟨hexponent, hfin, hrepr⟩
    have hfloat : t.isFloatingPoint = true := decide_eq_true hexponent
    simp [hfloat, hcpp, hfin, hrepr, Ieee754, hexponent]
  · have hcpp : t.toCpp.isIeee754 = false := by
      rw [← Bool.not_eq_true, toCpp_isIeee754 ht]
      exact h
    simp [hcpp, h]

/-- The two classes agree about a floating-point type that has nans and does not follow
IEEE 754, and about no other type. -/
theorem classes_agree_iff (ht : t.InRange) :
    IdsAgree t ∧
      (AnswersAgree t ↔ t.exponent ≠ 0 ∧ t.nanRepr ≠ .none ∧
        ¬(t.finiteValuesOnly = false ∧ t.nanRepr = .ieee754)) := by
  refine ⟨idsAgree ht, ?_⟩
  constructor
  · intro h
    obtain ⟨hexponent, hnan⟩ := (hasNans_eq_iff ht).mp h.hasNans
    exact ⟨hexponent, hnan, fun hieee => (isIeee754_eq_iff ht).mp h.isIeee754 ⟨hexponent, hieee⟩⟩
  · rintro ⟨hexponent, hnan, hieee⟩
    have hnot : ¬t.Ieee754 := fun h => hieee h.2
    exact ⟨(isIeee754_eq_iff ht).mpr hnot, (hasNans_eq_iff ht).mpr ⟨hexponent, hnan⟩,
      (hasInfs_eq_iff ht).mpr (Or.inl hexponent), hasBias_eq ht, sizeBits_eq ht,
      (str_eq_iff ht).mpr hnot⟩

/-- `float8_e4m3fn`. -/
theorem classes_agree_float8_e4m3fn : AnswersAgree ⟨4, 3, true, 0, true, .extdRangeMaxMin⟩ :=
  (classes_agree_iff ⟨by decide, by decide, by decide⟩).2.mpr ⟨by decide, by decide, by decide⟩

/-- `float16_e5m10` follows IEEE 754, which the Python class denies, and is written
`float16_e5m10n` there. -/
theorem classes_disagree_float16_e5m10 :
    ¬∀ t : PyScalarType, t.InRange → IdsAgree t ∧ AnswersAgree t := by
  intro h
  have hstr := (h ⟨5, 10, true, 0, false, .ieee754⟩ ⟨by decide, by decide, by decide⟩).2.isIeee754
  exact absurd hstr (by decide)

end PyScalarType

end ScalarTypes
