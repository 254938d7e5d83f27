import Mathlib.Data.List.Basic
import Mathlib.Data.List.Lex
import Mathlib.Data.Nat.Basic
import Mathlib.Tactic.Ring

/-!
# Prefix codes

Codes into bytes from which a value can be read off the front of any string. They are closed
under pairs, options and lists, and they are injective.
-/

namespace PrefixCode

variable {α β : Type*}

/-- A value and the rest can be read off the front. -/
def Readable (code : α → List UInt8) : Prop :=
  ∀ a b r r', code a ++ r = code b ++ r' → a = b ∧ r = r'

lemma Readable.injective {code : α → List UInt8} (h : Readable code) :
    Function.Injective code := by
  intro a b hab
  refine (h a b [] [] ?_).1
  rw [hab]

lemma Readable.comp {code : β → List UInt8} (h : Readable code) {f : α → β}
    (hf : Function.Injective f) : Readable fun a => code (f a) := by
  intro a b r r' hab
  obtain ⟨heq, hrest⟩ := h (f a) (f b) r r' hab
  exact ⟨hf heq, hrest⟩

def byteCode (b : UInt8) : List UInt8 := [b]

lemma byteCode_readable : Readable byteCode := by
  intro a b r r' h
  exact List.cons.inj h

/-- Ones, ended by a zero. -/
def natCode (n : Nat) : List UInt8 := List.replicate n 1 ++ [0]

lemma natCode_readable : Readable natCode := by
  intro a
  induction a with
  | zero =>
    intro b r r' h
    cases b with
    | zero => exact ⟨rfl, (List.cons.inj h).2⟩
    | succ b => exact absurd (List.cons.inj h).1 (by decide)
  | succ a ih =>
    intro b r r' h
    cases b with
    | zero => exact absurd (List.cons.inj h).1 (by decide)
    | succ b =>
      obtain ⟨heq, hrest⟩ := ih b r r' (List.cons.inj h).2
      exact ⟨congrArg Nat.succ heq, hrest⟩

def pairCode (code : α → List UInt8) (code' : β → List UInt8) (x : α × β) : List UInt8 :=
  code x.1 ++ code' x.2

lemma pairCode_readable {code : α → List UInt8} {code' : β → List UInt8} (h : Readable code)
    (h' : Readable code') : Readable (pairCode code code') := by
  rintro ⟨a, a'⟩ ⟨b, b'⟩ r r' hab
  simp only [pairCode, List.append_assoc] at hab
  obtain ⟨rfl, hrest⟩ := h a b _ _ hab
  obtain ⟨rfl, hrest'⟩ := h' a' b' r r' hrest
  exact ⟨rfl, hrest'⟩

def sumCode (code : α → List UInt8) (code' : β → List UInt8) : α ⊕ β → List UInt8
  | .inl a => 0 :: code a
  | .inr b => 1 :: code' b

lemma sumCode_readable {code : α → List UInt8} {code' : β → List UInt8} (h : Readable code)
    (h' : Readable code') : Readable (sumCode code code') := by
  rintro (a | a) (b | b) r r' hab
  · obtain ⟨rfl, hrest⟩ := h a b r r' (List.cons.inj hab).2
    exact ⟨rfl, hrest⟩
  · exact absurd (List.cons.inj hab).1 (by decide)
  · exact absurd (List.cons.inj hab).1 (by decide)
  · obtain ⟨rfl, hrest⟩ := h' a b r r' (List.cons.inj hab).2
    exact ⟨rfl, hrest⟩

/-- Each element after a one, ended by a zero. -/
def listCode (code : α → List UInt8) : List α → List UInt8
  | [] => [0]
  | a :: l => 1 :: (code a ++ listCode code l)

lemma listCode_readable {code : α → List UInt8} (h : Readable code) :
    Readable (listCode code) := by
  intro l
  induction l with
  | nil =>
    intro l' r r' heq
    cases l' with
    | nil => exact ⟨rfl, (List.cons.inj heq).2⟩
    | cons b l' => exact absurd (List.cons.inj heq).1 (by decide)
  | cons a l ih =>
    intro l' r r' heq
    cases l' with
    | nil => exact absurd (List.cons.inj heq).1 (by decide)
    | cons b l' =>
      have htail : (code a ++ listCode code l) ++ r = (code b ++ listCode code l') ++ r' :=
        (List.cons.inj heq).2
      rw [List.append_assoc, List.append_assoc] at htail
      obtain ⟨rfl, hrest⟩ := h a b _ _ htail
      obtain ⟨rfl, hrest'⟩ := ih l' r r' hrest
      exact ⟨rfl, hrest'⟩

def optionCode (code : α → List UInt8) : Option α → List UInt8
  | none => [0]
  | some a => 1 :: code a

lemma optionCode_readable {code : α → List UInt8} (h : Readable code) :
    Readable (optionCode code) := by
  rintro (_ | a) (_ | b) r r' hab
  · exact ⟨rfl, (List.cons.inj hab).2⟩
  · exact absurd (List.cons.inj hab).1 (by decide)
  · exact absurd (List.cons.inj hab).1 (by decide)
  · obtain ⟨rfl, hrest⟩ := h a b r r' (List.cons.inj hab).2
    exact ⟨rfl, hrest⟩

def intCode (i : Int) : List UInt8 := pairCode natCode natCode (i.toNat, (-i).toNat)

lemma intCode_readable : Readable intCode := by
  refine (pairCode_readable natCode_readable natCode_readable).comp
    (f := fun i : Int => (i.toNat, (-i).toNat)) ?_
  intro i j h
  obtain ⟨hpos, hneg⟩ := Prod.mk.inj h
  omega

def stringCode (s : String) : List UInt8 := listCode (fun c : Char => natCode c.toNat) s.toList

lemma stringCode_readable : Readable stringCode := by
  have hchar : Function.Injective Char.toNat := fun _ _ h => Char.ext (UInt32.toNat_inj.mp h)
  exact (listCode_readable (natCode_readable.comp hchar)).comp
    (f := String.toList) fun _ _ h => String.toList_injective h

end PrefixCode
