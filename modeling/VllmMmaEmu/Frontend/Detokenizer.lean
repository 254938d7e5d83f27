import VllmMmaEmu.Library.Occurrences
import VllmMmaEmu.Library.Python

/-!
# Incremental detokenization

`BaseIncrementalDetokenizer` and `check_stop_strings` of `vllm/v1/engine/detokenizer.py`. New
tokens are decoded into `output_text`, only the new characters are searched for stop strings, and
streamed text is held back by the length of the longest of them.
-/

namespace VllmV1.Frontend

open Occurrences Python

/-- `text.find(sub, start)` for a `sub` that is not empty. -/
def pyFind (text sub : List Char) (start : Int) : Option Nat :=
  indexFrom sub text (clampIndex text.length start)

/-- `check_stop_strings`: the stop string that was found and the length to which the text is to be
cut, -1 for none. -/
def checkStopStrings (outputText : List Char) (newCharCount : Nat) (stop : List (List Char))
    (includeInOutput : Bool) : Option (List Char × Int) :=
  if newCharCount = 0 ∨ stop = [] then none
  else stop.findSome? fun stopStr =>
    match pyFind outputText stopStr (1 - newCharCount - stopStr.length) with
    | none => none
    | some stopIndex =>
      if includeInOutput then
        if outputText.length ≤ stopIndex + stopStr.length then some (stopStr, -1)
        else some (stopStr, ((stopIndex + stopStr.length : Nat) : Int))
      else some (stopStr, (stopIndex : Int))

/-- Only occurrences that end in the new characters are looked for, and there are no others. -/
lemma pyFind_new {old new word : List Char} {stop : List (List Char)} (hword : word ≠ [])
    (hmem : word ∈ stop) (hnone : ¬ Holds stop old) (hnew : new ≠ []) :
    pyFind (old ++ new) word (1 - new.length - word.length) = indexFrom word (old ++ new) 0 := by
  apply indexFrom_eq_of_forall_le hword
  intro i hi
  have hend := hi.lt_end hnone hmem
  have hpos := List.length_pos_iff.mpr hnew
  have hlen := List.length_pos_iff.mpr hword
  rw [clampIndex, if_pos (by omega), List.length_append]
  omega

/-- The search finds the first stop string of the list that begins anywhere in the text, where it
begins first. -/
lemma checkStopStrings_append {old : List Char} {stop : List (List Char)} (hstop : [] ∉ stop)
    (hnone : ¬ Holds stop old) (new : List Char) :
    checkStopStrings (old ++ new) new.length stop false =
      (firstListed stop (old ++ new)).bind fun word =>
        (indexFrom word (old ++ new) 0).map fun p : Nat => (word, (p : Int)) := by
  by_cases hempty : new.length = 0 ∨ stop = []
  · have hnone' : ¬ Holds stop (old ++ new) := by
      rcases hempty with hnew | rfl
      · rwa [List.length_eq_zero_iff.mp hnew, List.append_nil]
      · rintro ⟨word, hmem, -⟩
        exact absurd hmem (List.not_mem_nil)
    rw [checkStopStrings, if_pos hempty, firstListed_eq_none hnone', Option.bind_none]
  · have hnew : new ≠ [] := fun h => hempty (.inl (by rw [h, List.length_nil]))
    have hfind : ∀ word ∈ stop, pyFind (old ++ new) word (1 - new.length - word.length) =
        indexFrom word (old ++ new) 0 := fun word hmem =>
      pyFind_new (fun heq => hstop (heq ▸ hmem)) hmem hnone hnew
    rw [checkStopStrings, if_neg hempty, firstListed]
    simp only [Bool.false_eq_true, if_false]
    clear hnone hstop hempty
    induction stop with
    | nil => rfl
    | cons word rest ih =>
      have hrest := ih fun w hw => hfind w (List.mem_cons_of_mem _ hw)
      rw [List.findSome?_cons, List.find?_cons, hfind word List.mem_cons_self]
      cases hidx : indexFrom word (old ++ new) 0 with
      | none => exact hrest
      | some p => simp [hidx]

/-- `BaseIncrementalDetokenizer`, with whatever state `decode_next` of a subclass keeps. -/
structure BaseIncrementalDetokenizer (δ : Type) where
  stop : List (List Char)
  minTokens : Nat
  includeStopStrInOutput : Bool
  /-- The number of characters that are held back while more may come. -/
  stopBufferLength : Int
  lastOutputTextOffset : Nat
  tokenIds : List Nat
  outputText : List Char
  decoder : δ
deriving DecidableEq

namespace BaseIncrementalDetokenizer

variable {δ : Type} (decodeNext : δ → Nat → List Char × δ)

/-- `max(len(s) for s in stop)` -/
def longest (stop : List (List Char)) : Nat := (stop.map List.length).foldr max 0

lemma length_le_longest {stop : List (List Char)} {word : List Char} (h : word ∈ stop) :
    word.length ≤ longest stop := by
  rw [longest]
  induction stop with
  | nil => exact absurd h List.not_mem_nil
  | cons first rest ih =>
    rw [List.map_cons, List.foldr_cons]
    rcases List.mem_cons.mp h with rfl | hrest
    · exact le_max_left _ _
    · exact (ih hrest).trans (le_max_right _ _)

def init (stop : List (List Char)) (minTokens : Nat) (includeStopStrInOutput : Bool)
    (decoder : δ) : BaseIncrementalDetokenizer δ where
  stop := stop
  minTokens := minTokens
  includeStopStrInOutput := includeStopStrInOutput
  stopBufferLength :=
    if stop ≠ [] ∧ includeStopStrInOutput = false then (longest stop : Int) - 1 else 0
  lastOutputTextOffset := 0
  tokenIds := []
  outputText := []
  decoder := decoder

/-- One round of the decoding loop, with `stop_check_offset`. -/
def decodeToken (acc : BaseIncrementalDetokenizer δ × Nat) (newTokenId : Nat) :
    BaseIncrementalDetokenizer δ × Nat :=
  let d := acc.1
  let tokenIds := d.tokenIds ++ [newTokenId]
  let piece := decodeNext d.decoder newTokenId
  let outputText := d.outputText ++ piece.1
  let stopCheckOffset :=
    if d.minTokens ≠ 0 ∧ tokenIds.length ≤ d.minTokens then outputText.length else acc.2
  ({ d with tokenIds := tokenIds, outputText := outputText, decoder := piece.2 }, stopCheckOffset)

/-- The tokens that are decoded: not the one that stopped the generation, unless it is to be in the
output. -/
def decodedTokenIds (d : BaseIncrementalDetokenizer δ) (newTokenIds : List Nat)
    (stopTerminated : Bool) : List Nat :=
  if stopTerminated ∧ d.includeStopStrInOutput = false then newTokenIds.dropLast else newTokenIds

/-- `skipped_stop_token_id` -/
def skippedTokenIds (d : BaseIncrementalDetokenizer δ) (newTokenIds : List Nat)
    (stopTerminated : Bool) : List Nat :=
  if stopTerminated ∧ d.includeStopStrInOutput = false then newTokenIds.getLast?.toList else []

/-- `update`, with the stop string it returns. -/
def update (d : BaseIncrementalDetokenizer δ) (newTokenIds : List Nat) (stopTerminated : Bool) :
    Option (List Char) × BaseIncrementalDetokenizer δ :=
  if newTokenIds = [] then (none, d)
  else
    let looped := (d.decodedTokenIds newTokenIds stopTerminated).foldl (decodeToken decodeNext)
      (d, d.outputText.length)
    let stopCheckOffset := looped.2
    let d := { looped.1 with
      tokenIds := looped.1.tokenIds ++ d.skippedTokenIds newTokenIds stopTerminated }
    if d.stop ≠ [] ∧ d.minTokens < d.tokenIds.length then
      match checkStopStrings d.outputText (d.outputText.length - stopCheckOffset) d.stop
          d.includeStopStrInOutput with
      | none => (none, d)
      | some (stopString, truncateTo) =>
        (some stopString, if truncateTo = -1 then d
          else { d with outputText := d.outputText.take truncateTo.toNat })
    else (none, d)

def getNextOutputText (d : BaseIncrementalDetokenizer δ) (finished delta : Bool) :
    List Char × BaseIncrementalDetokenizer δ :=
  let bufferLength := if finished then 0 else d.stopBufferLength
  if delta = false then
    (if bufferLength ≠ 0 then pySlice d.outputText 0 (-bufferLength) else d.outputText, d)
  else
    let length := (d.outputText.length : Int) - bufferLength
    let lastOffset := d.lastOutputTextOffset
    if (lastOffset : Int) < length then
      (pySlice d.outputText lastOffset length, { d with lastOutputTextOffset := length.toNat })
    else ([], d)

/-- What `decode_next` returns for some tokens, in one text. -/
def decodeAll : δ → List Nat → List Char × δ
  | decoder, [] => ([], decoder)
  | decoder, newTokenId :: rest =>
    let piece := decodeNext decoder newTokenId
    let more := decodeAll piece.2 rest
    (piece.1 ++ more.1, more.2)

/-- What an update decodes. -/
def decoded (d : BaseIncrementalDetokenizer δ) (newTokenIds : List Nat) (stopTerminated : Bool) :
    List Char × δ :=
  decodeAll decodeNext d.decoder (d.decodedTokenIds newTokenIds stopTerminated)

/-- The detokenizer with more tokens and another text. -/
def extended (d : BaseIncrementalDetokenizer δ) (newTokenIds : List Nat) (outputText : List Char)
    (decoder : δ) : BaseIncrementalDetokenizer δ :=
  { d with tokenIds := d.tokenIds ++ newTokenIds, outputText := outputText, decoder := decoder }

variable {d : BaseIncrementalDetokenizer δ}

lemma foldl_decodeToken (ids : List Nat) (offset : Nat) (hmin : d.minTokens = 0) :
    ids.foldl (decodeToken decodeNext) (d, offset) =
      (d.extended ids (d.outputText ++ (decodeAll decodeNext d.decoder ids).1)
        (decodeAll decodeNext d.decoder ids).2, offset) := by
  induction ids generalizing d with
  | nil => simp [decodeAll, extended]
  | cons id rest ih =>
    have hone : decodeToken decodeNext (d, offset) id =
        (d.extended [id] (d.outputText ++ (decodeNext d.decoder id).1)
          (decodeNext d.decoder id).2, offset) := by
      simp [decodeToken, extended, hmin]
    have hrest := @ih (d.extended [id] (d.outputText ++ (decodeNext d.decoder id).1)
      (decodeNext d.decoder id).2) hmin
    rw [List.foldl_cons, hone, hrest]
    simp [decodeAll, extended, List.append_assoc]

/-- A text up to where the first stop string of the list that it contains begins. -/
def cutText (stop : List (List Char)) (text : List Char) : List Char :=
  match firstListed stop text with
  | none => text
  | some word => text.take ((indexFrom word text 0).getD text.length)

lemma cutText_of_none {stop : List (List Char)} {text : List Char}
    (h : firstListed stop text = none) : cutText stop text = text := by
  rw [cutText, h]

lemma cutText_of_some {stop : List (List Char)} {text word : List Char} {p : Nat}
    (h : firstListed stop text = some word) (hp : indexFrom word text 0 = some p) :
    cutText stop text = text.take p := by
  simp [cutText, h, hp]

lemma decoded_nil (stopTerminated : Bool) :
    d.decoded decodeNext [] stopTerminated = ([], d.decoder) := by
  simp [decoded, decodedTokenIds, decodeAll]

lemma decoded_append_skipped {ids : List Nat} (h : ids ≠ []) (stopTerminated : Bool) :
    d.decodedTokenIds ids stopTerminated ++ d.skippedTokenIds ids stopTerminated = ids := by
  rw [decodedTokenIds, skippedTokenIds]
  split_ifs
  · rw [List.getLast?_eq_some_getLast h]
    exact List.dropLast_append_getLast h
  · exact List.append_nil ids

/-- Without a stop string in the text so far, an update reports the first of the list that the
longer text contains. -/
lemma update_eq (hmin : d.minTokens = 0) (hexclude : d.includeStopStrInOutput = false)
    (hstop : [] ∉ d.stop) (hnone : ¬ Holds d.stop d.outputText) (ids : List Nat)
    (stopTerminated : Bool) :
    d.update decodeNext ids stopTerminated =
      (firstListed d.stop (d.outputText ++ (d.decoded decodeNext ids stopTerminated).1),
        d.extended ids
          (cutText d.stop (d.outputText ++ (d.decoded decodeNext ids stopTerminated).1))
          (d.decoded decodeNext ids stopTerminated).2) := by
  by_cases hids : ids = []
  · subst hids
    have hlisted := firstListed_eq_none hnone
    rw [decoded_nil, List.append_nil, cutText_of_none hlisted, hlisted]
    simp [update, extended]
  · generalize htext : d.decoded decodeNext ids stopTerminated = new
    have hlooped := foldl_decodeToken decodeNext
      (d.decodedTokenIds ids stopTerminated) d.outputText.length hmin
    rw [← decoded, htext] at hlooped
    have hall : (d.extended (d.decodedTokenIds ids stopTerminated) (d.outputText ++ new.1)
          new.2).tokenIds ++ d.skippedTokenIds ids stopTerminated = d.tokenIds ++ ids := by
      rw [extended, List.append_assoc, decoded_append_skipped hids]
    have hlen : 0 < (d.tokenIds ++ ids).length := by
      rw [List.length_append]
      have := List.length_pos_iff.mpr hids
      omega
    have hcount : (d.outputText ++ new.1).length - d.outputText.length = new.1.length := by
      rw [List.length_append, Nat.add_sub_cancel_left]
    have hcheck := checkStopStrings_append hstop hnone new.1
    rw [update, if_neg hids]
    simp only [hlooped, hall]
    simp only [extended, hexclude, hcount, hcheck, hmin, hlen, and_true]
    cases hlisted : firstListed d.stop (d.outputText ++ new.1) with
    | none => simp [cutText_of_none hlisted]
    | some word =>
      obtain ⟨p, hp⟩ := index_of_firstListed hlisted
      have hsome : d.stop ≠ [] := List.ne_nil_of_mem (mem_of_firstListed hlisted)
      have hcut : (p : Int) ≠ -1 := by omega
      simp [cutText_of_some hlisted hp, hp, hsome, hcut]

lemma take_append_pySlice (text : List Char) {offset : Nat} {length : Int}
    (hlt : (offset : Int) < length) (hle : length ≤ text.length) :
    text.take offset ++ pySlice text offset length = text.take length.toNat := by
  have hstop : clampIndex text.length length = length.toNat := by
    rw [clampIndex_of_nonneg (by omega)]
    omega
  have hstart : clampIndex text.length (offset : Int) = offset := by
    rw [clampIndex_of_nonneg (by omega)]
    omega
  rw [pySlice, slice, hstop, hstart, ← List.take_add]
  congr 1
  omega

lemma getNextOutputText_delta (finished : Bool)
    (hbuffer : 0 ≤ d.stopBufferLength) (hle : d.lastOutputTextOffset ≤ d.outputText.length) :
    ∃ text offset, d.getNextOutputText finished true =
        (text, { d with lastOutputTextOffset := offset }) ∧
      d.outputText.take d.lastOutputTextOffset ++ text = d.outputText.take offset ∧
      offset ≤ d.outputText.length ∧ (finished → offset = d.outputText.length) ∧
      (offset = d.lastOutputTextOffset ∨
        (finished = false → (offset : Int) = d.outputText.length - d.stopBufferLength)) := by
  simp only [getNextOutputText, Bool.true_eq_false, if_false]
  generalize hheld : (if finished then 0 else d.stopBufferLength) = held
  have hnonneg : 0 ≤ held := by
    rw [← hheld]
    split_ifs
    · exact le_refl 0
    · exact hbuffer
  have hall : finished = true → held = 0 := fun hfinished => by rw [← hheld, if_pos hfinished]
  have hsome : finished = false → held = d.stopBufferLength := fun hgoing => by
    rw [← hheld, hgoing, if_neg Bool.false_ne_true]
  split_ifs with hlt
  · refine ⟨_, _, rfl, take_append_pySlice _ hlt (by omega), by omega, ?_, .inr ?_⟩
    · intro hfinished
      have := hall hfinished
      omega
    · intro hgoing
      have := hsome hgoing
      omega
  · refine ⟨_, _, rfl, List.append_nil _, hle, ?_, .inl rfl⟩
    intro hfinished
    have := hall hfinished
    omega

end BaseIncrementalDetokenizer

/-- `IncrementalDetokenizer`: without a tokenizer only the tokens are kept. -/
inductive IncrementalDetokenizer (δ : Type) where
  | skipped (tokenIds : List Nat)
  | base (detokenizer : BaseIncrementalDetokenizer δ)

namespace IncrementalDetokenizer

variable {δ : Type} (decodeNext : δ → Nat → List Char × δ)

def outputTokenIds : IncrementalDetokenizer δ → List Nat
  | .skipped tokenIds => tokenIds
  | .base d => d.tokenIds

def update (d : IncrementalDetokenizer δ) (newTokenIds : List Nat) (stopTerminated : Bool) :
    Option (List Char) × IncrementalDetokenizer δ :=
  match d with
  | .skipped tokenIds => (none, .skipped (tokenIds ++ newTokenIds))
  | .base d =>
    let updated := d.update decodeNext newTokenIds stopTerminated
    (updated.1, .base updated.2)

def getNextOutputText (d : IncrementalDetokenizer δ) (finished delta : Bool) :
    List Char × IncrementalDetokenizer δ :=
  match d with
  | .skipped tokenIds => ([], .skipped tokenIds)
  | .base d =>
    let next := d.getNextOutputText finished delta
    (next.1, .base next.2)

end IncrementalDetokenizer

end VllmV1.Frontend
