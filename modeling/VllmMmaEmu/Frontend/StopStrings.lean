import VllmMmaEmu.Library.Runs
import VllmMmaEmu.Frontend.Detokenizer

/-!
# Stop strings and streamed text

Updates of a detokenizer and the deltas that are read from it, up to the last delta. The text is to
be cut where the first stop string begins, and nothing behind that position is to be streamed.
-/

namespace VllmV1.Frontend

open Occurrences

/-- A detokenizer with what its user has seen. -/
structure TextStream (δ : Type) where
  detokenizer : BaseIncrementalDetokenizer δ
  /-- All characters that were decoded. -/
  decoded : List Char
  /-- The deltas in the order in which they were returned. -/
  deltas : List (List Char)
  /-- The stop string that was reported. -/
  reported : Option (List Char)
  finished : Bool
deriving DecidableEq

/-- `update`, or `get_next_output_text` for a delta. -/
inductive TextCall where
  | update (newTokenIds : List Nat) (stopTerminated : Bool)
  | nextOutputText (finished : Bool)

namespace TextStream

variable {δ : Type} (decodeNext : δ → Nat → List Char × δ)

/-- The stream of a new request without `min_tokens`, whose output is to contain no stop string. -/
def start (stop : List (List Char)) (decoder : δ) : TextStream δ where
  detokenizer := .init stop 0 false decoder
  decoded := []
  deltas := []
  reported := none
  finished := false

/-- A call. A request is not updated any more when a stop string was reported, and it is dropped
when its last delta was read. -/
def call (s : TextStream δ) : TextCall → Option (TextStream δ)
  | .update newTokenIds stopTerminated =>
    if s.reported.isSome ∨ s.finished then none
    else
      let updated := s.detokenizer.update decodeNext newTokenIds stopTerminated
      some { s with
        detokenizer := updated.2
        decoded := s.decoded ++ (s.detokenizer.decoded decodeNext newTokenIds stopTerminated).1
        reported := updated.1 }
  | .nextOutputText finished =>
    if s.finished then none
    else
      let next := s.detokenizer.getNextOutputText finished true
      some { s with
        detokenizer := next.2
        deltas := s.deltas ++ [next.1]
        finished := finished }

/-- The states reached by any calls. -/
def Reached (stop : List (List Char)) (decoder : δ) : TextStream δ → Prop :=
  Runs.Reached (fun s => s = start stop decoder) (fun _ _ => True)
    (fun s c s' => s.call decodeNext c = some s')

/-- Stop strings cut the text at their first occurrence. -/
structure CutsAtFirst (stop : List (List Char)) (s : TextStream δ) : Prop where
  /-- As no update follows a report, an update reports a stop string if it is the first after
  which the decoded text contains one. -/
  reports : s.reported.isSome ↔ Holds stop s.decoded
  cut : ∀ p, IsFirst stop s.decoded p → s.detokenizer.outputText = s.decoded.take p
  uncut : ¬ Holds stop s.decoded → s.detokenizer.outputText = s.decoded
  clean : ¬ Holds stop s.detokenizer.outputText
  /-- The deltas show the decoded text, and nothing behind the cut. -/
  shown : s.deltas.flatten <+: s.decoded
  hidden : ∀ p, IsFirst stop s.decoded p → s.deltas.flatten.length ≤ p
  whole : s.finished → s.deltas.flatten = s.detokenizer.outputText

/-- The first stop string of the list that the decoded text contains begins no later than any
other. -/
def ListedFirst (stop : List (List Char)) (s : TextStream δ) : Prop :=
  ∀ word, firstListed stop s.decoded = some word →
    ∀ p, IsFirst stop s.decoded p → Occurs word s.decoded p

/-- What the detokenizer has shown ends before every stop string that can still come. -/
structure Sound (stop : List (List Char)) (s : TextStream δ) : Prop where
  stop_eq : s.detokenizer.stop = stop
  minTokens_eq : s.detokenizer.minTokens = 0
  excludes : s.detokenizer.includeStopStrInOutput = false
  buffer_eq : s.detokenizer.stopBufferLength =
    if stop = [] then 0 else (BaseIncrementalDetokenizer.longest stop : Int) - 1
  shown : s.deltas.flatten =
    s.detokenizer.outputText.take s.detokenizer.lastOutputTextOffset
  offset_le : s.detokenizer.lastOutputTextOffset ≤ s.detokenizer.outputText.length
  whole : s.finished → s.detokenizer.lastOutputTextOffset = s.detokenizer.outputText.length
  reported_eq : s.reported = firstListed stop s.decoded
  text_eq : s.detokenizer.outputText = BaseIncrementalDetokenizer.cutText stop s.decoded
  held : s.finished = false → s.reported = none → s.detokenizer.lastOutputTextOffset = 0 ∨
    ∀ word ∈ stop, s.detokenizer.lastOutputTextOffset + word.length ≤ s.decoded.length + 1

variable {decodeNext} {stop : List (List Char)} {s s' : TextStream δ}

lemma not_holds_nil (hstop : [] ∉ stop) : ¬ Holds stop [] := by
  rintro ⟨word, hmem, i, hocc⟩
  have hword : word ≠ [] := fun heq => hstop (heq ▸ hmem)
  have hpos := List.length_pos_iff.mpr hword
  have hend := hocc.end_le hword
  rw [List.length_nil] at hend
  omega

lemma sound_start (hstop : [] ∉ stop) (decoder : δ) : Sound stop (start stop decoder) := by
  have hlisted : firstListed stop [] = none := firstListed_eq_none (not_holds_nil hstop)
  constructor
  · rfl
  · rfl
  · rfl
  · simp [start, BaseIncrementalDetokenizer.init]
  · rfl
  · exact Nat.zero_le _
  · exact fun hfinished => absurd hfinished Bool.false_ne_true
  · exact hlisted.symm
  · exact (BaseIncrementalDetokenizer.cutText_of_none hlisted).symm
  · exact fun _ _ => .inl rfl

lemma Sound.open_text (h : Sound stop s) (hopen : s.reported = none) :
    firstListed stop s.decoded = none ∧ s.detokenizer.outputText = s.decoded := by
  have hlisted : firstListed stop s.decoded = none := h.reported_eq.symm.trans hopen
  exact ⟨hlisted, by rw [h.text_eq, BaseIncrementalDetokenizer.cutText, hlisted]⟩

lemma Sound.buffer_nonneg (h : Sound stop s) (hstop : [] ∉ stop) :
    0 ≤ s.detokenizer.stopBufferLength := by
  rw [h.buffer_eq]
  split_ifs with hempty
  · exact le_refl 0
  · obtain ⟨word, hmem⟩ := List.exists_mem_of_ne_nil stop hempty
    have hword : word ≠ [] := fun heq => hstop (heq ▸ hmem)
    have hpos := List.length_pos_iff.mpr hword
    have hle := BaseIncrementalDetokenizer.length_le_longest hmem
    omega

lemma Sound.length_le_buffer (h : Sound stop s) {word : List Char} (hmem : word ∈ stop) :
    (word.length : Int) ≤ s.detokenizer.stopBufferLength + 1 := by
  have hle := BaseIncrementalDetokenizer.length_le_longest hmem
  rw [h.buffer_eq, if_neg (List.ne_nil_of_mem hmem)]
  omega

/-- A stop string that comes to be in the text begins behind what was shown. -/
lemma Sound.offset_le_of_occurs (h : Sound stop s) (hstop : [] ∉ stop) (hopen : s.reported = none)
    (hgoing : s.finished = false) {word new : List Char} (hmem : word ∈ stop) {p : Nat}
    (hocc : Occurs word (s.decoded ++ new) p) : s.detokenizer.lastOutputTextOffset ≤ p := by
  have hnone : ¬ Holds stop s.decoded := not_holds_of_firstListed hstop (h.open_text hopen).1
  have hend := hocc.lt_end hnone hmem
  rcases h.held hgoing hopen with hzero | hheld
  · omega
  · have := hheld word hmem
    omega

lemma Sound.update (h : Sound stop s) (hstop : [] ∉ stop) {ids : List Nat}
    {stopTerminated : Bool} (hcall : s.call decodeNext (.update ids stopTerminated) = some s') :
    Sound stop s' := by
  simp only [call] at hcall
  split_ifs at hcall with hclosed
  push Not at hclosed
  have hopen : s.reported = none := by simpa using hclosed.1
  have hgoing : s.finished = false := by simpa using hclosed.2
  obtain ⟨hlisted, htext⟩ := h.open_text hopen
  have hnone : ¬ Holds s.detokenizer.stop s.detokenizer.outputText := by
    rw [htext, h.stop_eq]
    exact not_holds_of_firstListed hstop hlisted
  have hupdate := BaseIncrementalDetokenizer.update_eq decodeNext h.minTokens_eq
    h.excludes (h.stop_eq ▸ hstop) hnone ids stopTerminated
  rw [hupdate, htext, h.stop_eq] at hcall
  generalize (s.detokenizer.decoded decodeNext ids stopTerminated) = new at hcall
  obtain rfl := Option.some.inj hcall
  have hle : s.detokenizer.lastOutputTextOffset ≤ s.decoded.length := htext ▸ h.offset_le
  have hshown : s.deltas.flatten = (s.decoded ++ new.1).take s.detokenizer.lastOutputTextOffset := by
    rw [List.take_append_of_le_length hle, ← htext, h.shown]
  have hcut : (BaseIncrementalDetokenizer.cutText stop (s.decoded ++ new.1)).take
        s.detokenizer.lastOutputTextOffset = s.deltas.flatten ∧
      s.detokenizer.lastOutputTextOffset ≤
        (BaseIncrementalDetokenizer.cutText stop (s.decoded ++ new.1)).length := by
    cases hnew : firstListed stop (s.decoded ++ new.1) with
    | none =>
      rw [BaseIncrementalDetokenizer.cutText_of_none hnew, List.length_append]
      exact ⟨hshown.symm, by omega⟩
    | some word =>
      obtain ⟨p, hp⟩ := index_of_firstListed hnew
      have hocc := (occurs_of_indexFrom hp).1
      have hmem := mem_of_firstListed hnew
      have hoffset := h.offset_le_of_occurs hstop hopen hgoing hmem hocc
      have hend := hocc.end_le fun heq => hstop (heq ▸ hmem)
      rw [BaseIncrementalDetokenizer.cutText_of_some hnew hp, List.take_take, min_eq_left hoffset,
        List.length_take]
      exact ⟨hshown.symm, by omega⟩
  constructor
  · exact h.stop_eq
  · exact h.minTokens_eq
  · exact h.excludes
  · exact h.buffer_eq
  · exact hcut.1.symm
  · exact hcut.2
  · exact fun hfinished => absurd (hgoing.symm.trans hfinished) Bool.false_ne_true
  · rfl
  · rfl
  · intro _ _
    refine (h.held hgoing hopen).imp id fun hheld word hmem => ?_
    have := hheld word hmem
    simp only [BaseIncrementalDetokenizer.extended, List.length_append]
    omega

lemma Sound.nextOutputText (h : Sound stop s) (hstop : [] ∉ stop) {finished : Bool}
    (hcall : s.call decodeNext (.nextOutputText finished) = some s') : Sound stop s' := by
  simp only [call] at hcall
  split_ifs at hcall with hclosed
  obtain rfl := Option.some.inj hcall
  obtain ⟨text, offset, hnext, hshown, hle, hall, hoffset⟩ :=
    BaseIncrementalDetokenizer.getNextOutputText_delta finished (h.buffer_nonneg hstop) h.offset_le
  rw [hnext]
  constructor
  · exact h.stop_eq
  · exact h.minTokens_eq
  · exact h.excludes
  · exact h.buffer_eq
  · simp only [List.flatten_append, List.flatten_singleton]
    rw [h.shown, hshown]
  · exact hle
  · exact hall
  · exact h.reported_eq
  · exact h.text_eq
  · intro hgoing hopen
    simp only at hgoing hopen ⊢
    have htext := (h.open_text hopen).2
    rcases hoffset with hsame | hnew
    · rw [hsame]
      exact h.held (by simpa using hclosed) hopen
    · right
      intro word hmem
      have hlen := h.length_le_buffer hmem
      have hat := hnew hgoing
      rw [htext] at hat
      omega

lemma Reached.sound (hstop : [] ∉ stop) {decoder : δ} (h : Reached decodeNext stop decoder s) :
    Sound stop s := by
  apply Runs.Reached.invariant _ _ h
  · rintro _ rfl
    exact sound_start hstop decoder
  · intro s c s' hs _ hcall
    cases c with
    | update ids stopTerminated => exact hs.update hstop hcall
    | nextOutputText finished => exact hs.nextOutputText hstop hcall

/-- The text is cut where the first stop string of the list that it contains begins. -/
lemma Sound.cut_iff (h : Sound stop s) (hstop : [] ∉ stop) {word : List Char} {p : Nat}
    (hlisted : firstListed stop s.decoded = some word) (hp : IsFirst stop s.decoded p) :
    s.detokenizer.outputText = s.decoded.take p ↔ Occurs word s.decoded p := by
  obtain ⟨q, hq⟩ := index_of_firstListed hlisted
  have hmem := mem_of_firstListed hlisted
  have hword : word ≠ [] := fun heq => hstop (heq ▸ hmem)
  have hocc := (occurs_of_indexFrom hq).1
  rw [h.text_eq, BaseIncrementalDetokenizer.cutText_of_some hlisted hq]
  constructor
  · intro htake
    have hend := hocc.end_le hword
    have hle := hp.first word hmem q hocc
    have hlen := congrArg List.length htake
    rw [List.length_take, List.length_take] at hlen
    rwa [show p = q by omega]
  · intro hfirst
    have hqp := le_of_indexFrom hword hq (Nat.zero_le p) hfirst
    rw [Nat.le_antisymm hqp (hp.first word hmem q hocc)]

lemma Sound.reports_iff (h : Sound stop s) (hstop : [] ∉ stop) :
    s.reported.isSome ↔ Holds stop s.decoded := by
  rw [h.reported_eq]
  constructor
  · intro hsome
    obtain ⟨word, hlisted⟩ := Option.isSome_iff_exists.mp hsome
    obtain ⟨p, hp⟩ := index_of_firstListed hlisted
    exact ⟨word, mem_of_firstListed hlisted, p, (occurs_of_indexFrom hp).1⟩
  · intro hholds
    by_contra hnone
    have hlisted : firstListed stop s.decoded = none := by simpa using hnone
    exact not_holds_of_firstListed hstop hlisted hholds

lemma Sound.uncut (h : Sound stop s) (hnone : ¬ Holds stop s.decoded) :
    s.detokenizer.outputText = s.decoded := by
  rw [h.text_eq, BaseIncrementalDetokenizer.cutText_of_none (firstListed_eq_none hnone)]

lemma Sound.cut_of_listedFirst (h : Sound stop s) (hstop : [] ∉ stop)
    (hfirst : ListedFirst stop s) {p : Nat} (hp : IsFirst stop s.decoded p) :
    s.detokenizer.outputText = s.decoded.take p := by
  have hsome := (h.reports_iff hstop).mpr hp.holds
  rw [h.reported_eq] at hsome
  obtain ⟨word, hlisted⟩ := Option.isSome_iff_exists.mp hsome
  exact (h.cut_iff hstop hlisted hp).mpr (hfirst word hlisted p hp)

/-- The text is all that was decoded or ends where the first stop string begins. -/
lemma Sound.text_cases (h : Sound stop s) (hstop : [] ∉ stop) (hfirst : ListedFirst stop s) :
    (¬ Holds stop s.decoded ∧ s.detokenizer.outputText = s.decoded) ∨
      ∃ p, IsFirst stop s.decoded p ∧ s.detokenizer.outputText = s.decoded.take p := by
  by_cases hholds : Holds stop s.decoded
  · obtain ⟨p, hp⟩ := hholds.exists_isFirst
    exact .inr ⟨p, hp, h.cut_of_listedFirst hstop hfirst hp⟩
  · exact .inl ⟨hholds, h.uncut hholds⟩

/-- The calls cut the text at its first stop string if and only if the stop string that comes first
in the list begins there. -/
theorem cutsAtFirst_iff (decodeNext : δ → Nat → List Char × δ) (stop : List (List Char))
    (hstop : [] ∉ stop) (decoder : δ) (s : TextStream δ)
    (h : Reached decodeNext stop decoder s) : CutsAtFirst stop s ↔ ListedFirst stop s := by
  have hsound := h.sound hstop
  constructor
  · intro hcuts word hlisted p hp
    exact (hsound.cut_iff hstop hlisted hp).mp (hcuts.cut p hp)
  · intro hfirst
    have htext := hsound.text_cases hstop hfirst
    constructor
    · exact hsound.reports_iff hstop
    · exact fun p hp => hsound.cut_of_listedFirst hstop hfirst hp
    · exact hsound.uncut
    · rcases htext with ⟨hnone, hall⟩ | ⟨p, hp, hcut⟩
      · rwa [hall]
      · rw [hcut]
        exact hp.not_holds_take hstop
    · have hprefix : s.detokenizer.outputText <+: s.decoded := by
        rcases htext with ⟨-, hall⟩ | ⟨p, -, hcut⟩
        · rw [hall]
        · rw [hcut]
          exact List.take_prefix _ _
      rw [hsound.shown]
      exact (List.take_prefix _ _).trans hprefix
    · intro p hp
      have hle := hsound.offset_le
      rw [hsound.cut_of_listedFirst hstop hfirst hp, List.length_take] at hle
      rw [hsound.shown, List.length_take]
      omega
    · intro hfinished
      rw [hsound.shown, hsound.whole hfinished, List.take_length]

/-- A decoder whose tokens are letters. -/
def letters (_ : Unit) (tokenId : Nat) : List Char × Unit := ([Char.ofNat (97 + tokenId)], ())

/-- A stop string that comes in two updates. -/
theorem cutsAtFirst_iff_straddling :
    ∃ s : TextStream Unit, Reached letters [['a', 'b']] () s ∧ s.deltas.flatten = ['c'] ∧
      s.decoded = ['c', 'a', 'b'] ∧ CutsAtFirst [['a', 'b']] s := by
  have hrun : Runs.runEvents (fun s c => call letters s c) (start [['a', 'b']] ())
      [.update [2, 0] false, .nextOutputText false, .update [1] false, .nextOutputText true] =
        some ⟨⟨[['a', 'b']], 0, false, 1, 1, [2, 0, 1], ['c'], ()⟩, ['c', 'a', 'b'], [['c'], []],
          some ['a', 'b'], true⟩ := by decide
  have hreached : Reached letters [['a', 'b']] () _ :=
    Runs.Reached.of_runEvents (.start rfl) (fun _ _ _ => trivial) hrun
  refine ⟨_, hreached, by decide, rfl, ?_⟩
  apply (cutsAtFirst_iff letters [['a', 'b']] (by decide) () _ hreached).mpr
  intro word hlisted p hp
  obtain ⟨first, hmem, hocc⟩ := hp.begins
  obtain rfl := List.mem_singleton.mp hmem
  obtain rfl := List.mem_singleton.mp (mem_of_firstListed hlisted)
  exact hocc

/-- A later stop string that comes first in the list: the text keeps the earlier one. -/
theorem not_cutsAtFirst_listed_later :
    ∃ s : TextStream Unit, Reached letters [['b'], ['a']] () s ∧
      s.detokenizer.outputText = ['a'] ∧ ¬ CutsAtFirst [['b'], ['a']] s := by
  have hrun : Runs.runEvents (fun s c => call letters s c) (start [['b'], ['a']] ())
      [.update [0, 1] false] =
        some ⟨⟨[['b'], ['a']], 0, false, 0, 0, [0, 1], ['a'], ()⟩, ['a', 'b'], [], some ['b'],
          false⟩ := by decide
  have hreached : Reached letters [['b'], ['a']] () _ :=
    Runs.Reached.of_runEvents (.start rfl) (fun _ _ _ => trivial) hrun
  refine ⟨_, hreached, rfl, fun hcuts => ?_⟩
  exact hcuts.clean ⟨['a'], by decide, 0, by decide⟩

end TextStream

end VllmV1.Frontend
