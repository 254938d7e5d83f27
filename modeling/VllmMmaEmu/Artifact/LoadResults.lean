import Mathlib.Data.List.Nodup
import Mathlib.Data.String.Basic
import VllmMmaEmu.Library.Digits

/-!
# Loading the results

`load_result` and `load_samples` of `artifact/scripts/compare.py`. One takes the result with
the greatest time stamp, as a text; the other the samples file that was modified last. They
agree on the newest run only when the local clocks and the modification times do: the texts that
`datetime.now().astimezone().isoformat()` writes are in the order of the local clocks, and the
instants need not be.
-/

namespace Artifact

open Digits

/-- A `datetime` with its UTC offset in seconds. -/
structure Timestamp where
  year : Nat
  month : Nat
  day : Nat
  hour : Nat
  minute : Nat
  second : Nat
  microsecond : Nat
  utcoffset : Int
  year_bound : 0 < year ∧ year < 10000
  month_bound : 0 < month ∧ month ≤ 12
  day_bound : 0 < day ∧ day ≤ 31
  hour_bound : hour < 24
  minute_bound : minute < 60
  second_bound : second < 60
  microsecond_bound : microsecond < 1000000
  utcoffset_bound : utcoffset.natAbs < 86400
  deriving DecidableEq

namespace Timestamp

def isLeap (year : Nat) : Bool := year % 4 = 0 ∧ (year % 100 ≠ 0 ∨ year % 400 = 0)

/-- The days of the year before the month. -/
def daysBeforeMonth (year month : Nat) : Nat :=
  ([0, 31, 59, 90, 120, 151, 181, 212, 243, 273, 304, 334].getD (month - 1) 0) +
    if month > 2 ∧ isLeap year then 1 else 0

/-- The days up to the date, from the first of January of year 1 on. -/
def ordinal (t : Timestamp) : Nat :=
  let y := t.year - 1
  y * 365 + y / 4 - y / 100 + y / 400 + daysBeforeMonth t.year t.month + t.day

/-- The microseconds up to the instant, in UTC. -/
def instant (t : Timestamp) : Int :=
  ((((t.ordinal * 24 + t.hour) * 60 + t.minute) * 60 + t.second : Nat) - t.utcoffset) * 1000000 +
    t.microsecond

/-- The offset as `isoformat` writes it; seconds only when there are some. -/
def offsetText (t : Timestamp) : List Char :=
  let off := t.utcoffset.natAbs
  (if t.utcoffset < 0 then '-' else '+') ::
    (digits 2 (off / 3600) ++ (':' :: (digits 2 (off / 60 % 60) ++
      if off % 60 = 0 then [] else ':' :: digits 2 (off % 60))))

/-- The microseconds, when there are some, and the offset. -/
def tailText (t : Timestamp) : List Char :=
  (if t.microsecond = 0 then [] else '.' :: digits 6 t.microsecond) ++ t.offsetText

/-- `isoformat`, as its characters. -/
def isoChars (t : Timestamp) : List Char :=
  digits 4 t.year ++ ('-' :: (digits 2 t.month ++ ('-' :: (digits 2 t.day ++ ('T' ::
    (digits 2 t.hour ++ (':' :: (digits 2 t.minute ++ (':' ::
      (digits 2 t.second ++ t.tailText))))))))))

def isoformat (t : Timestamp) : String := String.ofList t.isoChars

example : isoformat ⟨2025, 6, 1, 23, 0, 5, 0, 32400, by decide, by decide, by decide, by decide,
    by decide, by decide, by decide, by decide⟩ = "2025-06-01T23:00:05+09:00" := by decide

/-- What a clock on the wall shows, without the offset. -/
def clock (t : Timestamp) : List Nat :=
  [t.year, t.month, t.day, t.hour, t.minute, t.second, t.microsecond]

/-- The clock shows an earlier time, or the same with an offset whose text is smaller. -/
def ReadsBefore (a b : Timestamp) : Prop :=
  a.clock < b.clock ∨ a.clock = b.clock ∧ a.offsetText < b.offsetText

variable {a b : Timestamp}

lemma tailText_lt_iff : a.tailText < b.tailText ↔ a.microsecond < b.microsecond ∨
    a.microsecond = b.microsecond ∧ a.offsetText < b.offsetText := by
  have hdot : ∀ (t : Timestamp) (s : List Char), t.offsetText < '.' :: s := by
    intro t s
    rw [offsetText, List.cons_lt_cons_iff]
    split_ifs <;> exact .inl (by decide)
  unfold tailText
  split_ifs with ha hb hb
  · simp [ha, hb]
  · rw [List.nil_append, List.cons_append]
    simp only [ha, hdot, true_iff]
    omega
  · rw [List.nil_append, List.cons_append]
    constructor
    · intro h
      exact absurd h (List.lt_asymm (hdot b _))
    · omega
  · rw [List.cons_append, List.cons_append, List.cons_lt_cons_iff,
      digits_lt_iff a.microsecond_bound b.microsecond_bound]
    simp

/-- The texts are in the order of the clocks. -/
theorem isoformat_lt_iff : a.isoformat < b.isoformat ↔ a.ReadsBefore b := by
  have hyear := digits_lt_iff (w := 4) a.year_bound.2 b.year_bound.2
  have hmonth := @digits_lt_iff 2 a.month b.month (by have := a.month_bound; omega)
    (by have := b.month_bound; omega)
  have hday := @digits_lt_iff 2 a.day b.day (by have := a.day_bound; omega)
    (by have := b.day_bound; omega)
  have hhour := @digits_lt_iff 2 a.hour b.hour (by have := a.hour_bound; omega)
    (by have := b.hour_bound; omega)
  have hminute := @digits_lt_iff 2 a.minute b.minute (by have := a.minute_bound; omega)
    (by have := b.minute_bound; omega)
  have hsecond := @digits_lt_iff 2 a.second b.second (by have := a.second_bound; omega)
    (by have := b.second_bound; omega)
  rw [isoformat, isoformat, String.lt_iff, String.toList_ofList, String.toList_ofList]
  simp only [isoChars, hyear, hmonth, hday, hhour, hminute, hsecond, tailText_lt_iff,
    List.cons_lt_cons_iff, lt_irrefl, true_and, ReadsBefore, clock, List.cons.injEq,
    and_true]
  have hnil : ¬ ([] : List Nat) < [] := List.lt_irrefl _
  grind

lemma utcoffset_eq_of_offsetText_eq (h : a.offsetText = b.offsetText) :
    a.utcoffset = b.utcoffset := by
  have ha := a.utcoffset_bound
  have hb := b.utcoffset_bound
  simp only [offsetText, List.cons.injEq, true_and, @digits_append_inj 2 (a.utcoffset.natAbs / 3600)
    (b.utcoffset.natAbs / 3600) (by omega) (by omega), @digits_append_inj 2
      (a.utcoffset.natAbs / 60 % 60) (b.utcoffset.natAbs / 60 % 60) (by omega) (by omega)] at h
  obtain ⟨hsign, hhours, hminutes, hseconds⟩ := h
  have hsec : a.utcoffset.natAbs % 60 = b.utcoffset.natAbs % 60 := by
    split_ifs at hseconds with hza hzb hzb
    · omega
    · have hdigits := (List.cons.inj hseconds).2
      rw [← List.append_nil (digits 2 _), ← List.append_nil (digits 2 (b.utcoffset.natAbs % 60)),
        digits_append_inj (by omega) (by omega)] at hdigits
      exact hdigits.1
  have hsign' : a.utcoffset < 0 ↔ b.utcoffset < 0 := by
    by_cases hna : a.utcoffset < 0 <;> by_cases hnb : b.utcoffset < 0 <;> simp [hna, hnb] at hsign ⊢
  omega

lemma instant_eq_of_isoformat_eq (h : a.isoformat = b.isoformat) : a.instant = b.instant := by
  have hlt : ¬ a.ReadsBefore b := fun hlt => by
    rw [← isoformat_lt_iff, h] at hlt
    exact String.lt_irrefl _ hlt
  have hgt : ¬ b.ReadsBefore a := fun hgt => by
    rw [← isoformat_lt_iff, h] at hgt
    exact String.lt_irrefl _ hgt
  have hclock : a.clock = b.clock :=
    List.le_antisymm (fun hba => hgt (.inl hba)) fun hab => hlt (.inl hab)
  have hoffset : a.offsetText = b.offsetText :=
    List.le_antisymm (fun hba => hgt (.inr ⟨hclock.symm, hba⟩)) fun hab => hlt (.inr ⟨hclock, hab⟩)
  simp only [clock, List.cons.injEq, and_true] at hclock
  obtain ⟨hy, hmo, hd, hh, hmi, hs, hus⟩ := hclock
  simp only [instant, ordinal, hy, hmo, hd, hh, hmi, hs, hus, utcoffset_eq_of_offsetText_eq hoffset]

end Timestamp

/-- A file of a `results/` directory; what it holds, unless it cannot be read or parsed. -/
structure ResultsFile (J : Type) where
  stem : String
  json : Option J
  mtime : Int
  deriving DecidableEq, Repr

variable {J : Type}

/-- `p.stem.endswith("_samples")`. -/
def IsSamples (stem : String) : Prop := "_samples".toList <:+ stem.toList

instance (stem : String) : Decidable (IsSamples stem) :=
  inferInstanceAs (Decidable ("_samples".toList <:+ stem.toList))

/-- The loop of `load_result`; `timestamp` is `data.get("timestamp", "")`. -/
def loadLoop (timestamp : J → String) :
    List (ResultsFile J) → (best : Option J) → (bestTs : String) → Option J
  | [], best, _ => best
  | p :: files, best, bestTs => match p.json with
    | none => loadLoop timestamp files best bestTs
    | some data =>
      let ts := timestamp data
      if best.isNone ∨ bestTs ≤ ts then loadLoop timestamp files (some data) ts
      else loadLoop timestamp files best bestTs

/-- `load_result`, for the files in the order in which the directory lists them. -/
def loadResult (timestamp : J → String) (dir : List (ResultsFile J)) : Option J :=
  let files := dir.filter fun p => ¬ IsSamples p.stem
  if files.isEmpty then none else loadLoop timestamp files none ""

/-- `max(files, key=lambda p: p.stat().st_mtime)`: the first of the greatest. -/
def maxByMtime : List (ResultsFile J) → Option (ResultsFile J)
  | [] => none
  | p :: files => some (files.foldl (fun best p => if best.mtime < p.mtime then p else best) p)

/-- The file that `load_samples` reads. -/
def newestSamples (dir : List (ResultsFile J)) : Option (ResultsFile J) :=
  maxByMtime (dir.filter fun p => IsSamples p.stem)

/-- With a result in hand the loop ends with one of a greatest time stamp. -/
lemma loadLoop_some {timestamp : J → String} {files : List (ResultsFile J)} {best : J} :
    ∃ data, loadLoop timestamp files (some best) (timestamp best) = some data ∧
      (data = best ∨ ∃ p ∈ files, p.json = some data) ∧ timestamp best ≤ timestamp data ∧
      ∀ p ∈ files, ∀ d, p.json = some d → timestamp d ≤ timestamp data := by
  induction files generalizing best with
  | nil => exact ⟨best, rfl, .inl rfl, le_rfl, by simp⟩
  | cons p files ih =>
    cases hp : p.json with
    | none =>
      obtain ⟨data, hrun, hmem, hbest, hall⟩ := @ih best
      refine ⟨data, by rw [loadLoop, hp]; exact hrun, ?_, hbest, ?_⟩
      · exact hmem.imp_right fun ⟨p', hp', hd⟩ => ⟨p', List.mem_cons_of_mem p hp', hd⟩
      · intro p' hp' d hd
        rcases List.mem_cons.mp hp' with rfl | hp'
        · rw [hp] at hd
          cases hd
        · exact hall p' hp' d hd
    | some found =>
      by_cases hle : timestamp best ≤ timestamp found
      · obtain ⟨data, hrun, hmem, hbest, hall⟩ := @ih found
        refine ⟨data, by rw [loadLoop, hp]; simpa [hle] using hrun, .inr ?_, hle.trans hbest, ?_⟩
        · rcases hmem with rfl | ⟨p', hp', hd⟩
          · exact ⟨p, List.mem_cons_self, hp⟩
          · exact ⟨p', List.mem_cons_of_mem p hp', hd⟩
        · intro p' hp' d hd
          rcases List.mem_cons.mp hp' with rfl | hp'
          · rw [hp] at hd
            rwa [← Option.some.inj hd]
          · exact hall p' hp' d hd
      · obtain ⟨data, hrun, hmem, hbest, hall⟩ := @ih best
        refine ⟨data, by rw [loadLoop, hp]; simpa [hle] using hrun, ?_, hbest, ?_⟩
        · exact hmem.imp_right fun ⟨p', hp', hd⟩ => ⟨p', List.mem_cons_of_mem p hp', hd⟩
        · intro p' hp' d hd
          rcases List.mem_cons.mp hp' with rfl | hp'
          · rw [hp] at hd
            rw [← Option.some.inj hd]
            exact (not_le.mp hle).le.trans hbest
          · exact hall p' hp' d hd

/-- Readable files have one with a greatest time stamp, and `load_result` returns it. -/
lemma loadLoop_none {timestamp : J → String} {files : List (ResultsFile J)}
    (hne : ∃ p ∈ files, p.json ≠ none) :
    ∃ data, loadLoop timestamp files none "" = some data ∧ (∃ p ∈ files, p.json = some data) ∧
      ∀ p ∈ files, ∀ d, p.json = some d → timestamp d ≤ timestamp data := by
  induction files with
  | nil => simp at hne
  | cons p files ih =>
    cases hp : p.json with
    | none =>
      have hne' : ∃ p ∈ files, p.json ≠ none := by
        obtain ⟨p', hp', hd⟩ := hne
        rcases List.mem_cons.mp hp' with rfl | hp'
        · exact absurd hp hd
        · exact ⟨p', hp', hd⟩
      obtain ⟨data, hrun, ⟨p', hp', hd⟩, hall⟩ := ih hne'
      refine ⟨data, by rw [loadLoop, hp]; exact hrun, ⟨p', List.mem_cons_of_mem p hp', hd⟩, ?_⟩
      intro p₂ hp₂ d hd₂
      rcases List.mem_cons.mp hp₂ with rfl | hp₂
      · rw [hp] at hd₂
        cases hd₂
      · exact hall p₂ hp₂ d hd₂
    | some found =>
      obtain ⟨data, hrun, hmem, hbest, hall⟩ := @loadLoop_some J timestamp files found
      refine ⟨data, by rw [loadLoop, hp]; simpa using hrun, ?_, ?_⟩
      · rcases hmem with rfl | ⟨p', hp', hd⟩
        · exact ⟨p, List.mem_cons_self, hp⟩
        · exact ⟨p', List.mem_cons_of_mem p hp', hd⟩
      · intro p' hp' d hd
        rcases List.mem_cons.mp hp' with rfl | hp'
        · rw [hp] at hd
          rwa [← Option.some.inj hd]
        · exact hall p' hp' d hd

/-- The file that was modified last, and comes first among those. -/
def IsNewest (files : List (ResultsFile J)) (f : ResultsFile J) : Prop :=
  ∃ before after, files = before ++ f :: after ∧ (∀ g ∈ before, g.mtime < f.mtime) ∧
    ∀ g ∈ after, g.mtime ≤ f.mtime

lemma foldl_newest (files before : List (ResultsFile J)) (best : ResultsFile J)
    (middle : List (ResultsFile J)) (hbefore : ∀ g ∈ before, g.mtime < best.mtime)
    (hmiddle : ∀ g ∈ middle, g.mtime ≤ best.mtime) :
    IsNewest (before ++ best :: middle ++ files)
      (files.foldl (fun best p => if best.mtime < p.mtime then p else best) best) := by
  induction files generalizing before best middle with
  | nil => exact ⟨before, middle, by simp, hbefore, hmiddle⟩
  | cons p files ih =>
    rw [List.foldl_cons]
    split_ifs with hlt
    · have hnew : ∀ g ∈ before ++ best :: middle, g.mtime < p.mtime := by
        intro g hg
        rcases List.mem_append.mp hg with hg | hg
        · exact (hbefore g hg).trans hlt
        · rcases List.mem_cons.mp hg with rfl | hg
          · exact hlt
          · exact (hmiddle g hg).trans_lt hlt
      simpa using ih (before ++ best :: middle) p [] hnew (by simp)
    · have hmiddle' : ∀ g ∈ middle ++ [p], g.mtime ≤ best.mtime := by
        intro g hg
        rcases List.mem_append.mp hg with hg | hg
        · exact hmiddle g hg
        · exact List.mem_singleton.mp hg ▸ not_lt.mp hlt
      simpa using ih before best (middle ++ [p]) hbefore hmiddle'

lemma IsNewest.unique {files : List (ResultsFile J)} {f g : ResultsFile J}
    (hf : IsNewest files f) (hg : IsNewest files g) : f = g := by
  obtain ⟨before, after, rfl, hbefore, hafter⟩ := hf
  obtain ⟨before', after', heq, hbefore', hafter'⟩ := hg
  rcases List.append_eq_append_iff.mp heq with ⟨c, rfl, hc⟩ | ⟨c, rfl, hc⟩
  · cases c with
    | nil => exact (List.cons.inj hc).1
    | cons d c =>
      obtain ⟨rfl, rfl⟩ := List.cons.inj hc
      exact absurd (hbefore' f (by simp)) (not_lt.mpr (hafter g (by simp)))
  · cases c with
    | nil => exact (List.cons.inj hc).1.symm
    | cons d c =>
      obtain ⟨rfl, rfl⟩ := List.cons.inj hc
      exact absurd (hbefore g (by simp)) (not_lt.mpr (hafter' f (by simp)))

lemma maxByMtime_eq_some_iff {files : List (ResultsFile J)} {f : ResultsFile J} :
    maxByMtime files = some f ↔ IsNewest files f := by
  cases files with
  | nil => simp [maxByMtime, IsNewest]
  | cons p files =>
    have hnewest := foldl_newest files [] p [] (by simp) (by simp)
    rw [List.nil_append, List.cons_append, List.nil_append] at hnewest
    constructor
    · intro h
      rwa [← Option.some.inj h]
    · intro h
      rw [maxByMtime, hnewest.unique h]

/-- A run that has written its score file. -/
structure Run (J : Type) where
  stem : String
  time : Timestamp
  result : J
  deriving DecidableEq

/-- The directory holds the score files of the runs, stamped with distinct instants, and
samples files of some of them. -/
structure ResultsDir (timestamp : J → String) (dir : List (ResultsFile J)) (runs : List (Run J)) :
    Prop where
  names : (dir.map ResultsFile.stem).Nodup
  scores : ∀ r ∈ runs, ∃ f ∈ dir, f.stem = r.stem ∧ f.json = some r.result
  files : ∀ f ∈ dir, (∃ r ∈ runs, f.stem = r.stem ∧ f.json = some r.result) ∨
    ∃ r ∈ runs, f.stem = r.stem ++ "_samples"
  stamped : ∀ r ∈ runs, timestamp r.result = r.time.isoformat
  distinct : ∀ r ∈ runs, ∀ r' ∈ runs, r.time.instant = r'.time.instant → r = r'

/-- The run whose time stamp denotes the latest instant. -/
structure IsLatest (runs : List (Run J)) (latest : Run J) : Prop where
  mem : latest ∈ runs
  latest : ∀ r ∈ runs, r.time.instant ≤ latest.time.instant

/-- The result is that of the run, and the samples, if there are any, are those of the run. -/
structure LoadsRun (timestamp : J → String) (dir : List (ResultsFile J)) (r : Run J) : Prop where
  result : loadResult timestamp dir = some r.result
  samples : ∀ f, newestSamples dir = some f → f.stem = r.stem ++ "_samples"

/-- The run is also the newest by the local clocks, and its samples file by the modification
times; its name does not look like that of a samples file. -/
structure NewestByClock (dir : List (ResultsFile J)) (runs : List (Run J)) (latest : Run J) :
    Prop where
  named : ¬ IsSamples latest.stem
  clock : ∀ r ∈ runs, ¬ IsSamples r.stem → r ≠ latest → r.time.ReadsBefore latest.time
  mtime : (∀ f ∈ dir, ¬ IsSamples f.stem) ∨
    ∃ f, f.stem = latest.stem ++ "_samples" ∧ IsNewest (dir.filter fun p => IsSamples p.stem) f

variable {timestamp : J → String} {dir : List (ResultsFile J)} {runs : List (Run J)}
  {latest : Run J}

lemma isSamples_append (stem : String) : IsSamples (stem ++ "_samples") := by
  rw [IsSamples, String.toList_append]
  exact List.suffix_append _ _

lemma ResultsDir.run_of_file (h : ResultsDir timestamp dir runs) {f : ResultsFile J}
    (hf : f ∈ dir) (hstem : ¬ IsSamples f.stem) :
    ∃ r ∈ runs, f.stem = r.stem ∧ f.json = some r.result := by
  rcases h.files f hf with hscore | ⟨r, -, hr⟩
  · exact hscore
  · exact absurd (hr ▸ isSamples_append r.stem) hstem

lemma ResultsDir.loadResult_spec (h : ResultsDir timestamp dir runs) :
    (loadResult timestamp dir = none ∧ ∀ r ∈ runs, IsSamples r.stem) ∨
    ∃ r ∈ runs, ¬ IsSamples r.stem ∧ loadResult timestamp dir = some r.result ∧
      ∀ r' ∈ runs, ¬ IsSamples r'.stem → r'.time.isoformat ≤ r.time.isoformat := by
  by_cases hnone : ∀ f ∈ dir, IsSamples f.stem
  · refine .inl ⟨?_, fun r hr => ?_⟩
    · have hfiles : (dir.filter fun p => ¬ IsSamples p.stem) = [] := by
        simpa [List.filter_eq_nil_iff] using hnone
      simp only [loadResult, hfiles, List.isEmpty_nil, if_true]
    · obtain ⟨f, hf, hstem, -⟩ := h.scores r hr
      exact hstem ▸ hnone f hf
  · obtain ⟨f, hfile⟩ := not_forall.mp hnone
    obtain ⟨hf, hstem⟩ := Classical.not_imp.mp hfile
    have hmem : ∀ p, p ∈ (dir.filter fun p => ¬ IsSamples p.stem) ↔ p ∈ dir ∧ ¬ IsSamples p.stem := by
      simp
    obtain ⟨r, hr, -, hjson⟩ := h.run_of_file hf hstem
    obtain ⟨data, hrun, ⟨p, hp, hdata⟩, hall⟩ := @loadLoop_none J timestamp
      (dir.filter fun p => ¬ IsSamples p.stem) ⟨f, (hmem f).mpr ⟨hf, hstem⟩, by simp [hjson]⟩
    obtain ⟨hpdir, hpstem⟩ := (hmem p).mp hp
    obtain ⟨r, hr, hname, hresult⟩ := h.run_of_file hpdir hpstem
    obtain rfl := Option.some.inj (hdata.symm.trans hresult)
    refine .inr ⟨r, hr, hname ▸ hpstem, ?_, fun r' hr' hstem' => ?_⟩
    · have hne : (dir.filter fun p => ¬ IsSamples p.stem).isEmpty = false := by
        rw [List.isEmpty_eq_false_iff]
        exact List.ne_nil_of_mem hp
      simp only [loadResult, hne, Bool.false_eq_true, if_false]
      exact hrun
    · obtain ⟨f', hf', hname', hjson'⟩ := h.scores r' hr'
      have hle := hall f' ((hmem f').mpr ⟨hf', hname' ▸ hstem'⟩) _ hjson'
      rwa [h.stamped r' hr', h.stamped r hr] at hle

lemma ResultsDir.eq_of_isoformat (h : ResultsDir timestamp dir runs) {r r' : Run J}
    (hr : r ∈ runs) (hr' : r' ∈ runs) (heq : r.time.isoformat = r'.time.isoformat) : r = r' :=
  h.distinct r hr r' hr' (Timestamp.instant_eq_of_isoformat_eq heq)

lemma ResultsDir.loadResult_iff (h : ResultsDir timestamp dir runs) (hlatest : latest ∈ runs) :
    loadResult timestamp dir = some latest.result ↔ ¬ IsSamples latest.stem ∧
      ∀ r ∈ runs, ¬ IsSamples r.stem → r ≠ latest → r.time.ReadsBefore latest.time := by
  rcases h.loadResult_spec with ⟨hnone, hall⟩ | ⟨r, hr, hstem, hload, hmax⟩
  · rw [hnone]
    exact ⟨fun heq => (nomatch heq), fun hcond => absurd (hall latest hlatest) hcond.1⟩
  · rw [hload]
    constructor
    · intro heq
      have hstamp : r.time.isoformat = latest.time.isoformat := by
        rw [← h.stamped r hr, ← h.stamped latest hlatest, Option.some.inj heq]
      obtain rfl := h.eq_of_isoformat hr hlatest hstamp
      refine ⟨hstem, fun r' hr' hstem' hne => Timestamp.isoformat_lt_iff.mp ?_⟩
      exact lt_of_le_of_ne (hmax r' hr' hstem') fun heq => hne (h.eq_of_isoformat hr' hr heq)
    · rintro ⟨hnamed, hclock⟩
      by_contra hne
      have hbefore := hclock r hr hstem fun heq => hne (by rw [heq])
      exact absurd (Timestamp.isoformat_lt_iff.mpr hbefore) (not_lt.mpr (hmax latest hlatest hnamed))

/-- The loaders agree on the run of the latest instant exactly when it is also the newest by
the local clocks and by the modification times of the samples files. -/
theorem loadsRun_iff_newestByClock (h : ResultsDir timestamp dir runs)
    (hlatest : IsLatest runs latest) :
    LoadsRun timestamp dir latest ↔ NewestByClock dir runs latest := by
  have hsamples : (∀ f, newestSamples dir = some f → f.stem = latest.stem ++ "_samples") ↔
      ((∀ f ∈ dir, ¬ IsSamples f.stem) ∨ ∃ f, f.stem = latest.stem ++ "_samples" ∧
        IsNewest (dir.filter fun p => IsSamples p.stem) f) := by
    constructor
    · intro hall
      cases hnewest : newestSamples dir with
      | none =>
        refine .inl fun f hf hstem => ?_
        have hmem : f ∈ dir.filter fun p => IsSamples p.stem := by simp [hf, hstem]
        obtain ⟨p, files, hfiles⟩ := List.exists_cons_of_ne_nil (List.ne_nil_of_mem hmem)
        rw [newestSamples, hfiles] at hnewest
        cases hnewest
      | some f => exact .inr ⟨f, hall f hnewest, maxByMtime_eq_some_iff.mp hnewest⟩
    · rintro (hnone | ⟨f, hstem, hf⟩) g hg
      · obtain ⟨before, after, hfiles, -⟩ := maxByMtime_eq_some_iff.mp hg
        have hmem : g ∈ dir.filter fun p => IsSamples p.stem := by simp [hfiles]
        obtain ⟨hgdir, hgstem⟩ := List.mem_filter.mp hmem
        exact absurd (of_decide_eq_true hgstem) (hnone g hgdir)
      · rw [← hstem, (maxByMtime_eq_some_iff.mp hg).unique hf]
  constructor
  · intro hload
    obtain ⟨hnamed, hclock⟩ := (h.loadResult_iff hlatest.mem).mp hload.result
    exact ⟨hnamed, hclock, hsamples.mp hload.samples⟩
  · intro hnew
    exact ⟨(h.loadResult_iff hlatest.mem).mpr ⟨hnew.named, hnew.clock⟩, hsamples.mpr hnew.mtime⟩

/-- A full hour of one day. -/
def onTheHour (hour : Nat) (utcoffset : Int) (hhour : hour < 24)
    (hoffset : utcoffset.natAbs < 86400) : Timestamp where
  year := 2025
  month := 6
  day := 1
  hour := hour
  minute := 0
  second := 0
  microsecond := 0
  utcoffset := utcoffset
  year_bound := by decide
  month_bound := by decide
  day_bound := by decide
  hour_bound := hhour
  minute_bound := by decide
  second_bound := by decide
  microsecond_bound := by decide
  utcoffset_bound := hoffset

/-- A run whose result is nothing but its time stamp. -/
def stampedRun (stem : String) (time : Timestamp) : Run String := ⟨stem, time, time.isoformat⟩

/-- The score file and the samples file of a run, modified at one time. -/
def filesOf (r : Run String) (mtime : Int) : List (ResultsFile String) :=
  [⟨r.stem, some r.result, mtime⟩, ⟨r.stem ++ "_samples", some r.stem, mtime⟩]

def morning : Run String := stampedRun "first" (onTheHour 10 0 (by decide) (by decide))

def afternoon : Run String := stampedRun "second" (onTheHour 15 0 (by decide) (by decide))

/-- One hour before the afternoon of UTC, at an offset of nine hours. -/
def evening : Run String := stampedRun "first" (onTheHour 23 32400 (by decide) (by decide))

theorem loadsRun_iff_newestByClock_same_offset :
    LoadsRun id (filesOf afternoon 2 ++ filesOf morning 1) afternoon ↔
      NewestByClock (filesOf afternoon 2 ++ filesOf morning 1) [morning, afternoon] afternoon :=
  loadsRun_iff_newestByClock
    ⟨by decide, by decide, by decide, by decide, by decide⟩ ⟨by decide, by decide⟩

/-- The result of the earlier run is loaded, as its local clock showed a later time. -/
theorem not_loadsRun_two_offsets : ¬ ∀ (dir : List (ResultsFile String)) runs latest,
    ResultsDir id dir runs → IsLatest runs latest → LoadsRun id dir latest := by
  intro hclaim
  have hloads := hclaim (filesOf evening 1 ++ filesOf afternoon 2) [evening, afternoon] afternoon
    ⟨by decide, by decide, by decide, by decide, by decide⟩ ⟨by decide, by decide⟩
  exact absurd hloads.result (by decide)

end Artifact
