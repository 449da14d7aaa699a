import CallProfile.Proofs.Dataset.Promises

/-!
# The sign of the runtime

The loader warns about a run that ended before it started, and it compares the two points in time
to find out.  The runtime is their difference, which is computed in another way.  The two agree
about which point is the later one but for two cases, and these are told exactly here.

* `nanosBetween_swap` — a difference taken the other way round is the same with the other sign, so
  only one order of the points has to be looked at.
* **`nanosBetween_le_iff`** — from a point to one that is not before it, the difference is negative
  by a microsecond or more only over a leap second at the end of a day (`Instant.LeapsPast`), which
  the difference of the days does not count.
* `microseconds_nonneg_iff`, `microseconds_nonpos_iff` — rounding keeps the sign, but what does not
  fit a signed word becomes the greatest one on either side of zero.
* **`sign_runtime`** — so the runtime of a run without a warning is negative only over such a leap
  second, and that of a run with one is positive only over such a leap second or if it does not fit.
* `runtime_against_order` — both happen.
-/

namespace CallProfile

/-! ## Differences of points in time -/

namespace Instant

/-- The first point is in the leap second at the end of a day and the second one on the next day,
where it is at least a microsecond less far behind midnight than the first one is into the leap
second. -/
structure LeapsPast (earlier later : Instant) : Prop where
  day_eq : later.day = earlier.day + 1
  last_second : earlier.second = 86399
  first_second : later.second = 0
  nano_le : later.nano + 1_000_001_000 ≤ earlier.nano

/-- An instant does not precede another one exactly if it is the same or later, by day, then by
second, then by nanosecond. -/
lemma precedes_eq_false_iff {a b : Instant} :
    a.precedes b = false ↔ b.day < a.day ∨ b.day = a.day ∧
      (b.second < a.second ∨ b.second = a.second ∧ b.nano ≤ a.nano) := by
  rw [← Bool.not_eq_true, precedes]
  simp only [Bool.or_eq_true, Bool.and_eq_true, decide_eq_true_eq]
  omega

lemma precedes_asymm {a b : Instant} (h : a.precedes b = true) : b.precedes a = false := by
  rw [precedes] at h
  simp only [Bool.or_eq_true, Bool.and_eq_true, decide_eq_true_eq] at h
  rw [precedes_eq_false_iff]
  omega

/-- Only one of the two points can have its leap second counted. -/
lemma nanosBetween_swap (a b : Instant) : nanosBetween b a = -nanosBetween a b := by
  rw [nanosBetween, nanosBetween]
  split_ifs <;> omega

/-- From the last second of a day to the first one of the next, a leap second is not counted. -/
lemma nanosBetween_over_midnight {start finish : Instant} (hday : finish.day = start.day + 1)
    (hlast : start.second = 86399) (hfirst : finish.second = 0) :
    nanosBetween start finish = 1_000_000_000 + finish.nano - start.nano := by
  have hnoLeap := finish.leap_last
  rw [nanosBetween]
  simp only [inLeapSecond, decide_eq_true_eq]
  split_ifs <;> omega

/-- Anywhere else the difference to a later point is as it should be. -/
lemma nanosBetween_nonneg {start finish : Instant} (h : finish.precedes start = false)
    (hmidnight : ¬ (finish.day = start.day + 1 ∧ start.second = 86399 ∧ finish.second = 0)) :
    0 ≤ nanosBetween start finish := by
  have hstart := start.second_lt
  have hnano := start.nano_lt
  have hlast := finish.leap_last
  rw [precedes_eq_false_iff] at h
  rw [nanosBetween]
  simp only [inLeapSecond, decide_eq_true_eq]
  split_ifs <;> omega

/-- **The difference to a later point loses a microsecond only over a leap second at the end of a
day.** -/
theorem nanosBetween_le_iff {start finish : Instant} (h : finish.precedes start = false) :
    nanosBetween start finish ≤ -1000 ↔ start.LeapsPast finish := by
  constructor
  · intro hback
    by_cases hmidnight : finish.day = start.day + 1 ∧ start.second = 86399 ∧ finish.second = 0
    · obtain ⟨hday, hlast, hfirst⟩ := hmidnight
      rw [nanosBetween_over_midnight hday hlast hfirst] at hback
      exact ⟨hday, hlast, hfirst, by omega⟩
    · have := nanosBetween_nonneg h hmidnight
      omega
  · rintro ⟨hday, hlast, hfirst, hnano⟩
    rw [nanosBetween_over_midnight hday hlast hfirst]
    omega

/-- What is lost is less than a second. -/
lemma neg_second_lt_nanosBetween {start finish : Instant} (h : finish.precedes start = false) :
    -1_000_000_000 < nanosBetween start finish := by
  by_cases hmidnight : finish.day = start.day + 1 ∧ start.second = 86399 ∧ finish.second = 0
  · obtain ⟨hday, hlast, hfirst⟩ := hmidnight
    have hnano := start.nano_lt
    rw [nanosBetween_over_midnight hday hlast hfirst]
    omega
  · have := nanosBetween_nonneg h hmidnight
    omega

end Instant

/-! ## Microseconds -/

namespace Dataset

/-- Rounding toward zero is rounding down on both sides of zero, but for the sign. -/
lemma tdiv_thousand_cases (nanos : Int) :
    (0 ≤ nanos ∧ nanos.tdiv 1000 = nanos / 1000) ∨
      (nanos < 0 ∧ nanos.tdiv 1000 = -(-nanos / 1000)) := by
  rcases Int.le_total 0 nanos with h | h
  · exact .inl ⟨h, Int.tdiv_eq_ediv_of_nonneg h⟩
  · rcases Int.lt_or_eq_of_le h with hneg | rfl
    · refine .inr ⟨hneg, ?_⟩
      rw [← Int.tdiv_eq_ediv_of_nonneg (by omega), Int.neg_tdiv, Int.neg_neg]
    · exact .inl ⟨Int.le_refl 0, rfl⟩

/-- Nanoseconds become whole microseconds towards zero, or the greatest word if too many. -/
lemma toInt_microseconds (nanos : Int) :
    (microseconds nanos).toInt =
      if Int64.minValue.toInt ≤ nanos.tdiv 1000 ∧ nanos.tdiv 1000 ≤ Int64.maxValue.toInt then
        nanos.tdiv 1000
      else Int64.maxValue.toInt := by
  rw [microseconds]
  split_ifs with hfits
  · have hmax : Int64.maxValue.toInt = 9223372036854775807 := by decide
    exact Int64.toInt_ofInt_of_le hfits.1 (by omega)
  · rfl

/-- A difference that is too far below zero for a signed word counts as one above it. -/
lemma microseconds_nonneg_iff {nanos : Int} :
    0 ≤ microseconds nanos ↔ -1000 < nanos ∨ nanos.tdiv 1000 < Int64.minValue.toInt := by
  rw [Int64.le_iff_toInt_le, toInt_microseconds]
  have hmin : Int64.minValue.toInt = -9223372036854775808 := by decide
  have hmax : Int64.maxValue.toInt = 9223372036854775807 := by decide
  have hzero : (0 : Int64).toInt = 0 := by decide
  have := tdiv_thousand_cases nanos
  split_ifs <;> omega

/-- Microseconds are not positive exactly if less than one of them has passed, and they fit. -/
lemma microseconds_nonpos_iff {nanos : Int} :
    microseconds nanos ≤ 0 ↔ nanos < 1000 ∧ Int64.minValue.toInt ≤ nanos.tdiv 1000 := by
  rw [Int64.le_iff_toInt_le, toInt_microseconds]
  have hmin : Int64.minValue.toInt = -9223372036854775808 := by decide
  have hmax : Int64.maxValue.toInt = 9223372036854775807 := by decide
  have hzero : (0 : Int64).toInt = 0 := by decide
  have := tdiv_thousand_cases nanos
  split_ifs <;> omega

/-! ## The sign of the runtime -/

variable {dataset : Dataset} {start finish : Instant}

/-- The runtime is the time between start and finish where both are known. -/
lemma runtime_eq (hstart : dataset.start = some start) (hfinish : dataset.finish = some finish) :
    dataset.runtime = microseconds (Instant.nanosBetween start finish) := by
  rw [runtime]
  simp only [hstart, hfinish]

/-- Loading gives no warning exactly if the end is not before the start. -/
lemma warnings_ofValue_eq_nil_iff {value : Json.Value} (h : (ofValue value).2 = .ok dataset)
    (hstart : dataset.start = some start) (hfinish : dataset.finish = some finish) :
    (ofValue value).1 = [] ↔ finish.precedes start = false := by
  obtain ⟨document, -, hdataset, hwarnings⟩ := exists_document_of_ofValue h
  obtain ⟨-, -, -, hs, hf⟩ := DatasetDocument.of_dataset_eq_ok hdataset
  rw [hs] at hstart
  rw [hf] at hfinish
  rw [hwarnings, DatasetDocument.warnings]
  simp only [hstart, hfinish]
  cases finish.precedes start <;> simp

end Dataset

/-- **The sign of the runtime of a run with a start and an end.**  Loading it gives no warning
exactly if its end is not before its start.  Then the runtime is at least zero unless the run leaps
past midnight.  If the end is before the start, the runtime is at most zero unless the run leaps
past midnight the other way round or its length in microseconds is below every signed word. -/
theorem sign_runtime {dataset : Dataset} {start finish : Instant}
    (hstart : dataset.start = some start) (hfinish : dataset.finish = some finish) :
    (∀ value, (Dataset.ofValue value).2 = .ok dataset →
      ((Dataset.ofValue value).1 = [] ↔ finish.precedes start = false)) ∧
    (finish.precedes start = false → (0 ≤ dataset.runtime ↔ ¬ start.LeapsPast finish)) ∧
    (finish.precedes start = true →
      (dataset.runtime ≤ 0 ↔ ¬ finish.LeapsPast start ∧
        Int64.minValue.toInt ≤ (Instant.nanosBetween start finish).tdiv 1000)) := by
  refine ⟨fun value h => Dataset.warnings_ofValue_eq_nil_iff h hstart hfinish, ?_, ?_⟩
  · intro hforward
    -- the difference loses less than a second, so it is far from not fitting a word
    have hfits : Int64.minValue.toInt ≤ (Instant.nanosBetween start finish).tdiv 1000 := by
      have hmin : Int64.minValue.toInt = -9223372036854775808 := by decide
      have hsecond := Instant.neg_second_lt_nanosBetween hforward
      have hmicros := Dataset.tdiv_thousand_cases (Instant.nanosBetween start finish)
      omega
    rw [Dataset.runtime_eq hstart hfinish, Dataset.microseconds_nonneg_iff,
      ← Instant.nanosBetween_le_iff hforward]
    omega
  · intro hback
    have hswap := Instant.nanosBetween_swap finish start
    rw [Dataset.runtime_eq hstart hfinish, Dataset.microseconds_nonpos_iff,
      ← Instant.nanosBetween_le_iff (Instant.precedes_asymm hback)]
    omega

/-- The document of a run without samples. -/
def Dataset.timedValue (start finish : String) : Json.Value :=
  .object [("end_time", .text finish), ("profiles", .array []), ("start_time", .text start)]

/-- A run that starts in the leap second at the end of a year and ends right behind midnight. -/
def Dataset.newYear : Dataset where
  samples := []
  start := some ⟨17166, 86399, 1_900_000_000, by decide, by decide, by decide⟩
  finish := some ⟨17167, 0, 0, by decide, by decide, by decide⟩

/-- A run that ends on the first day of the calendar and starts on its last one. -/
def Dataset.backwards : Dataset where
  samples := []
  start := some ⟨95026236, 86399, 0, by decide, by decide, by decide⟩
  finish := some ⟨-96465292, 0, 0, by decide, by decide, by decide⟩

lemma Dataset.ofValue_newYear :
    Dataset.ofValue (timedValue "2016-12-31T23:59:60.9Z" "2017-01-01T00:00:00Z") =
      ([], .ok newYear) := rfl

lemma Dataset.ofValue_backwards :
    (Dataset.ofValue (timedValue "+262142-12-31T23:59:59Z" "-262143-01-01T00:00:00Z")).2 =
      .ok backwards := rfl

/-- The first of these runs leaps past midnight, so that its runtime is negative although loading it
gives no warning; the second one is too long for its sign to be kept. -/
theorem newYear_sign_runtime :
    (Dataset.ofValue (Dataset.timedValue "2016-12-31T23:59:60.9Z" "2017-01-01T00:00:00Z")).1 = [] ∧
      ¬ 0 ≤ Dataset.newYear.runtime ∧ ¬ Dataset.backwards.runtime ≤ 0 := by
  obtain ⟨hwarnings, hforward, -⟩ := @sign_runtime Dataset.newYear _ _ rfl rfl
  obtain ⟨-, -, hback⟩ := @sign_runtime Dataset.backwards _ _ rfl rfl
  refine ⟨(hwarnings _ (congrArg Prod.snd Dataset.ofValue_newYear)).mpr (by decide), ?_, ?_⟩
  · rw [hforward (by decide), not_not]
    exact ⟨rfl, rfl, rfl, by decide⟩
  · rw [hback (by decide)]
    exact fun h => absurd h.2 (by decide)

/-- **The sign of the runtime can be against the order of start and end.**  A run that is loaded
without a warning has a runtime of less than zero, and one whose end is before its start has the
greatest runtime that there is. -/
theorem runtime_against_order :
    (∃ value dataset start finish, Dataset.ofValue value = ([], .ok dataset) ∧
      dataset.start = some start ∧ dataset.finish = some finish ∧
      finish.precedes start = false ∧ dataset.runtime = -900_000) ∧
    ∃ value dataset start finish, (Dataset.ofValue value).2 = .ok dataset ∧
      dataset.start = some start ∧ dataset.finish = some finish ∧
      finish.precedes start = true ∧ dataset.runtime = Int64.maxValue :=
  ⟨⟨_, _, _, _, Dataset.ofValue_newYear, rfl, rfl, by decide, by decide⟩,
    ⟨_, _, _, _, Dataset.ofValue_backwards, rfl, rfl, by decide, by decide⟩⟩

end CallProfile
