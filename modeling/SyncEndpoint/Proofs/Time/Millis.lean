import Mathlib.Data.String.Basic
import SyncEndpoint.Event
import SyncEndpoint.Proofs.Text.Columns
import SyncEndpoint.Proofs.Time.Reading

set_option autoImplicit false

/-! # The time of an event

An event shows its time with three digits of the fraction. In the years of four digits that is a
text of one shape, which is read back as the time without what it has beyond whole milliseconds,
and comes in the order of times. It is otherwise for leap seconds that do not end a minute, which
are shown as the seconds that follow. -/

namespace SyncEndpoint

namespace Timestamp

open Text

/-- Times come by their second, and within it by their nanoseconds. -/
instance : LE Timestamp where
  le t u := t.seconds < u.seconds ∨ t.seconds = u.seconds ∧ t.nanoseconds ≤ u.nanoseconds

theorem le_iff {t u : Timestamp} : t ≤ u ↔
    t.seconds < u.seconds ∨ t.seconds = u.seconds ∧ t.nanoseconds ≤ u.nanoseconds := Iff.rfl

instance (t u : Timestamp) : Decidable (t ≤ u) := inferInstanceAs (Decidable (_ ∨ _))

/-- The year of a time has four digits and no sign. -/
def HasPlainYear (t : Timestamp) : Prop :=
  0 ≤ t.date.year ∧ t.date.year ≤ 9999

instance (t : Timestamp) : Decidable t.HasPlainYear := inferInstanceAs (Decidable (_ ∧ _))

/-- The columns of a time with three digits of the fraction. -/
def millisColumns : List Column :=
  [⟨4, '-'⟩, ⟨2, '-'⟩, ⟨2, 'T'⟩, ⟨2, ':'⟩, ⟨2, ':'⟩, ⟨2, '.'⟩, ⟨3, 'Z'⟩]

/-- The numbers that a time shows in its columns. -/
def millisFields (t : Timestamp) : List Nat :=
  [t.date.year.toNat, t.date.month, t.date.day, t.hour, t.minute, t.second,
    t.fraction / 1000000]

variable {t u : Timestamp}

theorem toList_toMillisText (hyear : t.HasPlainYear) :
    t.toMillisText.toList = layout millisColumns t.millisFields := by
  simp [toMillisText, secondText, yearText, hyear.1, hyear.2, millisColumns, millisFields, layout]

theorem forall₂_fits_millisFields (hyear : t.HasPlainYear) :
    List.Forall₂ Column.Fits millisColumns t.millisFields := by
  have hdate : t.date.isValid = true := Date.isValid_ofDays _
  simp only [Date.isValid, Bool.and_eq_true, decide_eq_true_eq] at hdate
  have hlast := Date.daysInMonth_le_31 t.date.year t.date.month
  have hplain : t.date.year.toNat < 10000 := by
    obtain ⟨_, _⟩ := hyear
    omega
  have hday := t.secondOfDay_lt
  have hhour : t.hour < 100 := by
    rw [hour]
    omega
  have hminute : t.minute < 100 := by
    rw [minute]
    omega
  have hsecond : t.second < 100 := by
    rw [second]
    split <;> omega
  have hmillis : t.fraction / 1000000 < 1000 := by
    rw [fraction, nanosPerSecond]
    omega
  have hfits : ∀ {width n : Nat} {mark : Char}, 0 < width → n < 10 ^ width →
      Column.Fits ⟨width, mark⟩ n := fun hwidth hn => ⟨hwidth, hn⟩
  simp only [millisColumns, millisFields, List.forall₂_cons, List.Forall₂.nil, and_true]
  exact ⟨hfits (by decide) hplain, hfits (by decide) (by omega), hfits (by decide) (by omega),
    hfits (by decide) hhour, hfits (by decide) hminute, hfits (by decide) hsecond,
    hfits (by decide) hmillis⟩

theorem millisFields_shown (ht : t.inRange = true) : t.shown.millisFields = t.millisFields := by
  obtain ⟨hdate, hhour, hminute, hsecond, hfraction⟩ := shown_parts ht
  rw [millisFields, hdate, hhour, hminute, hsecond, hfraction, millisFields]

theorem HasPlainYear.shown (hyear : t.HasPlainYear) (ht : t.inRange = true) :
    t.shown.HasPlainYear := by
  rwa [HasPlainYear, (shown_parts ht).1]

/-! ## Order -/

theorem truncate_le_iff {unit : Nat} : t.truncate unit ≤ u.truncate unit ↔
    t.seconds < u.seconds ∨ t.seconds = u.seconds ∧
      t.nanoseconds / unit * unit ≤ u.nanoseconds / unit * unit := Iff.rfl

theorem le_or_le (t u : Timestamp) : t ≤ u ∨ u ≤ t := by
  rw [le_iff, le_iff]
  omega

/-- Within a day later seconds show later times of day. -/
theorem timeOfDay_lt (ht : t.isValid = true) (hu : u.isValid = true)
    (h : t.secondOfDay < u.secondOfDay) : t.hour < u.hour ∨ t.hour = u.hour ∧
      (t.minute < u.minute ∨ t.minute = u.minute ∧ t.second < u.second) := by
  -- Only the last second of a minute can be shown as another one, and nothing follows it there.
  have hsecond : t.secondOfDay % 60 < 59 → t.second = t.secondOfDay % 60 := by
    rcases second_cases ht with ⟨-, hplain⟩ | ⟨-, -, hlast⟩ <;> omega
  have hsecond' : u.secondOfDay % 60 ≤ u.second := by
    rcases second_cases hu with ⟨-, hplain⟩ | ⟨-, hleap, hlast⟩ <;> omega
  have hhour : t.hour ≤ u.hour := Nat.div_le_div_right (Nat.le_of_lt h)
  rcases Nat.lt_or_eq_of_le hhour with hlater | hsame
  · exact Or.inl hlater
  · refine Or.inr ⟨hsame, ?_⟩
    rw [hour, hour] at hsame
    rw [minute, minute]
    omega

/-- Within a second the leap second comes last. -/
theorem second_le (ht : t.isValid = true) (hu : u.isValid = true)
    (hday : t.secondOfDay = u.secondOfDay)
    (h : t.nanoseconds / 1000000 * 1000000 ≤ u.nanoseconds / 1000000 * 1000000) :
    t.second < u.second ∨ t.second = u.second ∧ t.fraction / 1000000 ≤ u.fraction / 1000000 := by
  have hsecond := second_cases ht
  have hsecond' := second_cases hu
  have hnanos := nanoseconds_eq ht
  have hnanos' := nanoseconds_eq hu
  rcases hsecond with ⟨hplain, _⟩ | ⟨hleap, _⟩ <;> rcases hsecond' with ⟨hplain', _⟩ | ⟨hleap', _⟩
  · rw [if_pos hplain] at hnanos
    rw [if_pos hplain'] at hnanos'
    omega
  · omega
  · rw [nanosPerSecond] at hleap hplain'
    omega
  · rw [if_neg (by omega), nanosPerSecond] at hnanos
    rw [if_neg (by omega), nanosPerSecond] at hnanos'
    omega

theorem millisFields_le (ht : t.isValid = true) (hu : u.isValid = true)
    (hyear : t.HasPlainYear) (h : t.truncate 1000000 ≤ u.truncate 1000000) :
    t.millisFields < u.millisFields ∨ t.millisFields = u.millisFields := by
  simp only [millisFields, List.cons_lt_cons_iff, List.lt_irrefl, List.cons.injEq, and_true,
    and_false, or_false]
  rcases Int.lt_trichotomy (t.seconds / secondsPerDay) (u.seconds / secondsPerDay)
    with hday | hday | hday
  · have hbefore : t.date.Before u.date := Date.before_ofDays hday
    refine Or.inl ?_
    rcases hbefore with hless | ⟨heq, hless | ⟨hmonth, hless⟩⟩
    · have hfirst := hyear.1
      exact Or.inl (by omega)
    · exact Or.inr ⟨by rw [heq], Or.inl hless⟩
    · exact Or.inr ⟨by rw [heq], Or.inr ⟨hmonth, Or.inl hless⟩⟩
  · have hdate : t.date = u.date := congrArg Date.ofDays hday
    have hseconds : t.secondOfDay < u.secondOfDay ∨ t.secondOfDay = u.secondOfDay ∧
        t.nanoseconds / 1000000 * 1000000 ≤ u.nanoseconds / 1000000 * 1000000 := by
      rw [truncate_le_iff] at h
      simp only [secondOfDay, secondsPerDay] at hday ⊢
      omega
    rcases hseconds with hlater | ⟨hsame, hnanos⟩
    · have hlt := timeOfDay_lt ht hu hlater
      simp only [hdate, Nat.lt_irrefl, false_or, true_and]
      exact Or.inl (hlt.imp_right (And.imp_right (Or.imp_right (And.imp_right Or.inl))))
    · have hhour : t.hour = u.hour := by rw [hour, hour, hsame]
      have hminute : t.minute = u.minute := by rw [minute, minute, hsame]
      have hle := second_le ht hu hsame hnanos
      simp only [hdate, hhour, hminute, Nat.lt_irrefl, false_or, true_and]
      omega
  · exfalso
    rw [truncate_le_iff] at h
    simp only [secondsPerDay] at hday
    omega

section Text

variable (ht : t.inRange = true) (hu : u.inRange = true) (hyear : t.HasPlainYear)
  (hyear' : u.HasPlainYear)

include ht

theorem ofRfc3339?_toMillisText :
    ofRfc3339? t.toMillisText = some (t.shown.truncate 1000000) := by
  rw [← toMillisText_shown ht]
  exact ofRfc3339?_digitsText (isValid_shown ht) (by decide) (by decide)

include hu hyear hyear'

theorem toMillisText_le (h : t.shown.truncate 1000000 ≤ u.shown.truncate 1000000) :
    t.toMillisText ≤ u.toMillisText := by
  have hfields := millisFields_le (isValid_shown ht) (isValid_shown hu) (hyear.shown ht) h
  rw [millisFields_shown ht, millisFields_shown hu] at hfields
  rcases hfields with hlt | heq
  · refine le_of_lt (String.lt_iff_toList_lt.mpr ?_)
    rw [toList_toMillisText hyear, toList_toMillisText hyear']
    exact layout_lt_layout (forall₂_fits_millisFields hyear) (forall₂_fits_millisFields hyear') hlt
  · refine le_of_eq (String.toList_inj.mp ?_)
    rw [toList_toMillisText hyear, toList_toMillisText hyear', heq]

/-- Texts come in the order of the times that are read from them. -/
theorem toMillisText_le_iff : t.toMillisText ≤ u.toMillisText ↔
    t.shown.truncate 1000000 ≤ u.shown.truncate 1000000 := by
  refine ⟨fun htexts => ?_, toMillisText_le ht hu hyear hyear'⟩
  refine (le_or_le _ _).elim id fun hafter => ?_
  -- Two texts that are equal are read as one time.
  have heq := le_antisymm htexts (toMillisText_le hu ht hyear' hyear hafter)
  have hread := ofRfc3339?_toMillisText ht
  rw [heq, ofRfc3339?_toMillisText hu, Option.some.injEq] at hread
  rw [hread]
  exact Or.inr ⟨rfl, Nat.le_refl _⟩

end Text

/-- Times stay in their order when they are shown with milliseconds, but for a leap second that is
shown as the second that follows, where there is a time with fewer milliseconds. -/
theorem truncate_shown_le_iff (ht : t.inRange = true) (hu : u.inRange = true) (h : t ≤ u) :
    t.shown.truncate 1000000 ≤ u.shown.truncate 1000000 ↔
      ¬ (t.IsStray ∧ u.seconds = t.seconds + 1 ∧
        u.nanoseconds / 1000000 < t.shown.nanoseconds / 1000000) := by
  have hbound := (inRange_iff.mp ht).2
  have hbound' := (inRange_iff.mp hu).2
  rw [le_iff] at h
  rw [truncate_le_iff]
  by_cases hstray : t.IsStray <;> by_cases hstray' : u.IsStray
  · simp only [hstray, true_and, shown_of_isStray hstray, shown_of_isStray hstray']
    rw [IsStray] at hstray hstray'
    rw [nanosPerSecond] at *
    omega
  · -- In the second of a stray one there is no time behind it that is not.
    simp only [hstray, true_and, shown_of_isStray hstray, shown_eq_self_iff.mpr hstray']
    rw [IsStray] at hstray hstray'
    rw [nanosPerSecond] at *
    omega
  · simp only [hstray, false_and, not_false_eq_true, iff_true, shown_of_isStray hstray',
      shown_eq_self_iff.mpr hstray]
    omega
  · simp only [hstray, false_and, not_false_eq_true, iff_true]
    rw [shown_eq_self_iff.mpr hstray, shown_eq_self_iff.mpr hstray']
    omega

end Timestamp

namespace ChangeEvent

/-- The time of an event, in the years of four digits, is shown in 24 characters of one shape. They
are read back as the time that is shown with its nanoseconds cut off at whole milliseconds. That is
the time of the event, but for a leap second that does not end a minute; and the texts of two events
come in the order of their times, unless the earlier one is such a leap second, and the later one
has fewer milliseconds in the second that follows. -/
theorem timestamp_millis (e e' : ChangeEvent) (hrange : e.time.inRange = true)
    (hrange' : e'.time.inRange = true) (hyear : e.time.HasPlainYear)
    (hyear' : e'.time.HasPlainYear) :
    e.timestamp.length = 24 ∧ Text.Matches "####-##-##T##:##:##.###Z" e.timestamp ∧
      Timestamp.ofRfc3339? e.timestamp =
        some ⟨e.time.shown.seconds, e.time.shown.nanoseconds / 1000000 * 1000000⟩ ∧
      (e.time.shown = e.time ↔ ¬ e.time.IsStray) ∧
      (e.time ≤ e'.time → (e.timestamp ≤ e'.timestamp ↔ ¬ (e.time.IsStray ∧
        e'.time.seconds = e.time.seconds + 1 ∧
          e'.time.nanoseconds / 1000000 < e.time.shown.nanoseconds / 1000000))) := by
  have hmatches : Text.Matches "####-##-##T##:##:##.###Z" e.timestamp := by
    rw [Text.Matches, timestamp, Timestamp.toList_toMillisText hyear]
    exact Text.matches_layout (by decide) (Timestamp.forall₂_fits_millisFields hyear)
  have hlength : e.timestamp.length = 24 := by
    rw [← String.length_toList, ← List.Forall₂.length_eq hmatches]
    rfl
  refine ⟨hlength, hmatches, Timestamp.ofRfc3339?_toMillisText hrange, Timestamp.shown_eq_self_iff,
    fun hle => ?_⟩
  rw [← Timestamp.truncate_shown_le_iff hrange hrange' hle]
  exact Timestamp.toMillisText_le_iff hrange hrange' hyear hyear'

/-- The last time of a leap second of the year 2016 and the first of the next year. -/
theorem timestamp_millis_leap_second :
    let e := removed ⟨1483228799, 1999999999⟩ "a"
    let e' := removed ⟨1483228800, 0⟩ "b"
    e.time.inRange = true ∧ e'.time.inRange = true ∧ e.time.HasPlainYear ∧ e'.time.HasPlainYear ∧
      e.time ≤ e'.time ∧ e.timestamp = "2016-12-31T23:59:60.999Z" ∧
      Timestamp.ofRfc3339? e.timestamp = some ⟨1483228799, 1999000000⟩ ∧
      e.timestamp ≤ e'.timestamp := by
  have hle : (removed ⟨1483228799, 1999999999⟩ "a").time ≤
      (removed ⟨1483228800, 0⟩ "b").time := Or.inl (by decide)
  have hspec := timestamp_millis (removed ⟨1483228799, 1999999999⟩ "a")
    (removed ⟨1483228800, 0⟩ "b") (by decide) (by decide) (by decide) (by decide)
  exact ⟨by decide, by decide, by decide, by decide, hle, by decide, hspec.2.2.1,
    (hspec.2.2.2.2 hle).mpr (by decide)⟩

/-- A leap second after the fourth second of a minute is read back as a part of the fifth one, where
a later time is shown before it. -/
theorem timestamp_stray_leap_second :
    let e := removed ⟨4, 1333333333⟩ "a"
    let e' := removed ⟨5, 100000000⟩ "b"
    e.time.inRange = true ∧ e'.time.inRange = true ∧ e.time.HasPlainYear ∧ e'.time.HasPlainYear ∧
      e.timestamp = "1970-01-01T00:00:05.333Z" ∧
      Timestamp.ofRfc3339? e.timestamp = some ⟨5, 333000000⟩ ∧
      e.time ≤ e'.time ∧ ¬ e.timestamp ≤ e'.timestamp := by
  refine ⟨by decide, by decide, by decide, by decide, by decide, ?_, Or.inl (by decide), ?_⟩
  · exact Timestamp.ofRfc3339?_toMillisText (by decide)
  · exact fun hle => absurd ((Timestamp.toMillisText_le_iff (by decide) (by decide) (by decide)
      (by decide)).mp hle) (by decide)

end ChangeEvent

end SyncEndpoint
