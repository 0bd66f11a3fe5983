import SyncEndpoint.Proofs.Text.Digits
import SyncEndpoint.Proofs.Time.Calendar
import SyncEndpoint.Time.Reader

set_option autoImplicit false

/-! # Times read back

A time is read back from its date and its time of day to the second, and whatever fraction is
written behind them (`timestamp?_secondText`). So what a text with some digits of the fraction loses
are the digits behind them (`ofRfc3339?_digitsText`), and the fewest digits that tell all of the
fraction lose nothing (`ofRfc3339?_toRfc3339`).

Leap seconds that do not end a minute are the exception: the text of such a time is that of another
one (`shown`), which is what it is read as (`ofRfc3339?_toRfc3339_eq_shown`). -/

namespace SyncEndpoint.Timestamp

open Text

variable {cs ds rest : List Char} {c : Char} {n most width : Nat}

namespace Reader

/-! ## Numbers and marks -/

@[simp]
theorem skipBlanks_cons (hc : isBlank c = false) : skipBlanks (c :: cs) = c :: cs := by
  simp [skipBlanks, hc]

theorem skipBlanks_digits (hds : ∀ d ∈ ds, d.isDigit = true) (hempty : ds ≠ []) :
    skipBlanks (ds ++ rest) = ds ++ rest := by
  obtain ⟨d, ds, rfl⟩ := List.exists_cons_of_ne_nil hempty
  exact skipBlanks_cons (isBlank_of_isDigit (hds d List.mem_cons_self))

theorem mark?_cons (hc : isBlank c = false) : mark? c (c :: cs) = some cs := by
  simp [mark?, hc]

/-- Digits are read up to where they end. -/
theorem number?_digits (hds : ∀ d ∈ ds, d.isDigit = true) (hempty : ds ≠ [])
    (hlength : ds.length ≤ most) (hc : c.isDigit = false)
    (hn : numeral? 10 digitValue? ds = some n) :
    number? most (ds ++ c :: rest) = some (n, c :: rest) := by
  have hend : ((c :: rest).take (most - ds.length)).takeWhile Char.isDigit = [] := by
    cases most - ds.length with
    | zero => rfl
    | succ more => simp [hc]
  have hall : ((ds ++ c :: rest).take most).takeWhile Char.isDigit = ds := by
    rw [List.take_append, List.take_of_length_le hlength, List.takeWhile_append_of_pos hds, hend,
      List.append_nil]
  rw [number?, hall]
  obtain ⟨d, ds, rfl⟩ := List.exists_cons_of_ne_nil hempty
  simp [hn]

theorem number?_padded (hlength : (padded width n).toList.length ≤ most) (hc : c.isDigit = false) :
    number? most ((padded width n).toList ++ c :: rest) = some (n, c :: rest) :=
  number?_digits (fun _ => isDigit_of_mem_padded) padded_ne_nil hlength hc (numeral?_padded width n)

theorem field?_padded {low high : Nat} (hlow : low ≤ n) (hhigh : n ≤ high) (hn : n < 100)
    (hc : c.isDigit = false) :
    field? low high ((padded 2 n).toList ++ c :: rest) = some (n, c :: rest) := by
  have hlength : (padded 2 n).toList.length ≤ 2 := Nat.le_of_eq (length_padded hn (by decide))
  rw [field?, skipBlanks_digits (fun _ => isDigit_of_mem_padded) padded_ne_nil,
    number?_padded hlength hc]
  simp [hlow, hhigh]

/-! ## Dates -/

theorem year?_sign (hc : c.isDigit = false) (n : Nat) (rest : List Char) :
    year? ('-' :: ((padded 4 n).toList ++ c :: rest)) = some (-(n : Int), c :: rest) ∧
      year? ('+' :: ((padded 4 n).toList ++ c :: rest)) = some ((n : Int), c :: rest) := by
  have hlength : (padded 4 n).toList.length ≤ ((padded 4 n).toList ++ c :: rest).length := by
    simp
  constructor
  · rw [year?, skipBlanks_cons rfl]
    simp only [number?_padded hlength hc, Option.map_some]
  · rw [year?, skipBlanks_cons rfl]
    simp only [number?_padded hlength hc, Option.map_some]

theorem year?_plain (hc : c.isDigit = false) (hn : n < 10000) :
    year? ((padded 4 n).toList ++ c :: rest) = some ((n : Int), c :: rest) := by
  have hread : number? 4 ((padded 4 n).toList ++ c :: rest) = some (n, c :: rest) :=
    number?_padded (Nat.le_of_eq (length_padded hn (by decide))) hc
  have hdigits : ∀ d ∈ (padded 4 n).toList, d.isDigit = true := fun _ => isDigit_of_mem_padded
  rw [year?, skipBlanks_digits hdigits padded_ne_nil]
  split
  · next heq => exact absurd heq (append_ne_cons hdigits padded_ne_nil rfl _ _)
  · next heq => exact absurd heq (append_ne_cons hdigits padded_ne_nil rfl _ _)
  · rw [hread, Option.map_some]

theorem year?_yearText (hc : c.isDigit = false) (year : Int) :
    year? ((yearText year).toList ++ c :: rest) = some (year, c :: rest) := by
  rw [yearText]
  split
  · rw [year?_plain hc (by omega), Int.toNat_of_nonneg (by omega)]
  · split
    · have habs : -(year.natAbs : Int) = year := by omega
      have htext : ("-" ++ padded 4 year.natAbs).toList = '-' :: (padded 4 year.natAbs).toList := by
        simp
      rw [htext, List.cons_append, (year?_sign hc year.natAbs rest).1, habs]
    · have habs : (year.natAbs : Int) = year := by omega
      have htext : ("+" ++ padded 4 year.natAbs).toList = '+' :: (padded 4 year.natAbs).toList := by
        simp
      rw [htext, List.cons_append, (year?_sign hc year.natAbs rest).2, habs]

theorem date?_write {d : Date} (hd : d.isValid = true) (hc : c.isDigit = false) :
    date? ((yearText d.year).toList ++ '-' :: ((padded 2 d.month).toList ++
      '-' :: ((padded 2 d.day).toList ++ c :: rest))) = some (d, c :: rest) := by
  simp only [Date.isValid, Bool.and_eq_true, decide_eq_true_eq] at hd
  obtain ⟨⟨⟨hmonth, hmonth'⟩, hday⟩, hday'⟩ := hd
  have hlast : Date.daysInMonth d.year d.month ≤ 31 := Date.daysInMonth_le_31 _ _
  rw [date?, year?_yearText rfl]
  simp only [Option.bind_eq_bind, Option.bind_some, mark?_cons (c := '-') rfl,
    field?_padded hmonth hmonth' (by omega) (c := '-') rfl,
    field?_padded hday (Nat.le_trans hday' hlast) (by omega) hc]
  rfl

end Reader

/-! ## Times that there are -/

theorem inRange_iff {t : Timestamp} : t.inRange = true ↔
    (firstDay ≤ t.seconds / secondsPerDay ∧ t.seconds / secondsPerDay ≤ lastDay) ∧
      t.nanoseconds < 2 * nanosPerSecond := by
  simp only [inRange, Bool.and_eq_true, decide_eq_true_eq]

/-- A leap second that does not end a minute. -/
def IsStray (t : Timestamp) : Prop :=
  nanosPerSecond ≤ t.nanoseconds ∧ t.seconds % 60 ≠ 59

instance (t : Timestamp) : Decidable t.IsStray := inferInstanceAs (Decidable (_ ∧ _))

theorem isValid_iff {t : Timestamp} : t.isValid = true ↔ t.inRange = true ∧ ¬ t.IsStray := by
  rw [isValid, IsStray, Bool.and_eq_true, not_and_or, not_not, Nat.not_le]
  simp

/-- The nanoseconds of a time that can be made are less than a second, or a leap second that ends a
minute. -/
theorem nanoseconds_cases {t : Timestamp} (ht : t.isValid = true) :
    t.nanoseconds < nanosPerSecond ∨
      (nanosPerSecond ≤ t.nanoseconds ∧ t.nanoseconds < 2 * nanosPerSecond) ∧ t.seconds % 60 = 59 := by
  obtain ⟨hrange, hstray⟩ := isValid_iff.mp ht
  have hbound := (inRange_iff.mp hrange).2
  rw [IsStray] at hstray
  omega

/-! ## Times of day -/

theorem secondOfDay_lt (t : Timestamp) : t.secondOfDay < 86400 := by
  simp only [secondOfDay, secondsPerDay]
  omega

/-- A second that is shown is one of the minute, or the leap second behind its last one. -/
theorem second_cases {t : Timestamp} (ht : t.isValid = true) :
    t.nanoseconds < nanosPerSecond ∧ t.second = t.secondOfDay % 60 ∨
      nanosPerSecond ≤ t.nanoseconds ∧ t.second = 60 ∧ t.secondOfDay % 60 = 59 := by
  rcases nanoseconds_cases ht with hplain | ⟨⟨hleap, -⟩, hend⟩
  · exact Or.inl ⟨hplain, by rw [second, if_pos hplain, Nat.add_zero]⟩
  · have hlast : t.secondOfDay % 60 = 59 := by
      simp only [secondOfDay, secondsPerDay]
      omega
    exact Or.inr ⟨hleap, by rw [second, if_neg (by omega), hlast], hlast⟩

namespace Reader

theorem timeOfDay?_write {t : Timestamp} {fraction : Nat} (ht : t.isValid = true)
    (hc : c.isDigit = false) (hfraction : fraction? (c :: cs) = some (fraction, rest)) :
    timeOfDay? ((padded 2 t.hour).toList ++ ':' :: ((padded 2 t.minute).toList ++
      ':' :: ((padded 2 t.second).toList ++ c :: cs))) =
    some ((t.secondOfDay, (if t.nanoseconds < nanosPerSecond then 0 else nanosPerSecond) + fraction),
      rest) := by
  have hday := t.secondOfDay_lt
  have hhour : t.hour ≤ 23 := by
    rw [hour]
    omega
  have hminute : t.minute ≤ 59 := by
    rw [minute]
    omega
  have hwhole : t.hour * 3600 + t.minute * 60 + t.secondOfDay % 60 = t.secondOfDay := by
    rw [hour, minute]
    omega
  have hsecond : t.second ≤ 60 := by
    rcases second_cases ht with ⟨-, hsecond⟩ | ⟨-, hsecond, -⟩ <;> omega
  rw [timeOfDay?, field?_padded (Nat.zero_le _) hhour (by omega) rfl]
  simp only [Option.bind_eq_bind, Option.bind_some, mark?_cons (c := ':') rfl,
    field?_padded (Nat.zero_le _) hminute (by omega) (c := ':') rfl,
    field?_padded (Nat.zero_le _) hsecond (by omega) hc, hfraction]
  rcases second_cases ht with ⟨hplain, hsecond⟩ | ⟨hleap, hsecond, hlast⟩
  · rw [if_neg (by omega), if_pos hplain, hsecond, hwhole, Nat.zero_add]
    rfl
  · rw [if_pos hsecond, if_neg (by omega), ← hlast, hwhole]
    rfl

end Reader

/-! ## Times -/

theorem toList_secondText (t : Timestamp) (cs : List Char) : t.secondText.toList ++ cs =
    (yearText t.date.year).toList ++ '-' :: ((padded 2 t.date.month).toList ++
      '-' :: ((padded 2 t.date.day).toList ++ 'T' :: ((padded 2 t.hour).toList ++
        ':' :: ((padded 2 t.minute).toList ++ ':' :: ((padded 2 t.second).toList ++ cs))))) := by
  simp [secondText]

/-- A time is read back to the second, with the fraction that is read behind it. -/
theorem timestamp?_secondText {t : Timestamp} {fraction : Nat} (ht : t.isValid = true)
    (hc : c.isDigit = false) (hfraction : Reader.fraction? (c :: cs) = some (fraction, ['Z'])) :
    Reader.timestamp? (t.secondText.toList ++ c :: cs) = make? t.seconds
      ((if t.nanoseconds < nanosPerSecond then 0 else nanosPerSecond) + fraction) := by
  have hdate : t.date.isValid = true := Date.isValid_ofDays _
  have hdays : t.date.toDays = t.seconds / secondsPerDay := Date.toDays_ofDays _
  have hseconds : t.seconds / secondsPerDay * secondsPerDay + t.secondOfDay = t.seconds := by
    simp only [secondOfDay, secondsPerDay]
    omega
  have hrange : firstDay ≤ t.seconds / secondsPerDay ∧ t.seconds / secondsPerDay ≤ lastDay :=
    (inRange_iff.mp (isValid_iff.mp ht).1).1
  have hzone : Reader.offset? (Reader.skipBlanks ['Z']) = some (0, []) := rfl
  have hend : (Reader.skipBlanks []).isEmpty = true := rfl
  rw [toList_secondText, Reader.timestamp?, Reader.date?_write hdate rfl]
  simp only [Option.bind_eq_bind, Option.bind_some, true_or, ↓reduceIte,
    Reader.timeOfDay?_write ht hc hfraction, hzone, hend, hdate, hdays, hrange, hseconds, true_and,
    Int.sub_zero]

/-! ## Fractions -/

theorem Reader.fraction?_padded {value : Nat} (hwidth : 0 < width) (hmost : width ≤ 9)
    (hvalue : value < 10 ^ width) (hc : c.isDigit = false) :
    fraction? ('.' :: ((padded width value).toList ++ c :: cs)) =
      some (value * 10 ^ (9 - width), c :: cs) := by
  have hlength := length_padded hvalue hwidth
  have hall : ((padded width value).toList ++ c :: cs).takeWhile Char.isDigit =
      (padded width value).toList := takeWhile_append_stop (fun _ => isDigit_of_mem_padded) hc
  simp [fraction?, hall, number?_padded (Nat.le_trans (Nat.le_of_eq hlength) hmost) hc, hlength]

/-- A time without what it has beyond whole multiples of a unit of nanoseconds. -/
def truncate (unit : Nat) (t : Timestamp) : Timestamp :=
  { t with nanoseconds := t.nanoseconds / unit * unit }

theorem isValid_truncate {t : Timestamp} (ht : t.isValid = true) (unit : Nat) :
    (t.truncate unit).isValid = true := by
  have hle : t.nanoseconds / unit * unit ≤ t.nanoseconds := Nat.div_mul_le_self _ _
  rw [isValid_iff, inRange_iff, IsStray] at ht ⊢
  exact ⟨⟨ht.1.1, Nat.lt_of_le_of_lt hle ht.1.2⟩, fun h => ht.2 ⟨Nat.le_trans h.1 hle, h.2⟩⟩

/-- The nanoseconds of a time are those within the second that is shown, past a second that is
not. -/
theorem nanoseconds_eq {t : Timestamp} (ht : t.isValid = true) :
    (if t.nanoseconds < nanosPerSecond then 0 else nanosPerSecond) + t.fraction = t.nanoseconds := by
  have hbound := (inRange_iff.mp (isValid_iff.mp ht).1).2
  rw [fraction, nanosPerSecond] at *
  split <;> omega

/-- A time with some digits of the fraction, the rest cut off. -/
def digitsText (width : Nat) (t : Timestamp) : String :=
  t.secondText ++ "." ++ padded width (t.fraction / 10 ^ (9 - width)) ++ "Z"

/-- What some digits of the fraction tell is the time that has nothing behind them. -/
theorem ofRfc3339?_digitsText {t : Timestamp} (ht : t.isValid = true) (hwidth : 0 < width)
    (hmost : width ≤ 9) :
    ofRfc3339? (t.digitsText width) = some (t.truncate (10 ^ (9 - width))) := by
  have hsplit : nanosPerSecond = 10 ^ width * 10 ^ (9 - width) := by
    rw [← Nat.pow_add, Nat.add_sub_cancel' hmost, nanosPerSecond]
  have hunit : 0 < 10 ^ (9 - width) := Nat.pow_pos (by decide)
  have hvalue : t.fraction / 10 ^ (9 - width) < 10 ^ width := by
    rw [Nat.div_lt_iff_lt_mul hunit, ← hsplit]
    exact Nat.mod_lt _ (by decide)
  have htext : (t.digitsText width).toList = t.secondText.toList ++
      '.' :: ((padded width (t.fraction / 10 ^ (9 - width))).toList ++ ['Z']) := by
    simp [digitsText]
  have htotal : (if t.nanoseconds < nanosPerSecond then 0 else nanosPerSecond) +
      t.fraction / 10 ^ (9 - width) * 10 ^ (9 - width) =
      t.nanoseconds / 10 ^ (9 - width) * 10 ^ (9 - width) := by
    conv_rhs => rw [← nanoseconds_eq ht]
    split
    · simp
    · rw [hsplit, Nat.mul_comm (10 ^ width), Nat.mul_add_div hunit, Nat.add_mul,
        Nat.mul_comm (10 ^ width)]
  rw [ofRfc3339?, htext, timestamp?_secondText ht rfl
    (Reader.fraction?_padded hwidth hmost hvalue rfl), htotal, make?, if_pos]
  · rfl
  · exact isValid_truncate ht _

theorem truncate_eq_self {t : Timestamp} (ht : t.isValid = true) {unit : Nat}
    (hunit : unit ∣ nanosPerSecond) (hfraction : t.fraction % unit = 0) : t.truncate unit = t := by
  have hdvd : unit ∣ t.nanoseconds := by
    rw [← nanoseconds_eq ht]
    refine Nat.dvd_add ?_ (Nat.dvd_of_mod_eq_zero hfraction)
    split
    · exact Nat.dvd_zero _
    · exact hunit
  rw [truncate, Nat.div_mul_cancel hdvd]

theorem ofRfc3339?_digitsText_eq_self {t : Timestamp} (ht : t.isValid = true) (hwidth : 0 < width)
    (hmost : width ≤ 9) (hfraction : t.fraction % 10 ^ (9 - width) = 0) :
    ofRfc3339? (t.digitsText width) = some t := by
  have hunit : 10 ^ (9 - width) ∣ nanosPerSecond := Nat.pow_dvd_pow 10 (Nat.sub_le 9 width)
  rw [ofRfc3339?_digitsText ht hwidth hmost, truncate_eq_self ht hunit hfraction]

/-- A time is read back from its text with the fewest digits. -/
theorem ofRfc3339?_toRfc3339 {t : Timestamp} (ht : t.isValid = true) :
    ofRfc3339? t.toRfc3339 = some t := by
  rw [toRfc3339, fractionText]
  split_ifs with hwhole hmillis hmicros
  · have htext : (t.secondText ++ "" ++ "Z").toList = t.secondText.toList ++ 'Z' :: [] := by simp
    have htotal := nanoseconds_eq ht
    rw [hwhole] at htotal
    rw [ofRfc3339?, htext, timestamp?_secondText ht rfl rfl, htotal, make?, if_pos ht]
  · rw [← String.append_assoc]
    exact ofRfc3339?_digitsText_eq_self ht (by decide) (by decide) hmillis
  · rw [← String.append_assoc]
    exact ofRfc3339?_digitsText_eq_self ht (by decide) (by decide) hmicros
  · have hnanos := ofRfc3339?_digitsText_eq_self ht (by decide) (Nat.le_refl 9) (Nat.mod_one _)
    rw [digitsText, Nat.sub_self, Nat.pow_zero, Nat.div_one] at hnanos
    rwa [← String.append_assoc]

/-! ## Leap seconds -/

/-- The time that the text of a time stands for: a leap second that does not end a minute is shown
as the second that follows. -/
def shown (t : Timestamp) : Timestamp :=
  if t.IsStray then ⟨t.seconds + 1, t.nanoseconds - nanosPerSecond⟩ else t

section Shown

variable {t : Timestamp}

theorem shown_of_isStray (h : t.IsStray) :
    t.shown = ⟨t.seconds + 1, t.nanoseconds - nanosPerSecond⟩ :=
  if_pos h

theorem shown_eq_self_iff : t.shown = t ↔ ¬ t.IsStray := by
  constructor
  · intro heq hstray
    have hseconds := congrArg seconds heq
    rw [shown_of_isStray hstray] at hseconds
    dsimp only at hseconds
    omega
  · exact fun hstray => if_neg hstray

/-- The second that follows is of the same minute. -/
theorem IsStray.shown_fields (h : t.IsStray) (ht : t.inRange = true) :
    t.shown.seconds / secondsPerDay = t.seconds / secondsPerDay ∧
      t.shown.hour = t.hour ∧ t.shown.minute = t.minute ∧ t.shown.second = t.second ∧
        t.shown.fraction = t.fraction := by
  obtain ⟨hleap, hinner⟩ := h
  have hbound := (inRange_iff.mp ht).2
  rw [shown_of_isStray ⟨hleap, hinner⟩]
  have hplain : t.nanoseconds - nanosPerSecond < nanosPerSecond := by omega
  simp only [hour, minute, second, fraction, secondOfDay, secondsPerDay, if_pos hplain,
    if_neg (Nat.not_lt.mpr hleap)]
  rw [nanosPerSecond] at hleap hbound ⊢
  omega

theorem isValid_shown (ht : t.inRange = true) : t.shown.isValid = true := by
  by_cases h : t.IsStray
  · have hday := (h.shown_fields ht).1
    obtain ⟨hdays, hbound⟩ := inRange_iff.mp ht
    rw [isValid_iff, inRange_iff, hday]
    refine ⟨⟨hdays, ?_⟩, fun hstray => ?_⟩
    · rw [shown_of_isStray h]
      simp only [nanosPerSecond] at hbound ⊢
      omega
    · have hleap := hstray.1
      rw [shown_of_isStray h] at hleap
      simp only [nanosPerSecond] at hbound hleap
      omega
  · rw [shown_eq_self_iff.mpr h]
    exact isValid_iff.mpr ⟨ht, h⟩

/-- All that a text shows of two times is the same. -/
theorem shown_parts (ht : t.inRange = true) : t.shown.date = t.date ∧
    t.shown.hour = t.hour ∧ t.shown.minute = t.minute ∧ t.shown.second = t.second ∧
      t.shown.fraction = t.fraction := by
  by_cases h : t.IsStray
  · obtain ⟨hday, hrest⟩ := h.shown_fields ht
    exact ⟨congrArg Date.ofDays hday, hrest⟩
  · rw [shown_eq_self_iff.mpr h]
    exact ⟨rfl, rfl, rfl, rfl, rfl⟩

theorem secondText_shown (ht : t.inRange = true) : t.shown.secondText = t.secondText := by
  obtain ⟨hdate, hhour, hminute, hsecond, -⟩ := shown_parts ht
  rw [secondText, hdate, hhour, hminute, hsecond, secondText]

theorem toRfc3339_shown (ht : t.inRange = true) : t.shown.toRfc3339 = t.toRfc3339 := by
  rw [toRfc3339, secondText_shown ht, (shown_parts ht).2.2.2.2, toRfc3339]

theorem toMillisText_shown (ht : t.inRange = true) : t.shown.toMillisText = t.toMillisText := by
  rw [toMillisText, secondText_shown ht, (shown_parts ht).2.2.2.2, toMillisText]

/-- A text is read as the time that it shows. -/
theorem ofRfc3339?_toRfc3339_eq_shown (ht : t.inRange = true) :
    ofRfc3339? t.toRfc3339 = some t.shown := by
  rw [← toRfc3339_shown ht, ofRfc3339?_toRfc3339 (isValid_shown ht)]

end Shown

end SyncEndpoint.Timestamp
