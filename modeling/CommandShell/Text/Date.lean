import CommandShell.Text.Number

/-!
Civil dates: the calendar day and time of day of a number of seconds since 1970-01-01 00:00,
in the proleptic Gregorian calendar and without any time zone.
-/
namespace CommandShell

/-- A minute of civil time. -/
structure Moment where
  year : Int
  month : Nat
  day : Nat
  hour : Nat
  minute : Nat
deriving DecidableEq, Repr

namespace Moment

/-- The year, month and day that lie `days` days after 1970-01-01. Eras of 400 years begin on
March 1st, so a leap day ends its year and every month before it has a fixed offset. -/
def civil (days : Int) : Int × Nat × Nat :=
  let fromEra := days + 719468
  let era := fromEra / 146097
  let dayOfEra := (fromEra % 146097).toNat
  let yearOfEra := (dayOfEra - dayOfEra / 1460 + dayOfEra / 36524 - dayOfEra / 146096) / 365
  let dayOfYear := dayOfEra - (365 * yearOfEra + yearOfEra / 4 - yearOfEra / 100)
  let shifted := (5 * dayOfYear + 2) / 153
  let day := dayOfYear - (153 * shifted + 2) / 5 + 1
  let month := if shifted < 10 then shifted + 3 else shifted - 9
  let year := (yearOfEra : Int) + era * 400 + (if month ≤ 2 then 1 else 0)
  (year, month, day)

/-- The civil minute in which a second since 1970-01-01 00:00 lies. -/
def ofSeconds (seconds : Int) : Moment :=
  let (year, month, day) := civil (seconds / 86400)
  let second := (seconds % 86400).toNat
  ⟨year, month, day, second / 3600, second % 3600 / 60⟩

/-- A year with at least four digits, and with a sign outside the range of four. -/
def yearText (year : Int) : Text :=
  if year < 0 then '-' :: Text.zeroPadded 4 year.natAbs
  else if 9999 < year then '+' :: Text.zeroPadded 4 year.natAbs
  else Text.zeroPadded 4 year.natAbs

/-- Year, month and day joined by dashes. -/
def date (m : Moment) : Text :=
  yearText m.year ++ '-' :: Text.zeroPadded 2 m.month ++ '-' :: Text.zeroPadded 2 m.day

def time (m : Moment) : Text := Text.zeroPadded 2 m.hour ++ ':' :: Text.zeroPadded 2 m.minute

/-- Date and time of day, as listings show them. -/
def stamp (m : Moment) : Text := m.date ++ ' ' :: m.time

/-- A character that dates and times of day are written with. -/
def isMark (c : Char) : Bool := c.isDigit || c == '-' || c == '+' || c == ':'

theorem isMark_of_zeroPadded {width n : Nat} : ∀ c ∈ Text.zeroPadded width n, isMark c = true := by
  intro c member
  rcases List.mem_append.1 member with zero | digit
  · rw [List.eq_of_mem_replicate zero]
    rfl
  · simp [isMark, Nat.isDigit_of_mem_toDigits (by decide) (by decide) digit]

theorem isMark_of_date (m : Moment) : ∀ c ∈ m.date, isMark c = true := by
  have year : ∀ c ∈ yearText m.year, isMark c = true := by
    unfold yearText
    split
    · exact List.forall_mem_cons.2 ⟨rfl, isMark_of_zeroPadded⟩
    · split
      · exact List.forall_mem_cons.2 ⟨rfl, isMark_of_zeroPadded⟩
      · exact isMark_of_zeroPadded
  simp only [date, List.forall_mem_append, List.forall_mem_cons]
  exact ⟨⟨year, rfl, isMark_of_zeroPadded⟩, rfl, isMark_of_zeroPadded⟩

theorem isMark_of_time (m : Moment) : ∀ c ∈ m.time, isMark c = true :=
  List.forall_mem_append.2
    ⟨isMark_of_zeroPadded, List.forall_mem_cons.2 ⟨rfl, isMark_of_zeroPadded⟩⟩

theorem isMark_of_stamp (m : Moment) : ∀ c ∈ m.stamp, isMark c = true ∨ c = ' ' := by
  intro c member
  rw [stamp, List.mem_append, List.mem_cons] at member
  obtain date | blank | time := member
  · exact .inl (isMark_of_date m c date)
  · exact .inr blank
  · exact .inl (isMark_of_time m c time)

end Moment

end CommandShell
