/-
Dates of the Gregorian calendar.

The calendar is carried back before its introduction and has a year 0.  A date holds
the proof that its day exists, so there is no date to be checked later.

* **`Date`** — a day of the calendar;
* **`Date.ofParts?`** — the day with a given year, month and day of the month, if it
  exists;
* **`Date.ofParts?_eq_some_iff`** — it exists exactly when the parts are valid.
-/
namespace FilterQuery

namespace Calendar

/-- Every fourth year is a leap year, but of the full centuries only every fourth. -/
def isLeap (year : Int) : Bool :=
  year % 4 == 0 && (year % 100 != 0 || year % 400 == 0)

/-- The number of days of a month; 0 for what is no month. -/
def daysIn (year : Int) (month : Nat) : Nat :=
  match month with
  | 1 | 3 | 5 | 7 | 8 | 10 | 12 => 31
  | 4 | 6 | 9 | 11 => 30
  | 2 => if isLeap year then 29 else 28
  | _ => 0

/-- The first year of the calendar. -/
def firstYear : Int := -262143

/-- The last year of the calendar. -/
def lastYear : Int := 262142

/-- The parts name a day of the calendar. -/
def IsDay (year : Int) (month day : Nat) : Prop :=
  firstYear ≤ year ∧ year ≤ lastYear ∧ 1 ≤ day ∧ day ≤ daysIn year month

instance (year : Int) (month day : Nat) : Decidable (IsDay year month day) :=
  inferInstanceAs (Decidable (_ ∧ _))

theorem daysIn_pos_iff {year : Int} {month : Nat} :
    0 < daysIn year month ↔ 1 ≤ month ∧ month ≤ 12 := by
  constructor
  · intro h
    by_cases h' : 1 ≤ month ∧ month ≤ 12
    · exact h'
    · rw [daysIn] at h
      · exact absurd h (Nat.lt_irrefl 0)
      all_goals omega
  · rintro ⟨h, h'⟩
    match month, h, h' with
    | 1, _, _ | 3, _, _ | 5, _, _ | 7, _, _ | 8, _, _ | 10, _, _ | 12, _, _ => simp [daysIn]
    | 4, _, _ | 6, _, _ | 9, _, _ | 11, _, _ => simp [daysIn]
    | 2, _, _ =>
      rw [daysIn]
      split <;> decide

end Calendar

/-- A day of the calendar. -/
structure Date where
  year : Int
  month : Nat
  day : Nat
  isDay : Calendar.IsDay year month day
deriving DecidableEq

namespace Date

/-- The day with the given parts, if the calendar has one. -/
def ofParts? (year : Int) (month day : Nat) : Option Date :=
  if h : Calendar.IsDay year month day then some ⟨year, month, day, h⟩ else none

theorem ofParts?_eq_some_iff {year : Int} {month day : Nat} {d : Date} :
    ofParts? year month day = some d ↔ d.year = year ∧ d.month = month ∧ d.day = day := by
  constructor
  · intro h
    rw [ofParts?] at h
    split at h
    · cases h
      exact ⟨rfl, rfl, rfl⟩
    · cases h
  · rintro ⟨rfl, rfl, rfl⟩
    rw [ofParts?, dif_pos d.isDay]

end Date

end FilterQuery
