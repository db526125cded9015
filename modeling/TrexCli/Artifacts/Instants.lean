import TrexCli.Lib.Lexicographic
import TrexCli.Lib.Paths

/-!
# Instants and their ISO texts

An aware `datetime` of UTC, with the fields Python keeps. `isoformat` leaves out the microsecond when
it is zero; since the sign of the offset sorts before the dot, the texts still compare as the instants.
-/

namespace TrexCli.Artifacts

open Lexicographic

/-- `calendar.isleap` -/
def isLeap (year : Nat) : Bool := year % 4 = 0 ∧ (year % 100 ≠ 0 ∨ year % 400 = 0)

/-- `_days_in_month` -/
def daysInMonth (leap : Bool) (month : Nat) : Nat :=
  if month = 2 then (if leap then 29 else 28)
  else if month = 4 ∨ month = 6 ∨ month = 9 ∨ month = 11 then 30
  else 31

/-- `_days_before_month` -/
def daysBeforeMonth (leap : Bool) (month : Nat) : Nat :=
  ((List.range (month - 1)).map fun m => daysInMonth leap (m + 1)).sum

/-- `_days_before_year` -/
def daysBeforeYear (year : Nat) : Nat :=
  (year - 1) * 365 + (year - 1) / 4 - (year - 1) / 100 + (year - 1) / 400

/-- A date of the years 1 to 9999. -/
structure CalendarDate where
  year : Nat
  month : Nat
  day : Nat
  year_bounds : 1 ≤ year ∧ year ≤ 9999
  month_bounds : 1 ≤ month ∧ month ≤ 12
  day_bounds : 1 ≤ day ∧ day ≤ daysInMonth (isLeap year) month
  deriving DecidableEq

namespace CalendarDate

/-- `date.toordinal` -/
def toOrdinal (d : CalendarDate) : Nat :=
  daysBeforeYear d.year + daysBeforeMonth (isLeap d.year) d.month + d.day

/-- Earlier by year, month and day. -/
def Before (d e : CalendarDate) : Prop :=
  d.year < e.year ∨ d.year = e.year ∧ (d.month < e.month ∨ d.month = e.month ∧ d.day < e.day)

theorem one_le_daysInMonth (leap : Bool) (month : Nat) : 1 ≤ daysInMonth leap month := by
  unfold daysInMonth
  split
  · split <;> decide
  · split <;> decide

/-- `d + timedelta(days=1)`, unless that is after the last date -/
def next (d : CalendarDate) : Option CalendarDate :=
  if hday : d.day + 1 ≤ daysInMonth (isLeap d.year) d.month then
    some { d with day := d.day + 1, day_bounds := ⟨by omega, hday⟩ }
  else if hmonth : d.month + 1 ≤ 12 then
    some ⟨d.year, d.month + 1, 1, d.year_bounds, ⟨by omega, hmonth⟩, le_refl 1,
      one_le_daysInMonth _ _⟩
  else if hyear : d.year + 1 ≤ 9999 then
    some ⟨d.year + 1, 1, 1, ⟨by omega, hyear⟩, by decide, le_refl 1, one_le_daysInMonth _ _⟩
  else none

/-- `d - timedelta(days=1)`, unless that is before the first date -/
def previous (d : CalendarDate) : Option CalendarDate :=
  if hday : 1 ≤ d.day - 1 then
    some { d with day := d.day - 1, day_bounds := ⟨hday, by have := d.day_bounds; omega⟩ }
  else if hmonth : 1 ≤ d.month - 1 then
    some ⟨d.year, d.month - 1, daysInMonth (isLeap d.year) (d.month - 1), d.year_bounds,
      ⟨hmonth, by have := d.month_bounds; omega⟩, one_le_daysInMonth _ _, le_refl _⟩
  else if hyear : 1 ≤ d.year - 1 then
    some ⟨d.year - 1, 12, 31, ⟨hyear, by have := d.year_bounds; omega⟩, by decide,
      by decide, by simp [daysInMonth]⟩
  else none

/-- `d + timedelta(days=days)`; `none` is the `OverflowError`. -/
def addDays (d : CalendarDate) : (days : Int) → Option CalendarDate
  | .ofNat n => go next n d
  | .negSucc n => go previous (n + 1) d
where
  go (step : CalendarDate → Option CalendarDate) : Nat → CalendarDate → Option CalendarDate
    | 0, d => some d
    | n + 1, d => (step d).bind (go step n)

theorem daysBeforeYear_mono {m n : Nat} (h : m ≤ n) :
    m * 365 + m / 4 - m / 100 + m / 400 ≤ n * 365 + n / 4 - n / 100 + n / 400 := by
  have h4 : m / 4 ≤ n / 4 := Nat.div_le_div_right h
  have h400 : m / 400 ≤ n / 400 := Nat.div_le_div_right h
  have h100 : n / 100 ≤ m / 100 + (n - m) := by omega
  omega

theorem daysBeforeYear_succ (n : Nat) :
    daysBeforeYear (n + 1) + (if isLeap (n + 1) then 366 else 365) ≤ daysBeforeYear (n + 2) := by
  have hdiv : n / 100 ≤ n := Nat.div_le_self n 100
  have h4 : (n + 1) / 4 = n / 4 + if (n + 1) % 4 = 0 then 1 else 0 := by split <;> omega
  have h100 : (n + 1) / 100 = n / 100 + if (n + 1) % 100 = 0 then 1 else 0 := by split <;> omega
  have h400 : (n + 1) / 400 = n / 400 + if (n + 1) % 400 = 0 then 1 else 0 := by split <;> omega
  unfold isLeap daysBeforeYear
  simp only [decide_eq_true_eq, Nat.add_sub_cancel, show n + 2 - 1 = n + 1 by omega, h4, h100, h400]
  split
  · rename_i h
    rw [if_pos h.1]
    rcases h.2 with h' | h'
    · rw [if_neg h']
      omega
    · rw [if_pos h']
      split <;> omega
  · rename_i h
    split
    · by_cases hcentury : (n + 1) % 100 = 0
      · have hno : (n + 1) % 400 ≠ 0 := fun h400 => h ⟨‹_›, .inr h400⟩
        rw [if_pos hcentury, if_neg hno]
        omega
      · exact absurd ⟨‹_›, .inl hcentury⟩ h
    · have hno : (n + 1) % 100 ≠ 0 := by omega
      rw [if_neg hno]
      omega

theorem daysBeforeYear_add_le {y z : Nat} (hy : 1 ≤ y) (h : y < z) :
    daysBeforeYear y + (if isLeap y then 366 else 365) ≤ daysBeforeYear z := by
  obtain ⟨n, rfl⟩ : ∃ n, y = n + 1 := ⟨y - 1, by omega⟩
  have hmono : daysBeforeYear (n + 2) ≤ daysBeforeYear z := daysBeforeYear_mono (by omega)
  exact (daysBeforeYear_succ n).trans hmono

theorem daysBeforeMonth_add_le (leap : Bool) {m n : Nat} (hm : 1 ≤ m) (h : m < n) (hn : n ≤ 12) :
    daysBeforeMonth leap m + daysInMonth leap m ≤ daysBeforeMonth leap n := by
  have hall : ∀ leap : Bool, ∀ m : Fin 13, ∀ n : Fin 13, 1 ≤ m.val → m.val < n.val →
      daysBeforeMonth leap m + daysInMonth leap m ≤ daysBeforeMonth leap n := by decide
  exact hall leap ⟨m, by omega⟩ ⟨n, by omega⟩ hm h

theorem daysBeforeMonth_add_daysInMonth_le (leap : Bool) {m : Nat} (hm : 1 ≤ m) (hm' : m ≤ 12) :
    daysBeforeMonth leap m + daysInMonth leap m ≤ if leap then 366 else 365 := by
  have hall : ∀ leap : Bool, ∀ m : Fin 13, 1 ≤ m.val →
      daysBeforeMonth leap m + daysInMonth leap m ≤ if leap then 366 else 365 := by decide
  exact hall leap ⟨m, by omega⟩ hm

theorem toOrdinal_lt {d e : CalendarDate} (h : Before d e) : d.toOrdinal < e.toOrdinal := by
  have hd := d.day_bounds
  have he := e.day_bounds
  unfold toOrdinal
  rcases h with h | ⟨hyear, h | ⟨hmonth, h⟩⟩
  · have hyear := daysBeforeYear_add_le d.year_bounds.1 h
    have hmonth := daysBeforeMonth_add_daysInMonth_le (isLeap d.year) d.month_bounds.1
      d.month_bounds.2
    omega
  · have hmonth := daysBeforeMonth_add_le (isLeap d.year) d.month_bounds.1 h e.month_bounds.2
    rw [← hyear]
    omega
  · rw [← hyear, ← hmonth]
    omega

theorem before_or_eq (d e : CalendarDate) : Before d e ∨ d = e ∨ Before e d := by
  obtain ⟨y, m, day, _, _, _⟩ := d
  obtain ⟨y', m', day', _, _, _⟩ := e
  simp only [Before, CalendarDate.mk.injEq]
  omega

theorem toOrdinal_lt_iff {d e : CalendarDate} : d.toOrdinal < e.toOrdinal ↔ Before d e := by
  refine ⟨fun h => ?_, toOrdinal_lt⟩
  rcases before_or_eq d e with hbefore | rfl | hbefore
  · exact hbefore
  · omega
  · have := toOrdinal_lt hbefore
    omega

theorem toOrdinal_inj {d e : CalendarDate} (h : d.toOrdinal = e.toOrdinal) : d = e := by
  rcases before_or_eq d e with hbefore | heq | hbefore
  · have := toOrdinal_lt hbefore
    omega
  · exact heq
  · have := toOrdinal_lt hbefore
    omega

/-- `date.isoformat` -/
def isoformat (d : CalendarDate) : Text :=
  fixedDigits 10 4 d.year ++ ('-' :: fixedDigits 10 2 d.month ++ '-' :: fixedDigits 10 2 d.day)

end CalendarDate

/-- A `datetime` with `tzinfo=UTC`. -/
structure UtcDateTime where
  date : CalendarDate
  hour : Nat
  minute : Nat
  second : Nat
  microsecond : Nat
  hour_lt : hour < 24
  minute_lt : minute < 60
  second_lt : second < 60
  microsecond_lt : microsecond < 1000000
  deriving DecidableEq

namespace UtcDateTime

/-- The microseconds since the beginning of the day. -/
def timeOfDay (t : UtcDateTime) : Nat :=
  ((t.hour * 60 + t.minute) * 60 + t.second) * 1000000 + t.microsecond

/-- `timestamp()`, in microseconds -/
def timestamp (t : UtcDateTime) : Int :=
  ((t.date.toOrdinal : Int) - 719163) * 86400000000 + t.timeOfDay

/-- `t + timedelta(days=days)` -/
def addDays (t : UtcDateTime) (days : Int) : Option UtcDateTime :=
  (t.date.addDays days).map fun date => { t with date := date }

/-- The fraction and the offset of an ISO text. -/
def isoSuffix (microsecond : Nat) : Text :=
  if microsecond = 0 then "+00:00".toList
  else '.' :: (fixedDigits 10 6 microsecond ++ "+00:00".toList)

/-- `isoformat()` -/
def isoformat (t : UtcDateTime) : Text :=
  t.date.isoformat ++ ('T' :: fixedDigits 10 2 t.hour ++ (':' :: fixedDigits 10 2 t.minute ++
    (':' :: fixedDigits 10 2 t.second ++ isoSuffix t.microsecond)))

/-- Earlier. -/
def Before (t u : UtcDateTime) : Prop := t.timestamp < u.timestamp

instance (t u : UtcDateTime) : Decidable (Before t u) := inferInstanceAs (Decidable (_ < _))

theorem timeOfDay_lt (t : UtcDateTime) : t.timeOfDay < 86400000000 := by
  have := t.hour_lt
  have := t.minute_lt
  have := t.second_lt
  have := t.microsecond_lt
  unfold timeOfDay
  omega

theorem before_iff {t u : UtcDateTime} :
    Before t u ↔ t.date.Before u.date ∨ t.date = u.date ∧ t.timeOfDay < u.timeOfDay := by
  have ht := t.timeOfDay_lt
  have hu := u.timeOfDay_lt
  rw [← CalendarDate.toOrdinal_lt_iff]
  have heq : t.date = u.date ↔ t.date.toOrdinal = u.date.toOrdinal :=
    ⟨fun h => by rw [h], CalendarDate.toOrdinal_inj⟩
  rw [heq]
  unfold Before timestamp
  omega

/-! ### The texts compare as the instants -/

/-- A field of `width` digits after a separator. -/
theorem field_lt_iff {separator : Char} {width m n : Nat} {x y : Text} (hm : m < 10 ^ width)
    (hn : n < 10 ^ width) :
    separator :: fixedDigits 10 width m ++ x < separator :: fixedDigits 10 width n ++ y ↔
      m < n ∨ m = n ∧ x < y := by
  rw [List.cons_append, List.cons_append, List.cons_lt_cons_iff, append_lt_append_iff (by simp),
    fixedDigits_lt_iff (by decide) (by decide) hm hn]
  have heq : fixedDigits 10 width m = fixedDigits 10 width n ↔ m = n :=
    ⟨fixedDigits_inj (by decide) (by decide) hm hn, fun h => by rw [h]⟩
  rw [heq]
  simp

theorem isoSuffix_lt_iff {m n : Nat} (hm : m < 1000000) (hn : n < 1000000) :
    isoSuffix m < isoSuffix n ↔ m < n := by
  unfold isoSuffix
  by_cases hm0 : m = 0
  · by_cases hn0 : n = 0
    · rw [if_pos hm0, if_pos hn0, hm0, hn0]
      exact iff_of_false (by decide) (by decide)
    · -- The sign of the offset is before the dot.
      rw [if_pos hm0, if_neg hn0]
      refine iff_of_true ?_ (by omega)
      exact List.cons_lt_cons_iff.mpr (.inl (by decide))
  · by_cases hn0 : n = 0
    · rw [if_neg hm0, if_pos hn0]
      refine iff_of_false ?_ (by omega)
      intro h
      rcases List.cons_lt_cons_iff.mp h with h | ⟨h, -⟩
      · exact absurd h (by decide)
      · exact absurd h (by decide)
    · rw [if_neg hm0, if_neg hn0]
      rw [← List.cons_append, ← List.cons_append, field_lt_iff hm hn]
      simp

theorem dateText_lt_iff {d e : CalendarDate} {x y : Text} :
    d.isoformat ++ x < e.isoformat ++ y ↔ d.Before e ∨ d = e ∧ x < y := by
  have hyear := d.year_bounds
  have hyear' := e.year_bounds
  have hmonth := d.month_bounds
  have hmonth' := e.month_bounds
  have hday : ∀ d : CalendarDate, d.day < 10 ^ 2 := by
    intro d
    have := d.day_bounds
    unfold daysInMonth at this
    split at this
    · split at this <;> omega
    · split at this <;> omega
  have heq : d = e ↔ d.year = e.year ∧ d.month = e.month ∧ d.day = e.day := by
    obtain ⟨y, m, day, _, _, _⟩ := d
    obtain ⟨y', m', day', _, _, _⟩ := e
    simp
  have hyears : fixedDigits 10 4 d.year = fixedDigits 10 4 e.year ↔ d.year = e.year :=
    ⟨fixedDigits_inj (by decide) (by decide) (by omega) (by omega), fun h => by rw [h]⟩
  unfold CalendarDate.isoformat
  simp only [List.append_assoc]
  rw [append_lt_append_iff (by simp), fixedDigits_lt_iff (by decide) (by decide) (by omega)
    (by omega), hyears, field_lt_iff (by omega) (by omega), field_lt_iff (hday d) (hday e), heq]
  unfold CalendarDate.Before
  tauto

/-- The ISO texts of instants compare as the instants do. -/
theorem isoformat_lt_iff (t u : UtcDateTime) : t.isoformat < u.isoformat ↔ Before t u := by
  have := t.hour_lt
  have := t.minute_lt
  have := t.second_lt
  have := u.hour_lt
  have := u.minute_lt
  have := u.second_lt
  have := t.microsecond_lt
  have := u.microsecond_lt
  unfold isoformat
  rw [dateText_lt_iff, field_lt_iff (by omega) (by omega), field_lt_iff (by omega) (by omega),
    field_lt_iff (by omega) (by omega), isoSuffix_lt_iff t.microsecond_lt u.microsecond_lt, before_iff]
  have htime : t.timeOfDay < u.timeOfDay ↔ t.hour < u.hour ∨ t.hour = u.hour ∧
      (t.minute < u.minute ∨ t.minute = u.minute ∧
        (t.second < u.second ∨ t.second = u.second ∧ t.microsecond < u.microsecond)) := by
    unfold timeOfDay
    omega
  rw [htime]

end UtcDateTime

end TrexCli.Artifacts
