import Mathlib.Order.Monotone.Basic
import Mathlib.Data.Nat.Basic

/-! Civil dates. Days are counted from the first of March of the year zero, so
that a leap day is the last day of its year. -/
namespace Civil

structure DateTime where
  year : Nat
  month : Nat
  day : Nat
  hour : Nat
  minute : Nat
  second : Nat
  deriving DecidableEq, Repr

/-! A day number is a March-based year and a day of that year. -/

/-- The number of the first day of a March-based year. -/
def yearStart (year : Nat) : Nat := 365 * year + year / 4 - year / 100 + year / 400

/-- The March-based year of a day, by blocks of 400, 100, 4 and 1 years. -/
def marchYear (days : Nat) : Nat :=
  let century := min (days % 146097 / 36524) 3
  let inCentury := days % 146097 - 36524 * century
  400 * (days / 146097) + 100 * century + 4 * (inCentury / 1461)
    + min (inCentury % 1461 / 365) 3

def dayOfYear (days : Nat) : Nat := days - yearStart (marchYear days)

theorem yearStart_succ (year : Nat) : yearStart year + 365 ≤ yearStart (year + 1) := by
  unfold yearStart
  omega

theorem yearStart_mono : Monotone yearStart :=
  monotone_nat_of_le_succ fun year => by have := yearStart_succ year; omega

theorem yearStart_blocks {era century quad rest : Nat} (hcentury : century ≤ 3) (hquad : quad ≤ 24)
    (hrest : rest ≤ 3) :
    yearStart (400 * era + 100 * century + 4 * quad + rest) =
      146097 * era + 36524 * century + 1461 * quad + 365 * rest := by
  unfold yearStart
  omega

/-- The first day of the year after it: only the last year of a block is a leap year, and
the last of a century only when it ends an era. -/
theorem yearStart_blocks_succ {era century quad rest : Nat} (hcentury : century ≤ 3)
    (hquad : quad ≤ 24) (hrest : rest ≤ 3) :
    yearStart (400 * era + 100 * century + 4 * quad + rest + 1) =
      146097 * era + 36524 * century + 1461 * quad + 365 * (rest + 1) +
        (if rest = 3 ∧ (quad < 24 ∨ century = 3) then 1 else 0) := by
  unfold yearStart
  split <;> omega

theorem marchYear_bounds (days : Nat) :
    yearStart (marchYear days) ≤ days ∧ days < yearStart (marchYear days + 1) := by
  have hera := Nat.div_add_mod days 146097
  have hdays := Nat.mod_lt days (show 0 < 146097 by omega)
  unfold marchYear
  generalize days / 146097 = era at *
  generalize days % 146097 = inEra at *
  have hcentury : min (inEra / 36524) 3 ≤ 3 := Nat.min_le_right _ _
  have hin : 36524 * min (inEra / 36524) 3 ≤ inEra := by omega
  have hend : inEra - 36524 * min (inEra / 36524) 3 < 36524 ∨
      min (inEra / 36524) 3 = 3 ∧ inEra - 36524 * min (inEra / 36524) 3 < 36525 := by omega
  dsimp only
  generalize min (inEra / 36524) 3 = century at *
  generalize hcent : inEra - 36524 * century = inCentury at *
  have hquad : inCentury / 1461 ≤ 24 := by omega
  have hrest : min (inCentury % 1461 / 365) 3 ≤ 3 := Nat.min_le_right _ _
  rw [yearStart_blocks hcentury hquad hrest, yearStart_blocks_succ hcentury hquad hrest]
  split <;> omega

theorem marchYear_mono : Monotone marchYear := by
  intro first second h
  by_contra hlt
  have hnext : marchYear second + 1 ≤ marchYear first := by omega
  have hstart := yearStart_mono hnext
  have hfirst := (marchYear_bounds first).1
  have hsecond := (marchYear_bounds second).2
  omega

theorem dayOfYear_lt (days : Nat) : dayOfYear days < 366 := by
  have hbounds := marchYear_bounds days
  have hlength : yearStart (marchYear days + 1) ≤ yearStart (marchYear days) + 366 := by
    unfold yearStart
    omega
  unfold dayOfYear
  omega

/-! Months of a March-based year follow the pattern 31, 30, 31, 30, 31. -/

def marchMonth (dayOfYear : Nat) : Nat := (5 * dayOfYear + 2) / 153

def monthStart (month : Nat) : Nat := (153 * month + 2) / 5

theorem monthStart_le (day : Nat) : monthStart (marchMonth day) ≤ day := by
  unfold monthStart marchMonth
  omega

namespace DateTime

def ofSeconds (seconds : Nat) : DateTime :=
  let days := seconds / 86400
  let inDay := seconds % 86400
  let month := marchMonth (dayOfYear days)
  { year := if month < 10 then marchYear days else marchYear days + 1
    month := if month < 10 then month + 3 else month - 9
    day := dayOfYear days - monthStart month + 1
    hour := inDay / 3600
    minute := inDay % 3600 / 60
    second := inDay % 60 }

def toSeconds (date : DateTime) : Nat :=
  let year := if date.month ≤ 2 then date.year - 1 else date.year
  let month := if date.month ≤ 2 then date.month + 9 else date.month - 3
  86400 * (yearStart year + monthStart month + (date.day - 1))
    + 3600 * date.hour + 60 * date.minute + date.second

theorem clock_parts (inDay : Nat) :
    3600 * (inDay / 3600) + 60 * (inDay % 3600 / 60) + inDay % 60 = inDay := by
  omega

theorem ofSeconds_shifted (seconds : Nat) :
    let date := ofSeconds seconds
    let days := seconds / 86400
    (if date.month ≤ 2 then date.year - 1 else date.year) = marchYear days ∧
      (if date.month ≤ 2 then date.month + 9 else date.month - 3) =
        marchMonth (dayOfYear days) := by
  have hlast : marchMonth (dayOfYear (seconds / 86400)) ≤ 11 := by
    have := dayOfYear_lt (seconds / 86400)
    unfold marchMonth
    omega
  unfold ofSeconds
  dsimp only
  generalize marchMonth (dayOfYear (seconds / 86400)) = month at *
  generalize marchYear (seconds / 86400) = year
  by_cases hnew : month < 10
  · have hback : ¬ month + 3 ≤ 2 := by omega
    simp [hnew]
  · have hback : month - 9 ≤ 2 := by omega
    have hshift : month - 9 + 9 = month := by omega
    simp [hnew, hback, hshift]

theorem toSeconds_ofSeconds (seconds : Nat) : (ofSeconds seconds).toSeconds = seconds := by
  have hshifted := ofSeconds_shifted seconds
  have hyear := (marchYear_bounds (seconds / 86400)).1
  have hmonth := monthStart_le (dayOfYear (seconds / 86400))
  have hclock := clock_parts (seconds % 86400)
  have hsplit := Nat.div_add_mod seconds 86400
  have hdays : yearStart (marchYear (seconds / 86400)) +
      monthStart (marchMonth (dayOfYear (seconds / 86400))) +
      ((ofSeconds seconds).day - 1) = seconds / 86400 := by
    unfold ofSeconds
    dsimp only
    unfold dayOfYear at *
    omega
  unfold toSeconds
  dsimp only at hshifted ⊢
  rw [hshifted.1, hshifted.2, hdays, Nat.add_assoc, Nat.add_assoc, ← Nat.add_assoc (3600 * _)]
  exact (congrArg (86400 * (seconds / 86400) + ·) hclock).trans hsplit

/-! Later seconds have later fields, compared from the year down. -/

def fields (date : DateTime) : List Nat :=
  [date.year, date.month, date.day, date.hour, date.minute, date.second]

theorem marchMonth_mono : Monotone marchMonth := by
  intro first second h
  unfold marchMonth
  omega

theorem date_lt {first second : Nat} (h : first / 86400 < second / 86400) :
    let a := ofSeconds first
    let b := ofSeconds second
    a.year < b.year ∨ a.year = b.year ∧
      (a.month < b.month ∨ a.month = b.month ∧ a.day < b.day) := by
  have hyears := marchYear_mono h.le
  have hfirst := (marchYear_bounds (first / 86400)).1
  have hdayFirst := dayOfYear_lt (first / 86400)
  have hdaySecond := dayOfYear_lt (second / 86400)
  have hmonths : marchYear (first / 86400) = marchYear (second / 86400) →
      dayOfYear (first / 86400) < dayOfYear (second / 86400) := by
    intro heq
    unfold dayOfYear
    rw [heq] at hfirst ⊢
    omega
  have hmonthFirst := monthStart_le (dayOfYear (first / 86400))
  have hlastFirst : marchMonth (dayOfYear (first / 86400)) ≤ 11 := by
    unfold marchMonth
    omega
  have hlastSecond : marchMonth (dayOfYear (second / 86400)) ≤ 11 := by
    unfold marchMonth
    omega
  unfold ofSeconds
  dsimp only
  generalize marchYear (first / 86400) = y1 at *
  generalize marchYear (second / 86400) = y2 at *
  generalize dayOfYear (first / 86400) = d1 at *
  generalize dayOfYear (second / 86400) = d2 at *
  have hmono : d1 < d2 → marchMonth d1 ≤ marchMonth d2 := fun hlt => marchMonth_mono hlt.le
  have hsame : marchMonth d1 = marchMonth d2 →
      monthStart (marchMonth d1) = monthStart (marchMonth d2) := congrArg monthStart
  generalize marchMonth d1 = m1 at *
  generalize marchMonth d2 = m2 at *
  generalize monthStart m1 = s1 at *
  generalize monthStart m2 = s2 at *
  split <;> split <;> omega

theorem fields_lt {first second : Nat} (h : first < second) :
    (ofSeconds first).fields < (ofSeconds second).fields := by
  unfold fields
  simp only [List.cons_lt_cons_iff, List.not_lt_nil, and_false, or_false]
  rcases (Nat.div_le_div_right h.le (c := 86400)).lt_or_eq with hday | hday
  · have := date_lt hday
    dsimp only at this
    omega
  · have hdate : (ofSeconds first).year = (ofSeconds second).year ∧
        (ofSeconds first).month = (ofSeconds second).month ∧
        (ofSeconds first).day = (ofSeconds second).day := by
      simp [ofSeconds, hday]
    have hclock : first % 86400 < second % 86400 := by omega
    rw [hdate.1, hdate.2.1, hdate.2.2]
    unfold ofSeconds
    dsimp only
    generalize first % 86400 = f at *
    generalize second % 86400 = s at *
    omega

theorem fields_lt_iff (first second : Nat) :
    (ofSeconds first).fields < (ofSeconds second).fields ↔ first < second := by
  constructor
  · intro h
    by_contra hle
    rcases Nat.lt_or_eq_of_le (Nat.le_of_not_lt hle) with hlt | heq
    · exact absurd (fields_lt hlt) (List.lt_asymm h)
    · exact absurd (heq ▸ h) (List.lt_irrefl _)
  · exact fields_lt

theorem toSeconds_lt_iff (seconds : Nat) {date : DateTime} (h : ofSeconds date.toSeconds = date) :
    (ofSeconds seconds).fields < date.fields ↔ seconds < date.toSeconds := by
  rw [← fields_lt_iff, h]

/-! Every field but the year has two digits. -/

theorem ofSeconds_ranges (seconds : Nat) :
    0 < (ofSeconds seconds).month ∧ (ofSeconds seconds).month ≤ 12 ∧
      0 < (ofSeconds seconds).day ∧ (ofSeconds seconds).day ≤ 31 ∧
      (ofSeconds seconds).hour < 24 ∧ (ofSeconds seconds).minute < 60 ∧
      (ofSeconds seconds).second < 60 := by
  have hyear := dayOfYear_lt (seconds / 86400)
  have hclock := Nat.mod_lt seconds (show 0 < 86400 by omega)
  unfold ofSeconds
  dsimp only
  generalize dayOfYear (seconds / 86400) = day at *
  have hlast : marchMonth day ≤ 11 := by
    unfold marchMonth
    omega
  have hlong : day - monthStart (marchMonth day) + 1 ≤ 31 := by
    unfold monthStart marchMonth
    omega
  refine ⟨?_, ?_, by omega, hlong, by omega, by omega, by omega⟩ <;> split <;> omega

theorem year_lt {seconds year : Nat}
    (hyear : ofSeconds (toSeconds ⟨year, 1, 1, 0, 0, 0⟩) = ⟨year, 1, 1, 0, 0, 0⟩)
    (h : seconds < toSeconds ⟨year, 1, 1, 0, 0, 0⟩) : (ofSeconds seconds).year < year := by
  have hranges := ofSeconds_ranges seconds
  rw [← toSeconds_lt_iff seconds hyear] at h
  unfold fields at h
  simp only [List.cons_lt_cons_iff, List.not_lt_nil, and_false, or_false] at h
  omega

end DateTime

end Civil
