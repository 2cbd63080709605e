import GetTogether.Civil.Format

/-! When the same minute of a year comes again. The calendar repeats itself every four
hundred years, so it always does. -/
namespace Civil

theorem yearStart_add_eras (year eras : Nat) :
    yearStart (year + 400 * eras) = yearStart year + 146097 * eras := by
  unfold yearStart
  omega

theorem marchYear_add_eras (days eras : Nat) :
    marchYear (days + 146097 * eras) = marchYear days + 400 * eras := by
  have hmod : (days + 146097 * eras) % 146097 = days % 146097 := by omega
  have hdiv : (days + 146097 * eras) / 146097 = days / 146097 + eras := by omega
  unfold marchYear
  dsimp only
  rw [hmod, hdiv]
  omega

theorem dayOfYear_add_eras (days eras : Nat) :
    dayOfYear (days + 146097 * eras) = dayOfYear days := by
  unfold dayOfYear
  rw [marchYear_add_eras, yearStart_add_eras]
  omega

namespace DateTime

/-- The same month, day, hour and minute, of whatever year. -/
structure SameMinute (first second : DateTime) : Prop where
  month : first.month = second.month
  day : first.day = second.day
  hour : first.hour = second.hour
  minute : first.minute = second.minute

def inYear (date : DateTime) (year : Nat) : DateTime := { date with year }

def truncated (date : DateTime) : DateTime := { date with second := 0 }

theorem truncated_ofSeconds (seconds : Nat) :
    (ofSeconds seconds).truncated = ofSeconds (60 * (seconds / 60)) := by
  have hdays : 60 * (seconds / 60) / 86400 = seconds / 86400 := by omega
  have hhour : 60 * (seconds / 60) % 86400 / 3600 = seconds % 86400 / 3600 := by omega
  have hminute : 60 * (seconds / 60) % 86400 % 3600 / 60 = seconds % 86400 % 3600 / 60 := by omega
  have hsecond : 60 * (seconds / 60) % 86400 % 60 = 0 := by omega
  unfold truncated ofSeconds
  simp only [hdays, hhour, hminute, hsecond]

theorem exists_ofSeconds (seconds : Nat) : (ofSeconds seconds).Exists :=
  congrArg _ (toSeconds_ofSeconds seconds)

variable {date : DateTime}

theorem second_toSeconds (hsecond : date.second = 0) : 60 ∣ date.toSeconds := by
  unfold toSeconds
  dsimp only
  rw [hsecond]
  omega

/-- A clock shows the same minute when it shows the same date in the year it is. -/
theorem sameMinute_iff {seconds : Nat} (hsecond : date.second = 0) :
    (ofSeconds seconds).SameMinute date ↔
      ofSeconds (60 * (seconds / 60)) = date.inYear (ofSeconds seconds).year := by
  rw [← truncated_ofSeconds]
  unfold truncated inYear
  constructor
  · intro h
    rw [h.month, h.day, h.hour, h.minute, hsecond]
  · intro h
    rw [mk.injEq] at h
    exact ⟨h.2.1, h.2.2.1, h.2.2.2.1, h.2.2.2.2.1⟩

theorem toSeconds_lt_of_year {first second : DateTime} (hfirst : first.Exists)
    (hsecond : second.Exists) (h : first.year < second.year) :
    first.toSeconds < second.toSeconds := by
  rw [← fields_lt_iff, hfirst, hsecond]
  unfold fields
  rw [List.cons_lt_cons_iff]
  exact .inl h

theorem ofSeconds_add_eras (seconds eras : Nat) :
    ofSeconds (seconds + 86400 * (146097 * eras)) =
      (ofSeconds seconds).inYear ((ofSeconds seconds).year + 400 * eras) := by
  have hdays : (seconds + 86400 * (146097 * eras)) / 86400 = seconds / 86400 + 146097 * eras := by
    omega
  have hclock : (seconds + 86400 * (146097 * eras)) % 86400 = seconds % 86400 := by omega
  unfold inYear ofSeconds
  simp only [hdays, hclock, marchYear_add_eras, dayOfYear_add_eras]
  congr 1
  split <;> omega

theorem exists_sameMinute (date : DateTime) (hdate : date.Exists) (seconds : Nat) :
    ∃ later, seconds ≤ later ∧ (ofSeconds later).SameMinute date := by
  refine ⟨date.toSeconds + 86400 * (146097 * seconds), by omega, ?_⟩
  rw [ofSeconds_add_eras, hdate]
  exact ⟨rfl, rfl, rfl, rfl⟩

end DateTime

end Civil
