import GetTogether.Reminders.Marks
import Mathlib.Order.Bounds.Basic
import Mathlib.Order.Nat

/-! When a reminder fires: at the first instant from its scheduling on at which the clock
shows its month, day, hour and minute. The year is not part of a request. -/
namespace GetTogether

open Civil EventAlertVC

/-- The instant at which a clock in the zone begins to show a date. -/
def TimeZone.instant (zone : TimeZone) (date : DateTime) : ℚ :=
  (((date.toSeconds : Int) - epoch - zone.secondsFromGMT : Int) : ℚ)

/-- What a clock in the zone counts from the first day of the calendar on. -/
def TimeZone.clock (zone : TimeZone) (time : ℚ) : Int := ⌊time⌋ + zone.secondsFromGMT + epoch

/-- The trigger of a request does not repeat: it has one instant, the earliest that matches. -/
def Request.FiresAt (request : Request) (timeZone : TimeZone) (scheduled fired : ℚ) : Prop :=
  IsLeast {time : ℚ | scheduled ≤ time ∧
    EventAlertVC.components timeZone time = request.components} fired

/-- A reminder that is still ahead fires at its minute, and one that has passed not at all. -/
structure Request.Kept (request : Request) (timeZone : TimeZone) (now alert : ℚ) : Prop where
  ahead : now < alert → request.FiresAt timeZone now alert
  past : alert < now → ∀ fired, ¬ request.FiresAt timeZone now fired

/-- In every earlier year that has the minute of the reminder, that minute is over. -/
def EarlierYearsOver (timeZone : TimeZone) (now alert : ℚ) : Prop :=
  ∀ year < ((dateFormatter timeZone).civil alert).year,
    (((dateFormatter timeZone).civil alert).inYear year).Exists →
    timeZone.instant (((dateFormatter timeZone).civil alert).inYear year) + 60 ≤ now

section Clock

variable (zone : TimeZone) {time : ℚ} {date : DateTime}

theorem instant_le_iff (htime : 0 ≤ zone.clock time) :
    zone.instant date ≤ time ↔ date.toSeconds ≤ (zone.clock time).toNat := by
  unfold TimeZone.instant
  rw [← Int.le_floor]
  unfold TimeZone.clock at *
  omega

theorem lt_instant_iff (htime : 0 ≤ zone.clock time) (seconds : Nat) :
    time < zone.instant date + seconds ↔ (zone.clock time).toNat < date.toSeconds + seconds := by
  have hcast : zone.instant date + seconds =
      (((date.toSeconds : Int) - epoch - zone.secondsFromGMT + seconds : Int) : ℚ) := by
    unfold TimeZone.instant
    push_cast
    rfl
  rw [hcast, ← Int.floor_lt]
  unfold TimeZone.clock at *
  omega

theorem clock_instant (date : DateTime) : zone.clock (zone.instant date) = date.toSeconds := by
  unfold TimeZone.clock TimeZone.instant
  rw [Int.floor_intCast]
  omega

theorem clock_mono {later : ℚ} (h : time ≤ later) : zone.clock time ≤ zone.clock later := by
  have hfloor := Int.floor_le_floor h
  unfold TimeZone.clock
  omega

theorem civil_instant (hdate : date.Exists) :
    (dateFormatter zone).civil (zone.instant date) = date := by
  change DateTime.ofSeconds (zone.clock (zone.instant date)).toNat = date
  rw [clock_instant, Int.toNat_natCast]
  exact hdate

theorem Instant.clock_nonneg (now : Instant) (h : now.date ≤ time) : 0 ≤ zone.clock time :=
  Instant.civil_nonneg ⟨time, now.dated.trans h⟩ zone

theorem sameMinute_civil_iff (htime : 0 ≤ zone.clock time) (hsecond : date.second = 0) :
    ((dateFormatter zone).civil time).SameMinute date ↔
      ∃ year, (date.inYear year).Exists ∧ zone.instant (date.inYear year) ≤ time ∧
        time < zone.instant (date.inYear year) + 60 := by
  change (DateTime.ofSeconds (zone.clock time).toNat).SameMinute date ↔ _
  rw [DateTime.sameMinute_iff hsecond]
  have hin (year : Nat) : zone.instant (date.inYear year) ≤ time ∧
      time < zone.instant (date.inYear year) + 60 ↔
      60 * ((zone.clock time).toNat / 60) = (date.inYear year).toSeconds := by
    have hminute : 60 ∣ (date.inYear year).toSeconds := DateTime.second_toSeconds hsecond
    have hend : time < zone.instant (date.inYear year) + (60 : Nat) ↔ _ :=
      lt_instant_iff zone htime 60
    rw [Nat.cast_ofNat] at hend
    rw [instant_le_iff zone htime, hend]
    omega
  simp only [hin]
  constructor
  · intro h
    refine ⟨_, h ▸ DateTime.exists_ofSeconds _, ?_⟩
    rw [← h, DateTime.toSeconds_ofSeconds]
  · intro h
    obtain ⟨year, hyear, hseconds⟩ := h
    have hdate : DateTime.ofSeconds (60 * ((zone.clock time).toNat / 60)) = date.inYear year := by
      rw [hseconds]
      exact hyear
    have hshown : (DateTime.ofSeconds (zone.clock time).toNat).year = year := by
      have htruncated := DateTime.truncated_ofSeconds (zone.clock time).toNat
      rw [hdate] at htruncated
      exact congrArg DateTime.year htruncated
    rw [hshown, hdate]

end Clock

section Match

variable (zone : TimeZone) (now : Instant) {date : DateTime}

/-- The instants from now on at which the clock shows the minute of a date. -/
def matching (date : DateTime) : Set ℚ :=
  {time | now.date ≤ time ∧ ((dateFormatter zone).civil time).SameMinute date}

theorem exists_isLeast_matching (hdate : date.Exists) :
    ∃ fired, IsLeast (matching zone now date) fired := by
  have hnow := now.clock_nonneg zone (le_refl now.date)
  have hlater := DateTime.exists_sameMinute date hdate (zone.clock now.date).toNat
  obtain ⟨first, ⟨hfirst, hminute⟩, hleast⟩ :=
    wellFounded_lt.has_min {later | (zone.clock now.date).toNat ≤ later ∧
      (DateTime.ofSeconds later).SameMinute date} hlater
  have hbegin : zone.clock (zone.instant (.ofSeconds first)) = first := by
    rw [clock_instant, DateTime.toSeconds_ofSeconds]
  have hshown : (zone.clock (max now.date (zone.instant (.ofSeconds first)))).toNat = first := by
    rcases le_total now.date (zone.instant (.ofSeconds first)) with h | h
    · rw [max_eq_right h, hbegin, Int.toNat_natCast]
    · rw [max_eq_left h]
      rw [instant_le_iff zone hnow, DateTime.toSeconds_ofSeconds] at h
      exact Nat.le_antisymm hfirst h
  refine ⟨max now.date (zone.instant (.ofSeconds first)), ⟨le_max_left _ _, ?_⟩, ?_⟩
  · change (DateTime.ofSeconds (zone.clock _).toNat).SameMinute date
    rwa [hshown]
  · intro time htime
    have htimes := now.clock_nonneg zone htime.1
    have hmono := clock_mono zone htime.1
    have hnot := hleast _ ⟨Int.toNat_le_toNat hmono, htime.2⟩
    apply max_le htime.1
    rw [instant_le_iff zone htimes, DateTime.toSeconds_ofSeconds]
    exact Nat.le_of_not_lt hnot

theorem instant_add_le (hdate : date.Exists) (hsecond : date.second = 0) {year : Nat}
    (hyear : year < date.year) (hexists : (date.inYear year).Exists) :
    zone.instant (date.inYear year) + 60 ≤ zone.instant date := by
  have hlt := DateTime.toSeconds_lt_of_year hexists hdate hyear
  have hminutes : 60 ∣ date.toSeconds := DateTime.second_toSeconds hsecond
  have hother : 60 ∣ (date.inYear year).toSeconds := DateTime.second_toSeconds hsecond
  have hsum : (date.inYear year).toSeconds + 60 ≤ date.toSeconds := by omega
  have hcast : ((date.inYear year).toSeconds : ℚ) + 60 ≤ date.toSeconds := by exact_mod_cast hsum
  unfold TimeZone.instant
  push_cast
  linarith

/-- A date ahead is the first of these instants exactly when its minute is over in every
earlier year that has it. -/
theorem isLeast_matching_iff (hdate : date.Exists) (hsecond : date.second = 0)
    (hahead : now.date ≤ zone.instant date) :
    IsLeast (matching zone now date) (zone.instant date) ↔
      ∀ year < date.year, (date.inYear year).Exists →
        zone.instant (date.inYear year) + 60 ≤ now.date := by
  constructor
  · intro hleast year hyear hexists
    by_contra hover
    have hlate : now.date < zone.instant (date.inYear year) + 60 := not_le.mp hover
    have hmatch : max now.date (zone.instant (date.inYear year)) ∈ matching zone now date := by
      refine ⟨le_max_left _ _, ?_⟩
      rw [sameMinute_civil_iff zone (now.clock_nonneg zone (le_max_left _ _)) hsecond]
      exact ⟨year, hexists, le_max_right _ _, max_lt hlate (by linarith)⟩
    have hle := hleast.2 hmatch
    have hlt : max now.date (zone.instant (date.inYear year)) <
        zone.instant (date.inYear year) + 60 := max_lt hlate (by linarith)
    have hend := instant_add_le zone hdate hsecond hyear hexists
    linarith
  · intro hover
    refine ⟨⟨hahead, ?_⟩, ?_⟩
    · rw [civil_instant zone hdate]
      exact ⟨rfl, rfl, rfl, rfl⟩
    · intro time htime
      have htimes := now.clock_nonneg zone htime.1
      obtain ⟨year, hexists, hbegin, hend⟩ :=
        (sameMinute_civil_iff zone htimes hsecond).mp htime.2
      rcases Nat.lt_trichotomy year date.year with hlt | rfl | hgt
      · have hpast := hover year hlt hexists
        have hnow := htime.1
        linarith
      · exact hbegin
      · have hlater := DateTime.toSeconds_lt_of_year hdate hexists hgt
        rw [instant_le_iff zone htimes] at hbegin ⊢
        omega

end Match

section Alert

variable {timeZone : TimeZone} {now : Instant}

theorem eventDate_eq_some {event : Event} {date : ℚ} (h : eventDate timeZone event = some date) :
    ∃ civil : DateTime, civil.second = 0 ∧ date = timeZone.instant civil := by
  obtain ⟨civil, hparse, rfl⟩ := Option.map_eq_some_iff.mp h
  obtain ⟨hscan, -⟩ := Option.filter_eq_some_iff.mp hparse
  refine ⟨civil, ?_, rfl⟩
  have hfield : ∀ width, .field .second width ∉ (dateFormatter timeZone).pattern := by
    rw [dateFormatter_pattern]
    simp
  exact scan_get hfield hscan

theorem offset_minutes (option : Nat) :
    ∃ minutes ≤ 1440, offset option = ((60 * minutes : Nat) : ℚ) := by
  unfold offset
  split
  · exact ⟨5, by omega, by norm_num⟩
  · exact ⟨15, by omega, by norm_num⟩
  · exact ⟨30, by omega, by norm_num⟩
  · exact ⟨60, by omega, by norm_num⟩
  · exact ⟨180, by omega, by norm_num⟩
  · exact ⟨1440, by omega, by norm_num⟩
  · exact ⟨0, by omega, by norm_num⟩

theorem alert_eq {event : Event} {date : ℚ} (hdate : eventDate timeZone event = some date)
    (hahead : now.date ≤ date) (option : Nat) :
    ∃ civil : DateTime, civil.Exists ∧ civil.second = 0 ∧
      date - offset option = timeZone.instant civil := by
  obtain ⟨civil, hsecond, rfl⟩ := eventDate_eq_some hdate
  obtain ⟨minutes, hminutes, hoffset⟩ := offset_minutes option
  have hdivides : 60 ∣ civil.toSeconds := DateTime.second_toSeconds hsecond
  have hlate : 60 * minutes ≤ civil.toSeconds := by
    have hfloor : -62135510400 ≤ ⌊now.date⌋ := by
      rw [Int.le_floor]
      exact_mod_cast now.dated
    have hzone := timeZone.bounded
    have hclock := clock_mono timeZone hahead
    rw [clock_instant] at hclock
    unfold TimeZone.clock TimeZone.secondsFromGMT epoch at hclock
    omega
  refine ⟨.ofSeconds (civil.toSeconds - 60 * minutes), DateTime.exists_ofSeconds _, ?_, ?_⟩
  · unfold DateTime.ofSeconds
    dsimp only
    omega
  · unfold TimeZone.instant
    rw [hoffset, DateTime.toSeconds_ofSeconds]
    push_cast [hlate]
    ring

theorem firesAt_iff {request : Request} {alert : ℚ} (fired : ℚ)
    (hrequest : request.components = components timeZone alert) :
    request.FiresAt timeZone now.date fired ↔
      IsLeast (matching timeZone now ((dateFormatter timeZone).civil alert)) fired := by
  have hsame : {time : ℚ | now.date ≤ time ∧ components timeZone time = request.components} =
      matching timeZone now ((dateFormatter timeZone).civil alert) := by
    ext time
    unfold matching components
    rw [Set.mem_ofPred_eq, Set.mem_ofPred_eq, hrequest, components, DateComponents.mk.injEq]
    refine and_congr_right fun _ => ?_
    constructor
    · exact fun h => ⟨h.1, h.2.1, h.2.2.1, h.2.2.2⟩
    · exact fun h => ⟨h.month, h.day, h.hour, h.minute⟩
  unfold Request.FiresAt
  rw [hsame]

theorem kept_iff {request : Request} {alert : ℚ} {civil : DateTime} (hexists : civil.Exists)
    (hsecond : civil.second = 0) (halert : alert = timeZone.instant civil)
    (hrequest : request.components = components timeZone alert) :
    request.Kept timeZone now.date alert ↔
      now.date ≤ alert ∧ EarlierYearsOver timeZone now.date alert := by
  have hcivil : (dateFormatter timeZone).civil alert = civil := by
    rw [halert]
    exact civil_instant timeZone hexists
  have hfires : ∀ fired, request.FiresAt timeZone now.date fired ↔ _ :=
    fun fired => firesAt_iff fired hrequest
  rw [hcivil] at hfires
  unfold EarlierYearsOver
  rw [hcivil]
  rcases lt_trichotomy now.date alert with hlt | heq | hgt
  · have hahead : now.date ≤ timeZone.instant civil := halert ▸ hlt.le
    rw [← isLeast_matching_iff timeZone now hexists hsecond hahead, ← halert, ← hfires]
    constructor
    · exact fun h => ⟨hlt.le, h.ahead hlt⟩
    · exact fun h => ⟨fun _ => h.2, fun hpast => absurd hpast hlt.not_gt⟩
  · refine iff_of_true ⟨fun h => absurd heq h.ne, fun h => absurd heq.symm h.ne⟩ ⟨heq.le, ?_⟩
    intro year hyear hyears
    rw [heq, halert]
    exact instant_add_le timeZone hexists hsecond hyear hyears
  · refine iff_of_false ?_ fun h => absurd h.1 hgt.not_ge
    intro h
    obtain ⟨fired, hfired⟩ := exists_isLeast_matching timeZone now hexists
    exact h.past hgt fired ((hfires fired).mpr hfired)

/-- Every day but a leap day comes every year, and then a reminder is in time when it is no
more than a year ahead. -/
theorem earlierYearsOver_iff {civil : DateTime} {last : Nat} (hexists : civil.Exists)
    (hsecond : civil.second = 0) (hyear : civil.year = last + 1)
    (hlast : (civil.inYear last).Exists) (now : ℚ) :
    EarlierYearsOver timeZone now (timeZone.instant civil) ↔
      timeZone.instant (civil.inYear last) + 60 ≤ now := by
  unfold EarlierYearsOver
  rw [civil_instant timeZone hexists]
  constructor
  · intro h
    exact h last (by omega) hlast
  · intro h year hlt hyears
    rcases Nat.lt_or_eq_of_le (show year ≤ last by omega) with hearlier | rfl
    · have hend : timeZone.instant (civil.inYear year) + 60 ≤ timeZone.instant (civil.inYear last) :=
        instant_add_le timeZone hlast hsecond hearlier hyears
      linarith
    · exact h

end Alert

namespace Phone

open Realtime

/-- The request that a tap leaves pending is kept exactly when its time has not passed and the
same minute of all earlier years has. -/
theorem reminder_kept_iff (timeZone : TimeZone) (now : Instant) (phone phone' : Phone)
    (vc : EventAlertVC) (row : Nat) (date : ℚ) (hvc : phone.alertVC = some vc)
    (hoff : vc.alertStatus[row]? = some false) (hdate : eventDate timeZone vc.event = some date)
    (hahead : now.date ≤ date)
    (h : phone.step timeZone (.didSelectRowAt row now.date) = some phone') :
    ∃ request ∈ phone'.pending,
      (∀ other ∈ phone'.pending,
        other.identifier = alertID vc.event.eventID row ↔ other = request) ∧
      (request.Kept timeZone now.date (date - offset row) ↔
        now.date ≤ date - offset row ∧
          EarlierYearsOver timeZone now.date (date - offset row)) := by
  cases Step.of_step h with
  | @didSelectRowAt _ _ shown isAlertOn read hshown hrow hstatus hread =>
    obtain rfl := Option.some.inj (hvc.symm.trans hshown)
    obtain rfl := Option.some.inj (hoff.symm.trans hstatus)
    obtain rfl := Option.some.inj (hdate.symm.trans hread)
    obtain ⟨civil, hexists, hsecond, halert⟩ := alert_eq hdate hahead row
    refine ⟨vc.setLocalNotification timeZone (date - offset row) (alertID vc.event.eventID row),
      mem_add.mpr (.inl rfl), ?_, kept_iff hexists hsecond halert rfl⟩
    intro other hother
    rcases mem_add.mp hother with rfl | hold
    · exact iff_of_true rfl rfl
    · refine iff_of_false hold.2 ?_
      rintro rfl
      exact hold.2 rfl

def opened (date : String) : List Action :=
  [.uploadEventData partyID (party date), .delivered, .openEvent 0, .openAlert 1530000000]

def fiveToNoon (year : Nat) : DateTime := ⟨year, 7, 1, 11, 55, 0⟩

theorem instant_fiveToNoon : TimeZone.taipei.instant (fiveToNoon 2017) = 1498881300 ∧
    TimeZone.taipei.instant (fiveToNoon 2018) = 1530417300 ∧
    TimeZone.taipei.instant (fiveToNoon 2020) = 1593575700 := by decide

theorem instant_fiveToNoon_lt :
    TimeZone.taipei.instant (fiveToNoon 2017) + 60 ≤ 1530000000 ∧
    1530000000 < TimeZone.taipei.instant (fiveToNoon 2018) ∧
    TimeZone.taipei.instant (fiveToNoon 2018) < TimeZone.taipei.instant (fiveToNoon 2020) := by
  rw [instant_fiveToNoon.1, instant_fiveToNoon.2.1, instant_fiveToNoon.2.2]
  norm_num

theorem earlierYearsOver_fiveToNoon :
    EarlierYearsOver .taipei 1530000000 (TimeZone.taipei.instant (fiveToNoon 2018)) := by
  have hlast : ((fiveToNoon 2018).inYear 2017).Exists := by decide
  rw [earlierYearsOver_iff (by decide) rfl rfl hlast]
  exact instant_fiveToNoon_lt.1

theorem reminder_kept_this_year : ∃ phone phone',
    exec (step .taipei) {} (opened "2018-07-01 12:00") = some phone ∧
    phone.step .taipei (.didSelectRowAt 1 1530000000) = some phone' ∧
    ∃ request ∈ phone'.pending,
      request.Kept .taipei 1530000000 (TimeZone.taipei.instant (fiveToNoon 2018)) := by
  have hrun : ((exec (step .taipei) {} (opened "2018-07-01 12:00")).any fun phone =>
      (phone.step .taipei (.didSelectRowAt 1 1530000000)).isSome ∧
      phone.alertVC = some ⟨{ party "2018-07-01 12:00" with eventID := partyID.key }, allOff, false⟩) =
      true := by decide
  obtain ⟨phone, hphone, hopen⟩ := (Option.any_eq_true _ _).mp hrun
  obtain ⟨htap, hvc⟩ := of_decide_eq_true hopen
  obtain ⟨phone', hphone'⟩ := Option.isSome_iff_exists.mp htap
  have halert : (1530417600 : ℚ) - offset 1 = TimeZone.taipei.instant (fiveToNoon 2018) := by
    rw [instant_fiveToNoon.2.1]
    unfold offset
    norm_num
  obtain ⟨request, hrequest, -, hkept⟩ := reminder_kept_iff .taipei ⟨1530000000, by norm_num⟩
    phone phone' _ 1 1530417600 hvc rfl (by decide) (by norm_num) hphone'
  rw [halert] at hkept
  exact ⟨phone, phone', hphone, hphone', request, hrequest,
    hkept.mpr ⟨instant_fiveToNoon_lt.2.1.le, earlierYearsOver_fiveToNoon⟩⟩

/-- The reminder of a party in 2020 fires in 2018. -/
theorem reminder_two_years_early : ∃ phone,
    exec (step .taipei) {} (opened "2020-07-01 12:00" ++ [.didSelectRowAt 1 1530000000]) =
      some phone ∧
    ∃ request, phone.pending = [request] ∧
      1530000000 < TimeZone.taipei.instant (fiveToNoon 2020) ∧
      request.FiresAt .taipei 1530000000 (TimeZone.taipei.instant (fiveToNoon 2018)) ∧
      ¬ request.FiresAt .taipei 1530000000 (TimeZone.taipei.instant (fiveToNoon 2020)) := by
  have hrun : ((exec (step .taipei) {}
      (opened "2020-07-01 12:00" ++ [.didSelectRowAt 1 1530000000])).any fun phone =>
      decide (phone.pending.map (·.components) = [⟨7, 1, 11, 55⟩])) = true := by decide +kernel
  obtain ⟨phone, hphone, hpending⟩ := (Option.any_eq_true _ _).mp hrun
  obtain ⟨request, hrequest, hcomponents⟩ := List.map_eq_singleton_iff.mp (of_decide_eq_true hpending)
  have hfires : request.FiresAt .taipei 1530000000 (TimeZone.taipei.instant (fiveToNoon 2018)) := by
    have hsame : request.components =
        components .taipei (TimeZone.taipei.instant (fiveToNoon 2018)) := by
      unfold components
      rw [hcomponents, civil_instant .taipei (by decide)]
      rfl
    have hkept : request.Kept .taipei (⟨1530000000, by norm_num⟩ : Instant).date
        (TimeZone.taipei.instant (fiveToNoon 2018)) ↔ _ := kept_iff (by decide) rfl rfl hsame
    exact (hkept.mpr ⟨instant_fiveToNoon_lt.2.1.le, earlierYearsOver_fiveToNoon⟩).ahead
      instant_fiveToNoon_lt.2.1
  refine ⟨phone, hphone, request, hrequest, ?_, hfires, fun hlate => ?_⟩
  · exact instant_fiveToNoon_lt.2.1.trans instant_fiveToNoon_lt.2.2
  · exact absurd (hfires.unique hlate) instant_fiveToNoon_lt.2.2.ne

end Phone

end GetTogether
