import GetTogether.Comments.Notifications
import GetTogether.Dates.Zones

/-! The age under a comment. It is the whole number of the largest unit that fits, with
the ends of the minutes, hours and days counted to the smaller unit. -/
namespace GetTogether

inductive AgeUnit where
  | minute
  | hour
  | day
  | week
  deriving DecidableEq, Repr

namespace AgeUnit

def minutes : AgeUnit → Nat
  | .minute => 1
  | .hour => 60
  | .day => 1440
  | .week => 10080

def text : AgeUnit → String
  | .minute => "分鐘前"
  | .hour => "小時前"
  | .day => "天前"
  | .week => "週前"

end AgeUnit

def ageLabel (count : Nat) (unit : AgeUnit) : String := toString count ++ unit.text

def wholeMinutes (sent now : ℚ) : Int := ⌊(now - (⌊sent⌋ : Int)) / 60⌋

/-- The count is of full units, and of at least one where the unit is more than a minute. -/
structure Brackets (count : Nat) (unit : AgeUnit) (minutes : Int) : Prop where
  reached : (count * unit.minutes : Int) ≤ minutes
  beyond : minutes < ((count + 1) * unit.minutes : Int)
  counted : unit ≠ .minute → 1 ≤ count

def ageUnit (minutes : Nat) : AgeUnit :=
  if minutes ≤ 60 then .minute
  else if minutes ≤ 1440 then .hour
  else if minutes ≤ 10080 then .day
  else .week

def ageCount (minutes : Nat) : Nat := minutes / (ageUnit minutes).minutes

theorem brackets_ageCount (minutes : Nat) :
    Brackets (ageCount minutes) (ageUnit minutes) minutes := by
  unfold ageCount ageUnit
  split
  · refine ⟨?_, ?_, by simp⟩ <;> simp only [AgeUnit.minutes] <;> omega
  · split
    · refine ⟨?_, ?_, fun _ => ?_⟩ <;> simp only [AgeUnit.minutes] <;> omega
    · split
      · refine ⟨?_, ?_, fun _ => ?_⟩ <;> simp only [AgeUnit.minutes] <;> omega
      · refine ⟨?_, ?_, fun _ => ?_⟩ <;> simp only [AgeUnit.minutes] <;> omega

theorem represented_eq (minutes : Nat) : ageCount minutes * (ageUnit minutes).minutes =
    if minutes ≤ 60 then minutes
    else if minutes ≤ 1440 then minutes / 60 * 60
    else if minutes ≤ 10080 then minutes / 1440 * 1440
    else minutes / 10080 * 10080 := by
  unfold ageCount ageUnit
  split_ifs <;> simp only [AgeUnit.minutes]
  omega

/-- Each unit ends at a multiple of the next one, so a larger unit never shows less. -/
theorem represented_mono {minutes later : Nat} (h : minutes ≤ later) :
    ageCount minutes * (ageUnit minutes).minutes ≤ ageCount later * (ageUnit later).minutes := by
  rw [represented_eq, represented_eq]
  split_ifs <;> omega

/-! A label tells its count and its unit: the count ends where the digits end. -/

theorem ageLabel_toList (count : Nat) (unit : AgeUnit) :
    (ageLabel count unit).toList = Nat.toDigits 10 count ++ unit.text.toList := by
  unfold ageLabel
  rw [String.toList_append]
  congr 1
  exact String.toList_ofList

theorem takeWhile_ageLabel (count : Nat) (unit : AgeUnit) :
    (ageLabel count unit).toList.takeWhile Char.isDigit = Nat.toDigits 10 count := by
  have hdigits : ∀ char ∈ Nat.toDigits 10 count, char.isDigit = true := by
    intro char hchar
    exact Nat.isDigit_of_mem_toDigits (by decide) (by decide) hchar
  have htext : unit.text.toList.takeWhile Char.isDigit = [] := by cases unit <;> decide
  rw [ageLabel_toList, List.takeWhile_append_of_pos hdigits, htext, List.append_nil]

theorem ageLabel_inj {count count' : Nat} {unit unit' : AgeUnit}
    (h : ageLabel count unit = ageLabel count' unit') : count = count' ∧ unit = unit' := by
  have hdigits := congrArg (fun text => text.toList.takeWhile Char.isDigit) h
  simp only [takeWhile_ageLabel] at hdigits
  have hcount : count = count' := by
    have hvalue := congrArg (fun digits => Nat.ofDigitChars 10 digits 0) hdigits
    simpa only [Nat.ofDigitChars_ten_toDigits] using hvalue
  refine ⟨hcount, ?_⟩
  have htext := congrArg String.toList h
  rw [ageLabel_toList, ageLabel_toList, hdigits, List.append_cancel_left_eq] at htext
  cases unit <;> cases unit' <;> first | rfl | exact absurd htext (by decide)

namespace CommentVC

theorem truncated_intCast (seconds : Int) : truncated (seconds : ℚ) = seconds := by
  simp [truncated]

theorem truncated_of_nonneg {seconds : ℚ} (h : 0 ≤ seconds) : truncated seconds = ⌊seconds⌋ := by
  unfold truncated
  rw [Rat.floor_def', Int.tdiv_eq_ediv_of_nonneg (Rat.num_nonneg.mpr h)]

theorem wholeMinutes_eq (sent now : ℚ) : wholeMinutes sent now = (⌊now⌋ - ⌊sent⌋) / 60 := by
  have hfloor := Int.floor_le now
  have hnext := Int.lt_floor_add_one now
  unfold wholeMinutes
  rw [Int.floor_eq_iff]
  constructor
  · rw [le_div_iff₀ (by norm_num)]
    have hle : (((⌊now⌋ - ⌊sent⌋) / 60 * 60 : Int) : ℚ) ≤ ((⌊now⌋ - ⌊sent⌋ : Int) : ℚ) := by
      exact_mod_cast (by omega)
    push_cast at hle ⊢
    linarith
  · rw [div_lt_iff₀ (by norm_num)]
    have hle : ((⌊now⌋ - ⌊sent⌋ + 1 : Int) : ℚ) ≤ (((⌊now⌋ - ⌊sent⌋) / 60 * 60 + 60 : Int) : ℚ) := by
      exact_mod_cast (by omega)
    push_cast at hle ⊢
    linarith

theorem getTimeDifferentWith_eq {sent now : ℚ} {device : TimeZone} {date : String}
    (hdate : dateModel device date = some ((⌊sent⌋ : Int) : ℚ)) (hnow : 0 ≤ now)
    (hsent : sent ≤ now) : getTimeDifferentWith device now date =
      some (ageLabel (ageCount (wholeMinutes sent now).toNat)
        (ageUnit (wholeMinutes sent now).toNat)) := by
  have hfloor : ⌊sent⌋ ≤ ⌊now⌋ := Int.floor_mono hsent
  have hminutes : (⌊now⌋ - ⌊sent⌋).tdiv 60 = ((wholeMinutes sent now).toNat : Int) := by
    rw [Int.tdiv_eq_ediv_of_nonneg (by omega), wholeMinutes_eq]
    omega
  rw [getTimeDifferentWith, hdate, Option.map_some, truncated_intCast, truncated_of_nonneg hnow,
    hminutes]
  generalize (wholeMinutes sent now).toNat = minutes
  have hhours : ((minutes : Int).tdiv 60) = ((minutes / 60 : Nat) : Int) := rfl
  have hdays : ((minutes : Int).tdiv 60).tdiv 24 = ((minutes / 1440 : Nat) : Int) := by
    rw [hhours, Int.tdiv_eq_ediv_of_nonneg (by omega)]
    omega
  have hweeks : (((minutes : Int).tdiv 60).tdiv 24).tdiv 7 = ((minutes / 10080 : Nat) : Int) := by
    rw [hdays, Int.tdiv_eq_ediv_of_nonneg (by omega)]
    omega
  have hminute : ((minutes : Int) ≤ 60) ↔ minutes ≤ 60 := by omega
  have hhour : ((minutes : Int) ≤ 60 * 24) ↔ minutes ≤ 1440 := by omega
  have hday : ((minutes : Int) ≤ 60 * 24 * 7) ↔ minutes ≤ 10080 := by omega
  dsimp only
  rw [hweeks, hdays, hhours]
  simp only [hminute, hhour, hday]
  unfold ageLabel ageCount ageUnit
  split_ifs
  · rw [AgeUnit.minutes, Nat.div_one]
    rfl
  · rfl
  · rfl
  · rfl

/-- A comment sent from the zone of Taipei always has an age; its label brackets the whole
minutes since it was sent, and what it stands for never shrinks. -/
theorem age_brackets_and_grows (comments : CommentVC) (uid commentID content : String)
    (device : TimeZone) (sent : Instant) (now : ℚ) (hnow : 0 ≤ now) (hsent : sent.date ≤ now) :
    (∃ count unit, getTimeDifferentWith device now
      (comments.comment uid commentID content .taipei sent.date).time =
        some (ageLabel count unit)) ∧
    ∀ count unit, getTimeDifferentWith device now
        (comments.comment uid commentID content .taipei sent.date).time =
          some (ageLabel count unit) →
      Brackets count unit (wholeMinutes sent.date now) ∧
      ∀ later ≥ now, ∀ count' unit', getTimeDifferentWith device later
          (comments.comment uid commentID content .taipei sent.date).time =
            some (ageLabel count' unit') →
        count * unit.minutes ≤ count' * unit'.minutes := by
  have hdate : dateModel device (comments.comment uid commentID content .taipei sent.date).time =
      some ((⌊sent.date⌋ : Int) : ℚ) := by
    have hread := Dates.dateModel_of_time sent .taipei device
    rw [Int.add_sub_cancel] at hread
    exact hread
  have hlabel : ∀ viewed ≥ now, getTimeDifferentWith device viewed
      (comments.comment uid commentID content .taipei sent.date).time =
        some (ageLabel (ageCount (wholeMinutes sent.date viewed).toNat)
          (ageUnit (wholeMinutes sent.date viewed).toNat)) := fun viewed hviewed =>
    getTimeDifferentWith_eq hdate (hnow.trans hviewed) (hsent.trans hviewed)
  refine ⟨⟨_, _, hlabel now le_rfl⟩, ?_⟩
  intro count unit h
  rw [hlabel now le_rfl, Option.some.injEq] at h
  obtain ⟨rfl, rfl⟩ := ageLabel_inj h
  have hnonneg : 0 ≤ wholeMinutes sent.date now := by
    have hfloor : ⌊sent.date⌋ ≤ ⌊now⌋ := Int.floor_mono hsent
    rw [wholeMinutes_eq]
    omega
  constructor
  · have hbrackets := brackets_ageCount (wholeMinutes sent.date now).toNat
    rwa [Int.toNat_of_nonneg hnonneg] at hbrackets
  · intro later hlater count' unit' h'
    rw [hlabel later hlater, Option.some.injEq] at h'
    obtain ⟨rfl, rfl⟩ := ageLabel_inj h'
    apply represented_mono
    have hfloor : ⌊now⌋ ≤ ⌊later⌋ := Int.floor_mono hlater
    rw [wholeMinutes_eq, wholeMinutes_eq]
    omega

theorem age_brackets_and_grows_hour : ∃ count unit, getTimeDifferentWith .gmt 3661
    ((prepared carolJoined).comment "carol" "c" "Hi" .taipei 0).time =
      some (ageLabel count unit) ∧ Brackets count unit (wholeMinutes 0 3661) := by
  have hage := age_brackets_and_grows (prepared carolJoined) "carol" "c" "Hi" .gmt
    ⟨0, by norm_num⟩ 3661 (by norm_num) (by norm_num)
  obtain ⟨count, unit, hlabel⟩ := hage.1
  exact ⟨count, unit, hlabel, (hage.2 count unit hlabel).1⟩

end CommentVC

end GetTogether
