import GetTogether.Civil.Recurrence
import Mathlib.Data.Rat.Floor

/-! Dates and their texts. A formatter writes and reads civil time in the zone of
the device unless the screen sets another one. A date is its number of seconds
since 1970. -/
namespace GetTogether

open Civil

/-- No zone is further than 18 hours from GMT. -/
structure TimeZone where
  minutesFromGMT : Int
  bounded : minutesFromGMT.natAbs ≤ 1080
  deriving DecidableEq

def TimeZone.secondsFromGMT (zone : TimeZone) : Int := 60 * zone.minutesFromGMT

def TimeZone.gmt : TimeZone := ⟨0, by decide⟩

/-- `TimeZone.init(identifier: "Asia/Taipei")`. -/
def TimeZone.taipei : TimeZone := ⟨480, by decide⟩

/-- An instant after the first of January of the year 1 in every zone. -/
structure Instant where
  date : ℚ
  dated : -62135510400 ≤ date

/-- An instant before the end of the year 9999 in every zone. -/
structure Moment extends Instant where
  fourDigits : date < 253402214400

/-- The seconds between the first day of the calendar and 1970. -/
def epoch : Int := 719468 * 86400

structure DateFormatter where
  dateFormat : String
  timeZone : TimeZone

namespace DateFormatter

def pattern (formatter : DateFormatter) : Pattern := compile formatter.dateFormat.toList

/-- What a clock in the zone of the formatter shows. -/
def civil (formatter : DateFormatter) (date : ℚ) : DateTime :=
  .ofSeconds (⌊date⌋ + formatter.timeZone.secondsFromGMT + epoch).toNat

def string (formatter : DateFormatter) (date : ℚ) : String :=
  String.ofList (render formatter.pattern (formatter.civil date))

def date (formatter : DateFormatter) (text : String) : Option ℚ :=
  (parse formatter.pattern text.toList).map fun date =>
    (((date.toSeconds : Int) - epoch - formatter.timeZone.secondsFromGMT : Int) : ℚ)

end DateFormatter

/-- To the second, for the times of comments and notifications. -/
def timeFormatter (timeZone : TimeZone) : DateFormatter := ⟨"yyyy-MM-dd HH:mm:ss", timeZone⟩

/-- To the minute, for the dates of events. -/
def dateFormatter (timeZone : TimeZone) : DateFormatter := ⟨"yyyy-MM-dd HH:mm", timeZone⟩

theorem timeFormatter_pattern (timeZone : TimeZone) :
    (timeFormatter timeZone).pattern =
      [.field .year 4, .literal '-', .field .month 2, .literal '-', .field .day 2, .literal ' ',
        .field .hour 2, .literal ':', .field .minute 2, .literal ':', .field .second 2] := by
  simp [DateFormatter.pattern, timeFormatter, compile]

theorem dateFormatter_pattern (timeZone : TimeZone) :
    (dateFormatter timeZone).pattern =
      [.field .year 4, .literal '-', .field .month 2, .literal '-', .field .day 2, .literal ' ',
        .field .hour 2, .literal ':', .field .minute 2] := by
  simp [DateFormatter.pattern, dateFormatter, compile]

/-! What one device writes is read by another, off by the difference of the zones. -/

theorem Instant.civil_nonneg (instant : Instant) (zone : TimeZone) :
    0 ≤ ⌊instant.date⌋ + zone.secondsFromGMT + epoch := by
  have hfloor : -62135510400 ≤ ⌊instant.date⌋ := by
    rw [Int.le_floor]
    exact_mod_cast instant.dated
  have hzone := zone.bounded
  unfold TimeZone.secondsFromGMT epoch
  omega

theorem date_of_time (instant : Instant) (writer reader : TimeZone) :
    (timeFormatter reader).date ((timeFormatter writer).string instant.date) =
      some ((⌊instant.date⌋ + writer.secondsFromGMT - reader.secondsFromGMT : Int) : ℚ) := by
  have hnonneg := instant.civil_nonneg writer
  have hfill : fill (timeFormatter reader).pattern ((timeFormatter writer).civil instant.date)
      defaultDate = (timeFormatter writer).civil instant.date := by
    rw [timeFormatter_pattern]
    rfl
  have hsame : (timeFormatter writer).pattern = (timeFormatter reader).pattern := rfl
  have hread : parse (timeFormatter reader).pattern
      (render (timeFormatter reader).pattern ((timeFormatter writer).civil instant.date)) =
      some ((timeFormatter writer).civil instant.date) := by
    rw [parse_render, hfill]
    · rw [timeFormatter_pattern]
      decide
    · rw [hfill]
      exact DateTime.exists_ofSeconds _
  unfold DateFormatter.date DateFormatter.string
  rw [hsame, String.toList_ofList, hread, Option.map_some]
  unfold DateFormatter.civil
  rw [DateTime.toSeconds_ofSeconds]
  congr 2
  change ((⌊instant.date⌋ + writer.secondsFromGMT + epoch).toNat : Int) - epoch -
    reader.secondsFromGMT = _
  omega

theorem date_of_date (instant : Instant) (writer reader : TimeZone) :
    (dateFormatter reader).date ((dateFormatter writer).string instant.date) =
      some ((60 * (⌊instant.date⌋ / 60) + writer.secondsFromGMT - reader.secondsFromGMT : Int) :
        ℚ) := by
  have hnonneg := instant.civil_nonneg writer
  have hfill : fill (dateFormatter reader).pattern ((dateFormatter writer).civil instant.date)
      defaultDate = .ofSeconds
        (60 * ((⌊instant.date⌋ + writer.secondsFromGMT + epoch).toNat / 60)) := by
    rw [dateFormatter_pattern, ← DateTime.truncated_ofSeconds]
    rfl
  have hsame : (dateFormatter writer).pattern = (dateFormatter reader).pattern := rfl
  have hread : parse (dateFormatter reader).pattern
      (render (dateFormatter reader).pattern ((dateFormatter writer).civil instant.date)) =
      some (.ofSeconds (60 * ((⌊instant.date⌋ + writer.secondsFromGMT + epoch).toNat / 60))) := by
    rw [parse_render, hfill]
    · rw [dateFormatter_pattern]
      decide
    · rw [hfill]
      exact DateTime.exists_ofSeconds _
  unfold DateFormatter.date DateFormatter.string
  rw [hsame, String.toList_ofList, hread, Option.map_some, DateTime.toSeconds_ofSeconds]
  congr 2
  change ((60 * ((⌊instant.date⌋ + writer.secondsFromGMT + epoch).toNat / 60) : Nat) : Int) -
    epoch - reader.secondsFromGMT = _
  unfold TimeZone.secondsFromGMT epoch at *
  omega

/-! Texts to the second are ordered as the clocks that they were taken from. -/

def TimeZone.reading (zone : TimeZone) (instant : Instant) : Int :=
  ⌊instant.date⌋ + zone.secondsFromGMT

theorem timeFormatter_fits (moment : Moment) (zone : TimeZone) :
    Fits (timeFormatter zone).pattern ((timeFormatter zone).civil moment.date) := by
  have hyear : ((timeFormatter zone).civil moment.date).year < 10000 := by
    have hfloor : ⌊moment.date⌋ < 253402214400 := by
      rw [Int.floor_lt]
      exact_mod_cast moment.fourDigits
    have hzone := zone.bounded
    apply DateTime.year_lt
    · decide
    · have hlast : DateTime.toSeconds ⟨10000, 1, 1, 0, 0, 0⟩ = 315564336000 := by decide
      rw [hlast]
      change (⌊moment.date⌋ + zone.secondsFromGMT + epoch).toNat < _
      unfold TimeZone.secondsFromGMT epoch
      omega
  have hranges := DateTime.ofSeconds_ranges
    (⌊moment.date⌋ + (timeFormatter zone).timeZone.secondsFromGMT + epoch).toNat
  unfold DateFormatter.civil at hyear ⊢
  rw [timeFormatter_pattern]
  intro field width hmem
  simp only [List.mem_cons, Token.field.injEq, List.not_mem_nil, or_false, reduceCtorEq,
    false_or] at hmem
  rcases hmem with h | h | h | h | h | h <;> rw [h.1, h.2] <;>
    simp only [DateTime.get] <;> omega

theorem string_lt_iff (first second : Moment) (a b : TimeZone) :
    (timeFormatter a).string first.date < (timeFormatter b).string second.date ↔
      a.reading first.toInstant < b.reading second.toInstant := by
  have hfirst := first.civil_nonneg a
  have hsecond := second.civil_nonneg b
  have hsame : (timeFormatter b).pattern = (timeFormatter a).pattern := rfl
  unfold DateFormatter.string
  rw [String.lt_iff, String.toList_ofList, String.toList_ofList, hsame,
    render_lt_iff (timeFormatter_fits first a) (timeFormatter_fits second b)]
  have hfields (date : DateTime) : values (timeFormatter a).pattern date = date.fields := by
    rw [timeFormatter_pattern]
    rfl
  rw [hfields, hfields]
  unfold DateFormatter.civil
  rw [DateTime.fields_lt_iff]
  unfold TimeZone.reading
  change (⌊first.date⌋ + a.secondsFromGMT + epoch).toNat <
    (⌊second.date⌋ + b.secondsFromGMT + epoch).toNat ↔ _
  omega

end GetTogether
