import GetTogether.AddEventVC
import GetTogether.CommentVC
import GetTogether.EventAlertVC
import GetTogether.MainVC

/-! Which zones of two devices give a text the same instant on both. The times of
comments are written in the zone of the device and read in that of Taipei; the
dates of events are written and read in the zone of each device. -/
namespace GetTogether.Dates

def toSecond (instant : Instant) : ℚ := ((⌊instant.date⌋ : Int) : ℚ)

def toMinute (instant : Instant) : ℚ := ((60 * (⌊instant.date⌋ / 60) : Int) : ℚ)

/-- The reader of a comment finds the instant at which it was sent. -/
def CommentTimeKept (instant : Instant) (reader : TimeZone) (comment : Comment) : Prop :=
  CommentVC.dateModel reader comment.time = some (toSecond instant)

/-- The reader of an event finds the instant that was picked, and at any moment the two
screens say the same of its expiry on both devices. -/
def EventDateKept (instant : Instant) (writer reader : TimeZone) (event : Event) : Prop :=
  MainVC.eventDate reader event = some (toMinute instant) ∧
    EventAlertVC.eventDate reader event = some (toMinute instant) ∧
      ∀ now, MainVC.dateText reader now event = MainVC.dateText writer now event ∧
        EventAlertVC.alertDate reader now event = EventAlertVC.alertDate writer now event

/-- The time of a comment is a date on every device: `getTimeDifferentWith` never traps on it. -/
theorem dateModel_of_time (instant : Instant) (writer reader : TimeZone) :
    CommentVC.dateModel reader (CommentVC.time writer instant.date) =
      some ((⌊instant.date⌋ + writer.secondsFromGMT - TimeZone.taipei.secondsFromGMT : Int) :
        ℚ) :=
  date_of_time instant writer .taipei

theorem secondsFromGMT_inj {a b : TimeZone} : a.secondsFromGMT = b.secondsFromGMT ↔ a = b := by
  constructor
  · intro h
    unfold TimeZone.secondsFromGMT at h
    have hminutes : a.minutesFromGMT = b.minutesFromGMT := by omega
    cases a
    cases b
    simpa using hminutes
  · exact fun h => by rw [h]

theorem shifted_iff (seconds : Int) (writer reader : TimeZone) :
    some ((seconds + writer.secondsFromGMT - reader.secondsFromGMT : Int) : ℚ) =
      some ((seconds : Int) : ℚ) ↔ reader = writer := by
  rw [Option.some.injEq, Int.cast_inj, ← secondsFromGMT_inj]
  omega

section Kept

variable (instant : Instant) (writer reader : TimeZone)

theorem commentTimeKept_iff (vc : CommentVC) (uid commentID content : String) :
    CommentTimeKept instant reader (vc.comment uid commentID content writer instant.date) ↔
      writer = .taipei := by
  unfold CommentTimeKept toSecond
  rw [show (vc.comment uid commentID content writer instant.date).time =
    CommentVC.time writer instant.date from rfl, dateModel_of_time, shifted_iff]
  exact eq_comm

theorem eventDate_of_dateChanged {event : Event}
    (h : event.date = (dateFormatter writer).string instant.date) :
    MainVC.eventDate reader event = some ((60 * (⌊instant.date⌋ / 60) + writer.secondsFromGMT -
      reader.secondsFromGMT : Int) : ℚ) := by
  unfold MainVC.eventDate
  rw [h, date_of_date]

theorem eventDateKept_iff {event : Event}
    (h : event.date = (dateFormatter writer).string instant.date) :
    EventDateKept instant writer reader event ↔ reader = writer := by
  have hread := eventDate_of_dateChanged instant writer reader h
  constructor
  · intro hkept
    have hmain := hkept.1
    rw [hread, toMinute, shifted_iff] at hmain
    exact hmain
  · intro hsame
    have hmain : MainVC.eventDate reader event = some (toMinute instant) := by
      rw [hread, toMinute, shifted_iff]
      exact hsame
    refine ⟨hmain, hmain, fun now => ?_⟩
    rw [hsame]
    exact ⟨rfl, rfl⟩

end Kept

/-- A comment keeps its time exactly when it is written in the zone of Taipei, an event its
date exactly when it is read in the zone it was written in. -/
theorem instants_kept_iff (instant : Instant) (writer reader : TimeZone) (comments : CommentVC)
    (uid commentID content : String) (screen : AddEventVC) (runtime : Runtime)
    (organiserID eventID url : String) :
    (CommentTimeKept instant reader
        (comments.comment uid commentID content writer instant.date) ↔ writer = .taipei) ∧
      (EventDateKept instant writer reader
          ((screen.dateChanged writer instant.date).storedEvent runtime organiserID eventID url) ↔
        reader = writer) := by
  constructor
  · exact commentTimeKept_iff instant writer reader comments uid commentID content
  · exact eventDateKept_iff instant writer reader rfl

/-- A comment of a device in Greenwich is read eight hours early. -/
theorem comment_time_lost :
    ¬ ∀ (instant : Instant) (writer reader : TimeZone) (comments : CommentVC)
      (uid commentID content : String) (screen : AddEventVC) (runtime : Runtime)
      (organiserID eventID url : String),
      CommentTimeKept instant reader
          (comments.comment uid commentID content writer instant.date) ∧
        EventDateKept instant writer reader
          ((screen.dateChanged writer instant.date).storedEvent runtime organiserID eventID url) := by
  intro h
  have hkept := (h ⟨1530000000, by norm_num⟩ .gmt .gmt ⟨⟨"e", "u", "t", [""], "d", "l", "x", "i"⟩, []⟩
    "u" "c" "hi" (.newEvent "u" "") ⟨fun _ => 0, .inserted _, .inserted _⟩ "u" "e" "i").1
  rw [commentTimeKept_iff] at hkept
  exact absurd hkept (by decide)

end GetTogether.Dates
