import GetTogether.Civil.Calendar
import Mathlib.Algebra.Group.Nat.Defs
import Mathlib.Data.List.Basic

/-! Civil dates as text. A pattern is read with its letters as fields; a field is
written with at least as many digits as it has letters and read as a whole run
of digits. -/
namespace Civil

inductive Field where
  | year | month | day | hour | minute | second
  deriving DecidableEq, Repr

def DateTime.get (date : DateTime) : Field → Nat
  | .year => date.year
  | .month => date.month
  | .day => date.day
  | .hour => date.hour
  | .minute => date.minute
  | .second => date.second

def DateTime.set (date : DateTime) : Field → Nat → DateTime
  | .year, value => { date with year := value }
  | .month, value => { date with month := value }
  | .day, value => { date with day := value }
  | .hour, value => { date with hour := value }
  | .minute, value => { date with minute := value }
  | .second, value => { date with second := value }

inductive Token where
  | field (field : Field) (width : Nat)
  | literal (char : Char)
  deriving DecidableEq, Repr

abbrev Pattern := List Token

/-- The letters that stand for fields; any other character stands for itself. -/
def compile : List Char → Pattern
  | 'y' :: 'y' :: 'y' :: 'y' :: rest => .field .year 4 :: compile rest
  | 'M' :: 'M' :: rest => .field .month 2 :: compile rest
  | 'd' :: 'd' :: rest => .field .day 2 :: compile rest
  | 'H' :: 'H' :: rest => .field .hour 2 :: compile rest
  | 'm' :: 'm' :: rest => .field .minute 2 :: compile rest
  | 's' :: 's' :: rest => .field .second 2 :: compile rest
  | char :: rest => .literal char :: compile rest
  | [] => []

def padded (width value : Nat) : List Char := (Nat.toDigits 10 value).leftpad width '0'

def render (pattern : Pattern) (date : DateTime) : List Char :=
  pattern.flatMap fun token =>
    match token with
    | .field field width => padded width (date.get field)
    | .literal char => [char]

/-- Reads the fields of a text that follows the pattern to its end. -/
def scan : Pattern → List Char → DateTime → Option DateTime
  | [], [], date => some date
  | [], _ :: _, _ => none
  | .field field _ :: rest, text, date =>
    let digits := text.takeWhile Char.isDigit
    if digits = [] then none
    else scan rest (text.dropWhile Char.isDigit) (date.set field (Nat.ofDigitChars 10 digits 0))
  | .literal _ :: _, [], _ => none
  | .literal char :: rest, first :: text, date =>
    if first = char then scan rest text date else none

/-- What is not in the text is the start of the year 2000. -/
def defaultDate : DateTime := ⟨2000, 1, 1, 0, 0, 0⟩

/-- A date that the calendar has, such as no thirtieth of February. -/
def DateTime.Exists (date : DateTime) : Prop := .ofSeconds date.toSeconds = date

instance (date : DateTime) : Decidable date.Exists := inferInstanceAs (Decidable (_ = _))

def parse (pattern : Pattern) (text : List Char) : Option DateTime :=
  (scan pattern text defaultDate).filter fun date => date.Exists

theorem DateTime.get_set_of_ne {field other : Field} (h : field ≠ other) (date : DateTime)
    (value : Nat) : (date.set other value).get field = date.get field := by
  cases other <;> cases field <;> first | rfl | exact absurd rfl h

theorem scan_get {pattern : Pattern} {field : Field}
    (hfield : ∀ width, .field field width ∉ pattern) {text : List Char} {base date : DateTime}
    (h : scan pattern text base = some date) : date.get field = base.get field := by
  induction pattern generalizing text base with
  | nil =>
    cases text with
    | nil => rw [← Option.some.inj h]
    | cons char text => cases h
  | cons token rest ih =>
    have hrest : ∀ width, .field field width ∉ rest := by
      intro width hmem
      exact hfield width (List.mem_cons_of_mem _ hmem)
    cases token with
    | field other width =>
      have hne : field ≠ other := by
        intro heq
        exact hfield width (heq ▸ List.mem_cons_self)
      unfold scan at h
      dsimp only at h
      split at h
      · cases h
      · rw [ih hrest h, DateTime.get_set_of_ne hne]
    | literal char =>
      cases text with
      | nil => cases h
      | cons first text =>
        unfold scan at h
        split at h
        · exact ih hrest h
        · cases h

/-! A padded number is read back, and later in the order of texts when it is larger. -/

theorem padded_ne_nil (width value : Nat) : padded width value ≠ [] := by
  simp [padded, List.leftpad, Nat.toDigits_ne_nil]

theorem padded_isDigit (width value : Nat) : ∀ char ∈ padded width value, char.isDigit := by
  intro char hchar
  unfold padded List.leftpad at hchar
  rcases List.mem_append.mp hchar with hzero | hdigit
  · rw [(List.mem_replicate.mp hzero).2]
    decide
  · exact Nat.isDigit_of_mem_toDigits (by omega) (by omega) hdigit

theorem ofDigitChars_padded (width value : Nat) :
    Nat.ofDigitChars 10 (padded width value) 0 = value := by
  unfold padded List.leftpad
  rw [Nat.ofDigitChars_append, Nat.ofDigitChars_replicate_zero, Nat.mul_zero,
    Nat.ofDigitChars_ten_toDigits]

theorem padded_length {width value : Nat} (hwidth : 0 < width) (h : value < 10 ^ width) :
    (padded width value).length = width := by
  have hle := (Nat.length_toDigits_le_iff (by omega) hwidth).mpr h
  unfold padded List.leftpad
  rw [List.length_append, List.length_replicate]
  omega

theorem digit_range {char : Char} (h : char.isDigit) : 48 ≤ char.toNat ∧ char.toNat ≤ 57 :=
  Char.isDigit_iff_toNat.mp h

theorem ofDigitChars_cons_eq (char : Char) (rest : List Char) :
    Nat.ofDigitChars 10 (char :: rest) 0 =
      10 ^ rest.length * (char.toNat - 48) + Nat.ofDigitChars 10 rest 0 := by
  rw [Nat.ofDigitChars_cons, Nat.ofDigitChars_eq_ofDigitChars_zero, Nat.mul_zero, Nat.zero_add]
  rfl

theorem ofDigitChars_lt {text : List Char} (h : ∀ char ∈ text, char.isDigit) :
    Nat.ofDigitChars 10 text 0 < 10 ^ text.length := by
  induction text with
  | nil => simp
  | cons char rest ih =>
    have hrest := ih fun c hc => h c (List.mem_cons_of_mem _ hc)
    have hchar := digit_range (h char List.mem_cons_self)
    have hdigit : 10 ^ rest.length * (char.toNat - 48) ≤ 10 ^ rest.length * 9 :=
      Nat.mul_le_mul_left _ (by omega)
    rw [ofDigitChars_cons_eq, List.length_cons, Nat.pow_succ]
    omega

theorem place_lt_iff {power a b s t : Nat} (hs : s < power) (ht : t < power) :
    power * a + s < power * b + t ↔ a < b ∨ a = b ∧ s < t := by
  rcases Nat.lt_trichotomy a b with hlt | rfl | hgt
  · have hpower : power * (a + 1) ≤ power * b := Nat.mul_le_mul_left _ hlt
    rw [Nat.mul_succ] at hpower
    omega
  · omega
  · have hpower : power * (b + 1) ≤ power * a := Nat.mul_le_mul_left _ hgt
    rw [Nat.mul_succ] at hpower
    omega

theorem char_lt_iff (a b : Char) : a < b ↔ a.toNat < b.toNat := Iff.rfl

theorem digits_lt_iff {first second : List Char} (hlength : first.length = second.length)
    (hfirst : ∀ char ∈ first, char.isDigit) (hsecond : ∀ char ∈ second, char.isDigit) :
    first < second ↔ Nat.ofDigitChars 10 first 0 < Nat.ofDigitChars 10 second 0 := by
  induction first generalizing second with
  | nil =>
    rw [List.length_nil] at hlength
    rw [List.length_eq_zero_iff.mp hlength.symm]
    simp
  | cons a s ih =>
    cases second with
    | nil => simp at hlength
    | cons b t =>
      have hst : s.length = t.length := by simpa using hlength
      have hs : ∀ char ∈ s, char.isDigit := fun c hc => hfirst c (List.mem_cons_of_mem _ hc)
      have ht : ∀ char ∈ t, char.isDigit := fun c hc => hsecond c (List.mem_cons_of_mem _ hc)
      have ha := digit_range (hfirst a List.mem_cons_self)
      have hb := digit_range (hsecond b List.mem_cons_self)
      have hsame : a = b ↔ a.toNat = b.toNat := Char.toNat_inj.symm
      rw [List.cons_lt_cons_iff, ih hst hs ht, ofDigitChars_cons_eq, ofDigitChars_cons_eq, hst,
        place_lt_iff (hst ▸ ofDigitChars_lt hs) (ofDigitChars_lt ht), char_lt_iff, hsame]
      omega

theorem padded_lt_iff {width a b : Nat} (hwidth : 0 < width) (ha : a < 10 ^ width)
    (hb : b < 10 ^ width) : padded width a < padded width b ↔ a < b := by
  have hlength : (padded width a).length = (padded width b).length := by
    rw [padded_length hwidth ha, padded_length hwidth hb]
  rw [digits_lt_iff hlength (padded_isDigit _ _) (padded_isDigit _ _), ofDigitChars_padded,
    ofDigitChars_padded]

/-! What is written is read back, when no field runs into what follows it. -/

/-- Whether a run of digits before this pattern ends where the pattern begins. -/
def stopsDigits : Pattern → Bool
  | [] => true
  | .field _ _ :: _ => false
  | .literal char :: _ => !char.isDigit

def separated : Pattern → Bool
  | [] => true
  | .field _ _ :: rest => stopsDigits rest && separated rest
  | .literal _ :: rest => separated rest

def fill (pattern : Pattern) (date base : DateTime) : DateTime :=
  pattern.foldl (fun filled token =>
    match token with
    | .field field _ => filled.set field (date.get field)
    | .literal _ => filled) base

theorem takeWhile_render {pattern : Pattern} (h : stopsDigits pattern) (date : DateTime) :
    (render pattern date).takeWhile Char.isDigit = [] := by
  cases pattern with
  | nil => rfl
  | cons token rest =>
    cases token with
    | field field width => cases h
    | literal char =>
      have hchar : char.isDigit = false := by simpa [stopsDigits] using h
      simp [render, hchar]

theorem dropWhile_render {pattern : Pattern} (h : stopsDigits pattern) (date : DateTime) :
    (render pattern date).dropWhile Char.isDigit = render pattern date := by
  have hnone := takeWhile_render h date
  have hall := List.takeWhile_append_dropWhile (p := Char.isDigit) (l := render pattern date)
  rw [hnone] at hall
  simpa using hall

theorem scan_render {pattern : Pattern} (h : separated pattern) (date base : DateTime) :
    scan pattern (render pattern date) base = some (fill pattern date base) := by
  induction pattern generalizing base with
  | nil => rfl
  | cons token rest ih =>
    cases token with
    | literal char =>
      have hrest : separated rest := h
      simpa [render, scan, fill] using ih hrest base
    | field field width =>
      have hboth : stopsDigits rest ∧ separated rest := by simpa [separated] using h
      have hdigits := padded_isDigit width (date.get field)
      have htext : render (.field field width :: rest) date =
          padded width (date.get field) ++ render rest date := rfl
      have htake : (render (.field field width :: rest) date).takeWhile Char.isDigit =
          padded width (date.get field) := by
        rw [htext, List.takeWhile_append_of_pos hdigits, takeWhile_render hboth.1,
          List.append_nil]
      have hdrop : (render (.field field width :: rest) date).dropWhile Char.isDigit =
          render rest date := by
        rw [htext, List.dropWhile_append_of_pos hdigits, dropWhile_render hboth.1]
      unfold scan
      dsimp only
      rw [htake, hdrop, if_neg (padded_ne_nil _ _), ofDigitChars_padded, ih hboth.2]
      rfl

/-- A pattern without two adjacent fields reads back every date that exists once the
fields it does not have are filled in. -/
theorem parse_render {pattern : Pattern} (h : separated pattern) {date : DateTime}
    (hdate : (fill pattern date defaultDate).Exists) :
    parse pattern (render pattern date) = some (fill pattern date defaultDate) := by
  unfold parse
  rw [scan_render h]
  simpa using hdate

/-! Texts of one pattern are ordered as the values of its fields, from left to right. -/

def values (pattern : Pattern) (date : DateTime) : List Nat :=
  pattern.filterMap fun token =>
    match token with
    | .field field _ => some (date.get field)
    | .literal _ => none

def Fits (pattern : Pattern) (date : DateTime) : Prop :=
  ∀ field width, .field field width ∈ pattern → 0 < width ∧ date.get field < 10 ^ width

theorem append_lt_append_iff {a b s t : List Char} (h : a.length = b.length) :
    a ++ s < b ++ t ↔ a < b ∨ a = b ∧ s < t := by
  induction a generalizing b with
  | nil =>
    rw [List.length_nil] at h
    rw [List.length_eq_zero_iff.mp h.symm]
    simp
  | cons x xs ih =>
    cases b with
    | nil => simp at h
    | cons y ys =>
      have hlength : xs.length = ys.length := by simpa using h
      simp only [List.cons_append, List.cons_lt_cons_iff, ih hlength, List.cons.injEq]
      tauto

theorem render_lt_iff {pattern : Pattern} {first second : DateTime} (hfirst : Fits pattern first)
    (hsecond : Fits pattern second) :
    render pattern first < render pattern second ↔
      values pattern first < values pattern second := by
  induction pattern with
  | nil => simp [render, values]
  | cons token rest ih =>
    have hrest := ih (fun f w h => hfirst f w (List.mem_cons_of_mem _ h))
      fun f w h => hsecond f w (List.mem_cons_of_mem _ h)
    cases token with
    | literal char => simpa [render, values, List.cons_lt_cons_iff] using hrest
    | field field width =>
      have ha := hfirst field width List.mem_cons_self
      have hb := hsecond field width List.mem_cons_self
      have hlength : (padded width (first.get field)).length =
          (padded width (second.get field)).length := by
        rw [padded_length ha.1 ha.2, padded_length hb.1 hb.2]
      have hsame : padded width (first.get field) = padded width (second.get field) ↔
          first.get field = second.get field := by
        constructor
        · intro h
          have := congrArg (Nat.ofDigitChars 10 · 0) h
          simpa only [ofDigitChars_padded] using this
        · exact fun h => by rw [h]
      calc render (.field field width :: rest) first < render (.field field width :: rest) second
          ↔ padded width (first.get field) ++ render rest first <
              padded width (second.get field) ++ render rest second := Iff.rfl
        _ ↔ first.get field < second.get field ∨
              first.get field = second.get field ∧ values rest first < values rest second := by
          rw [append_lt_append_iff hlength, padded_lt_iff ha.1 ha.2 hb.2, hsame, hrest]
        _ ↔ values (.field field width :: rest) first <
              values (.field field width :: rest) second := by
          rw [← List.cons_lt_cons_iff]
          rfl

end Civil
