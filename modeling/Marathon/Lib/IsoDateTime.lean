import Marathon.Lib.CivilDate
import Mathlib.Algebra.Group.Nat.Defs
import Mathlib.Data.List.DropRight
import Mathlib.Data.List.TakeDrop

/-!
# ISO 8601 dates and times

Date-times with an offset from UTC, written and read in the form
`2015-07-30T14:05:09.25+01:00`: the year with at least four digits, the seconds always and
their fraction without trailing zeros, an offset of zero as `Z`.
-/

namespace Marathon.Lib

/-! ## Decimal numbers -/

/-- A number in decimal digits, with zeros in front up to a width. -/
def decimal (width n : ℕ) : List Char :=
  List.replicate (width - (Nat.toDigits 10 n).length) '0' ++ Nat.toDigits 10 n

section Decimal

variable (width n : ℕ)

theorem ofDigitChars_decimal : Nat.ofDigitChars 10 (decimal width n) 0 = n := by
  rw [decimal, Nat.ofDigitChars_append, Nat.ofDigitChars_replicate_zero, Nat.mul_zero,
    Nat.ofDigitChars_ten_toDigits]

theorem isDigit_of_mem_decimal {width n : ℕ} {c : Char} (h : c ∈ decimal width n) : c.isDigit := by
  rcases List.mem_append.mp h with hzero | hdigit
  · rw [List.eq_of_mem_replicate hzero]
    rfl
  · exact Nat.isDigit_of_mem_toDigits (by decide) (by decide) hdigit

theorem length_decimal : (decimal width n).length = max width (Nat.toDigits 10 n).length := by
  rw [decimal, List.length_append, List.length_replicate]
  omega

theorem length_decimal_of_lt {width n : ℕ} (hwidth : 0 < width) (h : n < 10 ^ width) :
    (decimal width n).length = width := by
  have hlength := (Nat.length_toDigits_le_iff (by decide : 1 < 10) hwidth).mpr h
  rw [length_decimal, max_eq_left hlength]

end Decimal

/-- A number of exactly `width` digits at the front of a text. -/
def fixed (width : ℕ) (text : List Char) : Option (ℕ × List Char) :=
  if (text.take width).length = width ∧ (text.take width).all Char.isDigit then
    some (Nat.ofDigitChars 10 (text.take width) 0, text.drop width)
  else
    none

theorem fixed_decimal {width n : ℕ} (hwidth : 0 < width) (h : n < 10 ^ width)
    (rest : List Char) : fixed width (decimal width n ++ rest) = some (n, rest) := by
  have hlength := length_decimal_of_lt hwidth h
  have htake : (decimal width n ++ rest).take width = decimal width n := by
    rw [List.take_append_of_le_length hlength.ge, List.take_of_length_le hlength.le]
  have hdrop : (decimal width n ++ rest).drop width = rest := List.drop_left' hlength
  have hdigits : (decimal width n).all Char.isDigit :=
    List.all_eq_true.mpr fun c hc => isDigit_of_mem_decimal hc
  rw [fixed, htake, hdrop, if_pos ⟨hlength, hdigits⟩, ofDigitChars_decimal]

/-- The digits at the front of a text. -/
def digits (text : List Char) : List Char × List Char := text.span Char.isDigit

/-- What follows a number does not go on with a digit. -/
def Ends (rest : List Char) : Prop := ∀ c ∈ rest.head?, c.isDigit = false

variable {rest : List Char} {nanos nanoOfDay : ℕ}

theorem digits_append {ds : List Char} (hdigits : ∀ c ∈ ds, c.isDigit) (hrest : Ends rest) :
    digits (ds ++ rest) = (ds, rest) := by
  rw [digits, List.span_eq_takeWhile_dropWhile, List.takeWhile_append_of_pos hdigits,
    List.dropWhile_append_of_pos hdigits]
  cases rest with
  | nil => rw [List.takeWhile_nil, List.dropWhile_nil, List.append_nil]
  | cons c rest =>
    have hc : ¬c.isDigit = true := by
      rw [hrest c rfl]
      exact Bool.false_ne_true
    rw [List.takeWhile_cons_of_neg hc, List.dropWhile_cons_of_neg hc, List.append_nil]

/-- A character at the front of a text. -/
def literal (c : Char) : List Char → Option (List Char)
  | [] => none
  | d :: rest => if d = c then some rest else none

@[simp]
theorem literal_cons (c : Char) (rest : List Char) : literal c (c :: rest) = some rest :=
  if_pos rfl

/-! ## Dates -/

def yearText (year : ℤ) : List Char :=
  (if year < 0 then ['-'] else if 9999 < year then ['+'] else []) ++ decimal 4 year.natAbs

def CivilDate.text (date : CivilDate) : List Char :=
  yearText date.year ++ '-' :: decimal 2 date.month.toNat ++ '-' :: decimal 2 date.day.toNat

/-- A sign at the front of a text. -/
def sign : List Char → Option Char × List Char
  | '-' :: text => (some '-', text)
  | '+' :: text => (some '+', text)
  | text => (none, text)

theorem sign_of_isDigit {c : Char} (h : c.isDigit) (text : List Char) :
    sign (c :: text) = (none, c :: text) := by
  have hminus : c ≠ '-' := by rintro rfl; cases h
  have hplus : c ≠ '+' := by rintro rfl; cases h
  rw [sign]
  · intro _ h
    exact hminus (List.cons.inj h).1
  · intro _ h
    exact hplus (List.cons.inj h).1

/-- A year of four digits, or of more of them after a sign. -/
def readYear (text : List Char) : Option (ℤ × List Char) :=
  let (ds, rest) := digits (sign text).2
  let year := Nat.ofDigitChars 10 ds 0
  match (sign text).1 with
  | some '-' => if 4 ≤ ds.length then some (-year, rest) else none
  | some _ => if 4 < ds.length then some (year, rest) else none
  | none => if ds.length = 4 then some (year, rest) else none

theorem readYear_yearText (year : ℤ) (hrest : Ends rest) :
    readYear (yearText year ++ rest) = some (year, rest) := by
  have hdigits : digits (decimal 4 year.natAbs ++ rest) = (decimal 4 year.natAbs, rest) :=
    digits_append (fun _ => isDigit_of_mem_decimal) hrest
  rw [yearText, readYear]
  split_ifs with hneg hlarge
  · have hlength : 4 ≤ (decimal 4 year.natAbs).length := by
      rw [length_decimal]
      exact le_max_left _ _
    have habs : -(year.natAbs : ℤ) = year := by omega
    simp only [List.cons_append, List.nil_append, sign, hdigits, hlength, if_true,
      ofDigitChars_decimal, habs]
  · have hlength : 4 < (decimal 4 year.natAbs).length := by
      rw [length_decimal]
      by_contra hle
      have hshort : (Nat.toDigits 10 year.natAbs).length ≤ 4 := by omega
      have hlt := (Nat.length_toDigits_le_iff (by decide) (by decide)).mp hshort
      omega
    have habs : (year.natAbs : ℤ) = year := by omega
    simp only [List.cons_append, List.nil_append, sign, hdigits, hlength, if_true,
      ofDigitChars_decimal, habs]
    rfl
  · have hlength : (decimal 4 year.natAbs).length = 4 :=
      length_decimal_of_lt (by decide) (by omega)
    have habs : (year.natAbs : ℤ) = year := by omega
    have hsign : sign (decimal 4 year.natAbs ++ rest) = (none, decimal 4 year.natAbs ++ rest) := by
      cases hdecimal : decimal 4 year.natAbs with
      | nil =>
        rw [hdecimal] at hlength
        cases hlength
      | cons c cs =>
        apply sign_of_isDigit
        exact isDigit_of_mem_decimal (hdecimal ▸ List.mem_cons_self)
    simp only [List.nil_append, hsign, hdigits, hlength, if_true, ofDigitChars_decimal, habs]

/-- A date of the calendar at the front of a text, as a day. -/
def readDate (text : List Char) : Option (ℤ × List Char) := do
  let (year, text) ← readYear text
  let text ← literal '-' text
  let (month, text) ← fixed 2 text
  let text ← literal '-' text
  let (day, text) ← fixed 2 text
  let date : CivilDate := ⟨year, month, day⟩
  if CivilDate.ofEpochDay date.toEpochDay = date then some (date.toEpochDay, text) else none

theorem ends_cons {c : Char} (h : c.isDigit = false) (rest : List Char) : Ends (c :: rest) := by
  intro d hd
  cases hd
  exact h

theorem readDate_date {date : CivilDate} (hmonth : 0 ≤ date.month ∧ date.month < 100)
    (hday : 0 ≤ date.day ∧ date.day < 100) (rest : List Char) :
    readDate (date.text ++ rest) =
      if CivilDate.ofEpochDay date.toEpochDay = date then some (date.toEpochDay, rest) else none := by
  have hyearEnds : ∀ rest, Ends ('-' :: rest) := ends_cons (by decide)
  have hmonthNat : (date.month.toNat : ℤ) = date.month := by omega
  have hdayNat : (date.day.toNat : ℤ) = date.day := by omega
  have hmonthLt : date.month.toNat < 10 ^ 2 := by omega
  have hdayLt : date.day.toNat < 10 ^ 2 := by omega
  simp only [CivilDate.text, readDate, List.append_assoc, List.cons_append,
    readYear_yearText _ (hyearEnds _), Option.bind_eq_bind, Option.bind_some, literal_cons,
    fixed_decimal (by decide : 0 < 2) hmonthLt, fixed_decimal (by decide : 0 < 2) hdayLt,
    hmonthNat, hdayNat]

theorem readDate_text (epochDay : ℤ) (rest : List Char) :
    readDate ((CivilDate.ofEpochDay epochDay).text ++ rest) = some (epochDay, rest) := by
  obtain ⟨⟨hmonth₀, hmonth⟩, hday₀, hday⟩ := CivilDate.ofEpochDay_bounds epochDay
  rw [readDate_date (by omega) (by omega), CivilDate.toEpochDay_ofEpochDay, if_pos rfl]

/-! ## Times -/

/-- The nanoseconds of a second as a fraction, without trailing zeros. -/
def fractionText (nanos : ℕ) : List Char :=
  if nanos = 0 then [] else '.' :: (decimal 9 nanos).rdropWhile (· == '0')

/-- A time of the day, given in nanoseconds. -/
def timeText (nanoOfDay : ℕ) : List Char :=
  let second := nanoOfDay / 1000000000
  decimal 2 (second / 3600) ++ ':' :: decimal 2 (second / 60 % 60) ++
    ':' :: decimal 2 (second % 60) ++ fractionText (nanoOfDay % 1000000000)

def readFraction : List Char → Option (ℕ × List Char)
  | '.' :: text =>
    let (ds, rest) := digits text
    if ds.length ≤ 9 then
      some (Nat.ofDigitChars 10 (ds ++ List.replicate (9 - ds.length) '0') 0, rest)
    else
      none
  | text => some (0, text)

/-- The seconds of a time and their fraction, which may be left out. -/
def readSeconds : List Char → Option (ℕ × List Char)
  | ':' :: text => do
    let (second, text) ← fixed 2 text
    let (nanos, text) ← readFraction text
    if second < 60 then some (second * 1000000000 + nanos, text) else none
  | text => some (0, text)

def readTime (text : List Char) : Option (ℕ × List Char) := do
  let (hour, text) ← fixed 2 text
  let text ← literal ':' text
  let (minute, text) ← fixed 2 text
  let (nanos, text) ← readSeconds text
  if hour < 24 ∧ minute < 60 then
    some ((hour * 3600 + minute * 60) * 1000000000 + nanos, text)
  else
    none

/-- What follows a time goes on neither with a digit nor with a fraction. -/
def EndsTime (rest : List Char) : Prop := Ends rest ∧ ∀ text, rest ≠ '.' :: text

theorem readFraction_fractionText (h : nanos < 1000000000)
    (hrest : EndsTime rest) : readFraction (fractionText nanos ++ rest) = some (nanos, rest) := by
  rw [fractionText]
  split_ifs with hzero
  · rw [List.nil_append, readFraction, hzero]
    exact hrest.2
  · have hlength : (decimal 9 nanos).length = 9 := length_decimal_of_lt (by decide) h
    obtain ⟨k, hk⟩ : ∃ k, (decimal 9 nanos).rtakeWhile (· == '0') = List.replicate k '0' := by
      refine ⟨_, List.eq_replicate_of_mem fun c hc => ?_⟩
      exact beq_iff_eq.mp (List.mem_rtakeWhile_imp (p := fun c => c == '0') hc)
    have hsplit : (decimal 9 nanos).rdropWhile (· == '0') ++ List.replicate k '0' = decimal 9 nanos := by
      rw [← hk]
      exact List.rdropWhile_append_rtakeWhile ..
    generalize hds : (decimal 9 nanos).rdropWhile (· == '0') = ds at hsplit ⊢
    have hcount : ds.length + k = 9 := by
      rw [← hlength, ← hsplit, List.length_append, List.length_replicate]
    have hdigits : digits (ds ++ rest) = (ds, rest) := by
      apply digits_append _ hrest.1
      intro c hc
      have hmem : c ∈ decimal 9 nanos := hsplit ▸ List.mem_append_left _ hc
      exact isDigit_of_mem_decimal hmem
    have hpad : 9 - ds.length = k := by omega
    have hle : ds.length ≤ 9 := by omega
    simp only [List.cons_append, readFraction, hdigits, hle, if_true, hpad, hsplit,
      ofDigitChars_decimal]

theorem readTime_eq (h : nanoOfDay < 86400 * 1000000000) {nanos : ℕ} {seconds : List Char}
    (hseconds : readSeconds seconds = some (nanos, rest)) :
    readTime (decimal 2 (nanoOfDay / 1000000000 / 3600) ++
      ':' :: (decimal 2 (nanoOfDay / 1000000000 / 60 % 60) ++ seconds)) =
        some (nanoOfDay / 60000000000 * 60000000000 + nanos, rest) := by
  have hhour : nanoOfDay / 1000000000 / 3600 < 10 ^ 2 := by omega
  have hminute : nanoOfDay / 1000000000 / 60 % 60 < 10 ^ 2 := by omega
  have hfields : nanoOfDay / 1000000000 / 3600 < 24 ∧ nanoOfDay / 1000000000 / 60 % 60 < 60 := by
    omega
  have hsum : (nanoOfDay / 1000000000 / 3600 * 3600 + nanoOfDay / 1000000000 / 60 % 60 * 60) *
      1000000000 + nanos = nanoOfDay / 60000000000 * 60000000000 + nanos := by
    omega
  simp only [readTime, fixed_decimal (by decide : 0 < 2) hhour,
    fixed_decimal (by decide : 0 < 2) hminute, hseconds, literal_cons, Option.bind_eq_bind,
    Option.bind_some, hfields, and_self, if_true, hsum]

theorem readSeconds_eq (n : ℕ) {nanos : ℕ} {fraction : List Char}
    (hfraction : readFraction fraction = some (nanos, rest)) :
    readSeconds (':' :: (decimal 2 (n / 1000000000 % 60) ++ fraction)) =
      some (n / 1000000000 % 60 * 1000000000 + nanos, rest) := by
  have hsecond : n / 1000000000 % 60 < 10 ^ 2 := by omega
  have hlt : n / 1000000000 % 60 < 60 := by omega
  simp only [readSeconds, fixed_decimal (by decide : 0 < 2) hsecond, hfraction,
    Option.bind_eq_bind, Option.bind_some, hlt, if_true]

theorem readTime_timeText (h : nanoOfDay < 86400 * 1000000000) (hrest : EndsTime rest) :
    readTime (timeText nanoOfDay ++ rest) = some (nanoOfDay, rest) := by
  have hfraction := readFraction_fractionText (Nat.mod_lt nanoOfDay (by decide)) hrest
  simp only [timeText, List.append_assoc, List.cons_append,
    readTime_eq h (readSeconds_eq nanoOfDay hfraction), Option.some.injEq, Prod.mk.injEq, and_true]
  omega

/-! ### Short times

The time as it is printed: whole minutes without seconds, a fraction in groups of three
digits. -/

def shortFractionText (nanos : ℕ) : List Char :=
  if nanos = 0 then []
  else if nanos % 1000000 = 0 then '.' :: decimal 3 (nanos / 1000000)
  else if nanos % 1000 = 0 then '.' :: decimal 6 (nanos / 1000)
  else '.' :: decimal 9 nanos

def shortTimeText (nanoOfDay : ℕ) : List Char :=
  let second := nanoOfDay / 1000000000
  let nanos := nanoOfDay % 1000000000
  decimal 2 (second / 3600) ++ ':' :: decimal 2 (second / 60 % 60) ++
    if second % 60 = 0 ∧ nanos = 0 then []
    else ':' :: decimal 2 (second % 60) ++ shortFractionText nanos

theorem readFraction_decimal {width n : ℕ} (hwidth : 0 < width) (hle : width ≤ 9)
    (hn : n < 10 ^ width) (hrest : Ends rest) :
    readFraction ('.' :: decimal width n ++ rest) = some (10 ^ (9 - width) * n, rest) := by
  have hlength := length_decimal_of_lt hwidth hn
  have hdigits : digits (decimal width n ++ rest) = (decimal width n, rest) :=
    digits_append (fun _ => isDigit_of_mem_decimal) hrest
  simp only [readFraction, List.cons_append, hdigits, hlength, hle, if_true,
    Nat.ofDigitChars_append, ofDigitChars_decimal, Nat.ofDigitChars_replicate_zero]

theorem readFraction_shortFractionText (h : nanos < 1000000000) (hrest : EndsTime rest) :
    readFraction (shortFractionText nanos ++ rest) = some (nanos, rest) := by
  rw [shortFractionText]
  split_ifs with hzero hmillis hmicros
  · rw [List.nil_append, readFraction, hzero]
    exact hrest.2
  · rw [readFraction_decimal (by decide) (by decide) (by omega) hrest.1]
    simp only [Option.some.injEq, Prod.mk.injEq, and_true]
    omega
  · rw [readFraction_decimal (by decide) (by decide) (by omega) hrest.1]
    simp only [Option.some.injEq, Prod.mk.injEq, and_true]
    omega
  · rw [readFraction_decimal (by decide) (by decide) (by omega) hrest.1]
    simp only [Option.some.injEq, Prod.mk.injEq, and_true]
    omega

theorem readTime_shortTimeText (h : nanoOfDay < 86400 * 1000000000)
    (hrest : EndsTime rest) (hcolon : ∀ text, rest ≠ ':' :: text) :
    readTime (shortTimeText nanoOfDay ++ rest) = some (nanoOfDay, rest) := by
  rw [shortTimeText]
  split_ifs with hwhole
  · have hseconds : readSeconds rest = some (0, rest) := by
      rw [readSeconds]
      exact hcolon
    simp only [List.append_nil, List.append_assoc, List.cons_append, readTime_eq h hseconds,
      Option.some.injEq, Prod.mk.injEq, and_true]
    omega
  · have hfraction := readFraction_shortFractionText (Nat.mod_lt nanoOfDay (by decide)) hrest
    simp only [List.append_assoc, List.cons_append,
      readTime_eq h (readSeconds_eq nanoOfDay hfraction), Option.some.injEq, Prod.mk.injEq,
      and_true]
    omega

/-! ### Times in milliseconds -/

def milliTimeText (nanoOfDay : ℕ) : List Char :=
  let second := nanoOfDay / 1000000000
  decimal 2 (second / 3600) ++ ':' :: decimal 2 (second / 60 % 60) ++
    ':' :: decimal 2 (second % 60) ++ '.' :: decimal 3 (nanoOfDay % 1000000000 / 1000000)

theorem readTime_milliTimeText (h : nanoOfDay < 86400 * 1000000000) (hrest : Ends rest) :
    readTime (milliTimeText nanoOfDay ++ rest) = some (nanoOfDay / 1000000 * 1000000, rest) := by
  have hmillis : nanoOfDay % 1000000000 / 1000000 < 10 ^ 3 := by omega
  have hfraction := readFraction_decimal (by decide : 0 < 3) (by decide) hmillis hrest
  rw [List.cons_append] at hfraction
  simp only [milliTimeText, List.append_assoc, List.cons_append,
    readTime_eq h (readSeconds_eq nanoOfDay hfraction), Option.some.injEq, Prod.mk.injEq, and_true]
  omega

/-! ## Offsets -/

/-- Offsets go up to 18 hours to both sides. -/
def maxOffset : ℕ := 64800

def hoursText (seconds : ℕ) : List Char :=
  decimal 2 (seconds / 3600) ++ ':' :: decimal 2 (seconds / 60 % 60) ++
    if seconds % 60 = 0 then [] else ':' :: decimal 2 (seconds % 60)

/-- An offset from UTC in seconds. -/
def offsetText (offset : ℤ) : List Char :=
  if offset = 0 then ['Z'] else (if offset < 0 then '-' else '+') :: hoursText offset.natAbs

def readHours (text : List Char) : Option (ℕ × List Char) := do
  let (hours, text) ← fixed 2 text
  let text ← literal ':' text
  let (minutes, text) ← fixed 2 text
  let (seconds, text) ← match text with
    | ':' :: text => fixed 2 text
    | text => some (0, text)
  if minutes < 60 ∧ seconds < 60 ∧ hours * 3600 + minutes * 60 + seconds ≤ maxOffset then
    some (hours * 3600 + minutes * 60 + seconds, text)
  else
    none

def readOffset : List Char → Option (ℤ × List Char)
  | 'Z' :: text => some (0, text)
  | 'z' :: text => some (0, text)
  | '-' :: text => (readHours text).map fun r => (-(r.1 : ℤ), r.2)
  | '+' :: text => (readHours text).map fun r => ((r.1 : ℤ), r.2)
  | _ => none

theorem readHours_hoursText {seconds : ℕ} (h : seconds ≤ maxOffset) :
    readHours (hoursText seconds) = some (seconds, []) := by
  have hmax : maxOffset = 64800 := rfl
  have hhours : seconds / 3600 < 10 ^ 2 := by omega
  have hminutes : seconds / 60 % 60 < 10 ^ 2 := by omega
  have hseconds : seconds % 60 < 10 ^ 2 := by omega
  have hminutesLt : seconds / 60 % 60 < 60 := by omega
  have hsecondsLt : seconds % 60 < 60 := by omega
  have hsum : seconds / 3600 * 3600 + seconds / 60 % 60 * 60 + seconds % 60 = seconds := by omega
  have hlast := fixed_decimal (by decide : 0 < 2) hseconds []
  have hminutesText := fixed_decimal (by decide : 0 < 2) hminutes []
  rw [List.append_nil] at hlast hminutesText
  rw [hoursText]
  split_ifs with hzero
  · rw [hzero] at hsum
    have hzeroLt : 0 < 60 := by decide
    simp only [readHours, List.append_nil,
      fixed_decimal (by decide : 0 < 2) hhours, hminutesText,
      literal_cons, Option.bind_eq_bind, Option.bind_some, hminutesLt, hzeroLt, hsum, h,
      and_self, if_true]
  · simp only [readHours, List.append_assoc, List.cons_append,
      fixed_decimal (by decide : 0 < 2) hhours, fixed_decimal (by decide : 0 < 2) hminutes,
      hlast, literal_cons, Option.bind_eq_bind, Option.bind_some, hminutesLt, hsecondsLt, hsum, h,
      and_self, if_true]

theorem readOffset_offsetText {offset : ℤ} (h : offset.natAbs ≤ maxOffset) :
    readOffset (offsetText offset) = some (offset, []) := by
  have hhours := readHours_hoursText h
  rw [offsetText]
  split_ifs with hzero hneg
  · rw [hzero]
    rfl
  · have habs : -(offset.natAbs : ℤ) = offset := by omega
    rw [readOffset, hhours, Option.map_some, habs]
  · have habs : (offset.natAbs : ℤ) = offset := by omega
    rw [readOffset, hhours, Option.map_some, habs]

theorem endsTime_offsetText (offset : ℤ) : EndsTime (offsetText offset) := by
  rw [offsetText]
  split_ifs
  all_goals exact ⟨ends_cons (by decide) _, fun _ h => by cases h⟩

/-! ## Date-times -/

/-- An instant in nanoseconds since the epoch and an offset from UTC in seconds. -/
structure OffsetDateTime where
  instant : ℤ
  offset : ℤ
  offset_le : offset.natAbs ≤ maxOffset
deriving DecidableEq

namespace OffsetDateTime

/-- The nanoseconds of a day. -/
def nanosPerDay : ℤ := 86400 * 1000000000

/-- The nanoseconds since the epoch that the clock shows at the offset. -/
def localTime (t : OffsetDateTime) : ℤ := t.instant + t.offset * 1000000000

/-- Rounded down to whole milliseconds. -/
def truncatedToMillis (t : OffsetDateTime) : OffsetDateTime :=
  { t with instant := t.instant / 1000000 * 1000000 }

theorem truncatedToMillis_idem (t : OffsetDateTime) :
    t.truncatedToMillis.truncatedToMillis = t.truncatedToMillis := by
  have hinstant : t.instant / 1000000 * 1000000 / 1000000 = t.instant / 1000000 := by omega
  rw [truncatedToMillis, truncatedToMillis, mk.injEq]
  exact ⟨by rw [hinstant], rfl⟩

def text (t : OffsetDateTime) : List Char :=
  (CivilDate.ofEpochDay (t.localTime / nanosPerDay)).text ++
    'T' :: timeText (t.localTime % nanosPerDay).toNat ++ offsetText t.offset

/-- `ISO_OFFSET_DATE_TIME.format`. -/
def format (t : OffsetDateTime) : String := String.ofList t.text

/-- `OffsetDateTime.parse` with `ISO_OFFSET_DATE_TIME`. -/
def parse (s : String) : Option OffsetDateTime := do
  let (day, text) ← readDate s.toList
  let text ← (literal 'T' text).orElse fun _ => literal 't' text
  let (nanos, text) ← readTime text
  let (offset, text) ← readOffset text
  if h : text = [] ∧ offset.natAbs ≤ maxOffset then
    some ⟨day * nanosPerDay + nanos - offset * 1000000000, offset, h.2⟩
  else
    none

theorem toNat_emod_lt (n : ℤ) : (n % nanosPerDay).toNat < 86400 * 1000000000 := by
  have hnonneg : 0 ≤ n % nanosPerDay := Int.emod_nonneg _ (by decide)
  have hlt : n % nanosPerDay < nanosPerDay := Int.emod_lt_of_pos _ (by decide)
  have hday : nanosPerDay = 86400 * 1000000000 := rfl
  omega

theorem parse_eq (t : OffsetDateTime) {time : List Char}
    (htime : readTime (time ++ offsetText t.offset) =
      some ((t.localTime % nanosPerDay).toNat, offsetText t.offset)) :
    parse (String.ofList ((CivilDate.ofEpochDay (t.localTime / nanosPerDay)).text ++
      'T' :: time ++ offsetText t.offset)) = some t := by
  have hnonneg : 0 ≤ t.localTime % nanosPerDay := Int.emod_nonneg _ (by decide)
  have hinstant : t.localTime / nanosPerDay * nanosPerDay +
      ((t.localTime % nanosPerDay).toNat : ℤ) - t.offset * 1000000000 = t.instant := by
    rw [Int.toNat_of_nonneg hnonneg, Int.mul_comm, Int.mul_ediv_add_emod, localTime]
    omega
  simp only [parse, String.toList_ofList, List.append_assoc, List.cons_append, readDate_text,
    htime, readOffset_offsetText t.offset_le, literal_cons, Option.orElse_some,
    Option.bind_eq_bind, Option.bind_some, t.offset_le, and_self, dite_true, hinstant]

/-- A date-time is read back from its text. -/
theorem parse_format (t : OffsetDateTime) : parse t.format = some t :=
  t.parse_eq (readTime_timeText (toNat_emod_lt _) (endsTime_offsetText t.offset))

/-- `OffsetDateTime.toString`. -/
def print (t : OffsetDateTime) : String :=
  String.ofList ((CivilDate.ofEpochDay (t.localTime / nanosPerDay)).text ++
    'T' :: shortTimeText (t.localTime % nanosPerDay).toNat ++ offsetText t.offset)

/-- A date-time is read back from what is printed of it. -/
theorem parse_print (t : OffsetDateTime) : parse t.print = some t := by
  have hcolon : ∀ text, offsetText t.offset ≠ ':' :: text := by
    intro text
    rw [offsetText]
    split_ifs
    all_goals
      intro h
      cases h
  exact t.parse_eq
    (readTime_shortTimeText (toNat_emod_lt _) (endsTime_offsetText t.offset) hcolon)

/-! ### Years of the era

The pattern `yyyy-MM-dd'T'HH:mm:ss.SSS'Z'` writes the year of its era: the years before year 1
are counted backwards from it. -/

/-- The date that is written. -/
def eraDate (date : CivilDate) : CivilDate :=
  { date with year := if 0 < date.year then date.year else 1 - date.year }

/-- The date in UTC of an instant in nanoseconds since the epoch. -/
def utcDate (instant : ℤ) : CivilDate := CivilDate.ofEpochDay (instant / nanosPerDay)

def patternText (instant : ℤ) : List Char :=
  (eraDate (utcDate instant)).text ++
    'T' :: milliTimeText (instant % nanosPerDay).toNat ++ ['Z']

/-- What is written is read as the whole milliseconds of the written date, if there is such a
date. -/
theorem parse_patternText (instant : ℤ) :
    (parse (String.ofList (patternText instant))).map OffsetDateTime.instant =
      if CivilDate.ofEpochDay (eraDate (utcDate instant)).toEpochDay = eraDate (utcDate instant) then
        some ((eraDate (utcDate instant)).toEpochDay * nanosPerDay +
          instant % nanosPerDay / 1000000 * 1000000)
      else
        none := by
  obtain ⟨⟨hmonth₀, hmonth⟩, hday₀, hday⟩ := CivilDate.ofEpochDay_bounds (instant / nanosPerDay)
  have hnonneg : 0 ≤ instant % nanosPerDay := Int.emod_nonneg _ (by decide)
  have hmillis : (((instant % nanosPerDay).toNat / 1000000 * 1000000 : ℕ) : ℤ) =
      instant % nanosPerDay / 1000000 * 1000000 := by omega
  have hmonthLt : 0 ≤ (utcDate instant).month ∧ (utcDate instant).month < 100 := by
    rw [utcDate]
    omega
  have hdayLt : 0 ≤ (utcDate instant).day ∧ (utcDate instant).day < 100 := by
    rw [utcDate]
    omega
  have hera : 0 ≤ (eraDate (utcDate instant)).month ∧ (eraDate (utcDate instant)).month < 100 :=
    hmonthLt
  have hread := readDate_date hera hdayLt
    ('T' :: (milliTimeText (instant % nanosPerDay).toNat ++ ['Z']))
  have htime := readTime_milliTimeText (toNat_emod_lt instant) (ends_cons (by decide : 'Z'.isDigit = false) [])
  have hoffset : (0 : ℤ).natAbs ≤ maxOffset := Nat.zero_le _
  simp only [parse, String.toList_ofList, patternText, List.append_assoc, List.cons_append, hread]
  split_ifs with hdate
  · simp only [Option.bind_eq_bind, Option.bind_some, literal_cons, Option.orElse_some, htime,
      readOffset, hoffset, and_self, dite_true, Option.map_some, hmillis, Int.zero_mul, Int.sub_zero]
  · rfl

/-- An instant comes back when it is a whole number of milliseconds, from year 1 on. -/
theorem parse_patternText_eq_some_iff {instant : ℤ} :
    (parse (String.ofList (patternText instant))).map OffsetDateTime.instant = some instant ↔
      instant % 1000000 = 0 ∧ 0 < (utcDate instant).year := by
  have hperDay : nanosPerDay = 86400000000000 := rfl
  rw [parse_patternText, hperDay]
  constructor
  · intro h
    split_ifs at h with hdate
    have hinstant := Option.some.inj h
    have hday : (eraDate (utcDate instant)).toEpochDay = instant / 86400000000000 := by omega
    have hmillis : instant % 1000000 = 0 := by omega
    rw [hday, ← hperDay, ← utcDate] at hdate
    have hyear : (utcDate instant).year =
        if 0 < (utcDate instant).year then (utcDate instant).year else 1 - (utcDate instant).year :=
      congrArg CivilDate.year hdate
    split_ifs at hyear with hpos
    · exact ⟨hmillis, hpos⟩
    · omega
  · rintro ⟨hmillis, hpos⟩
    have hera : eraDate (utcDate instant) = utcDate instant := by rw [eraDate, if_pos hpos]
    rw [hera, utcDate, CivilDate.toEpochDay_ofEpochDay, if_pos rfl, hperDay, Option.some.injEq]
    omega

theorem format_injective : Function.Injective format := by
  intro t t' h
  exact Option.some.inj (by rw [← parse_format t, ← parse_format t', h])

/-- The characters that are written. -/
def isDateChar (c : Char) : Bool := c.isDigit || "+-:.TZ".toList.contains c

theorem all_decimal (width n : ℕ) : (decimal width n).all isDateChar := by
  rw [List.all_eq_true]
  intro c hc
  rw [isDateChar, isDigit_of_mem_decimal hc, Bool.true_or]

theorem all_fractionText (nanos : ℕ) : (fractionText nanos).all isDateChar := by
  rw [fractionText]
  split_ifs
  · rfl
  · rw [List.all_cons, Bool.and_eq_true, List.all_eq_true]
    refine ⟨by decide, fun c hc => ?_⟩
    have hdigits := List.all_eq_true.mp (all_decimal 9 nanos)
    exact hdigits c ((List.rdropWhile_prefix _ _).subset hc)

theorem all_offsetText (offset : ℤ) : (offsetText offset).all isDateChar := by
  have hcolon : isDateChar ':' := by decide
  have hminus : isDateChar '-' := by decide
  have hplus : isDateChar '+' := by decide
  rw [offsetText, hoursText]
  split_ifs
  · decide
  all_goals
    simp only [List.all_cons, List.all_append, all_decimal, hcolon, hminus, hplus, List.all_nil,
      Bool.and_self]

theorem all_dateText (date : CivilDate) : date.text.all isDateChar := by
  have hdash : isDateChar '-' := by decide
  have hyear : ∀ year, (yearText year).all isDateChar := by
    intro year
    rw [yearText, List.all_append, all_decimal, Bool.and_true]
    split_ifs <;> decide
  simp only [CivilDate.text, List.all_append, List.all_cons, all_decimal, hyear, hdash,
    Bool.and_self]

theorem all_text (t : OffsetDateTime) : t.text.all isDateChar := by
  have hcolon : isDateChar ':' := by decide
  have hT : isDateChar 'T' := by decide
  simp only [text, timeText, List.all_append, List.all_cons, all_decimal, all_dateText,
    all_fractionText, all_offsetText, hcolon, hT, Bool.and_self]

theorem all_shortFractionText (nanos : ℕ) : (shortFractionText nanos).all isDateChar := by
  have hdot : isDateChar '.' := by decide
  rw [shortFractionText]
  split_ifs
  · rfl
  all_goals rw [List.all_cons, all_decimal, hdot, Bool.and_self]

theorem all_print (t : OffsetDateTime) : t.print.toList.all isDateChar := by
  have hcolon : isDateChar ':' := by decide
  have hT : isDateChar 'T' := by decide
  simp only [print, String.toList_ofList, shortTimeText, List.all_append, List.all_cons,
    all_decimal, all_dateText, all_offsetText, hcolon, hT, Bool.and_self, Bool.true_and,
    Bool.and_true]
  split_ifs
  · rfl
  · rw [List.all_append, List.all_cons, all_decimal, all_shortFractionText, hcolon]
    rfl

theorem print_ne_empty (t : OffsetDateTime) : t.print ≠ "" := by
  intro h
  have hparse := parse_print t
  rw [h] at hparse
  cases hparse

theorem text_ne_nil (t : OffsetDateTime) : t.text ≠ [] := by
  intro h
  have hoffset : offsetText t.offset = [] := (List.append_eq_nil_iff.mp h).2
  rw [offsetText] at hoffset
  split_ifs at hoffset

end OffsetDateTime

example : (OffsetDateTime.mk 1438265109250000000 3600 (by decide)).format =
    "2015-07-30T15:05:09.25+01:00" := by decide

end Marathon.Lib
