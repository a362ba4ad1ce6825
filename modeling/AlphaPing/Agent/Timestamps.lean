import AlphaPing.Agent.RuntimeAdapters
import AlphaPing.Library.Calendar
import Mathlib.Tactic.IntervalCases

/-!
# The timestamps of containers

Docker and Apple tell when a container was started by a timestamp of RFC 3339, which
`parse_rfc3339_ms` reads by the places of its numbers. What stands between the numbers, and after
the minutes of a time zone, is not looked at, a number may have a sign, and the letters have to be
capitals.
-/

namespace AlphaPing.Agent.Timestamps

open Library.Calendar RuntimeAdapters

/-! ## Timestamps -/

def decimal (text : List Char) : ℕ :=
  text.foldl (fun value character ↦ value * 10 + (character.toNat - 48)) 0

/-- The time zone, with the digits of its hours and minutes. -/
inductive Zone where
  | utc (letter : Char)
  | offset (negative : Bool) (hours minutes : List Char)
  deriving DecidableEq

/-- A timestamp, with the digits of its numbers; a fraction that is missing has none. -/
structure Stamp where
  year : List Char
  month : List Char
  day : List Char
  letter : Char
  hour : List Char
  minute : List Char
  second : List Char
  fraction : List Char
  zone : Zone

def Zone.text : Zone → List Char
  | .utc letter => [letter]
  | .offset negative hours minutes => (if negative then '-' else '+') :: (hours ++ ':' :: minutes)

def Stamp.text (stamp : Stamp) : List Char :=
  stamp.year ++ '-' :: (stamp.month ++ '-' :: (stamp.day ++ stamp.letter :: (stamp.hour ++
    ':' :: (stamp.minute ++ ':' :: (stamp.second ++
      ((if stamp.fraction = [] then [] else '.' :: stamp.fraction) ++ stamp.zone.text))))))

def Digits (count : ℕ) (text : List Char) : Prop :=
  text.length = count ∧ text.all Char.isDigit = true

/-- The grammar, in which the letters may be small ones. -/
structure Grammatical (stamp : Stamp) : Prop where
  year : Digits 4 stamp.year
  month : Digits 2 stamp.month
  day : Digits 2 stamp.day
  letter : stamp.letter = 'T' ∨ stamp.letter = 't'
  hour : Digits 2 stamp.hour
  minute : Digits 2 stamp.minute
  second : Digits 2 stamp.second
  fraction : stamp.fraction.all Char.isDigit = true
  zone : match stamp.zone with
    | .utc letter => letter = 'Z' ∨ letter = 'z'
    | .offset _ hours minutes => Digits 2 hours ∧ Digits 2 minutes

/-- The days, hours, minutes and seconds that there are. -/
structure InRange (stamp : Stamp) : Prop where
  month : 1 ≤ decimal stamp.month ∧ decimal stamp.month ≤ 12
  day : 1 ≤ decimal stamp.day ∧
    decimal stamp.day ≤ monthLength (decimal stamp.year) (decimal stamp.month)
  hour : decimal stamp.hour ≤ 23
  minute : decimal stamp.minute ≤ 59
  second : decimal stamp.second ≤ 60

def Zone.seconds : Zone → ℤ
  | .utc _ => 0
  | .offset negative hours minutes =>
    (if negative then -1 else 1) * (decimal hours * 3600 + decimal minutes * 60)

/-- The seconds from the epoch, by the calendar. -/
def Stamp.seconds (stamp : Stamp) : ℤ :=
  ((dayNumber (decimal stamp.year) (decimal stamp.month) (decimal stamp.day) : ℤ) -
      dayNumber 1970 1 1) * 86400 +
    decimal stamp.hour * 3600 + decimal stamp.minute * 60 + decimal stamp.second -
    stamp.zone.seconds

/-- The milliseconds from the epoch; the rest of the fraction is cut off. -/
def Stamp.millis (stamp : Stamp) : ℤ :=
  stamp.seconds * 1000 + (decimal stamp.fraction * 1000 / 10 ^ stamp.fraction.length : ℕ)

/-- The time zones that there are, and the seconds that were inserted before a second of the epoch
that `leaps` knows. -/
structure Lawful (leaps : ℤ → Bool) (stamp : Stamp) : Prop where
  zone : ∀ negative hours minutes, stamp.zone = .offset negative hours minutes →
    decimal hours ≤ 23 ∧ decimal minutes ≤ 59
  second : decimal stamp.second = 60 → leaps stamp.seconds = true

/-- The text is a valid timestamp of so many milliseconds. -/
def Denotes (leaps : ℤ → Bool) (value : String) (millis : ℤ) : Prop :=
  ∃ stamp, Grammatical stamp ∧ InRange stamp ∧ Lawful leaps stamp ∧
    value.toList = stamp.text ∧ millis = stamp.millis

/-! ## What is read -/

/-- What `parse_rfc3339_ms` reads at its places. -/
structure Fields where
  year : ℤ
  month : ℤ
  day : ℤ
  hour : ℤ
  minute : ℤ
  second : ℤ
  fraction : List Char
  timezone : List Char

def readFields (text : List Char) : Option Fields := do
  if text.length < 19 ∨ ¬(text.take 19).all (·.toNat < 128) then none else
  if (text.drop 10).head? ≠ some 'T' then none else
  let year ← parseInteger (text.take 4)
  let month ← parseInteger ((text.drop 5).take 2)
  let day ← parseInteger ((text.drop 8).take 2)
  let hour ← parseInteger ((text.drop 11).take 2)
  let minute ← parseInteger ((text.drop 14).take 2)
  let second ← parseInteger ((text.drop 17).take 2)
  let rest := text.drop 19
  some ⟨year, month, day, hour, minute, second,
    if rest.head? = some '.' then (rest.drop 1).takeWhile Char.isDigit else [],
    if rest.head? = some '.' then (rest.drop 1).dropWhile Char.isDigit else rest⟩

/-- What the fields mean, if they are in range. -/
def Fields.convert (fields : Fields) : Option ℤ := do
  if ¬(1 ≤ fields.month ∧ fields.month ≤ 12) ∨ ¬(1 ≤ fields.day ∧ fields.day ≤ 31) ∨
    23 < fields.hour ∨ 59 < fields.minute ∨ 60 < fields.second then none else
  let offset ← offsetSeconds fields.timezone
  let days ← daysFromCivil fields.year fields.month fields.day
  some ((days * 86400 + fields.hour * 3600 + fields.minute * 60 + fields.second - offset) * 1000 +
    fractionMillis fields.fraction)

theorem parse_eq (value : String) :
    parseRfc3339Ms value = (readFields value.toList).bind Fields.convert := by
  unfold parseRfc3339Ms readFields
  dsimp only
  split
  · rfl
  · split
    · rfl
    · simp only [Option.bind_eq_bind, Option.bind_assoc, Option.bind_some]
      rfl

/-! ## Numbers and days -/

theorem isDigit_bounds {character : Char} (h : character.isDigit = true) :
    48 ≤ character.toNat ∧ character.toNat ≤ 57 := by
  simpa [Char.isDigit, UInt32.le_iff_toNat_le] using h

variable {text : List Char} {stamp : Stamp}

theorem foldl_digits (h : text.all Char.isDigit = true) (start : ℕ) :
    text.foldl (fun value character ↦ value * 10 + ((character.toNat : ℤ) - 48)) (start : ℤ) =
      (text.foldl (fun value character ↦ value * 10 + (character.toNat - 48)) start : ℕ) := by
  induction text generalizing start with
  | nil => rfl
  | cons character text ih =>
    rw [List.all_cons, Bool.and_eq_true] at h
    have hdigit := (isDigit_bounds h.1).1
    rw [List.foldl_cons, List.foldl_cons, ← ih h.2]
    congr 1
    omega

theorem parseInteger_digits {count : ℕ} (h : Digits (count + 1) text) :
    parseInteger text = some (decimal text : ℤ) := by
  obtain ⟨hlength, hdigits⟩ := h
  have hfirst (sign : Char) (rest : List Char) (hsign : sign.toNat < 48) : text ≠ sign :: rest := by
    rintro rfl
    have := (isDigit_bounds (List.all_eq_true.mp hdigits sign List.mem_cons_self)).1
    omega
  have hnonempty : text ≠ [] := List.ne_nil_of_length_eq_add_one hlength
  unfold parseInteger
  dsimp only
  split
  · exact absurd rfl (hfirst '-' _ (by decide))
  · exact absurd rfl (hfirst '+' _ (by decide))
  · rw [if_neg (by simp [hnonempty, hdigits]), one_mul]
    exact congrArg some (foldl_digits hdigits 0)

theorem civil_years (adjusted : ℤ) :
    adjusted / 400 * 146097 + ((adjusted - adjusted / 400 * 400) * 365 +
      (adjusted - adjusted / 400 * 400) / 4 - (adjusted - adjusted / 400 * 400) / 100) =
    365 * adjusted + adjusted / 4 - adjusted / 100 + adjusted / 400 := by
  omega

theorem dayNumber_epoch : dayNumber 1970 1 1 = 719528 := by
  have hyears := sum_daysBefore 1970
  have hfirst : daysBefore 1970 1 = 0 := rfl
  rw [dayNumber, hfirst]
  generalize ∑ earlier ∈ Finset.range 1970, daysBefore earlier 13 = years at *
  omega

theorem daysBefore_eq {year month : ℕ} (hmonth : 1 ≤ month ∧ month ≤ 12) :
    (daysBefore year month : ℤ) =
      (153 * (month + if 2 < (month : ℤ) then -3 else 9) + 2) / 5 +
        if 2 < (month : ℤ) then 59 + if isLeap year then 1 else 0 else -306 := by
  obtain ⟨hlow, hhigh⟩ := hmonth
  interval_cases month <;>
    simp [daysBefore, Finset.sum_range_succ, monthLength] <;> split <;> rfl

theorem daysFromCivil_eq {year month day : ℕ} (hmonth : 1 ≤ month ∧ month ≤ 12) (hday : 1 ≤ day) :
    daysFromCivil year month day = if day ≤ monthLength year month then
      some ((dayNumber year month day : ℤ) - dayNumber 1970 1 1) else none := by
  have hleap : isLeapYear year = isLeap year := by
    simp only [isLeapYear, isLeap]
    grind
  have hflag : (year / 4 - year / 100 + year / 400 : ℤ) + 1 =
      (year + 3) / 4 - (year + 99) / 100 + (year + 399) / 400 + if isLeap year then 1 else 0 := by
    by_cases hyear : isLeap year = true
    all_goals
      simp only [hyear, if_true, Bool.false_eq_true, if_false]
      simp only [isLeap, Bool.and_eq_true, Bool.or_eq_true, decide_eq_true_eq] at hyear
      omega
  have hlength : (if (month : ℤ) = 2 then if isLeap year then 29 else 28
      else if (month : ℤ) ∈ [4, 6, 9, 11] then 30 else 31) = (monthLength year month : ℤ) := by
    obtain ⟨hlow, hhigh⟩ := hmonth
    interval_cases month <;> simp [monthLength]
  have hbefore := @daysBefore_eq year month hmonth
  have hyears := sum_daysBefore year
  have hthis := civil_years year
  have hlast := civil_years (year - 1)
  rw [dayNumber_epoch, daysFromCivil, hleap, hlength]
  by_cases hroom : day ≤ monthLength year month
  · rw [if_neg (by omega), if_pos hroom, dayNumber]
    refine congrArg some ?_
    generalize ∑ earlier ∈ Finset.range year, daysBefore earlier 13 = years at hyears ⊢
    push_cast
    by_cases hearly : (month : ℤ) ≤ 2
    · rw [if_neg (by omega), if_neg (by omega)] at hbefore
      rw [if_pos hearly, if_neg (by omega)]
      omega
    · rw [if_pos (by omega), if_pos (by omega)] at hbefore
      rw [if_neg hearly, if_pos (by omega), sub_zero]
      omega
  · rw [if_pos (by omega), if_neg hroom]

theorem decimal_lt (h : text.all Char.isDigit = true) (start : ℕ) :
    text.foldl (fun value character ↦ value * 10 + (character.toNat - 48)) start /
      10 ^ text.length = start := by
  induction text generalizing start with
  | nil => exact Nat.div_one start
  | cons character text ih =>
    rw [List.all_cons, Bool.and_eq_true] at h
    have hdigit := isDigit_bounds h.1
    rw [List.foldl_cons, List.length_cons, pow_succ, ← Nat.div_div_eq_div_mul, ih h.2]
    omega

theorem fractionMillis_eq {digits : List Char} (h : digits.all Char.isDigit = true) :
    fractionMillis digits = (decimal digits * 1000 / 10 ^ digits.length : ℕ) := by
  have hdigit := fun digit hmem ↦ isDigit_bounds (List.all_eq_true.mp h digit hmem)
  match digits with
  | [] => rfl
  | [first] =>
    have hfirst := hdigit first (by simp)
    simp [fractionMillis, decimal]
    omega
  | [first, second] =>
    have hfirst := hdigit first (by simp)
    have hsecond := hdigit second (by simp)
    simp [fractionMillis, decimal]
    omega
  | first :: second :: third :: rest =>
    have hfirst := hdigit first (by simp)
    have hsecond := hdigit second (by simp)
    have hthird := hdigit third (by simp)
    have hrest : rest.all Char.isDigit = true := by
      simp only [List.all_cons, Bool.and_eq_true] at h
      exact h.2.2.2
    have hcut := decimal_lt hrest (((first.toNat - 48) * 10 + (second.toNat - 48)) * 10 +
      (third.toNat - 48))
    have hpow : 10 ^ (first :: second :: third :: rest).length = 10 ^ rest.length * 1000 :=
      pow_add 10 rest.length 3
    rw [hpow, Nat.mul_div_mul_right _ _ (by decide), decimal]
    simp only [List.foldl_cons, Nat.zero_mul, Nat.zero_add]
    rw [hcut]
    simp [fractionMillis]
    omega

theorem offsetSeconds_text (h : Grammatical stamp) :
    offsetSeconds stamp.zone.text =
      if stamp.zone = .utc 'z' then none else some stamp.zone.seconds := by
  have hzone := h.zone
  cases hkind : stamp.zone with
  | utc letter =>
    rw [hkind] at hzone
    rcases hzone with rfl | rfl <;> rfl
  | offset negative hours minutes =>
    rw [hkind] at hzone
    obtain ⟨hhours, hminutes⟩ := hzone
    have hnumbers := parseInteger_digits hhours
    have hrest := parseInteger_digits hminutes
    obtain ⟨a, b, rfl⟩ := List.length_eq_two.mp hhours.1
    obtain ⟨c, d, rfl⟩ := List.length_eq_two.mp hminutes.1
    have hascii : ∀ digit ∈ [a, b, c, d], digit.toNat < 128 := by
      intro digit hmem
      have hdigits : [a, b, c, d].all Char.isDigit = true := by
        simpa [Digits, and_assoc] using And.intro hhours.2 hminutes.2
      have := isDigit_bounds (List.all_eq_true.mp hdigits digit hmem)
      omega
    simp only [List.forall_mem_cons] at hascii
    cases negative <;> simp [offsetSeconds, Zone.text, Zone.seconds, hnumbers, hrest, hascii]

theorem fraction_text (h : Grammatical stamp) :
    let rest := (if stamp.fraction = [] then [] else '.' :: stamp.fraction) ++ stamp.zone.text
    (if rest.head? = some '.' then (rest.drop 1).takeWhile Char.isDigit else []) = stamp.fraction ∧
      (if rest.head? = some '.' then (rest.drop 1).dropWhile Char.isDigit else rest) =
        stamp.zone.text := by
  obtain ⟨first, tail, htext, hpoint, hdigit⟩ : ∃ first tail, stamp.zone.text = first :: tail ∧
      first ≠ '.' ∧ first.isDigit = false := by
    have hzone := h.zone
    cases hkind : stamp.zone with
    | utc letter =>
      rw [hkind] at hzone
      rcases hzone with rfl | rfl <;> exact ⟨_, _, rfl, by decide, by decide⟩
    | offset negative hours minutes =>
      cases negative <;> exact ⟨_, _, rfl, by decide, by decide⟩
  have hall := List.all_eq_true.mp h.fraction
  by_cases hnone : stamp.fraction = []
  · simp [hnone, htext, hpoint]
  · simp [hnone, htext, List.takeWhile_append_of_pos hall, List.dropWhile_append_of_pos hall,
      hdigit]

theorem readFields_text (h : Grammatical stamp) :
    readFields stamp.text = if stamp.letter = 'T' then
      some ⟨decimal stamp.year, decimal stamp.month, decimal stamp.day, decimal stamp.hour,
        decimal stamp.minute, decimal stamp.second, stamp.fraction, stamp.zone.text⟩
    else none := by
  have hfraction := fraction_text h
  obtain ⟨year, month, day, letter, hour, minute, second, fraction, zone⟩ := stamp
  obtain ⟨hyear, hmonth, hday, hletter, hhour, hminute, hsecond, -, -⟩ := h
  dsimp only [Stamp.text] at *
  generalize (if fraction = [] then [] else '.' :: fraction) ++ zone.text = rest at *
  have hascii {count : ℕ} {text : List Char} (hdigits : Digits count text) :
      ∀ digit ∈ text, digit.toNat < 128 := fun digit hmem ↦
    (isDigit_bounds (List.all_eq_true.mp hdigits.2 digit hmem)).2.trans_lt (by decide)
  have hplain := And.intro (hascii hyear) (And.intro (hascii hmonth) (And.intro (hascii hday)
    (And.intro (hascii hhour) (And.intro (hascii hminute) (hascii hsecond)))))
  have hnumbers := And.intro (parseInteger_digits hyear) (And.intro (parseInteger_digits hmonth)
    (And.intro (parseInteger_digits hday) (And.intro (parseInteger_digits hhour)
      (And.intro (parseInteger_digits hminute) (parseInteger_digits hsecond)))))
  obtain ⟨y₀, y₁, y₂, y₃, rfl⟩ := List.length_eq_four.mp hyear.1
  obtain ⟨m₀, m₁, rfl⟩ := List.length_eq_two.mp hmonth.1
  obtain ⟨d₀, d₁, rfl⟩ := List.length_eq_two.mp hday.1
  obtain ⟨h₀, h₁, rfl⟩ := List.length_eq_two.mp hhour.1
  obtain ⟨n₀, n₁, rfl⟩ := List.length_eq_two.mp hminute.1
  obtain ⟨s₀, s₁, rfl⟩ := List.length_eq_two.mp hsecond.1
  simp only [List.forall_mem_cons, List.not_mem_nil] at hplain
  rcases hletter with rfl | rfl
  · simpa [readFields, hplain, hnumbers] using hfraction
  · simp [readFields]

/-- The letters are capitals. -/
def Upper (stamp : Stamp) : Prop :=
  stamp.letter = 'T' ∧ stamp.zone ≠ .utc 'z'

/-- A timestamp of the grammar is read if its letters are capitals and its parts in range. -/
theorem parse_text_iff (h : Grammatical stamp) {value : String} (hvalue : value.toList = stamp.text)
    {millis : ℤ} :
    parseRfc3339Ms value = some millis ↔
      Upper stamp ∧ InRange stamp ∧ millis = stamp.millis := by
  rw [parse_eq, hvalue, readFields_text h, Upper]
  by_cases hletter : stamp.letter = 'T'
  · rw [if_pos hletter, Option.bind_some, Fields.convert]
    dsimp only
    rw [offsetSeconds_text h, fractionMillis_eq h.fraction]
    split
    · next hranges =>
      refine ⟨fun hnone ↦ (nomatch hnone), fun ⟨_, hrange, _⟩ ↦ absurd hranges ?_⟩
      have hlength := monthLength_le (decimal stamp.year) (decimal stamp.month)
      have := hrange.month
      have := hrange.day
      have := hrange.hour
      have := hrange.minute
      have := hrange.second
      omega
    · next hranges =>
      by_cases hzone : stamp.zone = .utc 'z'
      · simp [hzone]
      · rw [if_neg hzone, Option.bind_eq_bind, Option.bind_some,
          daysFromCivil_eq (by omega) (by omega)]
        by_cases hday : decimal stamp.day ≤ monthLength (decimal stamp.year) (decimal stamp.month)
        · rw [if_pos hday, Option.bind_some, Option.some.injEq]
          refine ⟨fun hmillis ↦ ⟨⟨hletter, hzone⟩, ?_, hmillis.symm⟩,
            fun hmillis ↦ hmillis.2.2.symm⟩
          exact ⟨by omega, ⟨by omega, hday⟩, by omega, by omega, by omega⟩
        · rw [if_neg hday]
          exact ⟨fun hnone ↦ (nomatch hnone), fun hrange ↦ absurd hrange.2.1.day.2 hday⟩
  · rw [if_neg hletter]
    exact ⟨fun hnone ↦ (nomatch hnone), fun hupper ↦ absurd hupper.1.1 hletter⟩

/-! ## Overflow -/

/-- The number is one of so many bits and a sign. -/
def Within (bits : ℕ) (number : ℤ) : Prop :=
  -2 ^ bits ≤ number ∧ number < 2 ^ bits

/-- The number at a place, or zero where there is none. -/
def numberAt (text : List Char) (start count : ℕ) : ℤ :=
  (parseInteger ((text.drop start).take count)).getD 0

/-- The results of the operations on integers that have been read: on the fraction, on the hours
and minutes of the time zone, in `days_from_civil`, and on the sum, where the last two are those
that the code lets saturate. -/
def arithmetic (value : String) : List ℤ :=
  let text := value.toList
  let rest := text.drop 19
  let fraction := if rest.head? = some '.' then (rest.drop 1).takeWhile Char.isDigit else []
  let timezone := if rest.head? = some '.' then (rest.drop 1).dropWhile Char.isDigit else rest
  let digit (index : ℕ) : ℤ := (fraction[index]?.getD '0').toNat - 48
  let millis := digit 0 * 100 + digit 1 * 10 + digit 2
  let hours := numberAt timezone 1 2 * 3600
  let minutes := numberAt timezone 4 2 * 60
  let offset := if timezone.head? = some '-' then -(hours + minutes) else hours + minutes
  let month := numberAt text 5 2
  let adjustedYear := numberAt text 0 4 - if month ≤ 2 then 1 else 0
  let era := adjustedYear / 400
  let yearOfEra := adjustedYear - era * 400
  let shiftedMonth := month + if 2 < month then -3 else 9
  let dayOfMonths := (153 * shiftedMonth + 2) / 5
  let dayOfYear := dayOfMonths + numberAt text 8 2 - 1
  let dayOfEra := yearOfEra * 365 + yearOfEra / 4 - yearOfEra / 100 + dayOfYear
  let days := era * 146097 + dayOfEra - 719468
  let hour := days * 86400 + numberAt text 11 2 * 3600
  let minute := hour + numberAt text 14 2 * 60
  let second := minute + numberAt text 17 2
  [digit 0, digit 1, digit 2, digit 0 * 100, digit 1 * 10, digit 0 * 100 + digit 1 * 10, millis,
    hours, minutes, hours + minutes, offset, adjustedYear, era, era * 400, yearOfEra, shiftedMonth,
    153 * shiftedMonth, 153 * shiftedMonth + 2, dayOfMonths, dayOfMonths + numberAt text 8 2,
    dayOfYear, yearOfEra * 365, yearOfEra / 4, yearOfEra * 365 + yearOfEra / 4, yearOfEra / 100,
    yearOfEra * 365 + yearOfEra / 4 - yearOfEra / 100, dayOfEra, era * 146097,
    era * 146097 + dayOfEra, days, days * 86400, numberAt text 11 2 * 3600, hour,
    numberAt text 14 2 * 60, minute, second, second - offset, (second - offset) * 1000,
    (second - offset) * 1000 + millis]

/-- A number of at most four characters. -/
def Small (number : ℤ) : Prop :=
  -10000 < number ∧ number < 10000

theorem small_of_parseInteger {number : ℤ} (h : parseInteger text = some number)
    (hlength : text.length ≤ 4) : Small number := by
  have hsigned {digits : List Char} {sign : ℤ} (hsign : sign = 1 ∨ sign = -1)
      (hle : digits.length ≤ 4) (h : (if digits.isEmpty ∨ ¬digits.all Char.isDigit then none
        else some (sign * digits.foldl
          (fun value character ↦ value * 10 + ((character.toNat : ℤ) - 48)) 0)) = some number) :
      Small number := by
    split at h
    · cases h
    · next hdigits =>
      have hall : digits.all Char.isDigit = true := not_not.mp (not_or.mp hdigits).2
      have hsum := foldl_digits hall 0
      have hbound := (Nat.div_eq_zero_iff_lt (by positivity)).mp (decimal_lt hall 0)
      have hpow : 10 ^ digits.length ≤ 10 ^ 4 := Nat.pow_le_pow_right (by decide) hle
      rw [Nat.cast_zero] at hsum
      rw [hsum] at h
      obtain rfl := Option.some.inj h
      unfold Small
      rcases hsign with rfl | rfl <;> omega
  unfold parseInteger at h
  dsimp only at h
  split at h
  · exact hsigned (.inr rfl) (Nat.le_of_succ_le hlength) h
  · exact hsigned (.inl rfl) (Nat.le_of_succ_le hlength) h
  · exact hsigned (.inl rfl) hlength h

theorem small_numberAt (text : List Char) (start count : ℕ) (hcount : count ≤ 4) :
    Small (numberAt text start count) := by
  unfold numberAt
  cases h : parseInteger ((text.drop start).take count) with
  | none => exact ⟨by decide, by decide⟩
  | some number => exact small_of_parseInteger h ((List.length_take_le _ _).trans hcount)

theorem within_arithmetic (value : String) : ∀ result ∈ arithmetic value, Within 63 result := by
  unfold arithmetic
  extract_lets text rest fraction timezone digit
  have hdigit (index : ℕ) : -2 ^ 33 < digit index ∧ digit index < 2 ^ 33 := by
    have hlt : (fraction[index]?.getD '0').toNat < 2 ^ 32 := UInt32.toNat_lt _
    dsimp only [digit]
    omega
  have hdigits := And.intro (hdigit 0) (And.intro (hdigit 1) (hdigit 2))
  have hzone := And.intro (small_numberAt timezone 1 2 (by decide))
    (small_numberAt timezone 4 2 (by decide))
  have hdate := And.intro (small_numberAt text 0 4 (by decide))
    (And.intro (small_numberAt text 5 2 (by decide)) (small_numberAt text 8 2 (by decide)))
  have htime := And.intro (small_numberAt text 11 2 (by decide))
    (And.intro (small_numberAt text 14 2 (by decide)) (small_numberAt text 17 2 (by decide)))
  simp only [Small] at hzone hdate htime
  clear_value digit timezone fraction rest text
  simp +zetaDelta only [List.forall_mem_cons, Within]
  and_intros <;> first | omega | exact List.forall_mem_nil _

/-! ## Accepted fields -/

/-- The fields pass the checks of the code. -/
structure Fields.Accepted (fields : Fields) : Prop where
  month : 1 ≤ fields.month ∧ fields.month ≤ 12
  day : 1 ≤ fields.day ∧ fields.day ≤ 31
  hour : fields.hour ≤ 23
  minute : fields.minute ≤ 59
  second : fields.second ≤ 60
  zone : (offsetSeconds fields.timezone).isSome = true
  date : (daysFromCivil fields.year fields.month fields.day).isSome = true

theorem isSome_parse_iff (value : String) : (parseRfc3339Ms value).isSome = true ↔
    ∃ fields, readFields value.toList = some fields ∧ fields.Accepted := by
  rw [parse_eq]
  cases readFields value.toList with
  | none => simp
  | some fields =>
    rw [Option.bind_some, Fields.convert]
    constructor
    · intro h
      split at h
      · cases h
      · next hranges =>
        cases hzone : offsetSeconds fields.timezone with
        | none => simp [hzone] at h
        | some offset =>
          cases hdate : daysFromCivil fields.year fields.month fields.day with
          | none => simp [hzone, hdate] at h
          | some days =>
            exact ⟨fields, rfl, by omega, by omega, by omega, by omega, by omega,
              by rw [hzone]; rfl, by rw [hdate]; rfl⟩
    · rintro ⟨_, heq, hmonth, hday, hhour, hminute, hsecond, hzone, hdate⟩
      obtain rfl := Option.some.inj heq
      obtain ⟨offset, hoffset⟩ := Option.isSome_iff_exists.mp hzone
      obtain ⟨days, hdays⟩ := Option.isSome_iff_exists.mp hdate
      rw [if_neg (by omega), hoffset, hdays]
      rfl

/-! ## What is not looked at -/

variable {fields : Fields} {leaps : ℤ → Bool}

/-- No number starts with a sign at these places. -/
def Unsigned (text : List Char) (places : List ℕ) : Prop :=
  ∀ place ∈ places, text[place]? ≠ some '+' ∧ text[place]? ≠ some '-'

def Fields.seconds (fields : Fields) : ℤ :=
  ((dayNumber fields.year.toNat fields.month.toNat fields.day.toNat : ℤ) -
      dayNumber 1970 1 1) * 86400 +
    fields.hour * 3600 + fields.minute * 60 + fields.second -
    (offsetSeconds fields.timezone).getD 0

/-- What the code does not look at is as it should be. -/
structure Tidy (leaps : ℤ → Bool) (text : List Char) (fields : Fields) : Prop where
  dashes : text[4]? = some '-' ∧ text[7]? = some '-'
  colons : text[13]? = some ':' ∧ text[16]? = some ':'
  unsigned : Unsigned text [0, 5, 8, 11, 14, 17]
  fraction : text[19]? = some '.' → fields.fraction ≠ []
  zone : fields.timezone ≠ ['Z'] →
    fields.timezone.length = 6 ∧ fields.timezone[3]? = some ':' ∧ Unsigned fields.timezone [1, 4] ∧
      numberAt fields.timezone 1 2 ≤ 23 ∧ numberAt fields.timezone 4 2 ≤ 59
  second : fields.second = 60 → leaps fields.seconds = true

theorem cut (start count : ℕ) {character : Char} (h : text[start + count]? = some character) :
    text.drop start =
      (text.drop start).take count ++ character :: text.drop (start + count + 1) := by
  obtain ⟨hlt, hget⟩ := List.getElem?_eq_some_iff.mp h
  rw [← hget, ← List.drop_eq_getElem_cons hlt, ← List.drop_drop, List.take_append_drop]

theorem digits_of_readable {start count : ℕ}
    (h : (parseInteger ((text.drop start).take (count + 1))).isSome = true)
    (hlength : start + count < text.length)
    (hunsigned : text[start]? ≠ some '+' ∧ text[start]? ≠ some '-') :
    Digits (count + 1) ((text.drop start).take (count + 1)) := by
  have hfirst : ((text.drop start).take (count + 1))[0]? = text[start]? := by
    rw [List.getElem?_take_of_lt (Nat.succ_pos _), List.getElem?_drop, Nat.add_zero]
  refine ⟨by rw [List.length_take, List.length_drop]; omega, ?_⟩
  rw [← hfirst] at hunsigned
  unfold parseInteger at h
  dsimp only at h
  split at h
  · next heq => exact absurd (by rw [heq]; rfl) hunsigned.2
  · next heq => exact absurd (by rw [heq]; rfl) hunsigned.1
  · split at h
    · cases h
    · next hdigits => exact not_not.mp (not_or.mp hdigits).2

theorem exists_zone (haccepted : fields.Accepted) (h : Tidy leaps text fields) :
    ∃ zone : Zone, fields.timezone = zone.text ∧
      (match zone with
        | .utc letter => letter = 'Z' ∨ letter = 'z'
        | .offset _ hours minutes => Digits 2 hours ∧ Digits 2 minutes) ∧
      ∀ negative hours minutes, zone = .offset negative hours minutes →
        decimal hours ≤ 23 ∧ decimal minutes ≤ 59 := by
  have hread := haccepted.zone
  have htidy := h.zone
  generalize fields.timezone = timezone at hread htidy ⊢
  by_cases hutc : timezone = ['Z']
  · exact ⟨.utc 'Z', hutc, .inl rfl, fun _ _ _ heq ↦ nomatch heq⟩
  · obtain ⟨hlength, hcolon, hunsigned, hhours, hminutes⟩ := htidy hutc
    obtain ⟨hsign, hfirst, hsecond⟩ :
        (timezone.head? = some '+' ∨ timezone.head? = some '-') ∧
          (parseInteger ((timezone.drop 1).take 2)).isSome = true ∧
            (parseInteger ((timezone.drop 4).take 2)).isSome = true := by
      unfold offsetSeconds at hread
      cases hfirst : parseInteger ((timezone.drop 1).take 2) <;>
        cases hsecond : parseInteger ((timezone.drop 4).take 2) <;>
        simp only [if_neg hutc, hfirst, hsecond] at hread <;> split at hread <;> simp_all
    have hdigits := digits_of_readable hfirst (by omega) (hunsigned 1 (by decide))
    have hdigits' := digits_of_readable hsecond (by omega) (hunsigned 4 (by decide))
    rw [numberAt, parseInteger_digits hdigits] at hhours
    rw [numberAt, parseInteger_digits hdigits'] at hminutes
    refine ⟨.offset (timezone.head? = some '-') _ _, ?_, ⟨hdigits, hdigits'⟩, ?_⟩
    · have hcut := cut 0 3 hcolon
      have hrest : (timezone.drop 4).take 2 = timezone.drop 4 :=
        List.take_of_length_le (by rw [List.length_drop]; omega)
      rw [hrest]
      cases timezone with
      | nil => cases hcolon
      | cons first tail =>
        rcases hsign with h | h <;> obtain rfl := Option.some.inj h <;> exact hcut
    · rintro _ _ _ ⟨⟩
      exact ⟨Int.ofNat_le.mp hhours, Int.ofNat_le.mp hminutes⟩

theorem fields_eq (hread : readFields stamp.text = some fields) (h : Grammatical stamp) :
    fields = ⟨decimal stamp.year, decimal stamp.month, decimal stamp.day, decimal stamp.hour,
      decimal stamp.minute, decimal stamp.second, stamp.fraction, stamp.zone.text⟩ := by
  rw [readFields_text h] at hread
  split at hread
  · exact (Option.some.inj hread).symm
  · cases hread

theorem seconds_eq (hread : readFields stamp.text = some fields) (haccepted : fields.Accepted)
    (h : Grammatical stamp) : fields.seconds = stamp.seconds := by
  have hzone := haccepted.zone
  rw [fields_eq hread h, offsetSeconds_text h] at hzone
  rw [fields_eq hread h, Fields.seconds, offsetSeconds_text h]
  split at hzone
  · cases hzone
  · next hletter =>
    rw [if_neg hletter]
    rfl

/-- The places and lengths of the numbers. -/
def places : List (ℕ × ℕ) :=
  [(0, 4), (5, 2), (8, 2), (11, 2), (14, 2), (17, 2)]

theorem readFields_spec (h : readFields text = some fields) :
    19 ≤ text.length ∧ text[10]? = some 'T' ∧
      (∀ place ∈ places, (parseInteger ((text.drop place.1).take place.2)).isSome = true) ∧
      fields.fraction = (if text[19]? = some '.' then (text.drop 20).takeWhile Char.isDigit
        else []) ∧
      fields.timezone = if text[19]? = some '.' then (text.drop 20).dropWhile Char.isDigit
        else text.drop 19 := by
  rw [readFields, List.head?_drop] at h
  split at h
  · cases h
  · next hascii =>
    split at h
    · cases h
    · next htenth =>
      obtain ⟨year, hyear, h⟩ := Option.bind_eq_some_iff.mp h
      obtain ⟨month, hmonth, h⟩ := Option.bind_eq_some_iff.mp h
      obtain ⟨day, hday, h⟩ := Option.bind_eq_some_iff.mp h
      obtain ⟨hour, hhour, h⟩ := Option.bind_eq_some_iff.mp h
      obtain ⟨minute, hminute, h⟩ := Option.bind_eq_some_iff.mp h
      obtain ⟨second, hsecond, h⟩ := Option.bind_eq_some_iff.mp h
      obtain rfl := Option.some.inj h
      refine ⟨not_lt.mp (not_or.mp hascii).1, not_not.mp htenth, ?_, ?_, ?_⟩
      · simp [places, hyear, hmonth, hday, hhour, hminute, hsecond]
      · simp [List.head?_drop]
      · simp [List.head?_drop]

theorem rest_eq (hread : readFields text = some fields) (h : Tidy leaps text fields) :
    text.drop 19 = (if fields.fraction = [] then [] else '.' :: fields.fraction) ++
      fields.timezone := by
  obtain ⟨-, -, -, hfraction, hzone⟩ := readFields_spec hread
  by_cases hpoint : text[19]? = some '.'
  · rw [if_neg (h.fraction hpoint), hfraction, hzone, if_pos hpoint, if_pos hpoint,
      List.cons_append, List.takeWhile_append_dropWhile]
    exact cut 19 0 hpoint
  · rw [hfraction, hzone, if_neg hpoint, if_neg hpoint, if_pos rfl, List.nil_append]

theorem exists_stamp (hread : readFields text = some fields) (haccepted : fields.Accepted)
    (h : Tidy leaps text fields) :
    ∃ stamp, Grammatical stamp ∧ Lawful leaps stamp ∧ text = stamp.text := by
  obtain ⟨zone, hzone, hzoneDigits, hzoneRange⟩ := exists_zone haccepted h
  obtain ⟨hlength, htenth, hnumbers, hfraction, -⟩ := readFields_spec hread
  have hrest := rest_eq hread h
  have hdigits (start count : ℕ) (hplace : (start, count + 1) ∈ places) :
      Digits (count + 1) ((text.drop start).take (count + 1)) := by
    refine digits_of_readable (hnumbers _ hplace) ?_ (h.unsigned start ?_) <;>
      simp [places] at hplace ⊢ <;> omega
  let stamp : Stamp := ⟨text.take 4, (text.drop 5).take 2, (text.drop 8).take 2, 'T',
    (text.drop 11).take 2, (text.drop 14).take 2, (text.drop 17).take 2, fields.fraction, zone⟩
  have hgrammar : Grammatical stamp :=
    { year := hdigits 0 3 (by decide)
      month := hdigits 5 1 (by decide)
      day := hdigits 8 1 (by decide)
      letter := .inl rfl
      hour := hdigits 11 1 (by decide)
      minute := hdigits 14 1 (by decide)
      second := hdigits 17 1 (by decide)
      fraction := by
        dsimp only [stamp]
        rw [hfraction]
        split
        · exact List.all_takeWhile
        · rfl
      zone := hzoneDigits }
  have htext : text = stamp.text := by
    have hyears : text = text.take 4 ++ '-' :: text.drop 5 := cut 0 4 h.dashes.1
    have hmonths : text.drop 5 = (text.drop 5).take 2 ++ '-' :: text.drop 8 :=
      cut 5 2 h.dashes.2
    have hdays : text.drop 8 = (text.drop 8).take 2 ++ 'T' :: text.drop 11 := cut 8 2 htenth
    have hhours : text.drop 11 = (text.drop 11).take 2 ++ ':' :: text.drop 14 :=
      cut 11 2 h.colons.1
    have hminutes : text.drop 14 = (text.drop 14).take 2 ++ ':' :: text.drop 17 :=
      cut 14 2 h.colons.2
    have hseconds : text.drop 17 = (text.drop 17).take 2 ++ text.drop 19 :=
      (List.take_append_drop 2 (text.drop 17)).symm.trans (by rw [List.drop_drop])
    dsimp only [stamp, Stamp.text]
    rw [← hzone, ← hrest, ← hseconds, ← hminutes, ← hhours, ← hdays, ← hmonths, ← hyears]
  rw [htext] at hread
  refine ⟨stamp, hgrammar, ⟨hzoneRange, fun hsixty ↦ ?_⟩, htext⟩
  rw [← seconds_eq hread haccepted hgrammar]
  refine h.second ?_
  rw [fields_eq hread hgrammar]
  exact congrArg Int.ofNat hsixty

theorem tidy_of_stamp (hread : readFields stamp.text = some fields) (haccepted : fields.Accepted)
    (h : Grammatical stamp) (hlawful : Lawful leaps stamp) : Tidy leaps stamp.text fields := by
  have hseconds := seconds_eq hread haccepted h
  have hzone := haccepted.zone
  obtain rfl := fields_eq hread h
  obtain ⟨year, month, day, letter, hour, minute, second, fraction, zone⟩ := stamp
  obtain ⟨hyear, hmonth, hday, -, hhour, hminute, hsecond, -, hletter⟩ := h
  dsimp only at hyear hmonth hday hhour hminute hsecond hzone hletter
  have hplain {character : Char} (hdigit : character.isDigit = true) :
      character ≠ '+' ∧ character ≠ '-' := by
    constructor <;> rintro rfl <;> exact absurd hdigit (by decide)
  obtain ⟨y₀, y₁, y₂, y₃, rfl⟩ := List.length_eq_four.mp hyear.1
  obtain ⟨m₀, m₁, rfl⟩ := List.length_eq_two.mp hmonth.1
  obtain ⟨d₀, d₁, rfl⟩ := List.length_eq_two.mp hday.1
  obtain ⟨h₀, h₁, rfl⟩ := List.length_eq_two.mp hhour.1
  obtain ⟨n₀, n₁, rfl⟩ := List.length_eq_two.mp hminute.1
  obtain ⟨s₀, s₁, rfl⟩ := List.length_eq_two.mp hsecond.1
  simp only [Digits, List.all_cons, Bool.and_eq_true] at hyear hmonth hday hhour hminute hsecond
  refine ⟨⟨rfl, rfl⟩, ⟨rfl, rfl⟩, ?_, fun hpoint hnone ↦ ?_, fun hutc ↦ ?_, fun hsixty ↦ ?_⟩
  · simp [Unsigned, Stamp.text, hplain hyear.2.1, hplain hmonth.2.1, hplain hday.2.1,
      hplain hhour.2.1, hplain hminute.2.1, hplain hsecond.2.1]
  · obtain rfl : fraction = [] := hnone
    cases zone with
    | utc letter => rcases hletter with rfl | rfl <;> cases hpoint
    | offset negative hours minutes => cases negative <;> cases hpoint
  · cases zone with
    | utc letter =>
      rcases hletter with rfl | rfl
      · exact absurd rfl hutc
      · exact absurd hzone (by decide)
    | offset negative hours minutes =>
      obtain ⟨hhours, hminutes⟩ := hletter
      have hrange := hlawful.zone negative hours minutes rfl
      have hfirst := parseInteger_digits hhours
      have hlast := parseInteger_digits hminutes
      obtain ⟨a, b, rfl⟩ := List.length_eq_two.mp hhours.1
      obtain ⟨c, d, rfl⟩ := List.length_eq_two.mp hminutes.1
      simp only [Digits, List.all_cons, Bool.and_eq_true] at hhours hminutes
      simp [Zone.text, Unsigned, numberAt, hplain hhours.2.1, hplain hminutes.2.1, hfirst, hlast,
        hrange]
  · rw [hseconds]
    exact hlawful.second (Int.ofNat_inj.mp hsixty)

/-- A text that is read is a valid timestamp of its milliseconds and the other way round, and
nothing overflows, exactly if every text with numbers in range at their places is tidy and no valid
timestamp has a small letter. -/
theorem timestamps_iff (leaps : ℤ → Bool) (value : String) :
    ((∀ result ∈ arithmetic value, Within 63 result) ∧
        ∀ millis, parseRfc3339Ms value = some millis ↔ Denotes leaps value millis) ↔
      (∀ fields, readFields value.toList = some fields → fields.Accepted →
          Tidy leaps value.toList fields) ∧
        ∀ stamp, Grammatical stamp → InRange stamp → Lawful leaps stamp →
          value.toList = stamp.text → Upper stamp := by
  refine ⟨fun ⟨_, hall⟩ ↦ ⟨fun fields hread haccepted ↦ ?_,
      fun stamp hgrammar hrange hlawful hvalue ↦ ?_⟩,
    fun ⟨htidy, hupper⟩ ↦ ⟨within_arithmetic value, fun millis ↦ ⟨fun hparse ↦ ?_, ?_⟩⟩⟩
  · have hsome := (isSome_parse_iff value).mpr ⟨fields, hread, haccepted⟩
    obtain ⟨millis, hparse⟩ := Option.isSome_iff_exists.mp hsome
    obtain ⟨stamp, hgrammar, -, hlawful, hvalue, -⟩ := (hall millis).mp hparse
    rw [hvalue] at hread ⊢
    exact tidy_of_stamp hread haccepted hgrammar hlawful
  · have hparse := (hall stamp.millis).mpr ⟨stamp, hgrammar, hrange, hlawful, hvalue, rfl⟩
    exact ((parse_text_iff hgrammar hvalue).mp hparse).1
  · obtain ⟨fields, hread, haccepted⟩ :=
      (isSome_parse_iff value).mp (Option.isSome_of_eq_some hparse)
    obtain ⟨stamp, hgrammar, hlawful, hvalue⟩ :=
      exists_stamp hread haccepted (htidy fields hread haccepted)
    obtain ⟨-, hrange, hmillis⟩ := (parse_text_iff hgrammar hvalue).mp hparse
    exact ⟨stamp, hgrammar, hrange, hlawful, hvalue, hmillis⟩
  · rintro ⟨stamp, hgrammar, hrange, hlawful, hvalue, hmillis⟩
    exact (parse_text_iff hgrammar hvalue).mpr
      ⟨hupper stamp hgrammar hrange hlawful hvalue, hrange, hmillis⟩

/-- Nothing stands between the numbers that has to, and the text is read all the same. -/
theorem separators_unchecked :
    parseRfc3339Ms "1970X01X01T00X00X00Z" = some 0 ∧
      ∀ leaps, ¬ Denotes leaps "1970X01X01T00X00X00Z" 0 := by
  refine ⟨by decide, fun leaps ↦ ?_⟩
  rintro ⟨stamp, hgrammar, -, -, hvalue, -⟩
  obtain ⟨y₀, y₁, y₂, y₃, hyear⟩ := List.length_eq_four.mp hgrammar.year.1
  have hfifth := congrArg (·[4]?) hvalue
  simp [Stamp.text, hyear] at hfifth

end AlphaPing.Agent.Timestamps
