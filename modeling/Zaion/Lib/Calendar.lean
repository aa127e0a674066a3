import Mathlib.Tactic.IntervalCases

/-! Instants as RFC 3339 text with milliseconds, in the proleptic Gregorian calendar. Years
are counted from March, so that the leap day is the last of its year. -/
namespace Zaion.Lib

structure Date where
  year : Int
  month : Int
  day : Int
  deriving DecidableEq, Repr

/-- Year of the 400-year cycle and day of that year, for a day of the cycle. -/
def yearOfCycle (day : Int) : Int × Int :=
  let century := min (day / 36524) 3
  let inCentury := day - 36524 * century
  let leap := inCentury / 1461
  let inLeap := inCentury - 1461 * leap
  let year := min (inLeap / 365) 3
  (100 * century + 4 * leap + year, inLeap - 365 * year)

/-- The date of a day counted from 1970-01-01. -/
def dateOf (days : Int) : Date :=
  let shifted := days + 719468
  let (year, dayOfYear) := yearOfCycle (shifted % 146097)
  let march := (5 * dayOfYear + 2) / 153
  { year := 400 * (shifted / 146097) + year + if march < 10 then 0 else 1
    month := if march < 10 then march + 3 else march - 9
    day := dayOfYear - (153 * march + 2) / 5 + 1 }

def daysOf (date : Date) : Int :=
  let march := if date.month ≤ 2 then date.month + 9 else date.month - 3
  let year := if date.month ≤ 2 then date.year - 1 else date.year
  let inCycle := year % 400
  146097 * (year / 400) + 365 * inCycle + inCycle / 4 - inCycle / 100 +
    (153 * march + 2) / 5 + date.day - 1 - 719468

theorem yearOfCycle_spec (day : Int) (low : 0 ≤ day) (high : day < 146097) :
    0 ≤ (yearOfCycle day).1 ∧ (yearOfCycle day).1 < 400 ∧
    0 ≤ (yearOfCycle day).2 ∧ (yearOfCycle day).2 ≤ 365 ∧
    365 * (yearOfCycle day).1 + (yearOfCycle day).1 / 4 - (yearOfCycle day).1 / 100 +
      (yearOfCycle day).2 = day := by
  simp only [yearOfCycle]
  generalize hc : min (day / 36524) 3 = century
  have inCentury : 0 ≤ day - 36524 * century ∧ day - 36524 * century ≤ 36524 := by omega
  generalize hr : day - 36524 * century = rest at *
  generalize hl : rest / 1461 = leap
  have inLeap : 0 ≤ rest - 1461 * leap ∧ rest - 1461 * leap ≤ 1460 := by omega
  have leaps : 0 ≤ leap ∧ leap ≤ 24 := by omega
  generalize hs : rest - 1461 * leap = days at *
  generalize hy : min (days / 365) 3 = year
  have years : 0 ≤ year ∧ year ≤ 3 := by omega
  have quarter : (100 * century + 4 * leap + year) / 4 = 25 * century + leap := by omega
  have hundred : (100 * century + 4 * leap + year) / 100 = century := by omega
  rw [quarter,hundred]
  omega

theorem dateOf_month (days : Int) : 1 ≤ (dateOf days).month ∧ (dateOf days).month ≤ 12 := by
  obtain ⟨_, _, low, high, _⟩ := yearOfCycle_spec ((days + 719468) % 146097) (by omega) (by omega)
  simp only [dateOf]
  split <;> omega

theorem dateOf_day (days : Int) : 1 ≤ (dateOf days).day ∧ (dateOf days).day ≤ 31 := by
  obtain ⟨_, _, low, high, _⟩ := yearOfCycle_spec ((days + 719468) % 146097) (by omega) (by omega)
  simp only [dateOf]
  omega

theorem daysOf_dateOf (days : Int) : daysOf (dateOf days) = days := by
  obtain ⟨first, last, low, high, whole⟩ :=
    yearOfCycle_spec ((days + 719468) % 146097) (by omega) (by omega)
  generalize hcycle : (days + 719468) / 146097 = cycle
  generalize hpair : yearOfCycle ((days + 719468) % 146097) = pair at *
  generalize hmarch : (5 * pair.2 + 2) / 153 = march
  have months : 0 ≤ march ∧ march ≤ 11 := by omega
  have year : (400 * cycle + pair.1) / 400 = cycle ∧ (400 * cycle + pair.1) % 400 = pair.1 := by omega
  by_cases early : march < 10
  · have late : ¬ march + 3 ≤ 2 := by omega
    simp only [daysOf,dateOf,hcycle,hpair,hmarch,early,late,if_true,if_false,add_zero,year,
      add_sub_cancel_right]
    omega
  · have winter : march - 9 ≤ 2 := by omega
    simp only [daysOf,dateOf,hcycle,hpair,hmarch,early,winter,if_true,if_false,add_sub_cancel_right,
      year,sub_add_cancel]
    omega

/-- 0000-01-01 up to 9999-12-31. -/
theorem dateOf_year (days : Int) (low : -719528 ≤ days) (high : days ≤ 2932896) :
    0 ≤ (dateOf days).year ∧ (dateOf days).year ≤ 9999 := by
  obtain ⟨first, last, _, _, whole⟩ :=
    yearOfCycle_spec ((days + 719468) % 146097) (by omega) (by omega)
  simp only [dateOf]
  generalize yearOfCycle ((days + 719468) % 146097) = pair at *
  have cycles : -1 ≤ (days + 719468) / 146097 ∧ (days + 719468) / 146097 ≤ 24 := by omega
  have before : (days + 719468) / 146097 = -1 → pair.1 = 399 ∧ 306 ≤ pair.2 := by
    intro cycle
    have late : 146037 ≤ (days + 719468) % 146097 := by omega
    have year : ¬ pair.1 ≤ 398 := by omega
    omega
  have after : (days + 719468) / 146097 = 24 → pair.1 = 399 → pair.2 ≤ 305 := by omega
  split <;> omega

/-- A decimal digit and its reader. -/
def digit (n : Nat) : Char := Char.ofNat (48 + n)

def readDigit (c : Char) : Option Nat :=
  if 48 ≤ c.toNat ∧ c.toNat ≤ 57 then some (c.toNat - 48) else none

theorem readDigit_digit {n : Nat} (small : n < 10) : readDigit (digit n) = some n := by
  interval_cases n <;> decide

/-- `width` decimal digits, leading zeros included. -/
def pad : Nat → Nat → List Char
  | 0, _ => []
  | width + 1, n => pad width (n / 10) ++ [digit (n % 10)]

def readDigits : List Char → Option Nat :=
  List.foldl (fun acc c => acc.bind (fun n => (readDigit c).map (fun d => 10 * n + d))) (some 0)

theorem pad_length (width n : Nat) : (pad width n).length = width := by
  induction width generalizing n with
  | zero => rfl
  | succ width ih => simp [pad,ih]

theorem readDigits_pad {width n : Nat} (small : n < 10 ^ width) : readDigits (pad width n) = some n := by
  induction width generalizing n with
  | zero =>
    have : n = 0 := by simpa using small
    subst this; rfl
  | succ width ih =>
    have front := ih (n := n / 10) (by rw [pow_succ] at small; omega)
    have last := readDigit_digit (n := n % 10) (by omega)
    have whole : 10 * (n / 10) + n % 10 = n := Nat.div_add_mod n 10
    rw [readDigits] at front
    simp [readDigits,pad,List.foldl_append,front,last,whole]

/-- A fixed-width number in front of a separator. -/
def readField (width : Nat) (separator : Char) (text : List Char) : Option (Nat × List Char) :=
  match text.drop width with
  | c :: rest => if c = separator then (readDigits (text.take width)).map (fun n => (n, rest)) else none
  | [] => none

theorem readField_pad (width n : Nat) (small : n < 10 ^ width) (separator : Char) (text : List Char) :
    readField width separator (pad width n ++ separator :: text) = some (n, text) := by
  have drop : (pad width n ++ separator :: text).drop width = separator :: text := by
    rw [List.drop_append,pad_length]; simp [List.drop_eq_nil_of_le,pad_length]
  have take : (pad width n ++ separator :: text).take width = pad width n := by
    rw [List.take_append,pad_length]; simp [List.take_of_length_le,pad_length]
  simp [readField,drop,take,readDigits_pad small]

/-- `2026-01-02T03:04:05.006Z` for the milliseconds of the epoch. -/
def printInstant (ms : Int) : List Char :=
  let date := dateOf (ms / 86400000)
  let inDay := (ms % 86400000).toNat
  pad 4 date.year.toNat ++ '-' :: (pad 2 date.month.toNat ++ '-' :: (pad 2 date.day.toNat ++ 'T' ::
    (pad 2 (inDay / 3600000) ++ ':' :: (pad 2 (inDay / 60000 % 60) ++ ':' ::
    (pad 2 (inDay / 1000 % 60) ++ '.' :: (pad 3 (inDay % 1000) ++ 'Z' :: []))))))

def readInstant (text : List Char) : Option Int := do
  let (year, text) ← readField 4 '-' text
  let (month, text) ← readField 2 '-' text
  let (day, text) ← readField 2 'T' text
  let (hour, text) ← readField 2 ':' text
  let (minute, text) ← readField 2 ':' text
  let (second, text) ← readField 2 '.' text
  let (milli, text) ← readField 3 'Z' text
  if text = [] then
    some (daysOf ⟨year, month, day⟩ * 86400000 +
      (hour * 3600000 + minute * 60000 + second * 1000 + milli : Nat))
  else none

/-- Years 0 to 9999. -/
theorem readInstant_printInstant {ms : Int} (low : -62167219200000 ≤ ms) (high : ms < 253402300800000) :
    readInstant (printInstant ms) = some ms := by
  have month := dateOf_month (ms / 86400000)
  have day := dateOf_day (ms / 86400000)
  have days := daysOf_dateOf (ms / 86400000)
  have year := dateOf_year (ms / 86400000) (by omega) (by omega)
  have inDay : ((ms % 86400000).toNat : Int) = ms % 86400000 := by omega
  have bound : (ms % 86400000).toNat < 86400000 := by omega
  generalize hdate : dateOf (ms / 86400000) = date at *
  generalize htime : (ms % 86400000).toNat = time at *
  have date_eq : (⟨(date.year.toNat : Int), (date.month.toNat : Int), (date.day.toNat : Int)⟩ : Date) = date := by
    rw [Int.toNat_of_nonneg year.1,Int.toNat_of_nonneg (by omega),Int.toNat_of_nonneg (by omega)]
  have time_eq : time / 3600000 * 3600000 + time / 60000 % 60 * 60000 + time / 1000 % 60 * 1000 +
      time % 1000 = time := by omega
  simp only [readInstant,printInstant,hdate,htime,Option.bind_eq_bind,Option.bind_some,
    readField_pad 4 (date.year.toNat) (by omega),
    readField_pad 2 (date.month.toNat) (by omega),
    readField_pad 2 (date.day.toNat) (by omega),
    readField_pad 2 (time / 3600000) (by omega),
    readField_pad 2 (time / 60000 % 60) (by omega),
    readField_pad 2 (time / 1000 % 60) (by omega),
    readField_pad 3 (time % 1000) (by omega),if_true,date_eq,time_eq,days]
  congr 1
  omega

end Zaion.Lib
