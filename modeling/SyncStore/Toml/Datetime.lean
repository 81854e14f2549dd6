import SyncStore.Decimal.Reading

/-! Dates, times and their combinations are read strictly and written in one spelling. -/

namespace SyncStore.Toml

/-- A date of the calendar. -/
structure Date where
  year : Nat
  month : Nat
  day : Nat

/-- A time of day; its seconds may be left out, and its nanoseconds too. -/
structure Time where
  hour : Nat
  minute : Nat
  second : Option Nat
  nanosecond : Option Nat

/-- An offset from universal time is universal time itself or a number of minutes. -/
inductive Offset where
  | universal
  | minutes (n : Int)

/-- A date, a time, or both, and with both an offset. -/
inductive Datetime where
  | date (date : Date)
  | time (time : Time)
  | both (date : Date) (time : Time) (offset : Option Offset)

/-- A number of a fixed count of digits. -/
def readFixed (count : Nat) (text : List Char) : Option (Nat × List Char) :=
  let digits := text.take count
  if digits.length = count && digits.all Char.isDigit
  then some (Decimal.natOfDigits digits, text.drop count)
  else none

/-- A text goes on behind one expected character. -/
def expect (c : Char) : List Char → Option (List Char)
  | d :: rest => if c = d then some rest else none
  | [] => none

/-- A year has a leap day when it is divisible by four, except for most centuries. -/
def isLeap (year : Nat) : Bool := year % 4 = 0 && (year % 100 ≠ 0 || year % 400 = 0)

/-- The days of a month. -/
def daysOf (year month : Nat) : Nat :=
  match month with
  | 2 => if isLeap year then 29 else 28
  | 4 | 6 | 9 | 11 => 30
  | _ => 31

/-- A date is a year, a month and a day of the calendar. -/
def readDate (text : List Char) : Option (Date × List Char) := do
  let (year, rest) ← readFixed 4 text
  let (month, rest) ← (expect '-' rest).bind (readFixed 2)
  let (day, rest) ← (expect '-' rest).bind (readFixed 2)
  if 1 ≤ month && month ≤ 12 && 1 ≤ day && day ≤ daysOf year month
  then some (⟨year, month, day⟩, rest)
  else none

/-- A fraction of a second is cut to nanoseconds. -/
def readFraction (text : List Char) : Option (Nat × List Char) :=
  let digits := text.takeWhile Char.isDigit
  if digits.isEmpty then none
  else
    let nine := digits.take 9
    some (Decimal.natOfDigits nine * 10 ^ (9 - nine.length), text.dropWhile Char.isDigit)

/-- Seconds may be left out, and only seconds have a fraction. -/
def readSeconds : List Char → Option ((Option Nat × Option Nat) × List Char)
  | ':' :: rest => do
    let (second, rest) ← readFixed 2 rest
    if 60 < second then none
    else
      match rest with
      | '.' :: rest =>
        (readFraction rest).map fun (nanosecond, rest) => ((some second, some nanosecond), rest)
      | rest => some ((some second, none), rest)
  | rest => some ((none, none), rest)

/-- A time is an hour and a minute, and mostly a second. -/
def readTime (text : List Char) : Option (Time × List Char) := do
  let (hour, rest) ← readFixed 2 text
  let (minute, rest) ← (expect ':' rest).bind (readFixed 2)
  let ((second, nanosecond), rest) ← readSeconds rest
  if hour ≤ 24 && minute ≤ 59 then some (⟨hour, minute, second, nanosecond⟩, rest) else none

/-- A signed offset reaches at most a whole day. -/
def readMinutes (negative : Bool) (text : List Char) : Option Offset := do
  let (hours, rest) ← readFixed 2 text
  let (minutes, rest) ← (expect ':' rest).bind (readFixed 2)
  if rest.isEmpty && hours ≤ 24 && minutes ≤ 59 && hours * 60 + minutes ≤ 24 * 60
  then some (.minutes (if negative then -(hours * 60 + minutes) else hours * 60 + minutes))
  else none

/-- An offset is a letter or a signed time, and nothing follows it. -/
def readOffset : List Char → Option Offset
  | ['Z'] => some .universal
  | ['z'] => some .universal
  | '+' :: rest => readMinutes false rest
  | '-' :: rest => readMinutes true rest
  | _ => none

/-- Date and time are separated by a letter or a blank. -/
def isSeparator (c : Char) : Bool := c = 'T' || c = 't' || c = ' '

/-- A text without a minus sign in fifth place is a time. -/
def readDatetime (text : List Char) : Option Datetime :=
  if text[4]? = some '-' then
    match readDate text with
    | none => none
    | some (date, []) => some (.date date)
    | some (date, separator :: rest) =>
      if isSeparator separator then
        match readTime rest with
        | none => none
        | some (time, []) => some (.both date time none)
        | some (time, rest) => (readOffset rest).map fun offset => .both date time (some offset)
      else none
  else
    match readTime text with
    | some (time, []) => some (.time time)
    | _ => none

/-- A number with leading zeros up to a width. -/
def padded (width n : Nat) : List Char :=
  let digits := Nat.toDigits 10 n
  List.replicate (width - digits.length) '0' ++ digits

/-- A fraction is written without trailing zeros, but with one digit at least. -/
def fractionDigits (nanosecond : Nat) : List Char :=
  let digits := ((padded 9 nanosecond).reverse.dropWhile (· = '0')).reverse
  if digits.isEmpty then ['0'] else digits

/-- The text of a date. -/
def Date.render (date : Date) : List Char :=
  padded 4 date.year ++ '-' :: (padded 2 date.month ++ '-' :: padded 2 date.day)

/-- The text of a time. -/
def Time.render (time : Time) : List Char :=
  let seconds := match time.second with
    | some second => ':' :: padded 2 second
    | none => []
  let fraction := match time.nanosecond with
    | some nanosecond => '.' :: fractionDigits nanosecond
    | none => []
  padded 2 time.hour ++ ':' :: (padded 2 time.minute ++ seconds ++ fraction)

/-- The text of an offset; no minutes at all count as positive. -/
def Offset.render : Offset → List Char
  | .universal => ['Z']
  | .minutes n =>
    (if n < 0 then '-' else '+') :: (padded 2 (n.natAbs / 60) ++ ':' :: padded 2 (n.natAbs % 60))

/-- The text of a date, a time, or both. -/
def Datetime.render : Datetime → List Char
  | .date day => day.render
  | .time clock => clock.render
  | .both day clock offset =>
    day.render ++ 'T' :: (clock.render ++ (offset.map Offset.render).getD [])

end SyncStore.Toml
