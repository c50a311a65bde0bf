import Gamewire.Text.Binary64
import Gamewire.Toml.Value

/-! Numbers, dates and times. Digits may be grouped by single underscores, an integer has to fit
64 bits with a sign, and a date has to be one of the calendar. -/
namespace Gamewire.Toml
set_option autoImplicit false

/-! ## Runs of digits -/

/-- Goes on after a digit: more digits, with single underscores between them. The underscores are
dropped. -/
def moreDigits (digit : Char → Bool) : List Char → List Char × List Char
  | [] => ([], [])
  | c :: r =>
    if digit c then
      let (ds, rest) := moreDigits digit r
      (c :: ds, rest)
    else if c = '_' then
      match r with
      | d :: r' =>
        if digit d then
          let (ds, rest) := moreDigits digit r'
          (d :: ds, rest)
        else ([], c :: r)
      | [] => ([], [c])
    else ([], c :: r)

/-- A run of at least one digit. -/
def digitRun? (digit : Char → Bool) : List Char → Option (List Char × List Char)
  | c :: r =>
    if digit c then
      let (ds, rest) := moreDigits digit r
      some (c :: ds, rest)
    else none
  | [] => none

/-- A sign, and whether it is a minus. -/
def readSign : List Char → Bool × List Char
  | '+' :: r => (false, r)
  | '-' :: r => (true, r)
  | r => (false, r)

/-- The whole part of a decimal: a zero or a run that does not start with one. -/
def wholePart? : List Char → Option (List Char × List Char)
  | '0' :: r => some (['0'], r)
  | r => digitRun? Text.isDigit r

/-! ## Integers and floats -/

def integer? (n : Int) : Option Value :=
  if minInteger ≤ n ∧ n ≤ maxInteger then some (.integer n) else none

/-- An integer in another base, after its mark. -/
def readBased (base : Nat) (r : List Char) : Option (Value × List Char) :=
  match digitRun? (fun c => (Text.digitValue? base c).isSome) r with
  | some (ds, rest) =>
    match Text.numeral? base ds with
    | some n =>
      match integer? n with
      | some v => some (v, rest)
      | none => none
    | none => none
  | none => none

/-- The exponent of a float, if there is one. -/
def readExponent (r : List Char) : Option (Int × List Char) :=
  match r with
  | c :: r' =>
    if c = 'e' ∨ c = 'E' then
      let (negative, r'') := readSign r'
      match digitRun? Text.isDigit r'' with
      | some (ds, rest) =>
        let n : Int := (Text.numeral? 10 ds).getD 0
        some (if negative then -n else n, rest)
      | none => none
    else some (0, r)
  | [] => some (0, [])

/-- A float from the digits before the point, the digits after it and what follows. -/
def finishFloat (negative : Bool) (whole fraction : List Char) (r : List Char) :
    Option (Value × List Char) :=
  match readExponent r with
  | some (exponent, rest) =>
    if !negative && Text.exceedsBinary64 (whole ++ fraction) (exponent - fraction.length) then none
    else some (.float, rest)
  | none => none

/-- A decimal integer or a float, after its sign. -/
def readDecimal (negative : Bool) (r : List Char) : Option (Value × List Char) :=
  match wholePart? r with
  | none => none
  | some (whole, rest) =>
    match rest with
    | '.' :: r' =>
      match digitRun? Text.isDigit r' with
      | some (fraction, r'') => finishFloat negative whole fraction r''
      | none => none
    | c :: _ =>
      if c = 'e' ∨ c = 'E' then finishFloat negative whole [] rest
      else readInteger whole rest
    | [] => readInteger whole rest
where
  readInteger (whole rest : List Char) : Option (Value × List Char) :=
    match Text.numeral? 10 whole with
    | some n =>
      match integer? (if negative then -(n : Int) else n) with
      | some v => some (v, rest)
      | none => none
    | none => none

/-- A number. The marks of other bases allow no sign. -/
def readNumber : List Char → Option (Value × List Char)
  | '0' :: 'x' :: r => readBased 16 r
  | '0' :: 'o' :: r => readBased 8 r
  | '0' :: 'b' :: r => readBased 2 r
  | cs =>
    match readSign cs with
    | (_, 'i' :: 'n' :: 'f' :: r) => some (.float, r)
    | (_, 'n' :: 'a' :: 'n' :: r) => some (.float, r)
    | (negative, r) => readDecimal negative r

/-! ## Dates and times -/

/-- A number of exactly `count` digits. -/
def fixedDigits? (count : Nat) (cs : List Char) : Option (Nat × List Char) :=
  let ds := cs.take count
  if ds.length = count ∧ ds.all Text.isDigit then
    match Text.numeral? 10 ds with
    | some n => some (n, cs.drop count)
    | none => none
  else none

def isLeapYear (year : Nat) : Bool := year % 4 == 0 && (year % 100 != 0 || year % 400 == 0)

def daysInMonth (year month : Nat) : Nat :=
  if month = 2 then (if isLeapYear year then 29 else 28)
  else if month = 4 ∨ month = 6 ∨ month = 9 ∨ month = 11 then 30
  else 31

/-- What follows the month and day after `year-`. -/
def skipMonthDay (year : Nat) (cs : List Char) : Option (List Char) :=
  match fixedDigits? 2 cs with
  | some (month, '-' :: r) =>
    match fixedDigits? 2 r with
    | some (day, rest) =>
      if 1 ≤ month ∧ month ≤ 12 ∧ 1 ≤ day ∧ day ≤ daysInMonth year month then some rest else none
    | none => none
  | _ => none

/-- What follows a time of day, `hour:minute:second` with an optional fraction. A second 60 is
allowed, as leap seconds are. -/
def skipTime (cs : List Char) : Option (List Char) :=
  match fixedDigits? 2 cs with
  | some (hour, ':' :: r) =>
    match fixedDigits? 2 r with
    | some (minute, ':' :: r) =>
      match fixedDigits? 2 r with
      | some (second, r) =>
        if hour ≤ 23 ∧ minute ≤ 59 ∧ second ≤ 60 then
          match r with
          | '.' :: d :: r' =>
            if Text.isDigit d then some (r'.dropWhile Text.isDigit) else some r
          | _ => some r
        else none
      | none => none
    | _ => none
  | _ => none

/-- What follows the offset of a time, which may be missing. A sign has to be followed by one. -/
def skipOffset (cs : List Char) : Option (List Char) :=
  match cs with
  | c :: r =>
    if c = 'Z' ∨ c = 'z' then some r
    else if c = '+' ∨ c = '-' then
      match fixedDigits? 2 r with
      | some (hours, ':' :: r') =>
        match fixedDigits? 2 r' with
        | some (minutes, rest) => if hours ≤ 23 ∧ minutes ≤ 59 then some rest else none
        | none => none
      | _ => none
    else some cs
  | [] => some []

/-- What follows a date: a time may come after `T` or one space. -/
def skipTimeOfDate (cs : List Char) : Option (List Char) :=
  match cs with
  | c :: r =>
    if c = 'T' ∨ c = 't' ∨ c = ' ' then
      match skipTime r with
      | some rest => skipOffset rest
      | none => some cs
    else some cs
  | [] => some []

/-- A date, a time of day, both, or a number: four digits and a dash begin a date, and two digits
and a colon a time. -/
def readNumberOrMoment (cs : List Char) : Option (Value × List Char) :=
  match fixedDigits? 4 cs with
  | some (year, '-' :: r) =>
    match skipMonthDay year r with
    | some rest =>
      match skipTimeOfDate rest with
      | some rest => some (.moment, rest)
      | none => none
    | none => none
  | _ =>
    match fixedDigits? 2 cs with
    | some (_, ':' :: _) =>
      match skipTime cs with
      | some rest => some (.moment, rest)
      | none => none
    | _ => readNumber cs

end Gamewire.Toml
