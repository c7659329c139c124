import TagLayers.Toml.Node
import TagLayers.Toml.Strings

/-!
# Values of TOML without parts

Numbers, truth values, dates and times. A whole number must fit into 64 bits with a sign, and a
number with a fraction or an exponent must not be too great for a double. Dates and times must
exist in the calendar and on the clock.

A date or time stands for a table of one row, whose value is its text.
-/

namespace TagLayers.Toml

/-! ## Digits -/

/-- The digits after the first one, which may be kept apart by single underscores. -/
def moreDigits (ok : Char → Bool) : Text → Text × Text
  | '_' :: c :: rest =>
      if ok c then
        let (digits, after) := moreDigits ok rest
        (c :: digits, after)
      else ([], '_' :: c :: rest)
  | c :: rest =>
      if ok c then
        let (digits, after) := moreDigits ok rest
        (c :: digits, after)
      else ([], c :: rest)
  | [] => ([], [])

/-- At least one digit. The underscores between digits are left out. -/
def readDigits (ok : Char → Bool) : Reader Text
  | c :: rest =>
      if ok c then
        let (digits, after) := moreDigits ok rest
        some (c :: digits, after)
      else none
  | [] => none

/-- Decimal digits that do not start with a superfluous zero. -/
def readWhole : Reader Text
  | '0' :: rest => some (['0'], rest)
  | rest => readDigits Char.isDigit rest

/-- A sign, if there is one: whether it is a minus, and the rest. -/
def readSign : Text → Bool × Text
  | '-' :: rest => (true, rest)
  | '+' :: rest => (false, rest)
  | rest => (false, rest)

/-- The number that digits write in a base. -/
def numberOf (base : Nat) (digits : Text) : Nat :=
  digits.foldl (fun n c => base * n + (Text.hexValue? c).getD 0) 0

/-! ## Whole numbers -/

/-- A digit of a base up to sixteen. -/
def isDigitOf (base : Nat) (c : Char) : Bool := (Text.hexValue? c).any (· < base)

/-- A whole number below 2⁶³ in a base. -/
def readBased (base : Nat) (text : Text) : Option (Node × Text) := do
  let (digits, rest) ← readDigits (isDigitOf base) text
  let n := numberOf base digits
  if n < 9223372036854775808 then return (.number n, rest) else none

/-- A whole number: decimal with or without a sign, or in another base with its mark. -/
def readInteger : Reader Node
  | '0' :: 'x' :: rest => readBased 16 rest
  | '0' :: 'o' :: rest => readBased 8 rest
  | '0' :: 'b' :: rest => readBased 2 rest
  | text => do
      let (negative, rest) := readSign text
      let (digits, rest) ← readWhole rest
      let n := numberOf 10 digits
      if negative then
        if n ≤ 9223372036854775808 then return (.number (-Int.ofNat n), rest) else none
      else if n < 9223372036854775808 then return (.number n, rest)
      else none

/-! ## Other numbers -/

/-- The least number that rounds to no finite double, 2¹⁰²⁴ − 2⁹⁷⁰. -/
def tooGreat : Nat := Nat.pow 2 1024 - Nat.pow 2 970

/-- Digits with a power of ten are too great for a double. When their first digit stands for 10³⁰⁹
or more they are, and when it stands for less than 10³⁰⁸ they are not. -/
def isTooGreat (digits : Text) (exponent : Int) : Bool :=
  let digits := digits.dropWhile (· == '0')
  let leading := digits.length + exponent
  if digits.isEmpty || leading < 309 then false
  else if 309 < leading then true
  else tooGreat * Nat.pow 10 (-exponent).toNat ≤ numberOf 10 digits * Nat.pow 10 exponent.toNat

/-- A fraction: its digits, none if there is no point. -/
def readFraction : Text → Option (Text × Text)
  | '.' :: rest => readDigits Char.isDigit rest
  | rest => some ([], rest)

/-- An exponent, zero if there is none. -/
def readExponent : Reader Int
  | c :: rest =>
      if c = 'e' ∨ c = 'E' then do
        let (negative, rest) := readSign rest
        let (digits, rest) ← readDigits Char.isDigit rest
        let n := Int.ofNat (numberOf 10 digits)
        return (if negative then -n else n, rest)
      else some (0, c :: rest)
  | [] => some (0, [])

/-- A number with a fraction or an exponent or both. -/
def readDecimal (text : Text) : Option (Node × Text) := do
  let (negative, rest) := readSign text
  let (whole, rest) ← readWhole rest
  let (fraction, rest') ← readFraction rest
  let (exponent, rest') ← readExponent rest'
  if rest'.length = rest.length then none
  else if !negative && isTooGreat (whole ++ fraction) (exponent - fraction.length) then none
  else return (.other, rest')

/-- A truth value, an infinity or something that is no number. -/
def readWord (text : Text) : Option (Node × Text) :=
  let unsigned := (readSign text).2
  let word (word : String) (text : Text) : Option (Node × Text) :=
    (past? word.toList text).map (.other, ·)
  (word "true" text).or <| (word "false" text).or <|
    (word "inf" unsigned).or (word "nan" unsigned)

/-! ## Dates and times -/

/-- A number of exactly `count` digits between two bounds. -/
def readField (count least greatest : Nat) (text : Text) : Option (Nat × Text) :=
  let digits := text.take count
  let n := numberOf 10 digits
  if digits.length = count ∧ digits.all Char.isDigit ∧ least ≤ n ∧ n ≤ greatest then
    some (n, text.drop count)
  else none

/-- The number of days of a month. -/
def daysOf (year month : Nat) : Nat :=
  if month = 2 then
    if year % 4 = 0 ∧ (year % 100 ≠ 0 ∨ year % 400 = 0) then 29 else 28
  else if month = 4 ∨ month = 6 ∨ month = 9 ∨ month = 11 then 30
  else 31

/-- What follows a date. -/
def pastDate? (text : Text) : Option Text := do
  let (year, rest) ← readField 4 0 9999 text
  let (month, rest) ← readField 2 1 12 (← past? ['-'] rest)
  let (_, rest) ← readField 2 1 (daysOf year month) (← past? ['-'] rest)
  return rest

/-- What follows a time of the day. A minute may have a second too many. -/
def pastTime? (text : Text) : Option Text := do
  let (_, rest) ← readField 2 0 23 text
  let (_, rest) ← readField 2 0 59 (← past? [':'] rest)
  let (_, rest) ← readField 2 0 60 (← past? [':'] rest)
  match rest with
  | '.' :: c :: after => return if c.isDigit then after.dropWhile Char.isDigit else rest
  | _ => return rest

/-- What follows a distance from the time of the zero meridian. -/
def pastOffset? : Text → Option Text
  | 'Z' :: rest => some rest
  | 'z' :: rest => some rest
  | c :: rest =>
      if c = '+' ∨ c = '-' then do
        let (_, rest) ← readField 2 0 23 rest
        let (_, rest) ← readField 2 0 59 (← past? [':'] rest)
        return rest
      else none
  | [] => none

/-- What follows a time after a date, with or without a distance. -/
def pastTimeOfDate? : Text → Option Text
  | c :: rest =>
      if c = 'T' ∨ c = 't' ∨ c = ' ' then do
        let rest ← pastTime? rest
        return (pastOffset? rest).getD rest
      else none
  | [] => none

/-- What follows a date, a date with a time, or a time. -/
def pastDateTime? (text : Text) : Option Text :=
  match pastDate? text with
  | some rest => some ((pastTimeOfDate? rest).getD rest)
  | none => pastTime? text

/-- The key of the row that a date or time stands for. -/
def dateTimeKey : String := "$__toml_private_datetime"

/-- A date or time. -/
def readDateTime (text : Text) : Option (Node × Text) :=
  (pastDateTime? text).map fun rest =>
    let written := String.ofList (text.take (text.length - rest.length))
    (.table .closed [(dateTimeKey, .text written)], rest)

/-! ## All of them -/

/-- A value without parts. A date starts like a whole number, and so does a number with a
fraction, so whole numbers come last. -/
def readScalar (text : Text) : Option (Node × Text) :=
  ((readString text).map fun (t, rest) => (.text (String.ofList t), rest)).or <|
    (readDateTime text).or <| (readDecimal text).or <| (readWord text).or (readInteger text)

end TagLayers.Toml
