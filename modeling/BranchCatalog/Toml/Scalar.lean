import BranchCatalog.Text.Basic

namespace BranchCatalog.Toml

/-- The characters of the words that stand for values. -/
def isScalarChar (char : Char) : Bool :=
  char.isAlphanum || char == '+' || char == '-' || char == '_' || char == '.' || char == ':'

/-- Digits with single underscores between them, without the underscores. -/
def digitGroups? (isDigit : Char → Bool) (text : Text) : Option Text :=
  let groups := Text.split '_' text
  if groups.all fun group => !group.isEmpty && group.all isDigit then some groups.flatten else none

/-- A sign at the start, and the text after it. -/
def splitSign : Text → Bool × Text
  | '-' :: rest => (true, rest)
  | '+' :: rest => (false, rest)
  | rest => (false, rest)

/-- Decimal digits without a zero before others. -/
def plainDecimal? (text : Text) : Option Text :=
  (digitGroups? Char.isDigit text).filter fun digits =>
    digits.length = 1 || digits.head? != some '0'

def isHexDigit (char : Char) : Bool :=
  char.isDigit || ('a' ≤ char && char ≤ 'f') || ('A' ≤ char && char ≤ 'F')

/-- The value of digits of any base up to sixteen. -/
def valueOf (base : Nat) (digits : Text) : Nat :=
  digits.foldl (fun value digit =>
    let digitValue :=
      if digit.isDigit then digit.toNat - '0'.toNat else digit.toLower.toNat - 'a'.toNat + 10
    value * base + digitValue) 0

/-- The numbers of 63 bits. -/
def largest : Nat :=
  9223372036854775807

/-- Holds for an integer of 64 bits, in decimal or with the mark of another base. -/
def isInteger (text : Text) : Bool :=
  let fits (base : Nat) (digits : Option Text) : Bool :=
    digits.any fun digits => valueOf base digits ≤ largest
  match text with
  | '0' :: 'x' :: digits => fits 16 (digitGroups? isHexDigit digits)
  | '0' :: 'o' :: digits =>
    fits 8 (digitGroups? (fun char => '0' ≤ char && char ≤ '7') digits)
  | '0' :: 'b' :: digits =>
    fits 2 (digitGroups? (fun char => char == '0' || char == '1') digits)
  | _ =>
    let (negative, digits) := splitSign text
    (plainDecimal? digits).any fun digits =>
      valueOf 10 digits ≤ if negative then largest + 1 else largest

/-- A decimal number without its sign: all of its digits, and the power of ten that the last digit
counts. -/
structure Decimal where
  digits : Text
  exponent : Int
  deriving DecidableEq, Repr

/-- Reads the exponent behind the digits of a number; there may be none. -/
def exponent? : Text → Option Int
  | [] => some 0
  | mark :: text =>
    if mark == 'e' || mark == 'E' then
      let (negative, digits) := splitSign text
      (digitGroups? Char.isDigit digits).map fun digits =>
        if negative then -(valueOf 10 digits : Int) else valueOf 10 digits
    else none

/-- Reads a number with a fraction, an exponent or both. -/
def decimal? (text : Text) : Option Decimal := do
  let isPart (char : Char) : Bool := char.isDigit || char == '_'
  let whole := text.takeWhile isPart
  let rest := text.drop whole.length
  let digits ← plainDecimal? whole
  match rest with
  | [] => none
  | '.' :: rest =>
    let fraction := rest.takeWhile isPart
    let places ← digitGroups? Char.isDigit fraction
    let exponent ← exponent? (rest.drop fraction.length)
    return ⟨digits ++ places, exponent - places.length⟩
  | rest => return ⟨digits, ← exponent? rest⟩

/-- Half a step above the largest number of 64 bits with a binary point; from here on numbers are
rounded to infinity. -/
def overflowBound : Nat :=
  Nat.pow 2 1024 - Nat.pow 2 970

/-- Holds for the numbers that are rounded to infinity. The bound has 309 digits, so numbers that have
clearly more or fewer digits before the point are not computed. -/
def Decimal.overflows (decimal : Decimal) : Bool :=
  let value := valueOf 10 decimal.digits
  if value = 0 ∨ decimal.exponent + decimal.digits.length < 309 then false
  else if 309 < decimal.exponent then true
  else if 0 ≤ decimal.exponent then overflowBound ≤ value * Nat.pow 10 decimal.exponent.toNat
  else overflowBound * Nat.pow 10 (-decimal.exponent).toNat ≤ value

/-- Holds for the word of a number with a fraction or an exponent, which must not be rounded to
positive infinity, and for the words of infinity and of no number. -/
def isFloat (text : Text) : Bool :=
  let (negative, unsigned) := splitSign text
  unsigned = "inf".toList || unsigned = "nan".toList ||
    (decimal? unsigned).any fun decimal => negative || !decimal.overflows

/-- Reads a number of exactly so many digits. -/
def fixedDigits? (count : Nat) (text : Text) : Option (Nat × Text) :=
  let digits := text.take count
  if digits.length = count ∧ digits.all Char.isDigit then
    some (valueOf 10 digits, text.drop count)
  else none

def isLeapYear (year : Nat) : Bool :=
  year % 4 == 0 && (year % 100 != 0 || year % 400 == 0)

def daysInMonth (year month : Nat) : Nat :=
  if month = 2 then (if isLeapYear year then 29 else 28)
  else if month = 4 ∨ month = 6 ∨ month = 9 ∨ month = 11 then 30
  else 31

/-- Reads a date: a year, a month and a day that the month has. -/
def date? (text : Text) : Option Text := do
  let (year, text) ← fixedDigits? 4 text
  let text ← Text.dropStart? ['-'] text
  let (month, text) ← fixedDigits? 2 text
  let text ← Text.dropStart? ['-'] text
  let (day, text) ← fixedDigits? 2 text
  if 1 ≤ month ∧ month ≤ 12 ∧ 1 ≤ day ∧ day ≤ daysInMonth year month then some text else none

/-- Reads a time of day: hours, minutes, seconds and perhaps a fraction of a second. -/
def time? (text : Text) : Option Text := do
  let (hour, text) ← fixedDigits? 2 text
  let text ← Text.dropStart? [':'] text
  let (minute, text) ← fixedDigits? 2 text
  let text ← Text.dropStart? [':'] text
  let (second, text) ← fixedDigits? 2 text
  if 23 < hour ∨ 59 < minute ∨ 60 < second then none
  else
    match text with
    | '.' :: rest =>
      let fraction := rest.takeWhile Char.isDigit
      if fraction.isEmpty then none else some (rest.drop fraction.length)
    | _ => some text

/-- Holds for the offset of a time zone, which may be missing. -/
def isOffset (text : Text) : Bool :=
  match text with
  | [] => true
  | ['Z'] => true
  | ['z'] => true
  | sign :: rest =>
    (sign == '+' || sign == '-') &&
      (((fixedDigits? 2 rest).bind fun (hour, rest) =>
        (Text.dropStart? [':'] rest).bind fun rest =>
          (fixedDigits? 2 rest).map fun (minute, rest) =>
            rest.isEmpty && hour ≤ 23 && minute ≤ 59).getD false)

def isDate (text : Text) : Bool :=
  (date? text).any List.isEmpty

/-- Holds for a date, a time, or both with or without an offset. -/
def isDateTime (text : Text) : Bool :=
  match date? text with
  | some [] => true
  | some (mark :: rest) =>
    (mark == 'T' || mark == 't' || mark == ' ') && ((time? rest).map isOffset).getD false
  | none => (time? text).any List.isEmpty

/-- Reads the word of a number, a date or a time; a space may stand between a date and a time. -/
def readScalar? (text : Text) : Option (Text × Text) :=
  let word := text.takeWhile isScalarChar
  let rest := text.drop word.length
  match isDate word, rest with
  | true, ' ' :: digit :: after =>
    if digit.isDigit then
      let time := (digit :: after).takeWhile isScalarChar
      let dateTime := word ++ ' ' :: time
      if isDateTime dateTime then some (dateTime, (digit :: after).drop time.length) else none
    else some (word, rest)
  | _, _ => if isInteger word || isFloat word || isDateTime word then some (word, rest) else none

end BranchCatalog.Toml
