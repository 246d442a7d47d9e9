import PropertyWeaver.Toml.Text
import PropertyWeaver.Toml.Value

/-!
# TOML numbers and dates

Integers are 64-bit and signed, in four bases. Floats have to be finite unless they are negative or
spelled as infinity. Dates and times are checked for their ranges.
-/

set_option autoImplicit false

namespace PropertyWeaver.Toml

open Scanner

/-- The optional sign of a number; `true` is minus. -/
def sign : Scanner Bool := do
  match ← perhaps (one fun c => c = '+' || c = '-') with
  | some c => return c = '-'
  | none => return false

/-- Digits of a base, with single underscores between them. -/
def digits (base : Nat) : Scanner (List Char) := do
  let digit := one fun c => (hexDigit? c).any (· < base)
  let further := digit <|> (do char '_'; digit)
  let first ← digit
  return first :: (← many further)

def numberOf (base : Nat) (digits : List Char) : Nat :=
  digits.foldl (fun n c => base * n + (hexDigit? c).getD 0) 0

/-- Decimal digits of an integer part: no zero in front of another digit. -/
def wholeDigits : Scanner (List Char) := do
  match (← rest).head? with
  | some '0' => return [← one (· = '0')]
  | _ => digits 10

/-- Refuses integers outside the signed 64-bit range. -/
def bounded (n : Int) : Scanner Value :=
  if -0x8000000000000000 ≤ n ∧ n ≤ 0x7FFFFFFFFFFFFFFF then return .integer n else failure

/-- An integer with a base mark. It has no sign. -/
def markedInteger : Scanner Value := do
  char '0'
  let mark ← one fun c => c = 'x' || c = 'o' || c = 'b'
  let base := match mark with
    | 'x' => 16
    | 'o' => 8
    | _ => 2
  bounded (numberOf base (← digits base))

def decimalInteger : Scanner Value := do
  let negative ← sign
  let n := numberOf 10 (← wholeDigits)
  bounded (if negative then -(n : Int) else n)

/-- Whether `significand * 10 ^ exponent` rounds to an infinite 64-bit float. -/
def overflows (significand : Nat) (exponent : Int) : Bool :=
  let threshold := Nat.pow 2 1024 - Nat.pow 2 970
  if significand = 0 then false
  else if 400 < exponent then true
  else if 0 ≤ exponent then threshold ≤ significand * Nat.pow 10 exponent.toNat
  else
    let shift := (-exponent).toNat
    if (toString significand).length + 1 < shift then false
    else threshold * Nat.pow 10 shift ≤ significand

def exponentPart : Scanner Int := do
  let _ ← one fun c => c = 'e' || c = 'E'
  let negative ← sign
  let n := numberOf 10 (← digits 10)
  return if negative then -(n : Int) else n

def decimalFloat : Scanner Unit := do
  let negative ← sign
  let whole ← wholeDigits
  let fraction ← perhaps (do char '.'; digits 10)
  let exponent ← perhaps exponentPart
  if fraction.isNone && exponent.isNone then
    failure
  let places := fraction.getD []
  let scale := exponent.getD 0 - (places.length : Int)
  if !negative && overflows (numberOf 10 (whole ++ places)) scale then
    failure

def specialFloat : Scanner Unit := do
  let _ ← sign
  literal "inf".toList <|> literal "nan".toList

def float : Scanner Value := do
  return .float (String.ofList (← spelling (decimalFloat <|> specialFloat)))

/-- A number of exactly `width` decimal digits within bounds. -/
def fixedWidth (width low high : Nat) : Scanner Nat := do
  let spelled ← (List.range width).mapM fun _ => one Char.isDigit
  let n := numberOf 10 spelled
  if low ≤ n ∧ n ≤ high then return n else failure

def daysInMonth (year month : Nat) : Nat :=
  if month = 2 then
    if year % 4 = 0 ∧ (year % 100 ≠ 0 ∨ year % 400 = 0) then 29 else 28
  else if month = 4 ∨ month = 6 ∨ month = 9 ∨ month = 11 then 30
  else 31

def date : Scanner Unit := do
  let year ← fixedWidth 4 0 9999
  char '-'
  let month ← fixedWidth 2 1 12
  char '-'
  let day ← fixedWidth 2 1 31
  if daysInMonth year month < day then
    failure

/-- A time of day, with seconds. The second may be a leap second. -/
def time : Scanner Unit := do
  let _ ← fixedWidth 2 0 23
  char ':'
  let _ ← fixedWidth 2 0 59
  char ':'
  let _ ← fixedWidth 2 0 60
  let _ ← perhaps (do char '.'; run1 Char.isDigit)

def offset : Scanner Unit := do
  let c ← one fun c => c = 'Z' || c = 'z' || c = '+' || c = '-'
  if c = '+' || c = '-' then
    let _ ← fixedWidth 2 0 23
    char ':'
    let _ ← fixedWidth 2 0 59

/-- A date, a time, or a date with a time and perhaps an offset. -/
def dateTime : Scanner Value := do
  let timeOfDate : Scanner Unit := do
    let _ ← one fun c => c = 'T' || c = 't' || c = ' '
    time
    let _ ← perhaps offset
  let full : Scanner Unit := do
    date
    let _ ← perhaps timeOfDate
  return .dateTime (String.ofList (← spelling (full <|> time)))

def number : Scanner Value :=
  dateTime <|> float <|> markedInteger <|> decimalInteger

end PropertyWeaver.Toml
