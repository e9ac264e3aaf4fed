import ZeroStack.Wire.Decimal

/-! The timestamps of the collector's records. -/

open Wire

namespace Zero.Gc

abbrev SystemTime := ℤ

def daysInMonth (year : ℤ) (month : ℕ) : Option ℕ :=
  if month ∈ [1, 3, 5, 7, 8, 10, 12] then some 31
  else if month ∈ [4, 6, 9, 11] then some 30
  else if month = 2 then
    if (year.tmod 4 = 0 ∧ year.tmod 100 ≠ 0) ∨ year.tmod 400 = 0 then some 29 else some 28
  else none

def civilToDays (year : ℤ) (month day : ℕ) : ℤ :=
  let y := if month ≤ 2 then year - 1 else year
  let m : ℤ := if month ≤ 2 then month + 12 else month
  let era := (if 0 ≤ y then y else y - 399).tdiv 400
  let yoe := y - era * 400
  let doy := (153 * (m + if 2 < m then -3 else 9) + 2).tdiv 5 + day - 1
  era * 146097 + yoe * 365 + yoe.tdiv 4 - yoe.tdiv 100 + doy - 719468

def civilFromDays (days : ℤ) : ℤ × ℤ × ℤ :=
  let z := days + 719468
  let era := (if 0 ≤ z then z else z - 146096).tdiv 146097
  let doe := z - era * 146097
  let yoe := (doe - doe.tdiv 1460 + doe.tdiv 36524 - doe.tdiv 146096).tdiv 365
  let year := yoe + era * 400
  let doy := doe - (365 * yoe + yoe.tdiv 4 - yoe.tdiv 100)
  let mp := (5 * doy + 2).tdiv 153
  let day := doy - (153 * mp + 2).tdiv 5 + 1
  let month := mp + if mp < 10 then 3 else -9
  (year + if month ≤ 2 then 1 else 0, month, day)

def parseNat (bound : ℕ) (text : List Char) : Option ℕ := (readDecimal bound text).toOption

def parseInt : List Char → Option ℤ
  | '-' :: text => do
    let n ← (readDigits (2 ^ 63 + 1) 0 text).toOption
    if text.isEmpty then none else some (-n)
  | text => (parseNat (2 ^ 63) text).map Int.ofNat

def byteChars (s : String) : List Char := s.toByteArray.data.toList.map fun b => Char.ofNat b.toNat

def textSlice (text : List Char) (start stop : ℕ) : List Char := (text.drop start).take (stop - start)

def parseFraction : List Char → Option (ℕ × List Char)
  | '.' :: frac => do
    let digits := frac.takeWhile Char.isDigit
    if digits.isEmpty then none
    else
      let n ← parseNat (2 ^ 64) (digits.take 9)
      some (n * 10 ^ (9 - min digits.length 9), frac.drop digits.length)
  | rest => some (0, rest)

def parseOffset (rest : List Char) : Option ℤ :=
  if rest = ['Z'] ∨ rest = ['z'] then some 0
  else if rest.length = 6 ∧ (rest.head? = some '+' ∨ rest.head? = some '-') ∧ rest[3]? = some ':' then do
    let oh ← parseInt (textSlice rest 1 3)
    let om ← parseInt (textSlice rest 4 6)
    if 23 < oh ∨ 59 < om then none
    else some ((if rest.head? = some '+' then 1 else -1) * (oh * 3600 + om * 60))
  else none

inductive Panic where
  | charBoundary
  deriving DecidableEq

def isContinuation (c : Char) : Bool := 0x80 ≤ c.toNat && c.toNat < 0xC0

/-- Of the slices only `s[17..19]` can end inside a character: the others have an ASCII byte on each side. -/
def parseRfc3339 (s : String) : Except Panic (Option SystemTime) :=
  let text := byteChars s
  if text.length < 20 ∨ text[4]? ≠ some '-' ∨ text[7]? ≠ some '-' ∨ text[10]? ≠ some 'T' ∨ text[13]? ≠ some ':' ∨
      text[16]? ≠ some ':' then .ok none
  else
    let toMinute := do
      let year ← parseInt (textSlice text 0 4)
      let month ← parseNat (2 ^ 32) (textSlice text 5 7)
      let day ← parseNat (2 ^ 32) (textSlice text 8 10)
      let hour ← parseNat (2 ^ 32) (textSlice text 11 13)
      let minute ← parseNat (2 ^ 32) (textSlice text 14 16)
      some (year, month, day, hour, minute)
    match toMinute with
    | none => .ok none
    | some (year, month, day, hour, minute) =>
      if text[19]?.any isContinuation then .error .charBoundary
      else .ok do
        let second ← parseNat (2 ^ 32) (textSlice text 17 19)
        if month < 1 ∨ 12 < month ∨ 23 < hour ∨ 59 < minute ∨ 60 < second ∨ day = 0 then none
        else
          let days ← daysInMonth year month
          if days < day then none
          else
            let (nanos, rest) ← parseFraction (text.drop 19)
            let offset ← parseOffset rest
            let utc := civilToDays year month day * 86400 + hour * 3600 + minute * 60 + second - offset
            if utc < 0 then none else some (utc * 10 ^ 9 + nanos)

def parsedTime (s : String) : Option SystemTime := (parseRfc3339 s).toOption.join

def padded (width n : ℕ) : String :=
  String.ofList (List.replicate (width - (decimal n).length) '0' ++ decimal n)

def formatSystemTime (t : SystemTime) : String :=
  let seconds := t.toNat / 10 ^ 9
  let (year, month, day) := civilFromDays (seconds / 86400 : ℕ)
  let rem := seconds % 86400
  padded 4 year.toNat ++ "-" ++ padded 2 month.toNat ++ "-" ++ padded 2 day.toNat ++ "T" ++
    padded 2 (rem / 3600) ++ ":" ++ padded 2 (rem % 3600 / 60) ++ ":" ++ padded 2 (rem % 60) ++ "Z"

example : parseRfc3339 (formatSystemTime (1709210096 * 10 ^ 9)) = .ok (some (1709210096 * 10 ^ 9)) ∧
    parseRfc3339 "2024-01-01T00:00:0é" = .error .charBoundary := by decide +kernel

def checkedAdd (t : SystemTime) (seconds : ℕ) : Option SystemTime :=
  if 2 ^ 63 ≤ t / 10 ^ 9 + seconds then none else some (t + seconds * 10 ^ 9)

end Zero.Gc
