import Guillotine.Calendar.Timestamp

/-! Reading points in time. A date, a separator, a time of day and the difference to universal time
are required; minutes, seconds and decimal places are not, nor are the separators within the date,
the time and the difference, if all of them are left out. Annotations in brackets may follow; they
say nothing about the point in time. -/
namespace Guillotine

namespace Timestamp

/-- A reader of characters: what it found, and the characters after it. -/
abbrev Reader (α : Type) := List Char → Option (α × List Char)

/-! ### Numbers -/

/-- Exactly `count` decimal digits. -/
def readDigits (count : Nat) : Reader Nat := fun cs =>
  let ds := cs.take count
  if ds.length = count ∧ ds.all Char.isDigit then
    some (ds.foldl (fun n d => 10 * n + (d.toNat - '0'.toNat)) 0, cs.drop count)
  else none

/-- Exactly `count` decimal digits of a number between two bounds. -/
def readBounded (count low high : Nat) : Reader Nat := fun cs => do
  let (n, cs) ← readDigits count cs
  if low ≤ n ∧ n ≤ high then some (n, cs) else none

/-- A part that is marked by a separator where separators are used, and by two digits else. -/
def readNext (separated : Bool) (separator : Char) (high : Nat) : Reader (Option Nat) := fun cs =>
  match separated, cs with
  | true, c :: rest =>
    if c = separator then (readBounded 2 0 high rest).map fun (n, cs) => (some n, cs)
    else some (none, cs)
  | true, [] => some (none, [])
  | false, a :: b :: _ =>
    if a.isDigit && b.isDigit then (readBounded 2 0 high cs).map fun (n, cs) => (some n, cs)
    else some (none, cs)
  | false, _ => some (none, cs)

/-- Decimal places of a second in nanoseconds, up to nine of them. -/
def readFraction : Reader Nat := fun cs =>
  match cs with
  | c :: rest =>
    if c = '.' ∨ c = ',' then do
      let places := ((rest.take 9).takeWhile Char.isDigit).length
      if places = 0 then none
      else
        let (n, cs) ← readDigits places rest
        some (n * Nat.pow 10 (9 - places), cs)
    else some (0, cs)
  | [] => some (0, [])

/-! ### Date, time of day, difference -/

/-- Four digits, or a sign and six digits. There is no negative year zero. -/
def readYear : Reader Int := fun cs =>
  match cs with
  | '+' :: rest => (readBounded 6 0 9999 rest).map fun (n, cs) => (n, cs)
  | '-' :: rest => (readBounded 6 1 9999 rest).map fun (n, cs) => (-n, cs)
  | _ => (readDigits 4 cs).map fun (n, cs) => (n, cs)

/-- The separator of a date, if separators are used. -/
def skipDash (separated : Bool) (cs : List Char) : Option (List Char) :=
  match separated, cs with
  | true, '-' :: rest => some rest
  | true, _ => none
  | false, _ => some cs

def readDate : Reader Date := fun cs => do
  let (year, cs) ← readYear cs
  let separated := cs.head? == some '-'
  let (month, cs) ← readBounded 2 1 12 (← skipDash separated cs)
  let (day, cs) ← readBounded 2 1 31 (← skipDash separated cs)
  let d : Date := ⟨year, month, day⟩
  if d.isValid then some (d, cs) else none

/-- A time of day in nanoseconds. The second sixty is the last one of its minute. -/
def readTime : Reader Nat := fun cs => do
  let (hour, cs) ← readBounded 2 0 23 cs
  let separated := cs.head? == some ':'
  let (minute, cs) ← readNext separated ':' 59 cs
  match minute with
  | none => some (hour * 3600 * Duration.nanosPerSecond, cs)
  | some m => do
    let (second, cs) ← readNext separated ':' 60 cs
    match second with
    | none => some ((hour * 3600 + m * 60) * Duration.nanosPerSecond, cs)
    | some s => do
      let (fraction, cs) ← readFraction cs
      some ((hour * 3600 + m * 60 + min s 59) * Duration.nanosPerSecond + fraction, cs)

/-- A difference in seconds without its sign. Decimal places are allowed where seconds are, and are
rounded to the nearest second. -/
def readMagnitude (toSeconds : Bool) : Reader Int := fun cs => do
  let (hours, cs) ← readBounded 2 0 25 cs
  let separated := cs.head? == some ':'
  let (minutes, cs) ← readNext separated ':' 59 cs
  match minutes with
  | none => some ((hours : Int) * 3600, cs)
  | some m => do
    if toSeconds then
      let (seconds, cs) ← readNext separated ':' 59 cs
      match seconds with
      | none => some ((hours : Int) * 3600 + m * 60, cs)
      | some s => do
        let (fraction, cs) ← readFraction cs
        let n : Int := hours * 3600 + m * 60 + s + (if 500000000 ≤ fraction then 1 else 0)
        if n ≤ greatestOffset then some (n, cs) else none
    else if cs.head? = some ':' then none
    else some ((hours : Int) * 3600 + m * 60, cs)

/-- The difference of a time zone to universal time in seconds. -/
def readOffset : Reader Int := fun cs =>
  match cs with
  | 'Z' :: rest => some (0, rest)
  | 'z' :: rest => some (0, rest)
  | '+' :: rest => readMagnitude true rest
  | '-' :: rest => (readMagnitude true rest).map fun (n, cs) => (-n, cs)
  | _ => none

/-! ### Annotations -/

/-- One character of a class, then any number of another one. -/
def skipWord (first next : Char → Bool) (cs : List Char) : Option (List Char) :=
  match cs with
  | c :: rest => if first c then some (rest.dropWhile next) else none
  | [] => none

def skipChar (c : Char) (cs : List Char) : Option (List Char) :=
  skipWord (· == c) (fun _ => false) cs

/-- Words with a separator between them. -/
def skipWords (first next : Char → Bool) (separator : Char) :
    (fuel : Nat) → List Char → Option (List Char)
  | 0, _ => none
  | fuel + 1, cs => do
    let cs ← skipWord first next cs
    match cs with
    | c :: rest => if c = separator then skipWords first next separator fuel rest else some cs
    | [] => some []

/-- The inside of an annotation that names a time zone, up to the closing bracket. -/
def skipZone (cs : List Char) : Option (List Char) :=
  match cs with
  | '+' :: rest => (readMagnitude false rest).map Prod.snd
  | '-' :: rest => (readMagnitude false rest).map Prod.snd
  | _ =>
    let first := fun (c : Char) => c.isAlpha || c == '_' || c == '.'
    let next := fun (c : Char) => first c || c.isDigit || c == '+' || c == '-'
    skipWords first next '/' (cs.length + 1) cs

/-- The inside of an annotation with a key and a value, up to the closing bracket. -/
def skipKeyed (cs : List Char) : Option (List Char) := do
  let first := fun (c : Char) => c.isLower || c == '_'
  let next := fun (c : Char) => first c || c.isDigit || c == '-'
  let cs ← skipChar '=' (← skipWord first next cs)
  skipWords Char.isAlphanum Char.isAlphanum '-' (cs.length + 1) cs

/-- Annotations to the end of the text. Only the first one may name a time zone, and only such a
one may be marked as critical. -/
def skipAnnotations : (fuel : Nat) → (atFirst : Bool) → List Char → Option (List Char)
  | 0, _, _ => none
  | fuel + 1, atFirst, cs =>
    match cs with
    | '[' :: rest =>
      let critical := rest.head? == some '!'
      let inside := if critical then rest.drop 1 else rest
      let zone := if atFirst then (skipZone inside).bind (skipChar ']') else none
      let keyed := if critical then none else (skipKeyed inside).bind (skipChar ']')
      (zone.or keyed).bind (skipAnnotations fuel false)
    | _ => some cs

/-! ### Points in time -/

/-- The point in time that a text stands for, if it is within the range. -/
def ofText? (s : String) : Option Timestamp := do
  let (date, cs) ← readDate s.toList
  let cs ← skipWord (fun c => c == 'T' || c == 't' || c == ' ') (fun _ => false) cs
  let (time, cs) ← readTime cs
  let (offset, cs) ← readOffset cs
  if (← skipAnnotations (cs.length + 1) true cs).isEmpty then
    let t : Timestamp :=
      ⟨(date.toDays * 86400 - offset) * nanosPerSecond + time⟩
    if t.inRange then some t else none
  else none

end Timestamp

end Guillotine
