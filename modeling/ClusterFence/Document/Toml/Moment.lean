namespace ClusterFence.Toml

/-- A number of just this many digits. -/
def fixedDigits? : Nat → Nat → List Char → Option (Nat × List Char)
  | 0, n, cs => some (n, cs)
  | width + 1, n, c :: rest =>
    if c.isDigit then fixedDigits? width (10 * n + (c.toNat - '0'.toNat)) rest else none
  | _ + 1, _, [] => none

/-- A number of two digits, from `lo` to `hi`. -/
def twoDigits? (lo hi : Nat) (cs : List Char) : Option (Nat × List Char) := do
  let (n, rest) ← fixedDigits? 2 0 cs
  if lo ≤ n && n ≤ hi then return (n, rest) else none

/-- Goes on after a character that has to be there. -/
def after? (c : Char) : List Char → Option (List Char)
  | d :: rest => if d == c then some rest else none
  | [] => none

def isLeapYear (year : Nat) : Bool := year % 4 == 0 && (year % 100 != 0 || year % 400 == 0)

/-- The number of days in a month. -/
def daysIn (year month : Nat) : Nat :=
  if month == 2 then if isLeapYear year then 29 else 28
  else if [4, 6, 9, 11].contains month then 30 else 31

/-- What follows a date. -/
def date? (cs : List Char) : Option (List Char) := do
  let (year, cs) ← fixedDigits? 4 0 cs
  let (month, cs) ← twoDigits? 1 12 (← after? '-' cs)
  let (_, cs) ← twoDigits? 1 (daysIn year month) (← after? '-' cs)
  return cs

/-- What follows a fraction of a second, if there is one. -/
def skipFraction : List Char → List Char
  | '.' :: c :: rest => if c.isDigit then rest.dropWhile Char.isDigit else '.' :: c :: rest
  | cs => cs

/-- What follows a time of day. A minute may have a leap second. -/
def time? (cs : List Char) : Option (List Char) := do
  let (_, cs) ← twoDigits? 0 23 cs
  let (_, cs) ← twoDigits? 0 59 (← after? ':' cs)
  let (_, cs) ← twoDigits? 0 60 (← after? ':' cs)
  return skipFraction cs

/-- What follows a distance in hours and minutes. -/
def distance? (cs : List Char) : Option (List Char) := do
  let (_, cs) ← twoDigits? 0 23 cs
  let (_, cs) ← twoDigits? 0 59 (← after? ':' cs)
  return cs

/-- What follows the distance of a time from the world time, if one is given. -/
def skipDistance : List Char → List Char
  | 'Z' :: rest => rest
  | 'z' :: rest => rest
  | '+' :: rest => (distance? rest).getD ('+' :: rest)
  | '-' :: rest => (distance? rest).getD ('-' :: rest)
  | cs => cs

/-- What follows the time of day after a date, if there is one. -/
def skipTimeOfDate : List Char → List Char
  | 'T' :: rest => ((time? rest).map skipDistance).getD ('T' :: rest)
  | 't' :: rest => ((time? rest).map skipDistance).getD ('t' :: rest)
  | ' ' :: rest => ((time? rest).map skipDistance).getD (' ' :: rest)
  | cs => cs

/-- What follows a moment, which is a date, a time of day, or both. Only whether it is well formed
    matters here. -/
def moment? (cs : List Char) : Option (List Char) :=
  match date? cs with
  | some rest => some (skipTimeOfDate rest)
  | none => time? cs

end ClusterFence.Toml
