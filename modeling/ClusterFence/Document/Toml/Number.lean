import ClusterFence.Document.Basic
import ClusterFence.Document.Toml.Text

namespace ClusterFence.Toml

/-- Reads one digit in a base of at most sixteen. -/
def digit? (base : Nat) (c : Char) : Option Nat := (hexDigit? c).filter (· < base)

/-- Digits that go on a number. An underscore stands between two digits. -/
def moreDigits? (base : Nat) : List Char → Option (List Nat × List Char)
  | '_' :: c :: rest => do
    let d ← digit? base c
    let (ds, rest) ← moreDigits? base rest
    return (d :: ds, rest)
  | ['_'] => none
  | c :: rest =>
    match digit? base c with
    | some d => do
      let (ds, rest) ← moreDigits? base rest
      return (d :: ds, rest)
    | none => some ([], c :: rest)
  | [] => some ([], [])

/-- At least one digit. -/
def digits? (base : Nat) : List Char → Option (List Nat × List Char)
  | c :: rest => do
    let d ← digit? base c
    let (ds, rest) ← moreDigits? base rest
    return (d :: ds, rest)
  | [] => none

/-- A number in base ten does not start with a zero, unless it is zero. -/
def plainDigits? : List Char → Option (List Nat × List Char)
  | '0' :: rest => some ([0], rest)
  | cs => digits? 10 cs

/-- The number that has these digits, the highest one first. -/
def ofDigits (base : Nat) (ds : List Nat) : Nat := ds.foldl (fun n d => base * n + d) 0

/-- A sign, if there is one: whether it is a minus. -/
def sign : List Char → Bool × List Char
  | '+' :: rest => (false, rest)
  | '-' :: rest => (true, rest)
  | cs => (false, cs)

/-- An integer of 64 bits. -/
def integerValue? (n : Int) : Option Document :=
  if Int64.minValue.toInt ≤ n && n ≤ Int64.maxValue.toInt then some (.integer n) else none

/-- Numbers from here on are at least as near to `2 ^ 1024` as to any double, and count as
    infinite. -/
def doubleLimit : Nat := Nat.pow 2 1024 - Nat.pow 2 970

/-- Whether a number with these digits, shifted by a power of ten, is too large for a double. TOML
    leaves open what becomes of such a number; the reader that the daemon uses is assumed to refuse
    a positive one. -/
def overflows (ds : List Nat) (exponent : Int) : Bool :=
  let n := ofDigits 10 ds
  match exponent with
  | .ofNat e => n != 0 && (400 ≤ e || doubleLimit ≤ n * Nat.pow 10 e)
  | .negSucc e => e + 1 < ds.length && doubleLimit * Nat.pow 10 (e + 1) ≤ n

/-- The power of ten after a decimal, which may be left out. -/
def exponent? : List Char → Option (Int × List Char)
  | 'e' :: rest | 'E' :: rest => do
    let (negative, rest) := sign rest
    let (ds, rest) ← digits? 10 rest
    let e : Int := ofDigits 10 ds
    return (if negative then -e else e, rest)
  | cs => some (0, cs)

/-- The digits of a decimal after its point, which may be left out. -/
def fraction? : List Char → Option (List Nat × List Char)
  | '.' :: rest => digits? 10 rest
  | cs => some ([], cs)

/-- A number in base ten, the sign of which is known. A decimal has a point or an exponent; a
    positive one has to fit a double. -/
def signedNumber? (negative : Bool) (cs : List Char) : Option (Document × List Char) := do
  let (ds, rest) ← plainDigits? cs
  match rest with
  | '.' :: _ | 'e' :: _ | 'E' :: _ =>
    let (fraction, rest) ← fraction? rest
    let (exponent, rest) ← exponent? rest
    if !negative && overflows (ds ++ fraction) (exponent - fraction.length) then none
    else return (.decimal, rest)
  | _ =>
    let n : Int := ofDigits 10 ds
    return (← integerValue? (if negative then -n else n), rest)

/-- An integer in another base. -/
def integerInBase? (base : Nat) (cs : List Char) : Option (Document × List Char) := do
  let (ds, rest) ← digits? base cs
  return (← integerValue? (ofDigits base ds), rest)

/-- A number, be it infinite or none at all. -/
def number? : List Char → Option (Document × List Char)
  | '0' :: 'x' :: rest => integerInBase? 16 rest
  | '0' :: 'o' :: rest => integerInBase? 8 rest
  | '0' :: 'b' :: rest => integerInBase? 2 rest
  | cs =>
    match sign cs with
    | (_, 'i' :: 'n' :: 'f' :: rest) | (_, 'n' :: 'a' :: 'n' :: rest) => some (.decimal, rest)
    | (negative, cs) => signedNumber? negative cs

end ClusterFence.Toml
