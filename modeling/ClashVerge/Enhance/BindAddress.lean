import Mathlib.Data.List.Basic

/-!
# Loopback bind addresses

Whether a text names a loopback address: `localhost`, an address as the standard library parses it,
or an IPv4 address with fewer than four numbers.
-/

namespace ClashVerge.Enhance

/-- The characters `trim` takes off. -/
def isWhitespace (char : Char) : Bool :=
  (9 ≤ char.toNat && char.toNat ≤ 13) ||
    [0x20, 0x85, 0xa0, 0x1680, 0x2028, 0x2029, 0x202f, 0x205f, 0x3000].contains char.toNat ||
    (0x2000 ≤ char.toNat && char.toNat ≤ 0x200a)

def trim (chars : List Char) : List Char :=
  ((chars.dropWhile isWhitespace).reverse.dropWhile isWhitespace).reverse

def digitValue (char : Char) : Option Nat :=
  if '0' ≤ char ∧ char ≤ '9' then some (char.toNat - '0'.toNat)
  else if 'a' ≤ char ∧ char ≤ 'f' then some (char.toNat - 'a'.toNat + 10)
  else if 'A' ≤ char ∧ char ≤ 'F' then some (char.toNat - 'A'.toNat + 10)
  else none

/-- The leading digits in the base, and what follows them. -/
def readDigits (radix : Nat) : List Char → List Nat × List Char
  | [] => ([], [])
  | char :: rest =>
    match digitValue char with
    | some digit =>
      if digit < radix then
        let others := readDigits radix rest
        (digit :: others.1, others.2)
      else ([], char :: rest)
    | none => ([], char :: rest)

def digitsValue (radix : Nat) (digits : List Nat) : Nat :=
  digits.foldl (fun value digit => value * radix + digit) 0

def readNumber (radix maxDigits bound : Nat) (allowZeroPrefix : Bool) (chars : List Char) :
    Option (Nat × List Char) :=
  let (digits, rest) := readDigits radix chars
  if digits = [] ∨ maxDigits < digits.length then none
  else if !allowZeroPrefix && digits.head? = some 0 && 1 < digits.length then none
  else if digitsValue radix digits < bound then some (digitsValue radix digits, rest)
  else none

def readSeparated {Result : Type} (separator : Char) (first : Bool)
    (read : List Char → Option (Result × List Char)) (chars : List Char) :
    Option (Result × List Char) :=
  if first then read chars
  else match chars with
    | char :: rest => if char = separator then read rest else none
    | [] => none

def readOctets : Nat → Bool → List Char → Option (List Nat × List Char)
  | 0, _, chars => some ([], chars)
  | remaining + 1, first, chars => do
    let (octet, rest) ← readSeparated '.' first (readNumber 10 3 256 false) chars
    let (octets, rest) ← readOctets remaining false rest
    some (octet :: octets, rest)

def readIpv4 (chars : List Char) : Option (List Nat × List Char) := readOctets 4 true chars

/-- Groups of an IPv6 address, and whether they end with an IPv4 address. -/
def readGroups : Nat → Bool → List Char → List Nat × Bool × List Char
  | 0, _, chars => ([], false, chars)
  | remaining + 1, first, chars =>
    match if 0 < remaining then readSeparated ':' first readIpv4 chars else none with
    | some ([a, b, c, d], rest) => ([a * 256 + b, c * 256 + d], true, rest)
    | _ =>
      match readSeparated ':' first (readNumber 16 4 65536 true) chars with
      | some (group, rest) =>
        let (groups, embedded, left) := readGroups remaining false rest
        (group :: groups, embedded, left)
      | none => ([], false, chars)

def readIpv6 (chars : List Char) : Option (List Nat × List Char) :=
  match readGroups 8 true chars with
  | (head, embedded, rest) =>
    if head.length = 8 then some (head, rest)
    else if embedded then none
    else match rest with
      | ':' :: ':' :: rest =>
        let (tail, _, left) := readGroups (8 - (head.length + 1)) true rest
        some (head ++ List.replicate (8 - head.length - tail.length) 0 ++ tail, left)
      | _ => none

/-- `parse::<IpAddr>` succeeds with a loopback address. -/
def parsesAsLoopback (chars : List Char) : Bool :=
  match readIpv4 chars with
  | some (octets, rest) => rest.isEmpty && octets.head? = some 127
  | none =>
    match readIpv6 chars with
    | some (groups, rest) => rest.isEmpty && groups = [0, 0, 0, 0, 0, 0, 0, 1]
    | none => false

/-- `parse::<u32>`, which accepts a plus sign. -/
def parseU32 (chars : List Char) : Option Nat :=
  let digits := if chars.head? = some '+' then chars.tail else chars
  match readNumber 10 digits.length UInt32.size true digits with
  | some (value, rest) => if rest.isEmpty then some value else none
  | none => none

def isIpv4ShorthandLoopback (chars : List Char) : Bool :=
  match (chars.splitOn '.').mapM parseU32 with
  | some [first, rest] => first == 127 && rest ≤ 0x00ffffff
  | some [first, second, rest] => first == 127 && second ≤ 0xff && rest ≤ 0xffff
  | some [first, second, third, fourth] =>
    first == 127 && second ≤ 0xff && third ≤ 0xff && fourth ≤ 0xff
  | _ => false

/-- Take off a pair of square brackets. -/
def stripBrackets (chars : List Char) : List Char :=
  match chars with
  | '[' :: rest => if rest.getLast? = some ']' then rest.dropLast else chars
  | _ => chars

def isLoopbackBindAddress (address : String) : Bool :=
  let chars := stripBrackets (trim address.toList)
  chars.map Char.toLower == "localhost".toList || parsesAsLoopback chars ||
    isIpv4ShorthandLoopback chars

example : isLoopbackBindAddress " [::1] " = true := by decide
example : isLoopbackBindAddress "127.1" = true := by decide
example : isLoopbackBindAddress "::ffff:127.0.0.1" = false := by decide

end ClashVerge.Enhance
