import Layad.Config

namespace Layad

/-!
# Socket addresses

`SocketAddr::from_str`: the parser of the standard library, which reads from the front of the
text and fails if something is left over.  An IPv4 octet has no leading zero; an IPv6 address
may leave out one run of zero groups and end in an IPv4 address.
-/

namespace SocketAddr

/-- A value read from the front, and the rest. -/
abbrev Read (α : Type) := List Char → Option (α × List Char)

/-- `char::to_digit`. -/
def toDigit (radix : Nat) (c : Char) : Option Nat :=
  let n :=
    if '0' ≤ c ∧ c ≤ '9' then c.toNat - '0'.toNat
    else if 'a' ≤ c ∧ c ≤ 'z' then c.toNat - 'a'.toNat + 10
    else if 'A' ≤ c ∧ c ≤ 'Z' then c.toNat - 'A'.toNat + 10
    else radix
  if n < radix then some n else none

/-- The value of digits. -/
def ofDigits (radix : Nat) (digits : List Char) : Nat :=
  digits.foldl (fun n c => n * radix + (toDigit radix c).getD 0) 0

/-- A number below `limit`, of at most `maxDigits` digits. -/
def readNumber (radix : Nat) (maxDigits : Option Nat) (allowZeroPrefix : Bool) (limit : Nat) :
    Read Nat := fun input =>
  let digits := input.takeWhile fun c => (toDigit radix c).isSome
  if digits.isEmpty || maxDigits.any (· < digits.length) then none
  else if !allowZeroPrefix && input.head? == some '0' && decide (1 < digits.length) then none
  else if ofDigits radix digits < limit then
    some (ofDigits radix digits, input.drop digits.length)
  else none

/-- `read_given_char`. -/
def readGivenChar (target : Char) : List Char → Option (List Char)
  | c :: rest => if c = target then some rest else none
  | [] => none

/-- The separator stands before every element but the first. -/
def readSeparator {α : Type} (sep : Char) (index : Nat) (inner : Read α) : Read α := fun input =>
  if 0 < index then (readGivenChar sep input).bind inner else inner input

/-- `read_ipv4_addr`. -/
def readIpv4Addr : Read (UInt8 × UInt8 × UInt8 × UInt8) := fun input => do
  let octet := readNumber 10 (some 3) false (2 ^ 8)
  let (a, input) ← readSeparator '.' 0 octet input
  let (b, input) ← readSeparator '.' 1 octet input
  let (c, input) ← readSeparator '.' 2 octet input
  let (d, input) ← readSeparator '.' 3 octet input
  some ((.ofNat a, .ofNat b, .ofNat c, .ofNat d), input)

/-- Up to so many groups, the next one at `index`; whether they end in an IPv4 address. -/
def readGroups : Nat → Nat → List Char → List UInt16 × Bool × List Char
  | 0, _, input => ([], false, input)
  | left + 1, index, input =>
    -- an IPv4 address takes the place of two groups
    match if 0 < left then readSeparator ':' index readIpv4Addr input else none with
    | some ((a, b, c, d), rest) =>
      ([a.toUInt16 * 256 + b.toUInt16, c.toUInt16 * 256 + d.toUInt16], true, rest)
    | none =>
      match readSeparator ':' index (readNumber 16 (some 4) true (2 ^ 16)) input with
      | none => ([], false, input)
      | some (group, rest) =>
        let (groups, ipv4, rest) := readGroups left (index + 1) rest
        (.ofNat group :: groups, ipv4, rest)

/-- `read_ipv6_addr`. -/
def readIpv6Addr : Read (Vector UInt16 8) := fun input =>
  let (head, headIpv4, rest) := readGroups 8 0 input
  let address := fun groups : List UInt16 => Vector.ofFn fun i : Fin 8 => groups.getD i 0
  if head.length = 8 then some (address head, rest)
  -- an IPv4 part is not allowed before `::`
  else if headIpv4 then none
  else do
    let rest ← readGivenChar ':' rest
    let rest ← readGivenChar ':' rest
    let (tail, _, rest) := readGroups (8 - (head.length + 1)) 0 rest
    some (address (head ++ List.replicate (8 - head.length - tail.length) 0 ++ tail), rest)

/-- `read_port`. -/
def readPort : Read UInt16 := fun input => do
  let input ← readGivenChar ':' input
  let (port, input) ← readNumber 10 none true (2 ^ 16) input
  some (.ofNat port, input)

/-- `read_scope_id`. -/
def readScopeId : Read UInt32 := fun input => do
  let input ← readGivenChar '%' input
  let (scopeId, input) ← readNumber 10 none true (2 ^ 32) input
  some (.ofNat scopeId, input)

/-- `read_socket_addr_v4`. -/
def readSocketAddrV4 : Read SocketAddr := fun input => do
  let ((a, b, c, d), input) ← readIpv4Addr input
  let (port, input) ← readPort input
  some (⟨.v4 a b c d, 0, port⟩, input)

/-- `read_socket_addr_v6`. -/
def readSocketAddrV6 : Read SocketAddr := fun input => do
  let input ← readGivenChar '[' input
  let (segments, input) ← readIpv6Addr input
  let (scopeId, input) := (readScopeId input).getD (0, input)
  let input ← readGivenChar ']' input
  let (port, input) ← readPort input
  some (⟨.v6 segments, scopeId, port⟩, input)

/-- `SocketAddr::from_str`. -/
def fromStr (text : String) : Option SocketAddr :=
  match (readSocketAddrV4 text.toList).orElse fun _ => readSocketAddrV6 text.toList with
  | some (addr, []) => some addr
  | _ => none

end SocketAddr

end Layad
