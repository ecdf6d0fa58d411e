import Credential.Text.Form
import Credential.Text.Pieces
import Credential.Url.Punycode

/-!
# Hosts

A host of a URL is a domain, an address of either Internet protocol, or, under schemes without hosts
of their own, any text. Domains are in lower case and ASCII; a domain that ends in a number is an
address, whose parts may be decimal, octal or hexadecimal.
-/

namespace Credential.Url

/-- The part of a URL that names a machine. -/
inductive Host where
  | domain (name : List Char)
  | ipv4 (address : Nat)
  | ipv6 (pieces : List Nat)
  | text (written : List Char)
  deriving DecidableEq

/-! ## Percent escapes -/

/-- An octet as an escape with two upper-case digits. -/
def escapeOctet (b : UInt8) : List Char :=
  let digit (d : Nat) : Char := Char.ofNat (if d < 10 then 48 + d else 55 + d)
  ['%', digit (b.toNat / 16), digit (b.toNat % 16)]

/-- Escape the octets of the characters for which `escaped` holds, and of all outside ASCII. -/
def escapeChars (escaped : Char → Bool) (cs : List Char) : List Char :=
  cs.flatMap fun c =>
    if c.toNat < 0x20 || 0x7E < c.toNat || escaped c then
      (String.utf8EncodeChar c).flatMap escapeOctet
    else [c]

/-! ## Addresses of four octets -/

/-- The value of digits in a base, if they all are digits. -/
def number? (base : Nat) (cs : List Char) : Option Nat :=
  cs.foldlM (fun n c => do
    let d ← Bytes.hexValue c
    if d < base then some (n * base + d) else none) 0

/-- One part of an address. -/
def addressPart? : List Char → Option Nat
  | [] => none
  | '0' :: x :: rest =>
    if x = 'x' || x = 'X' then number? 16 rest else number? 8 (x :: rest)
  | cs => number? 10 cs

/-- The address of its parts: all but the last are octets, the last fills the rest. -/
def joinParts? : (room : Nat) → List Nat → Option Nat
  | _, [] => none
  | room, [n] => if n < Nat.pow 256 room then some n else none
  | 0, _ => none
  | room + 1, n :: rest =>
    if n < 256 then (joinParts? room rest).map (n * Nat.pow 256 room + ·) else none

/-- The labels of a domain without a last empty one. -/
def labels (cs : List Char) : List (List Char) :=
  let ls := Text.pieces '.' cs
  if ls.length > 1 && ls.getLast? == some [] then ls.dropLast else ls

/-- Does the domain end in a number? -/
def endsInNumber (cs : List Char) : Bool :=
  match (labels cs).getLast? with
  | none | some [] => false
  | some l => l.all Char.isDigit || (l.length > 1 && (addressPart? l).isSome)

def ipv4? (cs : List Char) : Option Nat := do
  let ps ← (labels cs).mapM addressPart?
  if ps.length ≤ 4 then joinParts? 4 ps else none

/-! ## Addresses of eight pieces -/

/-- Four octets in plain decimal as two pieces. -/
def dotted? (cs : List Char) : Option (List Nat) := do
  let ps ← (Text.pieces '.' cs).mapM fun p =>
    if p.isEmpty || (p.length > 1 && p.head? == some '0') then none
    else do
      let n ← number? 10 p
      if n < 256 then some n else none
  match ps with
  | [a, b, c, d] => some [a * 256 + b, c * 256 + d]
  | _ => none

/-- A group of one to four hexadecimal digits. -/
def group? (cs : List Char) : Option (List Nat) :=
  if cs.isEmpty || 4 < cs.length then none else (number? 16 cs).map fun n => [n]

/-- The pieces of groups between colons; the last group may be dotted where `last` says so. -/
def groups? (last : Bool) (cs : List Char) : Option (List Nat) :=
  if cs.isEmpty then some []
  else
    let gs := Text.pieces ':' cs
    match gs.getLast? with
    | none => none
    | some g => do
      let front ← gs.dropLast.mapM group?
      let back ← if last && g.contains '.' then dotted? g else group? g
      return front.flatten ++ back

/-- Cut at the first pair of colons. -/
def cutPair? : List Char → Option (List Char × List Char)
  | [] => none
  | ':' :: ':' :: rest => some ([], rest)
  | c :: rest => (cutPair? rest).map fun p => (c :: p.1, p.2)

def ipv6? (cs : List Char) : Option (List Nat) :=
  match cutPair? cs with
  | none => do
    let ps ← groups? true cs
    if ps.length = 8 then some ps else none
  | some (a, b) => do
    let front ← groups? false a
    let back ← groups? true b
    let n := front.length + back.length
    if n ≤ 7 then some (front ++ List.replicate (8 - n) 0 ++ back) else none

/-! ## Reading -/

/-- Characters that no host may hold. -/
def forbidden (c : Char) : Bool := "\x00\t\n\r #/:<>?@[\\]^|".toList.contains c

/-- Characters that no domain may hold. -/
def forbiddenInDomain (c : Char) : Bool :=
  forbidden c || c.toNat < 0x20 || c == '%' || c.toNat == 0x7F

/-- A label in lower case and ASCII. -/
def asciiLabel (l : List Char) : List Char :=
  let l := l.map Char.toLower
  if l.all fun c => c.toNat < 128 then l else "xn--".toList ++ Punycode.encode l

/-- A host under a scheme that has hosts. -/
def Host.ofSpecial? (cs : List Char) : Option Host := do
  let decoded ← Utf8.decode (Form.percentDecode (Utf8.encode (String.ofList cs)))
  let name := Text.join '.' ((Text.pieces '.' decoded.toList).map asciiLabel)
  if name.isEmpty || name.any forbiddenInDomain then none
  else if endsInNumber name then (ipv4? name).map .ipv4
  else some (.domain name)

/-- A host; brackets hold an address of eight pieces. -/
def Host.parse? (special : Bool) (cs : List Char) : Option Host :=
  match cs with
  | '[' :: rest =>
    if rest.getLast? = some ']' then (ipv6? rest.dropLast).map .ipv6 else none
  | _ =>
    if special then Host.ofSpecial? cs
    else if cs.any forbidden then none
    else some (.text (escapeChars (fun _ => false) cs))

/-! ## Writing -/

/-- Start and length of the first longest run of zeros, with at least two. -/
def longestZeros (ps : List Nat) : Option (Nat × Nat) :=
  let run (i : Nat) := ((ps.drop i).takeWhile (· == 0)).length
  (List.range ps.length).foldl (fun best i =>
    if 2 ≤ run i && (match best with | none => true | some b => b.2 < run i) then some (i, run i)
    else best) none

def hexPieces (ps : List Nat) : List Char := Text.join ':' (ps.map fun n => Nat.toDigits 16 n)

def writeIpv6 (ps : List Nat) : List Char :=
  match longestZeros ps with
  | none => hexPieces ps
  | some (i, n) => hexPieces (ps.take i) ++ [':', ':'] ++ hexPieces (ps.drop (i + n))

def writeIpv4 (n : Nat) : List Char :=
  Text.join '.' ((Bytes.ofNat 4 n).map fun b => Nat.toDigits 10 b.toNat)

def Host.write : Host → List Char
  | .domain n => n
  | .ipv4 a => writeIpv4 a
  | .ipv6 ps => '[' :: writeIpv6 ps ++ [']']
  | .text t => t

/-- Does the host name the machine itself? -/
def Host.isLoopback : Host → Bool
  | .domain n => n == "localhost".toList
  | .ipv4 a => a / Nat.pow 256 3 == 127
  | .ipv6 ps => ps == [0, 0, 0, 0, 0, 0, 0, 1]
  | .text _ => false

end Credential.Url
