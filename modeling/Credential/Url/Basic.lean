import Credential.Url.Host

/-!
# URLs

A URL is read as the URL standard says, without a base, and kept in its normal form: scheme and host
in lower case, the default port left out, dot segments resolved, and characters escaped that must
not stand for themselves.
-/

namespace Credential

/-- An absolute URL in normal form. -/
structure Url where
  scheme : String
  username : List Char
  password : List Char
  host : Option Url.Host
  port : Option Nat
  path : List Char
  query : Option (List Char)
  fragment : Option (List Char)
  deriving DecidableEq

namespace Url

/-! ## Schemes -/

/-- Schemes whose URLs have a host, with their default ports. -/
def defaultPorts : List (String × Option Nat) :=
  [("http", some 80), ("https", some 443), ("ws", some 80), ("wss", some 443), ("ftp", some 21),
    ("file", none)]

def isSpecial (scheme : String) : Bool := defaultPorts.any (·.1 == scheme)

def defaultPort (scheme : String) : Option Nat :=
  (defaultPorts.find? (·.1 == scheme)).bind (·.2)

def isSchemeChar (c : Char) : Bool := c.isAlphanum || c == '+' || c == '-' || c == '.'

/-- The scheme, and what follows its colon. -/
def scheme? (cs : List Char) : Option (String × List Char) :=
  let s := cs.takeWhile isSchemeChar
  match s, cs.drop s.length with
  | c :: _, ':' :: rest =>
    if c.isAlpha then some (String.ofList (s.map Char.toLower), rest) else none
  | _, _ => none

/-! ## Escapes by part -/

def inFragment (c : Char) : Bool := " \"<>".toList.contains c || c.toNat == 0x60

def inQuery (special : Bool) (c : Char) : Bool :=
  " \"#<>".toList.contains c || (special && c == '\'')

def inPath (c : Char) : Bool := inFragment c || "#?^\x7b\x7d".toList.contains c

def inUserinfo (c : Char) : Bool := inPath c || "/:;=@[\\]|".toList.contains c

/-! ## Paths -/

def isSlash (special : Bool) (c : Char) : Bool := c == '/' || (special && c == '\\')

/-- A segment in lower case with escaped dots resolved, to compare with dot segments. -/
def dots : List Char → List Char
  | '%' :: '2' :: e :: rest =>
    if e = 'e' || e = 'E' then '.' :: dots rest else '%' :: '2' :: e :: dots rest
  | c :: rest => c :: dots rest
  | [] => []

/-- Resolve dot segments; `done` holds the segments so far in reverse. -/
def resolve : (done : List (List Char)) → List (List Char) → List (List Char)
  | done, [] => done.reverse
  | done, s :: rest =>
    if dots s = ['.', '.'] then
      if rest.isEmpty then ([] :: done.tail).reverse else resolve done.tail rest
    else if dots s = ['.'] then
      if rest.isEmpty then ([] :: done).reverse else resolve done rest
    else resolve (s :: done) rest

/-- The normal form of a path that starts with a slash or, under special schemes, of any path. -/
def normalPath (special : Bool) (cs : List Char) : List Char :=
  let cs := cs.map fun c => if isSlash special c then '/' else c
  let body := match cs with
    | '/' :: rest => rest
    | _ => cs
  if cs.isEmpty && !special then []
  else (resolve [] (Text.pieces '/' body)).flatMap fun s => '/' :: escapeChars inPath s

/-! ## Authorities -/

/-- Cut at the last `@`. -/
def cutLast? (cs : List Char) : Option (List Char × List Char) :=
  (Text.cutFirst? '@' cs.reverse).map fun p => (p.2.reverse, p.1.reverse)

/-- Cut before the port: the host in brackets or up to the first colon, and what follows. -/
def cutPort (cs : List Char) : List Char × Option (List Char) :=
  match cs with
  | '[' :: _ =>
    let inner := cs.takeWhile (· != ']')
    let after := cs.drop inner.length
    match after with
    | ']' :: ':' :: rest => (inner ++ [']'], some rest)
    | ']' :: _ => (inner ++ after, none)
    | _ => (cs, none)
  | _ =>
    match Text.cutFirst? ':' cs with
    | some (h, p) => (h, some p)
    | none => (cs, none)

/-- A port; none when it is not written or is the default. -/
def port? (scheme : String) (cs : List Char) : Option (Option Nat) :=
  if cs.isEmpty then some none
  else if cs.all Char.isDigit then do
    let n ← number? 10 cs
    if n < 65536 then some (if defaultPort scheme = some n then none else some n) else none
  else none

/-- What an authority holds. -/
structure Authority where
  username : List Char
  password : List Char
  host : Option Host
  port : Option Nat

def Authority.parse? (scheme : String) (cs : List Char) : Option Authority := do
  let (credentials, rest) := match cutLast? cs with
    | some (c, r) => (some c, r)
    | none => (none, cs)
  let (username, password) := match credentials with
    | none => ([], [])
    | some c => (Text.cutFirst? ':' c).getD (c, [])
  let (hostText, portText) := cutPort rest
  let port ← port? scheme (portText.getD [])
  let user := escapeChars inUserinfo username
  let pass := escapeChars inUserinfo password
  if hostText.isEmpty then
    if isSpecial scheme || credentials.isSome || portText.isSome then none
    else some ⟨user, pass, some (.text []), port⟩
  else some ⟨user, pass, some (← Host.parse? (isSpecial scheme) hostText), port⟩

/-! ## Reading -/

/-- Without controls and spaces at the ends, and without tabs and line ends. -/
def clean (cs : List Char) : List Char :=
  let hidden (c : Char) : Bool := c.toNat ≤ 0x20
  ((cs.dropWhile hidden).reverse.dropWhile hidden).reverse.filter fun c =>
    c != '\t' && c != '\n' && c != '\r'

/-- Cut off what follows a mark. -/
def cutAt (mark : Char) (cs : List Char) : List Char × Option (List Char) :=
  match Text.cutFirst? mark cs with
  | some (a, b) => (a, some b)
  | none => (cs, none)

/-- What stands between scheme and query. -/
def hierarchy? (scheme : String) (cs : List Char) : Option Url := do
  let special := isSpecial scheme
  let slash := isSlash special
  let noHost : Url := ⟨scheme, [], [], none, none, [], none, none⟩
  let withAuthority (body : List Char) : Option Url := do
    let authority := body.takeWhile fun c => !slash c
    let path := body.drop authority.length
    let a ← Authority.parse? scheme authority
    return { noHost with
      username := a.username, password := a.password, host := a.host, port := a.port
      path := normalPath special path }
  if scheme = "file" then
    match cs with
    | a :: b :: body =>
      if slash a && slash b then
        let hostText := body.takeWhile fun c => !slash c
        let path := normalPath true (body.drop hostText.length)
        if hostText.isEmpty then return { noHost with host := some (.text []), path }
        else
          let h ← Host.parse? true hostText
          let h := if h = .domain "localhost".toList then .text [] else h
          return { noHost with host := some h, path }
      else return { noHost with host := some (.text []), path := normalPath true cs }
    | _ => return { noHost with host := some (.text []), path := normalPath true cs }
  else if special then withAuthority (cs.dropWhile slash)
  else
    match cs with
    | '/' :: '/' :: body => withAuthority body
    | '/' :: _ => return { noHost with path := normalPath false cs }
    | _ => return { noHost with path := escapeChars (fun _ => false) cs }

/-- Read a URL. -/
def parse (s : String) : Option Url := do
  let (scheme, rest) ← scheme? (clean s.toList)
  let (rest, fragment) := cutAt '#' rest
  let (rest, query) := cutAt '?' rest
  let u ← hierarchy? scheme rest
  return { u with
    query := query.map (escapeChars (inQuery (isSpecial scheme)))
    fragment := fragment.map (escapeChars inFragment) }

/-! ## Writing -/

/-- The user part with its `@`, if there is one. -/
def userinfo (u : Url) : List Char :=
  if u.username.isEmpty && u.password.isEmpty then []
  else u.username ++ (if u.password.isEmpty then [] else ':' :: u.password) ++ ['@']

/-- The written form. -/
def write (u : Url) : String :=
  let authority := match u.host with
    | none => []
    | some h =>
      "//".toList ++ u.userinfo ++ h.write ++ match u.port with
        | none => []
        | some p => ':' :: Nat.toDigits 10 p
  let part (mark : Char) : Option (List Char) → List Char
    | none => []
    | some cs => mark :: cs
  String.ofList (u.scheme.toList ++ ':' :: authority ++ u.path ++ part '?' u.query
    ++ part '#' u.fragment)

/-! ## Where keys may come from -/

/-- Is the URL under HTTPS, or under HTTP on the machine itself? -/
def isSecure (u : Url) : Bool :=
  u.scheme == "https" || (u.scheme == "http" && match u.host with
    | some h => h.isLoopback
    | none => false)

end Url

end Credential
