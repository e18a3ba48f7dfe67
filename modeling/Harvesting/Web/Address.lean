import Harvesting.Web.Form
import Harvesting.Web.Host

/-!
# Addresses

URLs as the URL standard reads and writes them.

* `Address` — scheme, credentials, host, port, path, query and fragment;
* `Address.parse` — the address of a text; `Address.text` — the text of an address;
* `Address.withPairs` — the address with pairs added to its query.

Blanks and controls at the ends of the text and tabs and line ends inside it are passed over. The
schemes `http`, `https`, `ws`, `wss`, `ftp` and `file` are special: backslashes are slashes, the host
is a name or an address of the internet, and the usual port is left out.
-/

namespace Harvesting

/-- The path of an address. -/
inductive AddressPath where
  /-- Segments, each after a slash. -/
  | segments (names : List String)
  /-- Anything else. -/
  | opaque_ (text : String)
  deriving Repr, DecidableEq

/-- A URL. -/
structure Address where
  scheme : String
  username : String
  password : String
  host : Option Host
  port : Option Nat
  path : AddressPath
  query : Option String
  fragment : Option String
  deriving Repr, DecidableEq

namespace Address

/-! ### Schemes -/

def usualPort? : String → Option Nat
  | "http" | "ws" => some 80
  | "https" | "wss" => some 443
  | "ftp" => some 21
  | _ => none

def isSpecial (scheme : String) : Bool := scheme = "file" || (usualPort? scheme).isSome

/-- A character of a scheme after its first letter. -/
def isSchemeChar (c : Char) : Bool := c.isAlphanum || c = '+' || c = '-' || c = '.'

/-- The scheme in lower case and what follows its colon. -/
def scheme? (cs : List Char) : Option (String × List Char) :=
  match cs with
  | [] => none
  | c :: _ =>
    let name := cs.takeWhile isSchemeChar
    match cs.drop name.length with
    | ':' :: r => if c.isAlpha then some (String.ofList (name.map Char.toLower), r) else none
    | _ => none

/-! ### Parts -/

/-- Ends the part before the path. -/
def endsAuthority (special : Bool) (c : Char) : Bool :=
  c = '/' || c = '?' || c = '#' || (special && c = '\\')

/-- Separates the segments of a path. -/
def isSlash (special : Bool) (c : Char) : Bool := c = '/' || (special && c = '\\')

/-- Name and password before the last at sign, percent-encoded. -/
def credentials (cs : List Char) : String × String :=
  let enc (s : List Char) : String := String.ofList (Percent.encode Percent.isUserinfo s)
  (enc (cs.takeWhile (· ≠ ':')), enc ((cs.dropWhile (· ≠ ':')).drop 1))

/-- The host's text up to a colon outside brackets, and the rest. -/
def hostText (inside : Bool) : List Char → List Char × List Char
  | [] => ([], [])
  | c :: r =>
    if c = ':' ∧ ¬ inside then ([], c :: r)
    else
      let inside := if c = '[' then true else if c = ']' then false else inside
      let (h, rest) := hostText inside r
      (c :: h, rest)

/-- The number after the colon; none for the usual port and for no digits. -/
def portNumber (scheme : String) (cs : List Char) : Except AddressFault (Option Nat) :=
  if ¬ cs.all Char.isDigit then .error .port
  else if cs = [] then .ok none
  else
    let n := Text.Decimal.numeral cs
    if 65535 < n then .error .port
    else .ok (if usualPort? scheme = some n then none else some n)

/-- Credentials, host and port. -/
structure Authority where
  username : String
  password : String
  host : Host
  port : Option Nat

/-- The part between the slashes and the path. -/
def authority (scheme : String) (cs : List Char) : Except AddressFault Authority := do
  let special := isSpecial scheme
  let afterAt := (cs.reverse.takeWhile (· ≠ '@')).reverse
  let hasAt := afterAt.length < cs.length
  let userinfo := cs.take (cs.length - afterAt.length - 1)
  if hasAt ∧ userinfo = [] ∧ afterAt = [] then .error .emptyHost
  let (user, password) := credentials userinfo
  let (h, rest) := hostText false afterAt
  if special ∧ h = [] then .error .emptyHost
  let host ← if special then Host.parse h else Host.parseOpaque h
  let hasPort := rest ≠ []
  if h = [] ∧ (hasPort ∨ user ≠ "" ∨ password ≠ "") then .error .emptyHost
  let p ← portNumber scheme (rest.drop 1)
  return ⟨user, password, host, p⟩

/-- A segment that stands for the folder itself. -/
def isSingleDot (s : String) : Bool := s = "." || s.toLower = "%2e"

/-- A segment that stands for the folder above. -/
def isDoubleDot (s : String) : Bool := [ "..", ".%2e", "%2e.", "%2e%2e" ].contains s.toLower

def splitSlashes (special : Bool) : List Char → List (List Char)
  | [] => [[]]
  | c :: r =>
    if isSlash special c then [] :: splitSlashes special r
    else match splitSlashes special r with
      | p :: ps => (c :: p) :: ps
      | [] => [[c]]

/-- The segments of a path, with the dots resolved; a dot at the end leaves an empty segment. -/
def resolve (done : List String) : List String → List String
  | [] => done
  | s :: r =>
    let isLast := r.isEmpty
    if isDoubleDot s then
      resolve (if isLast then done.dropLast ++ [""] else done.dropLast) r
    else if isSingleDot s then resolve (if isLast then done ++ [""] else done) r
    else resolve (done ++ [s]) r

/-- The segments of the text of a path, without the slash that it starts with. -/
def segments (special : Bool) (cs : List Char) : List String :=
  resolve [] ((splitSlashes special cs).map fun s => String.ofList (Percent.encode Percent.isPath s))

/-- Query and fragment at the end of a text. -/
def tail (special : Bool) (cs : List Char) : Option String × Option String :=
  let before := cs.takeWhile (· ≠ '#')
  let fragment := match cs.drop before.length with
    | [] => none
    | _ :: r => some (String.ofList (Percent.encode Percent.isFragment r))
  match before with
  | '?' :: q => (some (String.ofList (Percent.encode (Percent.isQuery special) q)), fragment)
  | _ => (none, fragment)

/-- The text up to the query or fragment, and the rest. -/
def splitTail (cs : List Char) : List Char × List Char :=
  (cs.takeWhile fun c => c ≠ '?' && c ≠ '#', cs.dropWhile fun c => c ≠ '?' && c ≠ '#')

/-- The path after the authority. Special addresses have one in any case. -/
def pathAfterHost (special : Bool) (cs : List Char) : AddressPath :=
  match cs with
  | [] => if special then .segments [""] else .segments []
  | c :: r => if isSlash special c then .segments (segments special r) else .segments (segments special cs)

/-! ### Whole addresses -/

def withAuthority (scheme : String) (cs : List Char) : Except AddressFault Address := do
  let special := isSpecial scheme
  let before := cs.takeWhile fun c => !endsAuthority special c
  let a ← authority scheme before
  let (path, rest) := splitTail (cs.drop before.length)
  let (query, fragment) := tail special rest
  return ⟨scheme, a.username, a.password, some a.host, a.port, pathAfterHost special path, query,
    fragment⟩

/-- The address of a file; its host may be absent, and `localhost` is. -/
def ofFile (cs : List Char) : Except AddressFault Address := do
  let build (host : Option Host) (cs : List Char) : Address :=
    let (path, rest) := splitTail cs
    let (query, fragment) := tail true rest
    ⟨"file", "", "", host, none, pathAfterHost true path, query, fragment⟩
  match cs with
  | a :: b :: r =>
    if isSlash true a ∧ isSlash true b then
      let h := r.takeWhile fun c => !endsAuthority true c
      let rest := r.drop h.length
      if h = [] then return build none rest
      match ← Host.parse h with
      | .name "localhost" => return build none rest
      | host => return build (some host) rest
    else return build none (a :: b :: r)
  | cs => return build none cs

/-- The address of a text without special scheme and slashes. -/
def ofPath (scheme : String) (cs : List Char) : Address :=
  let (path, rest) := splitTail cs
  let (query, fragment) := tail false rest
  let path := match path with
    | '/' :: r => .segments (segments false r)
    | p => .opaque_ (String.ofList (Percent.encode Percent.isControl p))
  ⟨scheme, "", "", none, none, path, query, fragment⟩

/-- Blanks and controls at the ends of a text. -/
def isEdge (c : Char) : Bool := c.toNat ≤ 32

/-- The characters of a text that count. -/
def cleaned (s : String) : List Char :=
  let cs := ((s.toList.dropWhile isEdge).reverse.dropWhile isEdge).reverse
  cs.filter fun c => c ≠ '\t' && c ≠ '\n' && c ≠ '\r'

def parse (s : String) : Except AddressFault Address :=
  match scheme? (cleaned s) with
  | none => .error .relative
  | some (scheme, rest) =>
    if scheme = "file" then ofFile rest
    else if isSpecial scheme then withAuthority scheme (rest.dropWhile (isSlash true))
    else match rest with
      | '/' :: '/' :: r => withAuthority scheme r
      | r => .ok (ofPath scheme r)

def pathText (a : Address) : String :=
  match a.path with
  | .opaque_ t => t
  | .segments names => String.join (names.map ("/" ++ ·))

/-- The host as it stands in the address, if it is not empty. -/
def hostText? (a : Address) : Option String :=
  match a.host with
  | none | some (.name "") => none
  | some h => some h.text

/-- Name and password with the at sign. -/
def credentialsText (a : Address) : String :=
  if a.username = "" ∧ a.password = "" then ""
  else a.username ++ (if a.password = "" then "" else ":" ++ a.password) ++ "@"

def hostAndPort (a : Address) : String :=
  a.hostText?.getD "" ++ (match a.port with
    | some p => ":" ++ toString p
    | none => "")

def target (a : Address) : String :=
  a.pathText ++ (match a.query with
    | some q => "?" ++ q
    | none => "")

def text (a : Address) : String :=
  let slashes := a.host.isSome || isSpecial a.scheme
  let before := if slashes then "//" ++ a.credentialsText ++ a.hostAndPort
    else if a.pathText.startsWith "//" then "/." else ""
  a.scheme ++ ":" ++ before ++ a.target ++
    (match a.fragment with
      | some f => "#" ++ f
      | none => "")

/-- The address without the name and the password of a user. -/
def anonymous (a : Address) : Address := { a with username := "", password := "" }

def withPairs (a : Address) (pairs : List (String × String)) : Address :=
  { a with query := some (String.ofList (Form.append (a.query.getD "").toList pairs)) }

def pairs (a : Address) : List (String × String) := Form.decode (a.query.getD "").toList

end Address

end Harvesting
