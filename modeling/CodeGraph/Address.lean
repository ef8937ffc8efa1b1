import CodeGraph.Address.Host

/-!
# Addresses

An address begins with a scheme and may name a host: `bolt://localhost:7687`. Before the host there
may be the name of a user and a password, behind it a port number, a path, and more; of all this only
the scheme and the host are kept, but the rest may be faulty. The schemes of the web, and that of
files, have rules of their own.

* `Address`: a scheme and a host;
* `Address.read`: the address that a text spells.
-/

namespace CodeGraph

/-- An address, as far as it is of interest. -/
structure Address where
  /-- The scheme, in lower case. -/
  scheme : List Char
  host? : Option Address.Host
deriving DecidableEq, Repr

namespace Address

open Text

/-- The schemes of the web, whose hosts are domains. -/
def webSchemes : List (List Char) :=
  ["http".toList, "https".toList, "ws".toList, "wss".toList, "ftp".toList]

/-- Whether a character may stand in a scheme. -/
def isSchemeChar (c : Char) : Bool :=
  isAsciiLetter c || isAsciiDigit c || c == '+' || c == '-' || c == '.'

/-- The scheme at the front of a text, in lower case, and the text behind its colon. -/
def scheme? (cs : List Char) : Option (List Char × List Char) :=
  match cs.takeWhile isSchemeChar, cs.dropWhile isSchemeChar with
  | c :: scheme, ':' :: rest =>
    if isAsciiLetter c then some ((c :: scheme).map Char.toLower, rest) else none
  | _, _ => none

/-- Whether a character ends a host in any scheme. -/
def isEnd (c : Char) : Bool :=
  c == '/' || c == '?' || c == '#'

/-- Whether a character is a slash of either direction. -/
def isSlash (c : Char) : Bool :=
  c == '/' || c == '\\'

/-- Whether a character ends a host; in the schemes of the web a backslash does. -/
def endsHost (web : Bool) (c : Char) : Bool :=
  isEnd c || (web && c == '\\')

/-- The host at the front of a text, and the text behind it. A colon ends it outside brackets. -/
def splitHost (web : Bool) : Bool → List Char → List Char × List Char
  | _, [] => ([], [])
  | bracketed, c :: cs =>
    if endsHost web c || (c == ':' && !bracketed) then ([], c :: cs)
    else
      let (host, rest) := splitHost web (if c = '[' then true else bracketed && c != ']') cs
      (c :: host, rest)

/-- Refuses a port number that is too large or goes on with something else. -/
def checkPort (cs : List Char) : Except Fault Unit :=
  let ds := cs.takeWhile isAsciiDigit
  if twoTo 16 ≤ decimal ds then .error .portNumber
  else if ((cs.drop ds.length).head?.all fun c => isEnd c || c == '\\') then .ok ()
  else .error .portNumber

/-- The text before the last `@` of a host part, if it has one, and the text behind it. -/
def splitUser (web : Bool) (cs : List Char) : Option (List Char) × List Char :=
  let part := cs.takeWhile fun c => !endsHost web c
  let host := (part.reverse.takeWhile (· != '@')).reverse
  if host.length < part.length then
    (some (part.take (part.length - host.length - 1)), cs.drop (part.length - host.length))
  else (none, cs)

/-- The host of a text behind the two slashes that announce one. A user without a host, and a port
number without one, are faults. -/
def readHost (web : Bool) (cs : List Char) : Except Fault (Option Host) := do
  let (user, cs) := splitUser web cs
  if user = some [] ∧ cs.head?.any (endsHost web) then throw .emptyHost
  let (text, rest) := splitHost web false cs
  if web && text.isEmpty then throw .emptyHost
  let host ← if web then (Host.ofDomain text).map some else Host.ofOpaque text
  match rest with
  | ':' :: digits =>
    if host.isNone then throw .emptyHost
    checkPort digits
  | _ => pure ()
  if host.isNone && user.any fun u => !u.isEmpty && u != [':'] then throw .emptyHost
  return host

/-- Whether a text is the letter of a drive: a letter and a colon or a bar. -/
def isDrive : List Char → Bool
  | [c, d] => isAsciiLetter c && (d == ':' || d == '|')
  | _ => false

/-- Whether the first component that is left of a path is the letter of a drive, where `depth` counts
the components before it. A point stays where it is, and two points go back. -/
def beginsWithDrive : Nat → List (List Char) → Bool
  | _, [] => false
  | depth, part :: parts =>
    if part = ['.'] then beginsWithDrive depth parts
    else if part = ['.', '.'] then beginsWithDrive (depth - 1) parts
    else (depth == 0 && isDrive part) || beginsWithDrive (depth + 1) parts

/-- The host of the address of a file, behind its scheme. The own host does not count, and neither
does any host if the path begins with a drive. -/
def readFileHost : List Char → Except Fault (Option Host)
  | c :: d :: cs =>
    if isSlash c && isSlash d then
      let text := cs.takeWhile fun c => !endsHost true c
      if text.isEmpty || isDrive text then .ok none
      else do
        let host ← Host.ofDomain text
        let path := (cs.drop (text.length + 1)).takeWhile fun c => c != '?' && c != '#'
        let parts := pieces '/' (path.map fun c => if c = '\\' then '/' else c)
        if host = .name "localhost".toList || beginsWithDrive 0 parts then return none
        else return some host
    else .ok none
  | _ => .ok none

/-- Whether a character is a control character or the space. -/
def isEdge (c : Char) : Bool :=
  c.toNat ≤ 0x20

/-- A text without control characters and spaces at its ends, and without tabs and line breaks. -/
def cleaned (cs : List Char) : List Char :=
  (dropEndWhile isEdge (cs.dropWhile isEdge)).filter fun c => c != '\t' && c != '\n' && c != '\r'

/-- The address that a text spells. -/
def read (cs : List Char) : Except Fault Address :=
  match scheme? (cleaned cs) with
  | none => .error .noScheme
  | some (scheme, rest) =>
    if scheme = "file".toList then (readFileHost rest).map (⟨scheme, ·⟩)
    else if webSchemes.contains scheme then
      (readHost true (rest.dropWhile isSlash)).map (⟨scheme, ·⟩)
    else
      match rest with
      | '/' :: '/' :: rest => (readHost false rest).map (⟨scheme, ·⟩)
      | _ => .ok ⟨scheme, none⟩

end Address

end CodeGraph
