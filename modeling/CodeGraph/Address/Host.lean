import CodeGraph.Address.Punycode
import CodeGraph.Text.EscapeTable
import CodeGraph.Text.Line
import CodeGraph.Text.Number

/-!
# Hosts

The host of an address is a name or a number. In the schemes of the web a name is a domain: it may
spell characters by percent signs and has a normal form, and one whose last label is a number has to
be an IPv4 address. In other schemes a name is taken as it stands. A number in brackets is an IPv6
address in all of them.

* `Host`, and `Fault` for what is wrong with an address;
* `isIPv4`, `isIPv6`: the texts of numbers;
* `Host.ofDomain`, `Host.ofOpaque`: hosts in the schemes of the web and in others;
* `isServerName`: the names that a server may prove to be its own.
-/

namespace CodeGraph.Address

open Text

/-- What is wrong with an address. -/
inductive Fault
  /-- The address does not begin with a scheme. -/
  | noScheme
  /-- There should be a host, but there is none. -/
  | emptyHost
  /-- A domain has a character or a label that no domain has. -/
  | domain
  /-- A name has a character that no name has. -/
  | character
  | ipv4
  | ipv6
  | portNumber
deriving DecidableEq, Repr

/-- What is wrong, in words. -/
def Fault.message : Fault → String
  | .noScheme => "relative URL without a base"
  | .emptyHost => "empty host"
  | .domain => "invalid international domain name"
  | .character => "invalid domain character"
  | .ipv4 => "invalid IPv4 address"
  | .ipv6 => "invalid IPv6 address"
  | .portNumber => "invalid port number"

/-- The host of an address. -/
inductive Host
  | name (cs : List Char)
  | ipv4 (cs : List Char)
  | ipv6 (cs : List Char)
deriving DecidableEq, Repr

/-- The pieces of a text between the occurrences of a character. -/
def pieces (sep : Char) (cs : List Char) : List (List Char) :=
  cs.foldr
    (fun c ps => if c = sep then [] :: ps else (c :: ps.headD []) :: ps.tail)
    [[]]

/-! ### Numbers -/

/-- A number of at most 255 without a zero in front. -/
def isByte (cs : List Char) : Bool :=
  !cs.isEmpty && cs.all isAsciiDigit && (cs.length == 1 || cs.head? != some '0') && decimal cs ≤ 255

/-- The text of an IPv4 address: four numbers with points between them. -/
def isIPv4 (cs : List Char) : Bool :=
  (pieces '.' cs).length == 4 && (pieces '.' cs).all isByte

/-- Whether a text completes an IPv6 address of which `n` groups are known. Two colons stand for the
groups that are not written, once; `short` tells whether they have been seen. -/
def completesIPv6 (n : Nat) (short : Bool) (cs : List Char) : Bool :=
  match cs with
  | [] => short || n == 8
  | c :: cs =>
    if n = 8 then false
    else if c = ':' then !short && completesIPv6 (n + 1) true cs
    else
      let group := ((c :: cs).take 4).takeWhile fun d => (hexDigit? d).isSome
      match _h : (c :: cs).drop group.length with
      | [] => short || n + 1 == 8
      | d :: rest =>
        if d = '.' then
          !group.isEmpty && n ≤ 6 && isIPv4 (c :: cs) && (short || n + 2 == 8)
        else d = ':' && !rest.isEmpty && completesIPv6 (n + 1) short rest
termination_by cs.length
decreasing_by
  · simp
  · have := congrArg List.length _h
    simp only [List.length_drop, List.length_cons] at this ⊢
    omega

/-- The text of an IPv6 address. -/
def isIPv6 : List Char → Bool
  | ':' :: ':' :: cs => completesIPv6 1 true cs
  | ':' :: _ => false
  | cs => 2 ≤ cs.length && completesIPv6 0 false cs

/-- The value of a number in an IPv4 address, where a zero in front announces octal digits, and an
`x` behind it hexadecimal ones. -/
def ipv4Number? : List Char → Option Nat
  | [] => none
  | '0' :: c :: ds =>
    if c = 'x' then (if ds.isEmpty then some 0 else hexadecimal? ds)
    else if (c :: ds).all fun d => isAsciiDigit d && digitValue d < 8 then
      some ((c :: ds).foldl (fun n d => 8 * n + digitValue d) 0)
    else none
  | ds => if ds.all isAsciiDigit then some (decimal ds) else none

/-- The labels of a domain. A point at its end adds none. -/
def labels (cs : List Char) : List (List Char) :=
  match (pieces '.' cs).reverse with
  | [] :: ls@(_ :: _) => ls.reverse
  | ls => ls.reverse

/-- Whether the last label of a domain is a number, so that the domain has to be an IPv4 address. -/
def endsInNumber (cs : List Char) : Bool :=
  (labels cs).getLast?.any fun l =>
    (!l.isEmpty && l.all isAsciiDigit) || (ipv4Number? l).isSome

/-- Whether the numbers of an IPv4 address fit: a byte for each but the last, and the last fills what
is left. -/
def fitIPv4 (numbers : List Nat) : Bool :=
  match numbers.reverse with
  | [] => false
  | last :: front =>
    front.length ≤ 3 && front.all (· ≤ 255) && last < twoTo (32 - 8 * front.length)

/-- Whether a domain that ends in a number is an IPv4 address. -/
def isLooseIPv4 (cs : List Char) : Bool :=
  ((labels cs).mapM ipv4Number?).any fitIPv4

/-! ### Domains -/

/-- The byte that two hexadecimal digits at the front of a text spell. -/
def escapedByte? : List Char → Option UInt8
  | a :: b :: _ => do
    let x ← hexDigit? a
    let y ← hexDigit? b
    return UInt8.ofNat (16 * x + y)
  | _ => none

/-- The bytes of a text. A percent sign and two hexadecimal digits stand for a byte. -/
def percentDecoded (cs : List Char) : List UInt8 :=
  match cs with
  | [] => []
  | c :: cs =>
    match if c = '%' then escapedByte? cs else none with
    | some b => b :: percentDecoded (cs.drop 2)
    | none => (String.singleton c).toUTF8.toList ++ percentDecoded cs
termination_by cs.length
decreasing_by
  · simp only [List.length_drop, List.length_cons]
    omega
  · simp

/-- Whether a character shows nothing and leaves no trace in a domain. -/
def isDropped (c : Char) : Bool :=
  let n := c.toNat
  n == 0xAD || n == 0x34F || n == 0x115F || n == 0x1160 || n == 0x17B4 || n == 0x17B5 ||
    (0x180B ≤ n && n ≤ 0x180F) || n == 0x200B || (0x2060 ≤ n && n ≤ 0x2064) ||
    (0x206A ≤ n && n ≤ 0x206F) || n == 0x3164 || (0xFE00 ≤ n && n ≤ 0xFE0F) || n == 0xFEFF ||
    n == 0xFFA0 || (0x1BCA0 ≤ n && n ≤ 0x1BCA3) || (0x1D173 ≤ n && n ≤ 0x1D17A) ||
    (0xE0100 ≤ n && n ≤ 0xE01EF)

/-- What a character of a domain stands for: the small letter for a capital, and the ASCII character
for its wide form. -/
def normal (c : Char) : List Char :=
  if isDropped c then []
  else if c = '\u3002' ∨ c = '\uFF61' then ['.']
  else if 0xFF01 ≤ c.toNat ∧ c.toNat ≤ 0xFF5E then [(Char.ofNat (c.toNat - 0xFEE0)).toLower]
  else [c.toLower]

/-- The ASCII characters from the space on that no domain has. -/
def reserved : List Char := " %#/:<>?@[\\]^|\x7f".toList

/-- Whether a domain may have a character. Beyond ASCII it has to show, or to be part of a word. -/
def isDomainChar (c : Char) : Bool :=
  if c.toNat < 0x80 then 0x20 ≤ c.toNat && !reserved.contains c
  else isWord c || !unprintableRanges.contains c.toNat

/-- Whether a character extends the one before it. -/
def isExtender (c : Char) : Bool :=
  0x80 ≤ c.toNat && isWord c && unprintableRanges.contains c.toNat

/-- Whether the characters of a label beyond ASCII may stand in it. -/
def isPlainLabel (l : List Char) : Bool :=
  l.all isDomainChar && !l.head?.any isExtender

/-- Whether a label in normal form is a label of a domain. One that begins with `xn--` stands for
another label, which may not be one of ASCII. -/
def isLabel (l : List Char) : Bool :=
  if "xn--".toList.isPrefixOf l then
    (Punycode.decode (l.drop 4)).any fun l =>
      isPlainLabel l && l.any (0x80 ≤ ·.toNat) && l.all fun c => normal c == [c]
  else isPlainLabel l

/-- The normal form of a domain. -/
def domain? (cs : List Char) : Option (List Char) :=
  (String.fromUTF8? ⟨(percentDecoded cs).toArray⟩).bind fun s =>
    let cs := s.toList.flatMap normal
    if (pieces '.' cs).all isLabel then some cs else none

/-! ### Names as they stand -/

/-- The characters that no name has. -/
def separators : List Char := "\x00\t\n\r #/:<>?@[\\]^|".toList

/-- A text in which characters that do not show, or lie beyond ASCII, are spelled by percent signs. -/
def percentEncoded (cs : List Char) : List Char :=
  cs.flatMap fun c =>
    if 0x20 ≤ c.toNat ∧ c.toNat < 0x7F then [c]
    else (String.singleton c).toUTF8.toList.flatMap fun b =>
      '%' :: (padZeros 2 (showHex b.toNat)).map Char.toUpper

/-! ### Hosts of addresses -/

/-- A host in brackets, behind the first of them. -/
def Host.ofBracketed (cs : List Char) : Except Fault Host :=
  if cs.getLast? = some ']' ∧ isIPv6 cs.dropLast then .ok (.ipv6 cs.dropLast) else .error .ipv6

/-- The host that a text stands for in a scheme of the web. -/
def Host.ofDomain : List Char → Except Fault Host
  | '[' :: cs => Host.ofBracketed cs
  | cs =>
    match domain? cs with
    | none => .error .domain
    | some [] => .error .emptyHost
    | some cs =>
      if !endsInNumber cs then .ok (.name cs)
      else if isLooseIPv4 cs then .ok (.ipv4 cs)
      else .error .ipv4

/-- The host that a text stands for in another scheme; none if the text is empty. -/
def Host.ofOpaque : List Char → Except Fault (Option Host)
  | [] => .ok none
  | '[' :: cs => (Host.ofBracketed cs).map some
  | cs =>
    if cs.any separators.contains then .error .character
    else .ok (some (.name (percentEncoded cs)))

/-! ### Names of servers -/

/-- Whether a label consists of letters, digits, underscores and inner hyphens, at most 63 of them. -/
def isServerLabel (l : List Char) : Bool :=
  !l.isEmpty && l.length ≤ 63 && l.head? != some '-' && l.getLast? != some '-' &&
    l.all fun c => isAsciiLetter c || isAsciiDigit c || c == '-' || c == '_'

/-- Whether a name can be the name of a server: labels, the last of which is no number, at most 253
characters, or an IPv4 address. -/
def isServerName (cs : List Char) : Bool :=
  isIPv4 cs ||
    (cs.length ≤ 253 && (labels cs).all isServerLabel &&
      (labels cs).getLast?.any fun l => !l.all isAsciiDigit)

end CodeGraph.Address
