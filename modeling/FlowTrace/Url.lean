import FlowTrace.IpAddress
import FlowTrace.Text.Quoted

/-! # Addresses on the web

A **URL** and its written form. Reading checks what is written (`Url.read`), and the written form
escapes whatever a part may not hold as it is. Escapes are undone on reading; a path or fragment
that was written with more escapes than needed keeps them. -/

namespace FlowTrace

/-- The parts of a URL that escape differently. -/
inductive UrlPart where
  /-- The host, with its port. -/
  | host
  /-- The zone of an address. -/
  | zone
  /-- The path. -/
  | path
  /-- A user name or a password. -/
  | user
  /-- The fragment. -/
  | fragment
  deriving DecidableEq, Repr

/-- Whether a byte has to be escaped in a part. -/
def UrlPart.escapes (part : UrlPart) (c : UInt8) : Bool :=
  if Text.isLetter c || Text.isDigit c then false
  else if (part == .host || part == .zone) && (Text.of "!$&'()*+,;=:[]<>\"").contains c then false
  else if (Text.of "-_.~").contains c then false
  else if (Text.of "$&+,/:;=?@").contains c then
    match part with
    | .path => c == '?'
    | .user => (Text.of "@/?:").contains c
    | .fragment => false
    | .host => true
    | .zone => true
  else !(part == .fragment && (Text.of "!()*").contains c)

/-- A text with the bytes escaped that a part may not hold. -/
def UrlPart.escape (part : UrlPart) (t : Text) : Text :=
  t.flatMap fun (c : UInt8) =>
    if part.escapes c then
      "%" ++ (Text.hexFixed 2 c.toNat).map fun (d : UInt8) => if 'a' ≤ d then d - 32 else d
    else [c]

/-- Whether a text may stand in a part as it is, escapes included. -/
def UrlPart.admits (part : UrlPart) (t : Text) : Bool :=
  t.all fun (c : UInt8) => (Text.of "!$&'()*+,;=:@[]%").contains c || !part.escapes c

/-- Why a text is not a URL. -/
inductive UrlFault where
  /-- A control character. -/
  | control
  /-- A colon at the very beginning. -/
  | missingScheme
  /-- A colon in the first segment of a path without a scheme. -/
  | colonInSegment
  /-- A host in brackets without the closing one. -/
  | openBracket
  /-- Brackets behind something else, or around an address of four numbers. -/
  | badLiteral
  /-- Something else than an address in brackets. -/
  | badAddress (text : Text) (fault : IpAddress.Fault)
  /-- Something else than a port after the host. -/
  | badPort (port : Text)
  /-- A percent sign that starts no escape. -/
  | badEscape (part : Text)
  /-- A character that a host may not have. -/
  | badHost (character : Text)
  /-- A character that user names and passwords may not have. -/
  | badUser
  deriving DecidableEq, Repr

/-- The wording of a fault. -/
def UrlFault.message : UrlFault → Text
  | control => "net/url: invalid control character in URL"
  | missingScheme => "missing protocol scheme"
  | colonInSegment => "first path segment in URL cannot contain colon"
  | openBracket => "missing ']' in host"
  | badLiteral => "invalid IP-literal"
  | badAddress text fault => "invalid host: " ++ fault.message text
  | badPort port => "invalid port " ++ port.quoted ++ " after host"
  | badEscape part => "invalid URL escape " ++ part.quoted
  | badHost character => "invalid character " ++ character.quoted ++ " in host name"
  | badUser => "net/url: invalid userinfo"

/-- Whether a part may hold a byte in escaped form. In a host only bytes outside ASCII, and the percent sign itself, may be
escaped; in a zone also the space and what need not be escaped. -/
def UrlPart.admitsEscape (part : UrlPart) (value : Nat) : Bool :=
  match part with
  | .host => 0x80 ≤ value || value == 0x25
  | .zone => value == 0x25 || value == 0x20 || !UrlPart.host.escapes value.toUInt8
  | _ => true

/-- Undoes the escapes of a part. -/
def UrlPart.unescape (part : UrlPart) (t : Text) : Except UrlFault Text := go t 0 []
where
  /-- The next `skip` bytes belong to an escape that was already read; `out` is the result, last
  byte first. -/
  go : Text → Nat → Text → Except UrlFault Text
    | [], _, out => .ok out.reverse
    | _ :: t, skip + 1, out => go t skip out
    | c :: t, 0, out =>
      if c == '%' then
        match t.head?.bind Text.hexValue?, (t.drop 1).head?.bind Text.hexValue? with
        | some high, some low =>
          let value := high * 16 + low
          if part.admitsEscape value then go t 2 (value.toUInt8 :: out)
          else .error (.badEscape (c :: t.take 2))
        | _, _ => .error (.badEscape (c :: t.take 2))
      else if (part == .host || part == .zone) && c < 0x80 && part.escapes c then
        .error (.badHost [c])
      else go t 0 (c :: out)

/-- A **URL**. -/
structure Url where
  /-- The scheme, in lower case. -/
  scheme : Text := []
  /-- What follows the scheme, when it is not divided into parts. -/
  undivided : Text := []
  /-- The user, and the password if there is one. -/
  user : Option (Text × Option Text) := none
  /-- The host, with its port. -/
  host : Text := []
  /-- Whether there is a scheme and no place for a host. -/
  hostless : Bool := false
  /-- The path, as it was written. -/
  path : Text := []
  /-- The query, if there is one. -/
  query : Option Text := none
  /-- The fragment, as it was written. -/
  fragment : Text := []
  deriving DecidableEq, Repr

namespace Url

/-- The text before the first occurrence of a byte, and the text behind it if it is there. -/
def cut (t : Text) (sep : UInt8) : Text × Option Text :=
  match t.findIdx? (· == sep) with
  | some i => (t.take i, some (t.drop (i + 1)))
  | none => (t, none)

/-- The scheme in front of a text, and the rest. -/
def splitScheme (t : Text) : Except UrlFault (Text × Text) :=
  let isSchemeByte (c : UInt8) : Bool :=
    Text.isLetter c || Text.isDigit c || c == '+' || c == '-' || c == '.'
  let scheme := t.takeWhile isSchemeByte
  let rest := t.drop scheme.length
  if rest.head? != some (':' : UInt8) then .ok ([], t)
  else if scheme.isEmpty then .error .missingScheme
  else if scheme.head?.all Text.isLetter then .ok (scheme, rest.drop 1)
  else .ok ([], t)

/-- Whether a text is a port with its colon, or empty. -/
def isPort (t : Text) : Bool :=
  match t with
  | [] => true
  | c :: digits => c == ':' && digits.all Text.isDigit

/-- Reads an address in brackets: what stands between them. The zone begins with an escaped percent
sign. -/
def readLiteral (t : Text) : Except UrlFault Text := do
  let address ← match t.indexOf? "%25" with
    | some i => pure ((← UrlPart.host.unescape (t.take i)) ++ (← UrlPart.zone.unescape (t.drop i)))
    | none => UrlPart.host.unescape t
  match IpAddress.read address with
  | .error fault => throw (.badAddress address fault)
  | .ok .four => throw .badLiteral
  | .ok .six => return address

/-- Reads a host with its port. -/
def readHost (t : Text) : Except UrlFault Text := do
  match t.lastIndexOf? "[" with
  | some (_ + 1) => throw .badLiteral
  | some 0 =>
    match t.lastIndexOf? "]" with
    | none => throw .openBracket
    | some i =>
      let port := t.drop (i + 1)
      if !isPort port then throw (.badPort port)
      return "[" ++ (← readLiteral ((t.take i).drop 1)) ++ "]" ++ port
  | none =>
    match t.lastIndexOf? ":" with
    | some i => if isPort (t.drop i) then UrlPart.host.unescape t else throw (.badPort (t.drop i))
    | none => UrlPart.host.unescape t

/-- Whether a user name or a password may hold a byte. -/
def isUserByte (c : UInt8) : Bool :=
  Text.isLetter c || Text.isDigit c || (Text.of "-._:~!$&'()*+,;=%@").contains c

/-- Reads a user name and a password. -/
def readUser (t : Text) : Except UrlFault (Text × Option Text) := do
  if !t.all isUserByte then throw .badUser
  let (name, password?) := cut t ':'
  let name ← UrlPart.user.unescape name
  match password? with
  | none => return (name, none)
  | some password => return (name, some (← UrlPart.user.unescape password))

/-- Reads a URL without a fragment. -/
def readBody (t : Text) : Except UrlFault Url := do
  if t.any fun (c : UInt8) => c < 0x20 || c == 0x7F then throw .control
  if t == "*" then return { path := t }
  let (scheme, rest) ← splitScheme t
  let scheme := scheme.map fun (c : UInt8) => if 'A' ≤ c && c ≤ 'Z' then c + 32 else c
  let (rest, query) := cut rest '?'
  if rest.head? != some ('/' : UInt8) then
    if !scheme.isEmpty then return { scheme := scheme, undivided := rest, query := query }
    if (cut rest '/').1.contains (':' : UInt8) then throw .colonInSegment
  let (authority?, path) : Option Text × Text :=
    if Text.startsWith rest "//" && (!scheme.isEmpty || !Text.startsWith rest "///") then
      let authority := (rest.drop 2).takeWhile (· != ('/' : UInt8))
      (some authority, rest.drop (2 + authority.length))
    else (none, rest)
  let url : Url ← match authority? with
    | none =>
      let hostless := !scheme.isEmpty && rest.head? == some ('/' : UInt8)
      pure { scheme := scheme, hostless := hostless }
    | some authority =>
      match Text.lastIndexOf? authority "@" with
      | none => pure { scheme := scheme, host := ← readHost authority }
      | some i =>
        let host ← readHost (authority.drop (i + 1))
        pure { scheme := scheme, user := some (← readUser (authority.take i)), host := host }
  let _ ← UrlPart.path.unescape path
  return { url with path := path, query := query }

/-- A text that is not a URL, and why. -/
structure ReadError where
  /-- The text. -/
  text : Text
  /-- What is wrong with it. -/
  fault : UrlFault
  deriving Repr

/-- The message about a text that is not a URL. -/
def ReadError.message (e : ReadError) : Text :=
  "parse " ++ e.text.quoted ++ ": " ++ e.fault.message

/-- Reads a URL. -/
def read (t : Text) : Except ReadError Url := do
  let (body, fragment?) := cut t '#'
  let url ← (readBody body).mapError (ReadError.mk body)
  let fragment := fragment?.getD []
  let _ ← (UrlPart.fragment.unescape fragment).mapError (ReadError.mk t)
  return { url with fragment := fragment }

/-- The written form of a part: as it was written if it may stand like that. -/
def written (part : UrlPart) (t : Text) : Text :=
  if part.admits t then t
  else
    match part.unescape t with
    | .ok plain => part.escape plain
    | .error _ => t

/-- The written form of a user name and a password. -/
def userText (user : Text × Option Text) : Text :=
  UrlPart.user.escape user.1 ++
    (match user.2 with
    | some password => ":" ++ UrlPart.user.escape password
    | none => [])

/-- The written form of a URL, with `user` for its user name and password. -/
def textWith (url : Url) (user : Text × Option Text → Text) : Text :=
  let scheme : Text := if url.scheme.isEmpty then [] else url.scheme ++ ":"
  let query : Text := match url.query with
    | some query => "?" ++ query
    | none => []
  let fragment : Text :=
    if url.fragment.isEmpty then [] else "#" ++ written .fragment url.fragment
  if !url.undivided.isEmpty then scheme ++ url.undivided ++ query ++ fragment
  else
    let place : Text :=
      if (!url.scheme.isEmpty || !url.host.isEmpty || url.user.isSome) &&
          !(url.hostless && url.host.isEmpty && url.user.isNone) then
        (if !url.host.isEmpty || !url.path.isEmpty || url.user.isSome then ("//" : Text) else []) ++
          (match url.user with
          | some u => user u ++ "@"
          | none => []) ++ UrlPart.host.escape url.host
      else []
    let path := written .path url.path
    let slash : Text :=
      if !path.isEmpty && path.head? != some ('/' : UInt8) && !url.host.isEmpty then "/" else []
    let dot : Text :=
      if (scheme ++ place ++ slash).isEmpty && (cut path '/').1.contains (':' : UInt8) then "./"
      else []
    scheme ++ place ++ slash ++ dot ++ path ++ query ++ fragment

/-- The written form of a URL. -/
def toText (url : Url) : Text := url.textWith userText

/-- The written form of a URL with its password hidden. -/
def toPublicText (url : Url) : Text :=
  url.textWith fun user => if user.2.isSome then user.1 ++ ":***" else userText user

/-- The URL without a colon that no port follows. -/
def dropEmptyPort (url : Url) : Url :=
  let host := url.host
  let colon := host.lastIndexOf? ":"
  let bracket := host.lastIndexOf? "]"
  let hasPort : Bool := match colon, bracket with
    | some c, some b => b < c
    | some _, none => true
    | none, _ => false
  { url with host := if hasPort then host.dropEnd ":" else host }

end Url

end FlowTrace
