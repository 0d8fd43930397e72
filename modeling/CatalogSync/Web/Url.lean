import CatalogSync.Text.Quoted
import CatalogSync.Text.Decimal

/-!
# Locations on the web

`Url.parse` reads a location and brings it into its normal form: scheme and host in small letters,
the usual port left out, dots in the path resolved, and whatever may not stand in a location written
as bytes in hexadecimal.
-/

namespace CatalogSync.Web

open CatalogSync.Text

/-- A location. -/
structure Url where
  scheme : String
  /-- The name in front of the host, with its `@`. -/
  user : String
  host : Option String
  port : Option Nat
  /-- The path, the query and the fragment. -/
  rest : String
deriving DecidableEq, Repr, Inhabited

/-- Why a text is no location. -/
inductive UrlFault where
  | relative
  | emptyHost
  | invalidPort
  | invalidDomain
deriving DecidableEq, Repr, Inhabited

/-- The wording of a fault. -/
def UrlFault.message : UrlFault → String
  | .relative => "relative URL without a base"
  | .emptyHost => "empty host"
  | .invalidPort => "invalid port number"
  | .invalidDomain => "invalid international domain name"

namespace Url

/-- The text of a location. -/
def text (u : Url) : String :=
  let authority := match u.host with
    | none => ""
    | some h => "//" ++ u.user ++ h ++ (match u.port with | none => "" | some p => ":" ++ Decimal.ofNat p)
  u.scheme ++ ":" ++ authority ++ u.rest

def isLetter (c : Char) : Bool := ('a' ≤ c && c ≤ 'z') || ('A' ≤ c && c ≤ 'Z')

def lowerChar (c : Char) : Char := if 'A' ≤ c ∧ c ≤ 'Z' then Char.ofNat (c.toNat + 32) else c

def upperHex (n : Nat) : Char := if n < 10 then Char.ofNat (48 + n) else Char.ofNat (55 + n)

def percent (c : Char) : List Char :=
  (String.utf8EncodeChar c).flatMap fun b => ['%', upperHex (b.toNat / 16), upperHex (b.toNat % 16)]

/-- Whether a character may stand in no part of a location. -/
def isUnfit (c : Char) : Bool := c.toNat < 0x21 || 0x7E < c.toNat || c = '"' || c = '<' || c = '>'

/-- The characters of a path as they may stand in one. -/
def pathChars (cs : List Char) : List Char :=
  cs.flatMap fun c =>
    if isUnfit c || c = '\x60' || c = '^' || c = '\x7b' || c = '\x7d' then percent c else [c]

/-- The characters of a query as they may stand in one. -/
def queryChars (cs : List Char) : List Char := cs.flatMap fun c => if isUnfit c || c = '\'' then percent c else [c]

/-- The characters of a fragment as they may stand in one. -/
def fragmentChars (cs : List Char) : List Char := cs.flatMap fun c => if isUnfit c || c = '\x60' then percent c else [c]

/-- The parts of a list between the elements that `p` marks. -/
def splitBy (p : Char → Bool) : List Char → List (List Char)
  | [] => [[]]
  | c :: cs =>
    match splitBy p cs with
    | [] => [[c]]
    | part :: parts => if p c then [] :: part :: parts else (c :: part) :: parts

/-- Whether a path segment stands for the place itself. -/
def isHere (s : List Char) : Bool := s = ['.'] || s.map lowerChar = ['%', '2', 'e']

/-- Whether a path segment stands for the place above. -/
def isAbove (s : List Char) : Bool :=
  let s := s.map lowerChar
  s = ['.', '.'] || s = ['.', '%', '2', 'e'] || s = ['%', '2', 'e', '.'] ||
    s = ['%', '2', 'e', '%', '2', 'e']

/-- The segments of a path with its dots resolved. `done` holds the segments so far, the last one first. -/
def resolveDots (done : List (List Char)) : List (List Char) → List (List Char)
  | [] => done.reverse
  | s :: rest =>
    if isHere s then resolveDots (if rest.isEmpty then [] :: done else done) rest
    else if isAbove s then resolveDots (if rest.isEmpty then [] :: done.drop 1 else done.drop 1) rest
    else resolveDots (s :: done) rest

/-- A path in normal form, after its first slash. -/
def pathText (cs : List Char) : List Char :=
  let segments := resolveDots [] (splitBy (fun c => c = '/' || c = '\\') cs)
  '/' :: ['/'].intercalate (segments.map pathChars)

/-- What follows the host: path, query and fragment. -/
def tailText (cs : List Char) : List Char :=
  let path := cs.takeWhile fun c => c ≠ '?' && c ≠ '#'
  let after := cs.dropWhile fun c => c ≠ '?' && c ≠ '#'
  let path := match path with
    | '/' :: r => pathText r
    | '\\' :: r => pathText r
    | r => pathText r
  let query := match after with
    | '?' :: r => '?' :: queryChars (r.takeWhile (· ≠ '#'))
    | _ => []
  let fragment := match after.dropWhile (· ≠ '#') with
    | '#' :: r => '#' :: fragmentChars r
    | _ => []
  path ++ query ++ fragment

/-- The port that a scheme uses unless another is named. -/
def usualPort (scheme : String) : Option Nat :=
  if scheme = "http" ∨ scheme = "ws" then some 80
  else if scheme = "https" ∨ scheme = "wss" then some 443
  else if scheme = "ftp" then some 21
  else none

/-- Whether a character may not stand in the name of a host. -/
def isForbidden (c : Char) : Bool :=
  c.toNat ≤ 0x20 || c.toNat = 0x7F || " #/:<>?@[\\]^|%".toList.contains c

/-- A port after its colon. -/
def port? (scheme : String) (cs : List Char) : Except UrlFault (Option Nat) :=
  if cs.isEmpty then .ok none
  else if !cs.all Decimal.isDigit || 65535 < Decimal.value cs then .error .invalidPort
  else if usualPort scheme = some (Decimal.value cs) then .ok none
  else .ok (some (Decimal.value cs))

/-- A location with a host, from what follows the scheme and its slashes. -/
def withHost (scheme : String) (cs : List Char) : Except UrlFault Url := do
  let isEnd := fun c => c = '/' || c = '\\' || c = '?' || c = '#'
  let authority := cs.takeWhile (!isEnd ·)
  let reversed := authority.reverse
  let hostPort := (reversed.takeWhile (· ≠ '@')).reverse
  let user := (reversed.dropWhile (· ≠ '@')).reverse
  let bracketed := hostPort.head? = some '['
  let (host, afterHost) :=
    if bracketed then
      let inside := hostPort.takeWhile (· ≠ ']')
      (inside ++ [']'], (hostPort.drop inside.length).drop 1)
    else (hostPort.takeWhile (· ≠ ':'), hostPort.dropWhile (· ≠ ':'))
  if host.isEmpty then throw .emptyHost
  if !bracketed && host.any isForbidden then throw .invalidDomain
  let port ← port? scheme (afterHost.drop 1)
  return {
    scheme
    user := String.ofList user
    host := some (String.ofList (host.map lowerChar))
    port
    rest := String.ofList (tailText (cs.dropWhile (!isEnd ·))) }

/-- Whether a scheme always comes with a host. -/
def hasHost (scheme : String) : Bool := (usualPort scheme).isSome

/-- The blanks and controls that are dropped at the ends of a location. -/
def isEdge (c : Char) : Bool := c.toNat ≤ 0x20

/-- Reads a location. -/
def parse (s : String) : Except UrlFault Url :=
  let cs := (s.toList.dropWhile isEdge).reverse.dropWhile isEdge |>.reverse
  let cs := cs.filter fun c => c ≠ '\t' && c ≠ '\n' && c ≠ '\r'
  let name := cs.takeWhile fun c => isLetter c || Decimal.isDigit c || c = '+' || c = '-' || c = '.'
  match name, cs.drop name.length with
  | first :: _, ':' :: rest =>
    if !isLetter first then .error .relative
    else
      let scheme := String.ofList (name.map lowerChar)
      if hasHost scheme then withHost scheme (rest.dropWhile fun c => c = '/' || c = '\\')
      else
        match rest with
        | '/' :: '/' :: r => withHost scheme r
        | r => .ok ⟨scheme, "", none, none, String.ofList (queryChars r)⟩
  | _, _ => .error .relative

end Url

end CatalogSync.Web
