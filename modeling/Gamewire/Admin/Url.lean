import Gamewire.Schema.Name
import Gamewire.Text.Numeral

/-! URLs of servers. A client has to find a host and perhaps a port in one before it can ask
anything; the path is for the server. -/
namespace Gamewire
set_option autoImplicit false

inductive UrlFault where
  /-- There is no scheme in front. -/
  | relative
  | foreignScheme (url : String)
  | emptyHost
  | invalidPort
deriving Repr, DecidableEq

def UrlFault.message : UrlFault → String
  | relative => "relative URL without a base"
  | foreignScheme _ => "URL scheme is not allowed"
  | emptyHost => "empty host"
  | invalidPort => "invalid port number"

namespace Url

/-! ## Parts -/

def isSchemeChar (c : Char) : Bool :=
  isAsciiLetter c || Text.isDigit c || c == '+' || c == '-' || c == '.'

/-- The scheme in lower case, and what follows its colon. -/
def splitScheme? (url : List Char) : Option (String × List Char) :=
  match url.head?, url.dropWhile isSchemeChar with
  | some c, ':' :: rest =>
    if isAsciiLetter c then
      some (String.ofList ((url.takeWhile isSchemeChar).map lowerAscii), rest)
    else none
  | _, _ => none

def isSlash (c : Char) : Bool := c == '/' || c == '\\'

def endsAuthority (c : Char) : Bool := isSlash c || c == '?' || c == '#'

/-- The host with its port, and the path with what follows it. Any number of slashes may stand
between the scheme and the host, and a user in front of the host does not count. -/
def splitAuthority (rest : List Char) : List Char × List Char :=
  let cs := rest.dropWhile isSlash
  let authority := cs.takeWhile (!endsAuthority ·)
  ((authority.reverse.takeWhile (· != '@')).reverse, cs.dropWhile (!endsAuthority ·))

/-- The host, and the port after a colon. Colons between brackets are the host's. -/
def splitPort (authority : List Char) : List Char × Option (List Char) :=
  let (bracketed, rest) :=
    if authority.head? = some '[' then
      (authority.takeWhile (· != ']'), authority.dropWhile (· != ']'))
    else ([], authority)
  let host := bracketed ++ rest.takeWhile (· != ':')
  match rest.dropWhile (· != ':') with
  | ':' :: port => (host, some port)
  | _ => (host, none)

/-- A port is empty or a number below 65536. -/
def isPort (cs : List Char) : Bool :=
  cs.isEmpty || ((Text.numeral? 10 cs).any fun n => decide (n < 65536))

/-! ## The whole -/

/-- The path of a URL with what follows it, if the URL leads to a server. -/
def path? (url : String) : Except UrlFault String :=
  match splitScheme? url.toList with
  | none => .error .relative
  | some (scheme, rest) =>
    if scheme ≠ "http" ∧ scheme ≠ "https" then .error (.foreignScheme url)
    else
      let (authority, path) := splitAuthority rest
      let (host, port?) := splitPort authority
      if host.isEmpty then .error .emptyHost
      else if port?.any (!isPort ·) then .error .invalidPort
      else .ok (String.ofList path)

end Url

end Gamewire
