import LineScript.Text.Utf8

/-!
# Networks

A network answers downloads. On the one that hosts have unless they are given another, a download
always fails. How it fails depends on the address only: it may not be one, it may use a protocol
that is not known, name a host that is not known, or lead to a host that answers no connection.
-/

namespace LineScript

/-- What the download of an address gives after a number of earlier ones: its content, or the report
of the failure. -/
abbrev Network := (earlier : Nat) → (address : String) → Except String Text.Bytes

namespace Network

/-- Why a download fails. -/
inductive Failure where
  /-- The address does not begin with a scheme. -/
  | noScheme
  /-- The address names no host. -/
  | noHost
  /-- The address has a port that is no number of 16 bits. -/
  | badPort
  /-- The address has a scheme for which there is no protocol. -/
  | schemeUnknown (address scheme : String)
  /-- The host of the address cannot be found. -/
  | hostUnknown (address host : String) (port : Nat)
  /-- The host of the address takes no connection. -/
  | refused (address : String)
deriving Repr, DecidableEq

/-- The report of a failure. -/
def Failure.message : Failure → String
  | noScheme =>
    "Bad URL: failed to parse URL: RelativeUrlWithoutBase: relative URL without a base"
  | noHost => "Bad URL: failed to parse URL: EmptyHost: empty host"
  | badPort => "Bad URL: failed to parse URL: InvalidPort: invalid port number"
  | schemeUnknown address scheme => address ++ ": Unknown Scheme: unknown scheme " ++ scheme
  | hostUnknown address host port =>
    address ++ ": Dns Failed: resolve dns name '" ++ host ++ ":" ++ toString port ++
      "': failed to lookup address information: Temporary failure in name resolution"
  | refused address =>
    address ++ ": Connection Failed: Connect error: Connection refused (os error 111)"

/-- Characters that may stand in a scheme after its first letter. -/
def isSchemeChar (c : Char) : Bool := c.isAlphanum || c == '+' || c == '-' || c == '.'

/-- The scheme in front of a text, and what stands after its colon. -/
def splitScheme? (text : List Char) : Option (String × List Char) :=
  match text.takeWhile isSchemeChar, text.dropWhile isSchemeChar with
  | first :: rest, ':' :: after =>
    if first.isAlpha then some ((String.ofList (first :: rest)).toLower, after) else none
  | _, _ => none

/-- Schemes whose addresses always name a host. -/
def isHostScheme (scheme : String) : Bool := ["http", "https", "ws", "wss", "ftp"].contains scheme

/-- The port of a scheme's protocol. -/
def schemePort (scheme : String) : Nat := if scheme == "https" then 443 else 80

/-- The host and port part of an address, from what stands after its scheme, and the rest. -/
def splitAuthority (scheme : String) (after : List Char) : List Char × List Char :=
  let ends (c : Char) : Bool :=
    c == '/' || c == '?' || c == '#' || (c == '\\' && isHostScheme scheme)
  let start :=
    if isHostScheme scheme then after.dropWhile fun c => c == '/' || c == '\\'
    else if after.take 2 = ['/', '/'] then after.drop 2
    else []
  (start.takeWhile (!ends ·), start.dropWhile (!ends ·))

/-- The port written after a host; none when it is no number of 16 bits. -/
def readPort? (scheme : String) (digits : List Char) : Option Nat :=
  if digits = [] then some (schemePort scheme)
  else if digits.all Char.isDigit then
    let port := digits.foldl (fun n c => n * 10 + (c.toNat - '0'.toNat)) 0
    if port < UInt16.size then some port else none
  else none

/-- The host is on this machine, or written as a number. -/
def isNearHost (host : List Char) : Bool :=
  host.all (fun c => c.isDigit || c == '.') || String.ofList host == "localhost"

/-- A text without control characters and spaces at its ends. -/
def trimAddress (text : List Char) : List Char :=
  let isOuter (c : Char) : Bool := c.toNat ≤ 32
  ((text.dropWhile isOuter).reverse.dropWhile isOuter).reverse

/-- How the download of an address fails. -/
def failure (address : String) : Failure :=
  match splitScheme? (trimAddress address.toList) with
  | none => .noScheme
  | some (scheme, after) =>
    let (authority, path) := splitAuthority scheme after
    let place := (authority.reverse.takeWhile (· ≠ '@')).reverse
    let host := place.takeWhile (· ≠ ':')
    let shown := scheme ++ "://" ++ String.ofList authority ++
      (if path = [] then "/" else String.ofList path)
    if host = [] then .noHost
    else
      match readPort? scheme ((place.dropWhile (· ≠ ':')).drop 1) with
      | none => .badPort
      | some port =>
        if scheme ≠ "http" ∧ scheme ≠ "https" then .schemeUnknown shown scheme
        else if isNearHost host then .refused shown
        else .hostUnknown shown (String.ofList host) port

/-- A network on which every download fails. -/
def offline : Network := fun _ address => .error (failure address).message

end Network

end LineScript
