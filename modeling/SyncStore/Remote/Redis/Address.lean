import SyncStore.Decimal.Integer
import SyncStore.Remote.Redis.Failure

/-! The address of a Redis server is a URL with a host or with the path of a socket. -/

namespace SyncStore.Redis

/-- Where a server listens. -/
inductive Address where
  | host (name : String) (number : Nat)
  | socket (path : String)
  deriving DecidableEq

/-- Why a URL is no address. -/
inductive AddressFault where
  | malformed
  | noHost
  | noDatabase
  | encrypted
  deriving DecidableEq

/-- The words for an address fault. -/
def AddressFault.message : AddressFault → String
  | .malformed => "Redis URL did not parse"
  | .noHost => "Missing hostname"
  | .noDatabase => "Invalid database number"
  | .encrypted => "can't connect with TLS, the feature is not enabled"

/-- An address fault is a fault of the configuration of a client. -/
def AddressFault.toFailure (fault : AddressFault) : Failure :=
  .known .clientConfig fault.message none

namespace Address

/-- The number behind a host when a URL names none. -/
def defaultNumber : Nat := 6379

/-- The authority of a URL ends at its path, its query or its fragment. -/
def endsAuthority (c : Char) : Bool := c = '/' || c = '?' || c = '#'

/-- These characters stand in no host name. -/
def isForbidden (c : Char) : Bool := " <>[]^|\\%".toList.contains c || c.toNat < 0x20

/-- Everything up to the last at sign of an authority belongs to a user. -/
def withoutUser (authority : List Char) : List Char :=
  (authority.reverse.takeWhile (· ≠ '@')).reverse

/-- The number behind a colon is decimal and has sixteen bits; without digits
it is the usual one. -/
def number? (text : List Char) : Option Nat :=
  match text with
  | [] => some defaultNumber
  | ':' :: [] => some defaultNumber
  | ':' :: digits =>
    if digits.all Char.isDigit && Decimal.natOfDigits digits < 2 ^ 16
    then some (Decimal.natOfDigits digits)
    else none
  | _ => none

/-- A database is named by an integer, with slashes around it ignored. -/
def namesDatabase (path : List Char) : Bool :=
  let inner := ((path.dropWhile (· = '/')).reverse.dropWhile (· = '/')).reverse
  inner.isEmpty || (IntegerRange.signed64.read 10 inner).isOk

/-- The part of a URL behind the scheme names a host, and may give it a number
and name a database. -/
def ofHostPart (text : List Char) : Except AddressFault Address :=
  match text with
  | '/' :: '/' :: rest =>
    let authority := rest.takeWhile (!endsAuthority ·)
    let path := (rest.dropWhile (!endsAuthority ·)).takeWhile fun c => c ≠ '?' && c ≠ '#'
    let server := withoutUser authority
    let name := server.takeWhile (· ≠ ':')
    match number? (server.dropWhile (· ≠ ':')) with
    | none => .error .malformed
    | some number =>
      if name.any isForbidden || name.isEmpty && !authority.isEmpty then .error .malformed
      else if name.isEmpty then .error .noHost
      else if namesDatabase path then .ok (.host (String.ofList name) number)
      else .error .noDatabase
  | _ => .error .noHost

/-- The scheme of a URL decides how the rest of it is read. -/
def read (url : String) : Except AddressFault Address :=
  let scheme := String.ofList (url.toList.takeWhile (· ≠ ':'))
  match url.toList.dropWhile (· ≠ ':') with
  | [] => .error .malformed
  | _ :: rest =>
    if ["redis", "valkey"].contains scheme then ofHostPart rest
    else if ["rediss", "valkeys"].contains scheme then
      (ofHostPart rest).bind fun _ => .error .encrypted
    else if ["unix", "redis+unix", "valkey+unix"].contains scheme then
      .ok (.socket (String.ofList (rest.dropWhile (· = '/'))))
    else .error .malformed

end Address

end SyncStore.Redis
