import CodexSdk.Error
import CodexSdk.Text

/-!
# Websocket endpoints

The first half of `transport/ws_daemon.rs`: what a websocket URL is parsed into, and how its host
is written in URLs, in the names of log files and in the keys of the startup locks.

Parsing itself is the `url` crate's.  `ParsedUrl` is what the code asks of its result, in which a
host is a domain or an address; the crate's domains are ASCII, and `Host.domain` carries that.
-/

set_option autoImplicit false

namespace CodexSdk
namespace WsDaemon

open Text

/-! ## Addresses -/

structure Ipv4Addr where
  a : UInt8
  b : UInt8
  c : UInt8
  d : UInt8
  deriving DecidableEq

structure Ipv6Addr where
  segments : List UInt16
  length_eq : segments.length = 8

/-- `Ipv4Addr::LOCALHOST`. -/
def Ipv4Addr.localhost : Ipv4Addr := ⟨127, 0, 0, 1⟩

def Ipv4Addr.isLoopback (ip : Ipv4Addr) : Bool := ip.a == 127

def Ipv4Addr.toString (ip : Ipv4Addr) : String :=
  s!"{ip.a.toNat}.{ip.b.toNat}.{ip.c.toNat}.{ip.d.toNat}"

def Ipv6Addr.isLoopback (ip : Ipv6Addr) : Bool := ip.segments == [0, 0, 0, 0, 0, 0, 0, 1]

/-- The IPv4 address a segment pair spells. -/
def Ipv4Addr.ofSegments (hi lo : UInt16) : Ipv4Addr :=
  ⟨.ofNat (hi.toNat / 256), .ofNat hi.toNat, .ofNat (lo.toNat / 256), .ofNat lo.toNat⟩

def Ipv6Addr.toIpv4Mapped (ip : Ipv6Addr) : Option Ipv4Addr :=
  match ip.segments with
  | [0, 0, 0, 0, 0, 0xffff, hi, lo] => some (.ofSegments hi lo)
  | _ => none

/-- A run of segments. -/
structure Span where
  start : Nat
  len : Nat

/-- The longest run of zeros; of two that are equally long, the first. -/
def longestZeros : Nat → Span → Span → List UInt16 → Span
  | _, longest, _, [] => longest
  | i, longest, current, segment :: segments =>
    if segment = 0 then
      let current : Span := if current.len = 0 then ⟨i, 1⟩ else ⟨current.start, current.len + 1⟩
      longestZeros (i + 1) (if longest.len < current.len then current else longest) current segments
    else longestZeros (i + 1) longest ⟨0, 0⟩ segments

/-- Hexadecimal, without leading zeros. -/
def hexSegment (segment : UInt16) : String := String.ofList (Nat.toDigits 16 segment.toNat)

def hexSegments (segments : List UInt16) : String := ":".intercalate (segments.map hexSegment)

/-- The `Display` of an IPv6 address: the longest run of at least two zeros is left out, and an
IPv4-mapped address ends in the IPv4 one. -/
def Ipv6Addr.toString (ip : Ipv6Addr) : String :=
  match ip.toIpv4Mapped with
  | some ipv4 => "::ffff:" ++ ipv4.toString
  | none =>
    let zeros := longestZeros 0 ⟨0, 0⟩ ⟨0, 0⟩ ip.segments
    if 1 < zeros.len then
      hexSegments (ip.segments.take zeros.start) ++ "::" ++
        hexSegments (ip.segments.drop (zeros.start + zeros.len))
    else hexSegments ip.segments

/-! ## Hosts and URLs -/

/-- `url::Host<String>`. -/
inductive Host
  | domain (name : String) (ascii : ∀ c ∈ name.toList, c.toNat < 128)
  | ipv4 (ip : Ipv4Addr)
  | ipv6 (ip : Ipv6Addr)

/-- What the code asks of a parsed URL.  `port` is `none` for the default port of the scheme. -/
structure ParsedUrl where
  scheme : String
  host : Option Host
  port : Option Nat

/-- What the code takes from its surroundings: `Url::parse`, whose error is its text, and the
directory for temporary files. -/
structure Surroundings where
  parseUrl : String → Except String ParsedUrl
  tempDir : String

/-- Of an ASCII text. -/
def toLowercase (s : String) : String := String.ofList (toAsciiLowercase s.toList)

def eqIgnoreAsciiCase (s t : String) : Bool :=
  toAsciiLowercase s.toList == toAsciiLowercase t.toList

/-- `Path::join` of a file name. -/
def joinPath (base file : String) : String :=
  match base.toList.getLast? with
  | none | some '/' => base ++ file
  | some _ => base ++ "/" ++ file

def daemonLogDirName : String := "codex-app-server-sdk"

def daemonLogDir (site : Surroundings) : String := joinPath site.tempDir daemonLogDirName

/-! ## Targets -/

/-- A validated `ws://host:port` endpoint. -/
structure WsTarget where
  host : Host
  port : Nat

/-- What a startup lock is kept under. -/
abbrev LockKey := String × Nat

namespace WsTarget

/-- Parses an explicitly configured websocket URL; `label` names the config field in the errors. -/
def parse (site : Surroundings) (label url : String) : Except ClientError WsTarget := do
  let parsed ← (site.parseUrl url).mapError fun err =>
    .config s!"invalid websocket {label}: {err}"
  if parsed.scheme ≠ "ws" then
    throw (.config s!"websocket {label} must use the `ws` scheme: `{url}`")
  let some host := parsed.host
    | throw (.config s!"invalid websocket {label}: missing host in `{url}`")
  let some port := parsed.port
    | throw (.config s!"websocket {label} must include explicit port: `{url}`")
  return ⟨host, port⟩

def isLoopback (target : WsTarget) : Bool :=
  match target.host with
  | .ipv4 ip => ip.isLoopback
  | .ipv6 ip => ip.isLoopback
  | .domain name _ => eqIgnoreAsciiCase name "localhost"

/-- The host as it appears in a URL authority. -/
def hostAuthority (target : WsTarget) : String :=
  match target.host with
  | .ipv4 ip => ip.toString
  | .ipv6 ip => "[" ++ ip.toString ++ "]"
  | .domain name _ => name

def url (target : WsTarget) : String := s!"ws://{target.hostAuthority}:{target.port}"

/-- `localhost` becomes `127.0.0.1`; every other host stays. -/
def normalized (target : WsTarget) : WsTarget :=
  match target.host with
  | .domain name _ =>
    if eqIgnoreAsciiCase name "localhost" then ⟨.ipv4 .localhost, target.port⟩ else target
  | _ => target

/-- The host as written, for the name of the log file. -/
def hostLabel (target : WsTarget) : String :=
  match target.host with
  | .ipv4 ip => ip.toString
  | .ipv6 ip => ip.toString
  | .domain name _ => toLowercase name

def safeHostLabel (target : WsTarget) : String :=
  String.ofList (target.hostLabel.toList.map fun ch => if ch.isAlphanum then ch else '_')

def logPath (site : Surroundings) (target : WsTarget) : String :=
  joinPath (daemonLogDir site) s!"app-server-{target.safeHostLabel}-{target.port}.log"

def lockKey (target : WsTarget) : LockKey :=
  (toLowercase target.normalized.hostAuthority, target.normalized.port)

/-- `localhost`, in whatever case, shares its lock with `127.0.0.1`. -/
theorem lockKey_localhost {name : String} {ascii : ∀ c ∈ name.toList, c.toNat < 128} (port : Nat)
    (h : eqIgnoreAsciiCase name "localhost" = true) :
    lockKey ⟨.domain name ascii, port⟩ = lockKey ⟨.ipv4 .localhost, port⟩ := by
  have hnormalized : normalized ⟨.domain name ascii, port⟩ = ⟨.ipv4 .localhost, port⟩ := if_pos h
  rw [lockKey, hnormalized]
  rfl

end WsTarget

/-! ## What a server is started for -/

structure WsStartConfig where
  listenUrl : String
  connectUrl : String
  env : List (String × String)
  reuseExisting : Bool

structure WsStartTarget where
  connectUrl : String
  listenUrl : String
  /-- The parsed listen endpoint. -/
  listen : WsTarget
  logPath : String

/-- `none` is a URL that can only be connected to. -/
def parseManagedWsTarget (site : Surroundings) (url : String) :
    Except ClientError (Option WsStartTarget) := do
  let parsed ← (site.parseUrl url).mapError fun err => .config s!"invalid websocket URL: {err}"
  if parsed.scheme ≠ "ws" then
    return none
  let some host := parsed.host
    | throw (.config s!"invalid websocket URL: missing host in `{url}`")
  if !(WsTarget.mk host 0).isLoopback then
    return none
  let some port := parsed.port
    | throw (.config s!"loopback websocket URL must include explicit port: `{url}`")
  let connect : WsTarget := ⟨host, port⟩
  let listen := connect.normalized
  return some {
    connectUrl := url
    listenUrl := listen.url
    listen := listen
    logPath := connect.logPath site }

def buildStartTarget (site : Surroundings) (config : WsStartConfig) :
    Except ClientError WsStartTarget := do
  let listen ← WsTarget.parse site "listen_url" config.listenUrl
  let _ ← WsTarget.parse site "connect_url" config.connectUrl
  return {
    listenUrl := config.listenUrl
    connectUrl := config.connectUrl
    listen := listen
    logPath := listen.logPath site }

end WsDaemon
end CodexSdk
