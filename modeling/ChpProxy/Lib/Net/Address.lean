import ChpProxy.Lib.Radix
import ChpProxy.Lib.Reader

/-! Internet addresses as the Rust standard library reads and writes them. A reader that fails leaves
its input to the next one. -/
namespace Net

structure Ipv4Addr where
  a : UInt8
  b : UInt8
  c : UInt8
  d : UInt8
  deriving DecidableEq

structure Ipv6Addr where
  segments : List UInt16
  length_eq : segments.length = 8
  deriving DecidableEq

inductive IpAddr where
  | v4 (ip : Ipv4Addr)
  | v6 (ip : Ipv6Addr)
  deriving DecidableEq

/-- A flow label is neither read nor written. -/
inductive SocketAddr where
  | v4 (ip : Ipv4Addr) (port : UInt16)
  | v6 (ip : Ipv6Addr) (port : UInt16) (scopeId : UInt32)
  deriving DecidableEq

namespace SocketAddr

def new (ip : IpAddr) (port : UInt16) : SocketAddr :=
  match ip with
  | .v4 ip => .v4 ip port
  | .v6 ip => .v6 ip port 0

def ip : SocketAddr → IpAddr
  | .v4 ip _ => .v4 ip
  | .v6 ip _ _ => .v6 ip

def port : SocketAddr → UInt16
  | .v4 _ port => port
  | .v6 _ port _ => port

theorem ip_new (ip : IpAddr) (port : UInt16) : (new ip port).ip = ip := by
  cases ip <;> rfl

theorem port_new (ip : IpAddr) (port : UInt16) : (new ip port).port = port := by
  cases ip <;> rfl

end SocketAddr

/-! Reading. -/

section Readers

variable {α β : Type}

def andThen (read : Reader α) (next : α → Reader β) : Reader β := fun s =>
  (read s).bind fun p => next p.1 p.2

def mapTo (f : α → β) (read : Reader α) : Reader β := fun s => (read s).map fun p => (f p.1, p.2)

theorem andThen_eq {read : Reader α} {next : α → Reader β} {s rest : List Char} {a : α}
    (h : read s = some (a, rest)) : andThen read next s = next a rest := by
  rw [andThen, h, Option.bind_some]

theorem andThen_eq_none {read : Reader α} {next : α → Reader β} {s : List Char}
    (h : read s = none) : andThen read next s = none := by
  rw [andThen, h, Option.bind_none]

theorem mapTo_eq {read : Reader α} {f : α → β} {s rest : List Char} {a : α}
    (h : read s = some (a, rest)) : mapTo f read s = some (f a, rest) := by
  rw [mapTo, h, Option.map_some]

theorem mapTo_eq_none {read : Reader α} {f : α → β} {s : List Char} (h : read s = none) :
    mapTo f read s = none := by
  rw [mapTo, h, Option.map_none]

def readGivenChar (target : Char) : Reader Unit
  | [] => none
  | c :: rest => if c = target then some ((), rest) else none

theorem readGivenChar_cons (target : Char) (rest : List Char) :
    readGivenChar target (target :: rest) = some ((), rest) :=
  if_pos rfl

theorem readGivenChar_cons_ne {c target : Char} (h : c ≠ target) (rest : List Char) :
    readGivenChar target (c :: rest) = none :=
  if_neg h

def readSeparator (separator : Char) (index : ℕ) (inner : Reader α) : Reader α :=
  if 0 < index then andThen (readGivenChar separator) fun _ => inner else inner

def isDigit (radix : ℕ) (c : Char) : Bool := (Radix.digit? radix c).isSome

/-- All digits that follow are taken; a number above the limit is refused. -/
def readNumber (radix limit : ℕ) (maxDigits : Option ℕ) (allowZeroPrefix : Bool) : Reader ℕ :=
  fun s =>
    let digits := s.takeWhile (isDigit radix)
    if digits.isEmpty || maxDigits.any (· < digits.length) ||
      (!allowZeroPrefix && digits.head? = some '0' && 1 < digits.length) then none
    else (Radix.parseFrom radix limit digits 0).map fun n => (n, s.dropWhile (isDigit radix))

def readOctet : Reader UInt8 := mapTo UInt8.ofNat (readNumber 10 255 (some 3) false)

def readIpv4Addr : Reader Ipv4Addr :=
  andThen (readSeparator '.' 0 readOctet) fun a =>
  andThen (readSeparator '.' 1 readOctet) fun b =>
  andThen (readSeparator '.' 2 readOctet) fun c =>
  mapTo (fun d => ⟨a, b, c, d⟩) (readSeparator '.' 3 readOctet)

def readGroup : Reader UInt16 := mapTo UInt16.ofNat (readNumber 16 0xffff (some 4) true)

def ofBeBytes (high low : UInt8) : UInt16 := UInt16.ofNat (high.toNat * 256 + low.toNat)

/-- Up to `left` groups, whether the last two are an embedded IPv4 address, and the rest. -/
def readGroups : (index left : ℕ) → List Char → (List UInt16 × Bool) × List Char
  | _, 0, s => (([], false), s)
  | index, left + 1, s =>
    match if 0 < left then readSeparator ':' index readIpv4Addr s else none with
    | some (ip, rest) => (([ofBeBytes ip.a ip.b, ofBeBytes ip.c ip.d], true), rest)
    | none => match readSeparator ':' index readGroup s with
      | some (group, rest) =>
        let found := readGroups (index + 1) left rest
        ((group :: found.1.1, found.1.2), found.2)
      | none => (([], false), s)

def Ipv6Addr.ofSegments (segments : List UInt16) : Option Ipv6Addr :=
  if h : segments.length = 8 then some ⟨segments, h⟩ else none

/-- The groups after `::`, with the zeroes that it stands for. -/
def readTail (head : List UInt16) : Reader Ipv6Addr := fun s =>
  let found := readGroups 0 (8 - (head.length + 1)) s
  let tail := found.1.1
  let zeroes := List.replicate (8 - tail.length - head.length) 0
  (Ipv6Addr.ofSegments (head ++ zeroes ++ tail)).map fun ip => (ip, found.2)

def readIpv6Addr : Reader Ipv6Addr := fun s =>
  let found := readGroups 0 8 s
  let head := found.1.1
  if head.length = 8 then (Ipv6Addr.ofSegments head).map fun ip => (ip, found.2)
  else if found.1.2 then none
  else andThen (readGivenChar ':') (fun _ => andThen (readGivenChar ':') fun _ => readTail head)
    found.2

def readPort : Reader UInt16 :=
  andThen (readGivenChar ':') fun _ => mapTo UInt16.ofNat (readNumber 10 0xffff none true)

def readScopeId : Reader UInt32 :=
  andThen (readGivenChar '%') fun _ => mapTo UInt32.ofNat (readNumber 10 0xffffffff none true)

/-- A reader that may be absent. -/
def orDefault (read : Reader α) (default : α) : Reader α := fun s => (read s).or (some (default, s))

def readSocketAddrV4 : Reader SocketAddr :=
  andThen readIpv4Addr fun ip => mapTo (fun port => .v4 ip port) readPort

def readSocketAddrV6 : Reader SocketAddr :=
  andThen (readGivenChar '[') fun _ =>
  andThen readIpv6Addr fun ip =>
  andThen (orDefault readScopeId 0) fun scopeId =>
  andThen (readGivenChar ']') fun _ =>
  mapTo (fun port => .v6 ip port scopeId) readPort

def readSocketAddr : Reader SocketAddr := fun s => (readSocketAddrV4 s).or (readSocketAddrV6 s)

/-- The whole text has to be read. -/
def parseWith (read : Reader α) (text : String) : Option α :=
  (read text.toList).bind fun p => if p.2.isEmpty then some p.1 else none

end Readers

/-- A text of more than 15 octets is not tried. -/
def Ipv4Addr.fromStr (text : String) : Option Ipv4Addr :=
  if 15 < text.utf8ByteSize then none else parseWith readIpv4Addr text

def Ipv6Addr.fromStr (text : String) : Option Ipv6Addr := parseWith readIpv6Addr text

def SocketAddr.fromStr (text : String) : Option SocketAddr := parseWith readSocketAddr text

example : (Ipv6Addr.fromStr "1::2:3.4.5.6").map (·.segments) =
    some [1, 0, 0, 0, 0, 2, 0x304, 0x506] := by decide +kernel

end Net
