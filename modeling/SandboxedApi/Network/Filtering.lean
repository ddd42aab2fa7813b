import SandboxedApi.Util.Status

namespace SandboxedApi

/-- `struct IPv4`. -/
structure IPv4 where
  ip : UInt32
  mask : UInt32
  port : UInt32
  deriving DecidableEq, Repr

/-- `struct IPv6`. -/
structure IPv6 where
  ip : Vector UInt8 16
  mask : Vector UInt8 16
  port : UInt32
  deriving DecidableEq, Repr

structure AllowedEndpoints where
  allowedIPv4 : List IPv4
  allowedIPv6 : List IPv6
  deriving DecidableEq, Repr

def AllowedEndpoints.empty : AllowedEndpoints := ⟨[], []⟩

inductive Sockaddr where
  | inet (addr : UInt32) (port : UInt16)
  | inet6 (addr : Vector UInt8 16) (port : UInt16)
  deriving DecidableEq, Repr

/-- `htons` of a `uint32_t` port: the `uint16_t` it is passed as. -/
def htons (port : UInt32) : UInt32 := port.toUInt16.toUInt32

def invalidArgument (message : String) : Status := ⟨.invalidArgument, message⟩

def notCorrectCidr (cidr : UInt32) : Status :=
  invalidArgument (toString cidr.toNat ++ " is not a correct cidr")

def inetPton4Octets : List Char → List Nat → Nat → Bool → Option (List Nat)
  | [], octets, cur, sawDigit =>
    if sawDigit ∧ octets.length = 3 then some (octets ++ [cur]) else none
  | c :: cs, octets, cur, sawDigit =>
    if c.isDigit then
      let new := cur * 10 + (c.toNat - '0'.toNat)
      if sawDigit ∧ cur = 0 then none
      else if new > 255 then none
      else if ¬ sawDigit ∧ octets.length + 1 > 4 then none
      else inetPton4Octets cs octets new true
    else if c = '.' ∧ sawDigit then
      if octets.length + 1 = 4 then none else inetPton4Octets cs (octets ++ [cur]) 0 false
    else none

/-- `inet_pton(AF_INET, src, dst)`: the address of a dotted quad, most significant octet first. -/
def inetPton4 (src : String) : Option UInt32 :=
  match inetPton4Octets src.toList [] 0 false with
  | some [a, b, c, d] => some (UInt32.ofNat (((a * 256 + b) * 256 + c) * 256 + d))
  | _ => none

example : inetPton4 "127.0.0.1" = some 0x7F000001 := by decide

example : inetPton4 "1.2.3" = none ∧ inetPton4 "01.2.3.4" = none ∧ inetPton4 "256.0.0.1" = none := by
  decide

section Parsers

variable (inetPton6 : String → Option (Vector UInt8 16)) (simpleAtoi : String → Option UInt32)

/-- `IPStringToAddr` for `AF_INET`. -/
def ipStringToAddr4 (ip : String) : Except Status UInt32 :=
  match inetPton4 ip with
  | some addr => .ok addr
  | none => .error (invalidArgument ("Invalid address: " ++ ip))

/-- `IPStringToAddr` for `AF_INET6`. -/
def ipStringToAddr6 (ip : String) : Except Status (Vector UInt8 16) :=
  match inetPton6 ip with
  | some addr => .ok addr
  | none => .error (invalidArgument ("Invalid address: " ++ ip))

/-- `ParseIpAndMask`: the text up to the first `/`, and after it a mask (when it has a dot) or
a cidr. `maskWanted` says whether the caller passed a `mask` pointer, as only `AllowIPv4`
does. -/
def parseIpAndMask (ipAndMask : String) (maskWanted : Bool) :
    Except Status (String × String × UInt32) :=
  let cs := ipAndMask.toList
  let ip := String.ofList (cs.takeWhile (· ≠ '/'))
  match cs.dropWhile (· ≠ '/') with
  | [] => .ok (ip, "", 0)
  | _ :: rest =>
    let maskOrCidr := String.ofList rest
    if '.' ∈ rest then
      if maskWanted then .ok (ip, maskOrCidr, 0)
      else .error (invalidArgument "mask argument of ParseIpAndMask cannot be NULL in this case")
    else
      match simpleAtoi maskOrCidr with
      | some cidr =>
        if cidr = 0 then .error (invalidArgument (maskOrCidr ++ " is not a correct cidr"))
        else .ok (ip, "", cidr)
      | none => .error (invalidArgument (maskOrCidr ++ " is not a correct cidr"))

end Parsers

def highBits32 : Nat → UInt32 → UInt32
  | 0, tmp => tmp
  | k + 1, tmp => highBits32 k ((tmp >>> 1) ||| 0x80000000)

/-- `CidrToInAddr`. -/
def cidrToInAddr (cidr : UInt32) : Except Status UInt32 :=
  if cidr > 32 then .error (notCorrectCidr cidr) else .ok (highBits32 cidr.toNat 0)

def highBits8 : Nat → UInt8 → UInt8
  | 0, tmp => tmp
  | k + 1, tmp => highBits8 k ((tmp >>> 1) ||| 0x80)

def cidrBytes (addr : Vector UInt8 16) (i cidr : Nat) : Vector UInt8 16 :=
  if cidr ≥ 8 then cidrBytes (addr.setIfInBounds i 0xff) (i + 1) (cidr - 8)
  else if cidr ≠ 0 then addr.setIfInBounds i (highBits8 cidr 0)
  else addr
termination_by cidr

/-- `CidrToIn6Addr`. -/
def cidrToIn6Addr (cidr : UInt32) : Except Status (Vector UInt8 16) :=
  if cidr > 128 then .error (notCorrectCidr cidr)
  else .ok (cidrBytes (Vector.replicate 16 0) 0 cidr.toNat)

/-- `IsIPv4MaskCorrect`: not zero, and the complement plus one a power of two. -/
def isIPv4MaskCorrect (m : UInt32) : Bool :=
  if m = 0 then false
  else
    let m := ~~~m + 1
    m &&& (m - 1) = 0

namespace AllowedEndpoints

section Allow

variable (inetPton6 : String → Option (Vector UInt8 16)) (simpleAtoi : String → Option UInt32)

def allowIPv4Mask (mask : String) (cidr : UInt32) : Except Status UInt32 :=
  if mask ≠ "" then
    ipStringToAddr4 mask >>= fun m =>
      if isIPv4MaskCorrect m then pure m else throw (invalidArgument (mask ++ " is not a correct mask"))
  else if cidr > 32 then throw (notCorrectCidr cidr)
  else cidrToInAddr (if cidr = 0 then 32 else cidr)

/-- `AllowIPv4(ip, mask, cidr, port)`. -/
def allowIPv4Parts (ip mask : String) (cidr port : UInt32) (e : AllowedEndpoints) :
    Except Status AllowedEndpoints :=
  allowIPv4Mask mask cidr >>= fun m =>
  ipStringToAddr4 ip >>= fun addr =>
  pure { e with allowedIPv4 := e.allowedIPv4 ++ [⟨addr, m, htons port⟩] }

/-- `AllowIPv6(ip, cidr, port)`: a cidr of zero means 128. -/
def allowIPv6Parts (ip : String) (cidr port : UInt32) (e : AllowedEndpoints) :
    Except Status AllowedEndpoints :=
  let cidr := if cidr = 0 then 128 else cidr
  ipStringToAddr6 inetPton6 ip >>= fun addr =>
  cidrToIn6Addr cidr >>= fun m =>
  pure { e with allowedIPv6 := e.allowedIPv6 ++ [⟨addr, m, htons port⟩] }

/-- `AllowedEndpoints::AllowIPv4(ip_and_mask, port)`. -/
def allowIPv4 (ipAndMask : String) (port : UInt32) (e : AllowedEndpoints) :
    Except Status AllowedEndpoints :=
  parseIpAndMask simpleAtoi ipAndMask true >>= fun parts =>
  allowIPv4Parts parts.1 parts.2.1 parts.2.2 port e

/-- `AllowedEndpoints::AllowIPv6(ip_and_mask, port)`. -/
def allowIPv6 (ipAndMask : String) (port : UInt32) (e : AllowedEndpoints) :
    Except Status AllowedEndpoints :=
  parseIpAndMask simpleAtoi ipAndMask false >>= fun parts =>
  allowIPv6Parts inetPton6 parts.1 parts.2.2 port e

end Allow

end AllowedEndpoints

def IPv4.allows (entry : IPv4) (addr : UInt32) (port : UInt16) : Bool :=
  (entry.ip &&& entry.mask) == (addr &&& entry.mask) && (entry.port == 0 || entry.port == port.toUInt32)

def IPv6.allows (entry : IPv6) (addr : Vector UInt8 16) (port : UInt16) : Bool :=
  (List.finRange 16).all (fun i => (entry.ip[i] &&& entry.mask[i]) == (addr[i] &&& entry.mask[i])) &&
    (entry.port == 0 || entry.port == port.toUInt32)

namespace AllowedEndpoints

def isIPv4Allowed (e : AllowedEndpoints) (addr : UInt32) (port : UInt16) : Bool :=
  e.allowedIPv4.any (fun entry => entry.allows addr port)

def isIPv6Allowed (e : AllowedEndpoints) (addr : Vector UInt8 16) (port : UInt16) : Bool :=
  e.allowedIPv6.any (fun entry => entry.allows addr port)

/-- `IsEndpointAllowed` on an IP address. -/
def isEndpointAllowed (e : AllowedEndpoints) : Sockaddr → Bool
  | .inet addr port => e.isIPv4Allowed addr port
  | .inet6 addr port => e.isIPv6Allowed addr port

end AllowedEndpoints

end SandboxedApi
