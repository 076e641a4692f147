/-
Outbound requests under the operator's destination policy.  A URL is checked before a
request is sent and every dial resolves and checks its host again, so what the name server
said before does not count.
-/
import Aegion.CallHistory
import Aegion.GoText
import Aegion.IPAddress
import Mathlib.Data.List.Destutter

namespace Aegion.Egress

open Go IP Service

section Addresses

/-- `netip.Addr`; the zero value is no address. -/
inductive Addr where
  | zero
  | v4 (bits : BitVec 32)
  | v6 (bits : BitVec 128) (zone : String)
deriving DecidableEq, Repr

/-- `Addr.Unmap`: an IPv4 address in IPv6 form becomes the IPv4 address. -/
def Addr.unmap : Addr → Addr
  | .v6 bits zone =>
      if bits >>> 32 = 0xffff#128 then .v4 (bits.setWidth 32) else .v6 bits zone
  | address => address

/-- Addresses with a zone are in no range. -/
def Addr.plain? : Addr → Option Address
  | .v4 bits => some (.v4 bits)
  | .v6 bits zone => if zone = "" then some (.v6 bits) else none
  | .zero => none

/-- `Prefix.Contains`. -/
def contains (range : Cidr) (address : Addr) : Bool :=
  address.plain?.any range.contains

def Addr.isValid (address : Addr) : Bool := address ≠ .zero

/-- A test by leading bits, for either family. -/
def Addr.within (v4 : List (BitVec 32 × Nat)) (v6 : List (BitVec 128 × Nat)) : Addr → Bool
  | .zero => false
  | .v4 bits => v4.any fun range => sameLeading range.2 range.1 bits
  | .v6 bits _ => v6.any fun range => sameLeading range.2 range.1 bits

def Addr.isLoopback : Addr → Bool := Addr.within [(0x7f000000#32, 8)] [(1#128, 128)]

def Addr.isMulticast : Addr → Bool :=
  Addr.within [(0xe0000000#32, 4)] [(0xff#128 <<< 120, 8)]

def Addr.isLinkLocalUnicast : Addr → Bool :=
  Addr.within [(0xa9fe0000#32, 16)] [(0xfe80#128 <<< 112, 10)]

def Addr.isPrivate : Addr → Bool :=
  Addr.within [(0x0a000000#32, 8), (0xac100000#32, 12), (0xc0a80000#32, 16)]
    [(0xfc#128 <<< 120, 7)]

/-- The flags of an IPv6 multicast address do not count. -/
def Addr.isLinkLocalMulticast : Addr → Bool
  | .zero => false
  | .v4 bits => sameLeading 24 0xe0000000#32 bits
  | .v6 bits _ => (bits >>> 112) &&& 0xff0f#128 = 0xff02#128

def Addr.isUnspecified (address : Addr) : Bool :=
  address = .v4 0#32 || address = .v6 0#128 ""

def Addr.isGlobalUnicast (address : Addr) : Bool :=
  address ≠ .zero && address ≠ .v4 0#32 && address ≠ .v4 0xffffffff#32 &&
    address ≠ .v6 0#128 "" && !address.isLoopback && !address.isMulticast &&
    !address.isLinkLocalUnicast

def forbiddenPrefixes : List Cidr :=
  [⟨.v4 0x64400000#32, 10⟩, ⟨.v4 0xc0000000#32, 24⟩, ⟨.v4 0xc0000200#32, 24⟩,
    ⟨.v4 0xc6120000#32, 15⟩, ⟨.v4 0xc6336400#32, 24⟩, ⟨.v4 0xcb007100#32, 24⟩,
    ⟨.v4 0xf0000000#32, 4⟩, ⟨.v6 (0x20010db8#128 <<< 96), 32⟩]

def isForbiddenAddress (address : Addr) : Bool :=
  !address.isGlobalUnicast || address.isPrivate || address.isLoopback ||
    address.isLinkLocalUnicast || address.isLinkLocalMulticast || address.isMulticast ||
    address.isUnspecified || forbiddenPrefixes.any (contains · address)

def inPrefixes (address : Addr) (prefixes : List Cidr) : Bool :=
  prefixes.any (contains · address)

end Addresses

inductive EgressError where
  | destinationNotAllowed
  | unsafeAddress
  | redirectNotAllowed
  | responseTooLarge
  /-- `egress request URL is required` -/
  | urlRequired
  /-- `parse egress URL: <cause>` -/
  | parseURL (cause : String)
  /-- `invalid egress URL: <destinationNotAllowed>` -/
  | invalidURL
  /-- `egress URL must not contain a fragment` -/
  | fragment
  /-- `resolve egress host "<host>": <cause>` -/
  | resolve (host cause : String)
  /-- `resolve egress host "<host>": no addresses` -/
  | noAddresses (host : String)
  /-- `invalid allowed host "<host>"` -/
  | invalidAllowedHost (host : String)
  /-- `invalid allowed CIDR: <cause>` -/
  | invalidAllowedCIDR (cause : String)
  /-- `invalid trusted CIDR: <cause>` -/
  | invalidTrustedCIDR (cause : String)
  /-- `at least one egress host or CIDR allowlist entry is required` -/
  | nothingAllowed
  /-- An error of the network, passed on unchanged. -/
  | network (cause : String)
deriving DecidableEq, Repr

/-- What `url.Parse` finds. -/
structure URL where
  scheme : String
  host : String
  hostname : String
  hasUser : Bool
  fragment : String
deriving DecidableEq, Repr

/-- The parsers and printers of the packages `net`, `net/netip` and `net/url`. -/
structure Platform where
  tables : CaseTables
  parseAddr : String → Option Addr
  parsePrefix : String → Except String Cidr
  splitHostPort : String → Except String (String × String)
  parseURL : String → Except String URL
  printURL : URL → String

structure Policy where
  allowedHosts : List String
  allowedCIDRs : List String
  trustedCIDRs : List String
  maxBodyBytes : Int

structure CompiledPolicy where
  allowedHosts : List String
  allowedCIDRs : List Cidr
  trustedCIDRs : List Cidr
deriving DecidableEq, Repr

structure Client where
  policy : CompiledPolicy
  maxBodySize : Int
deriving DecidableEq, Repr

/-- What the network is asked: the addresses of a host, a connection, and one exchange of
the HTTP transport. -/
inductive Call where
  | lookupNetIP (host : String)
  | connect (network : String) (address : Addr) (port : String)
  | roundTrip (url : URL)
deriving DecidableEq, Repr

/-- A response; `location` is where a redirect points. -/
structure Response where
  location : Option String
  contentLength : Int
deriving DecidableEq, Repr

def Reply : Call → Type
  | .lookupNetIP _ => Except String (List Addr)
  | .connect _ _ _ => Except String Unit
  | .roundTrip _ => Except String Response

variable (platform : Platform)

section Compile

def normalizeHost (host : String) : String :=
  platform.tables.toLower (trimSuffix (trimSpace host) ".")

/-- `strings.Contains(host, "://") || strings.Contains(host, "/")`; the first implies the
second. -/
def hasSlash (host : String) : Bool := '/' ∈ host.toList

def compileHosts : List String → Except EgressError (List String)
  | [] => .ok []
  | host :: rest =>
      let host := normalizeHost platform host
      if host = "" ∨ hasSlash host then .error (.invalidAllowedHost host)
      else (compileHosts rest).map (host :: ·)

def parsePrefixes : List String → Except String (List Cidr)
  | [] => .ok []
  | value :: rest =>
      match platform.parsePrefix (trimSpace value) with
      | .error cause => .error cause
      | .ok range => (parsePrefixes rest).map (range.masked :: ·)

def compilePolicy (policy : Policy) : Except EgressError CompiledPolicy :=
  match compileHosts platform policy.allowedHosts with
  | .error e => .error e
  | .ok allowedHosts =>
      match parsePrefixes platform policy.allowedCIDRs with
      | .error cause => .error (.invalidAllowedCIDR cause)
      | .ok allowedCIDRs =>
          if allowedHosts = [] ∧ allowedCIDRs = [] then .error .nothingAllowed
          else
            match parsePrefixes platform policy.trustedCIDRs with
            | .error cause => .error (.invalidTrustedCIDR cause)
            | .ok trustedCIDRs => .ok ⟨allowedHosts, allowedCIDRs, trustedCIDRs⟩

def newClient (policy : Policy) : Except EgressError Client :=
  (compilePolicy platform policy).map fun compiled =>
    { policy := compiled
      maxBodySize := if policy.maxBodyBytes ≤ 0 then 2 ^ 20 else policy.maxBodyBytes }

end Compile

section Checks

variable (policy : CompiledPolicy)

/-- One entry of the allowlist: the host itself, or `*.` and a domain. -/
def matchesEntry (host allowed : String) : Bool :=
  host = allowed || hasPrefix allowed "*." && hasSuffix host (trimPrefix allowed "*")

def hostAllowed (host : String) : Bool :=
  match platform.parseAddr host with
  | some literal => inPrefixes literal.unmap policy.allowedCIDRs
  | none => policy.allowedHosts.any (matchesEntry host)

def validateAddress (address : Addr) : Except EgressError Unit :=
  if address.isValid = false ∨ isForbiddenAddress address then
    if inPrefixes address policy.trustedCIDRs ∧ inPrefixes address policy.allowedCIDRs then
      .ok ()
    else .error .unsafeAddress
  else if policy.allowedCIDRs ≠ [] ∧ inPrefixes address policy.allowedCIDRs = false ∧
      policy.allowedHosts = [] then
    .error .destinationNotAllowed
  else .ok ()

/-- The loop over the answers of the name server; one that fails stops it. -/
def validateAll : List Addr → Except EgressError (List Addr)
  | [] => .ok []
  | address :: rest =>
      match validateAddress policy address.unmap with
      | .error e => .error e
      | .ok () => (validateAll rest).map (address.unmap :: ·)

/-- `slices.Compact`. -/
def compact (addresses : List Addr) : List Addr := addresses.destutter (· ≠ ·)

def resolveAndValidate (host : String) : Service Reply EgressError (List Addr) := do
  let host := normalizeHost platform host
  rejectIf (host = "" ∨ hostAllowed platform policy host = false) .destinationNotAllowed
  match platform.parseAddr host with
  | some literal => do
      ofExcept (validateAddress policy literal.unmap)
      succeed [literal.unmap]
  | none => do
      let addresses ← statement (.lookupNetIP host) fun answer =>
        Except.mapError (EgressError.resolve host) answer
      rejectIf (addresses = []) (.noAddresses host)
      let resolved ← ofExcept (validateAll policy addresses)
      succeed (compact resolved)

/-- The loop over the addresses, with the last error; without addresses there is neither a
connection nor an error. -/
def dialAny (network port : String) (dialErr : Option String) :
    List Addr → Service Reply EgressError (Option Addr)
  | [] =>
      match dialErr with
      | none => succeed none
      | some cause => reject (.network cause)
  | address :: rest => do
      let outcome ← attempt (statement (.connect network address port) fun answer => answer)
      match outcome with
      | .ok () => succeed (some address)
      | .error cause => dialAny network port (some cause) rest

def dialContext (network address : String) : Service Reply EgressError (Option Addr) := do
  let (host, port) ← ofExcept ((platform.splitHostPort address).mapError .network)
  let addresses ← resolveAndValidate platform policy host
  dialAny network port none addresses

end Checks

section Requests

variable (client : Client)

def validateURL (rawURL : String) : Service Reply EgressError URL := do
  let parsed ← ofExcept ((platform.parseURL rawURL).mapError .parseURL)
  rejectIf (parsed.scheme ≠ "https" ∨ parsed.host = "" ∨ parsed.hasUser) .invalidURL
  rejectIf (parsed.fragment ≠ "") .fragment
  let _ ← resolveAndValidate platform client.policy parsed.hostname
  succeed parsed

/-- `CheckRedirect` of the client. -/
def checkRedirect : Except EgressError Unit := .error .redirectNotAllowed

/-- `http.Client.Do`: a redirect is followed only if `CheckRedirect` agrees, for as many
hops as there are. -/
def httpDo (redirect : String → URL) : Nat → URL → Service Reply EgressError Response
  | 0, _ => reject (.network "stopped after 10 redirects")
  | hops + 1, url => do
      let response ← statement (.roundTrip url) fun answer =>
        Except.mapError EgressError.network answer
      match response.location with
      | none => succeed response
      | some location => do
          ofExcept checkRedirect
          httpDo redirect hops (redirect location)

/-- `Client.Do`; reading the body is left to the caller. -/
def doRequest (redirect : String → URL) (hops : Nat) (url : Option URL) :
    Service Reply EgressError Response := do
  match url with
  | none => reject .urlRequired
  | some url => do
      let _ ← validateURL platform client (platform.printURL url)
      let response ← httpDo redirect hops url
      rejectIf (response.contentLength > client.maxBodySize) .responseTooLarge
      succeed response

end Requests

/-- What is asked of a client: a check of a URL, a request, and the dials of its HTTP
transport, which are free to happen at any time and for any address. -/
inductive Request where
  | validateURL (rawURL : String)
  | doRequest (hops : Nat) (url : Option URL)
  | dial (network address : String)
deriving DecidableEq, Repr

inductive Answer where
  | validated (url : URL)
  | responded (response : Response)
  | dialed (connection : Option Addr)
  | failed (e : EgressError)
deriving DecidableEq, Repr

def serve (redirect : String → URL) (client : Client) : Request → Program Reply Answer
  | .validateURL rawURL =>
      (validateURL platform client rawURL).finish .validated .failed
  | .doRequest hops url =>
      (doRequest platform client redirect hops url).finish .responded .failed
  | .dial network address =>
      (dialContext platform client.policy network address).finish .dialed .failed

/-- What the network answers, chosen anew for every call. -/
structure Choice where
  addresses : Except String (List Addr)
  connected : Except String Unit
  response : Except String Response

def perform (choice : Choice) : (c : Call) → Unit → Reply c × Unit
  | .lookupNetIP _, s => (choice.addresses, s)
  | .connect _ _ _, s => (choice.connected, s)
  | .roundTrip _, s => (choice.response, s)

def system (redirect : String → URL) (client : Client) : System Request Reply Answer Unit Choice :=
  ⟨serve platform redirect client, perform⟩

abbrev Trace := History Request Reply Answer

/-- Everything that happens when the scheduler's decisions are carried out. -/
def runFrom (redirect : String → URL) (client : Client)
    (actions : List (Action Request Choice)) : Trace :=
  ((system platform redirect client).execute actions (System.initial ())).history

end Aegion.Egress
