/-
Where an egress client connects to.  Every connection belongs to one dial, and its address
is one that this dial has resolved for its host and checked against the policy.
-/
import Aegion.Egress
import Aegion.HistoryLaws

namespace Aegion.Egress

open Go IP Service History

section Policies

variable (platform : Platform)

/-- The address lies in one of the ranges, as they are written in the policy. -/
def Covers (texts : List String) (address : Addr) : Prop :=
  ∃ text ∈ texts, ∃ range, platform.parsePrefix (trimSpace text) = .ok range ∧
    contains range address = true

/-- The host is on the allowlist: an address in an allowed range, or a name that an entry
stands for. -/
def Allowlisted (policy : Policy) (host : String) : Prop :=
  match platform.parseAddr host with
  | some literal => Covers platform policy.allowedCIDRs literal.unmap
  | none => ∃ entry ∈ policy.allowedHosts,
      matchesEntry host (normalizeHost platform entry) = true

/-- What may be connected to. -/
def Permitted (policy : Policy) (address : Addr) : Prop :=
  isForbiddenAddress address = false ∨
    Covers platform policy.trustedCIDRs address ∧ Covers platform policy.allowedCIDRs address

variable {platform} {policy : Policy} {compiled : CompiledPolicy}

theorem contains_masked (range : Cidr) (address : Addr) :
    contains range.masked address = contains range address := by
  rw [contains, contains, funext range.contains_masked]

theorem covers_of_inPrefixes {texts : List String} {ranges : List Cidr}
    (hparsed : parsePrefixes platform texts = .ok ranges) {address : Addr}
    (hin : inPrefixes address ranges = true) : Covers platform texts address := by
  induction texts generalizing ranges with
  | nil =>
      cases hparsed
      cases hin
  | cons text rest ih =>
      rw [parsePrefixes] at hparsed
      split at hparsed
      · cases hparsed
      · rename_i range hrange
        cases hrest : parsePrefixes platform rest with
        | error cause =>
            rw [hrest] at hparsed
            cases hparsed
        | ok others =>
            rw [hrest] at hparsed
            cases hparsed
            rw [inPrefixes, List.any_cons, Bool.or_eq_true, contains_masked] at hin
            rcases hin with hfirst | hothers
            · exact ⟨text, List.mem_cons_self, range, hrange, hfirst⟩
            · obtain ⟨other, hother, hcovers⟩ := ih hrest hothers
              exact ⟨other, List.mem_cons_of_mem _ hother, hcovers⟩

theorem entry_of_compileHosts {entries hosts : List String}
    (hcompiled : compileHosts platform entries = .ok hosts) {host : String}
    (hhost : host ∈ hosts) : ∃ entry ∈ entries, host = normalizeHost platform entry := by
  induction entries generalizing hosts with
  | nil =>
      cases hcompiled
      cases hhost
  | cons entry rest ih =>
      rw [compileHosts] at hcompiled
      split at hcompiled
      · cases hcompiled
      · cases hrest : compileHosts platform rest with
        | error e =>
            rw [hrest] at hcompiled
            cases hcompiled
        | ok others =>
            rw [hrest] at hcompiled
            cases hcompiled
            rcases List.mem_cons.mp hhost with rfl | hother
            · exact ⟨entry, List.mem_cons_self, rfl⟩
            · obtain ⟨other, hmem, hnormal⟩ := ih hrest hother
              exact ⟨other, List.mem_cons_of_mem _ hmem, hnormal⟩

/-- What the parts of a compiled policy were compiled from. -/
theorem compilePolicy_spec (hcompiled : compilePolicy platform policy = .ok compiled) :
    compileHosts platform policy.allowedHosts = .ok compiled.allowedHosts ∧
      parsePrefixes platform policy.allowedCIDRs = .ok compiled.allowedCIDRs ∧
      parsePrefixes platform policy.trustedCIDRs = .ok compiled.trustedCIDRs := by
  unfold compilePolicy at hcompiled
  split at hcompiled
  · cases hcompiled
  · rename_i hosts hhosts
    split at hcompiled
    · cases hcompiled
    · rename_i allowed hallowed
      split at hcompiled
      · cases hcompiled
      · split at hcompiled
        · cases hcompiled
        · rename_i trusted htrusted
          cases hcompiled
          exact ⟨hhosts, hallowed, htrusted⟩

variable (hcompiled : compilePolicy platform policy = .ok compiled)
include hcompiled

theorem allowlisted_of_hostAllowed {host : String}
    (hallowed : hostAllowed platform compiled host = true) : Allowlisted platform policy host := by
  obtain ⟨hhosts, hranges, -⟩ := compilePolicy_spec hcompiled
  unfold hostAllowed at hallowed
  unfold Allowlisted
  cases hliteral : platform.parseAddr host with
  | some literal =>
      rw [hliteral] at hallowed
      exact covers_of_inPrefixes hranges hallowed
  | none =>
      rw [hliteral] at hallowed
      obtain ⟨allowed, hmem, hmatches⟩ := List.any_eq_true.mp hallowed
      obtain ⟨entry, hentry, rfl⟩ := entry_of_compileHosts hhosts hmem
      exact ⟨entry, hentry, hmatches⟩

theorem permitted_of_validateAddress {address : Addr}
    (hvalid : validateAddress compiled address = .ok ()) : Permitted platform policy address := by
  obtain ⟨-, hallowed, htrusted⟩ := compilePolicy_spec hcompiled
  unfold validateAddress at hvalid
  split at hvalid
  · split at hvalid
    · rename_i hboth
      exact .inr ⟨covers_of_inPrefixes htrusted hboth.1, covers_of_inPrefixes hallowed hboth.2⟩
    · cases hvalid
  · rename_i hsafe
    rw [not_or, Bool.not_eq_true] at hsafe
    exact .inl hsafe.2

/-- Every address that passed the loop is the form of an answer without mapping. -/
theorem permitted_of_validateAll {answers resolved : List Addr}
    (hvalid : validateAll compiled answers = .ok resolved) {address : Addr}
    (haddress : address ∈ resolved) :
    Permitted platform policy address ∧ ∃ answer ∈ answers, address = answer.unmap := by
  induction answers generalizing resolved with
  | nil =>
      cases hvalid
      cases haddress
  | cons answer rest ih =>
      rw [validateAll] at hvalid
      split at hvalid
      · cases hvalid
      · rename_i hfirst
        cases hrest : validateAll compiled rest with
        | error e =>
            rw [hrest] at hvalid
            cases hvalid
        | ok others =>
            rw [hrest] at hvalid
            cases hvalid
            rcases List.mem_cons.mp haddress with rfl | hother
            · exact ⟨permitted_of_validateAddress hcompiled hfirst, answer, List.mem_cons_self, rfl⟩
            · obtain ⟨hpermitted, other, hmem, heq⟩ := ih hrest hother
              exact ⟨hpermitted, other, List.mem_cons_of_mem _ hmem, heq⟩

end Policies

section Duties

variable (platform : Platform) (policy : Policy)

abbrev Past := List (Called Reply)

/-- The host was resolved to these addresses: it is an address itself and nobody was
asked, or the only lookup has just answered. -/
inductive Resolved (host : String) (addresses : List Addr) : Past → Prop
  | literal {address : Addr} (hliteral : platform.parseAddr host = some address)
      (haddresses : addresses = [address.unmap]) : Resolved host addresses []
  | answered {answers : List Addr} (hname : platform.parseAddr host = none)
      (haddresses : ∀ address ∈ addresses, ∃ answer ∈ answers, address = answer.unmap) :
      Resolved host addresses [⟨.lookupNetIP host, .ok answers⟩]

/-- Attempts to connect that have failed. -/
def FailedDials (calls : Past) : Prop :=
  ∀ call ∈ calls, ∃ network address port cause,
    call = ⟨.connect network address port, .error cause⟩

/-- What has happened in a dial that connects to this address. -/
def DialDuty (network : String) (address : Addr) (port : String) (request : Request)
    (past : Past) : Prop :=
  ∃ dialed host addresses, ∃ failed resolution : Past,
    request = .dial network dialed ∧ platform.splitHostPort dialed = .ok (host, port) ∧
      Allowlisted platform policy (normalizeHost platform host) ∧
      past = failed ++ resolution ∧ FailedDials failed ∧
      Resolved platform (normalizeHost platform host) addresses resolution ∧
      address ∈ addresses ∧ Permitted platform policy address

def callDuty (request : Request) (past : Past) : Called Reply → Prop
  | ⟨.connect network address port, _⟩ =>
      DialDuty platform policy network address port request past
  | ⟨.roundTrip _, _⟩ => ∀ url reply, (⟨.roundTrip url, reply⟩ : Called Reply) ∉ past
  | _ => True

end Duties

section Programs

variable {platform : Platform} {policy : Policy} {client : Client}
  (hcompiled : compilePolicy platform policy = .ok client.policy)

include hcompiled in
theorem yields_resolveAndValidate {request : Request} {host : String} :
    (resolveAndValidate platform client.policy host).Yields (callDuty platform policy request)
      (fun addresses later => Allowlisted platform policy (normalizeHost platform host) ∧
        Resolved platform (normalizeHost platform host) addresses later ∧
        ∀ address ∈ addresses, Permitted platform policy address) [] := by
  unfold resolveAndValidate
  simp only [bind_eq, yields_bind, yields_rejectIf]
  intro hallowed
  rw [not_or, Bool.not_eq_false] at hallowed
  have hlisted := allowlisted_of_hostAllowed hcompiled hallowed.2
  split
  · rename_i literal hliteral
    simp only [yields_bind, yields_ofExcept, yields_succeed]
    intro _ hvalid
    refine ⟨hlisted, .literal hliteral rfl, fun address haddress => ?_⟩
    rw [List.mem_singleton.mp haddress]
    exact permitted_of_validateAddress hcompiled hvalid
  · rename_i hname
    simp only [yields_bind, yields_statement, callDuty, true_and, yields_rejectIf,
      yields_ofExcept, yields_succeed]
    rintro (cause | answers) found hfound
    · cases hfound
    · cases hfound
      intro _ resolved hvalid
      have hmem : ∀ address ∈ compact resolved, address ∈ resolved := fun address h =>
        (List.destutter_sublist _ _).subset h
      refine ⟨hlisted, .answered hname fun address haddress => ?_, fun address haddress => ?_⟩
      · exact (permitted_of_validateAll hcompiled hvalid (hmem address haddress)).2
      · exact (permitted_of_validateAll hcompiled hvalid (hmem address haddress)).1

theorem yields_dialAny {network dialed host port : String} {all : List Addr}
    {resolution : Past} (hsplit : platform.splitHostPort dialed = .ok (host, port))
    (hlisted : Allowlisted platform policy (normalizeHost platform host))
    (hresolved : Resolved platform (normalizeHost platform host) all resolution)
    (hpermitted : ∀ address ∈ all, Permitted platform policy address)
    (dialErr : Option String) {addresses : List Addr}
    (hsubset : ∀ address ∈ addresses, address ∈ all)
    {failed : Past} (hfailed : FailedDials failed) :
    (dialAny network port dialErr addresses).Yields
      (callDuty platform policy (.dial network dialed)) (fun _ _ => True)
      (failed ++ resolution) := by
  induction addresses generalizing dialErr failed with
  | nil => cases dialErr <;> simp [dialAny]
  | cons address rest ih =>
      unfold dialAny
      simp only [bind_eq, yields_bind, yields_attempt]
      have hmem := hsubset address List.mem_cons_self
      refine keeps_statement.mpr fun reply => ?_
      refine ⟨⟨dialed, host, all, failed, resolution, rfl, hsplit, hlisted, rfl, hfailed,
        hresolved, hmem, hpermitted address hmem⟩, ?_⟩
      rcases reply with cause | ⟨⟩
      · have hfailed' : FailedDials (⟨.connect network address port, .error cause⟩ :: failed) := by
          intro call hcall
          rcases List.mem_cons.mp hcall with rfl | hold
          · exact ⟨network, address, port, cause, rfl⟩
          · exact hfailed call hold
        exact ih (some cause)
          (fun other hother => hsubset other (List.mem_cons_of_mem _ hother)) hfailed'
      · exact yields_succeed.mpr trivial

/-- A lookup is not an exchange. -/
theorem Resolved.roundTrip_notMem {host : String} {addresses : List Addr} {past : Past}
    (hresolved : Resolved platform host addresses past) (url : URL)
    (reply : Reply (.roundTrip url)) : (⟨.roundTrip url, reply⟩ : Called Reply) ∉ past := by
  cases hresolved with
  | literal _ _ => simp
  | answered _ _ =>
      intro hmem
      cases List.mem_singleton.mp hmem

/-- The exchange of a request is its only one, since no redirect is followed. -/
theorem yields_httpDo (request : Request) (redirect : String → URL) (hops : Nat) (url : URL)
    {past : Past} (hpast : ∀ url reply, (⟨.roundTrip url, reply⟩ : Called Reply) ∉ past) :
    (httpDo redirect hops url).Yields (callDuty platform policy request)
      (fun _ _ => True) past := by
  cases hops with
  | zero => simp [httpDo]
  | succ hops =>
      unfold httpDo
      simp only [bind_eq, yields_bind]
      refine yields_statement.mpr fun reply => ⟨hpast, fun response _ => ?_⟩
      cases response.location with
      | none => exact yields_succeed.mpr trivial
      | some location => simp [checkRedirect]

include hcompiled

theorem yields_dialContext (network dialed : String) :
    (dialContext platform client.policy network dialed).Yields
      (callDuty platform policy (.dial network dialed)) (fun _ _ => True) [] := by
  unfold dialContext
  simp only [bind_eq, yields_bind, yields_ofExcept]
  rintro ⟨host, port⟩ hsplit
  have hsplit : platform.splitHostPort dialed = .ok (host, port) := by
    cases hparts : platform.splitHostPort dialed with
    | error cause =>
        rw [hparts] at hsplit
        cases hsplit
    | ok parts =>
        rw [hparts] at hsplit
        cases hsplit
        rfl
  refine (yields_resolveAndValidate hcompiled).imp ?_
  rintro addresses later - ⟨hlisted, hresolved, hpermitted⟩
  have hnone : FailedDials [] := fun _ h => by cases h
  exact yields_dialAny hsplit hlisted hresolved hpermitted none (fun _ h => h) hnone

theorem yields_validateURL (request : Request) (rawURL : String) :
    (validateURL platform client rawURL).Yields (callDuty platform policy request)
      (fun _ later => ∀ url reply, (⟨.roundTrip url, reply⟩ : Called Reply) ∉ later) [] := by
  unfold validateURL
  simp only [bind_eq, yields_bind, yields_ofExcept, yields_rejectIf, yields_succeed]
  intro parsed _ _ _
  refine (yields_resolveAndValidate hcompiled).imp ?_
  rintro addresses later - ⟨-, hresolved, -⟩
  exact hresolved.roundTrip_notMem

theorem keeps_serve (redirect : String → URL) (request : Request) :
    (serve platform redirect client request).Keeps (callDuty platform policy request)
      (fun _ _ => True) [] := by
  cases request with
  | validateURL rawURL =>
      exact (yields_validateURL hcompiled _ rawURL).finish_plain
  | doRequest hops url =>
      have hyields : (doRequest platform client redirect hops url).Yields
          (callDuty platform policy (.doRequest hops url)) (fun _ _ => True) [] := by
        unfold doRequest
        cases url with
        | none => simp
        | some url =>
            simp only [bind_eq, yields_bind, yields_rejectIf, yields_succeed]
            refine (yields_validateURL hcompiled _ _).imp ?_
            rintro _ later - hpast
            exact (yields_httpDo _ redirect hops url hpast).imp fun _ _ _ _ _ => trivial
      exact hyields.finish_plain
  | dial network dialed =>
      exact (yields_dialContext hcompiled network dialed).finish_plain

end Programs

/-- Whatever the resolver answers, call by call, and however dials and requests
interleave: a connection is made in a dial whose host is on the allowlist, to an address
to which that very dial has resolved it, and the address is not forbidden or lies in a
trusted and an allowed range.  And a request is sent once, so no redirect is followed. -/
theorem connections_validated (platform : Platform) (policy : Policy) (client : Client)
    (redirect : String → URL) (hclient : newClient platform policy = .ok client)
    (actions : List (Action Request Choice)) :
    (∀ thread request network address port reply past,
      (⟨thread, request, .called ⟨.connect network address port, reply⟩⟩ :
          Entry Request Reply Answer) :: past <:+
        runFrom platform redirect client actions →
      DialDuty platform policy network address port request (own thread past)) ∧
    (∀ thread request url reply past,
      (⟨thread, request, .called ⟨.roundTrip url, reply⟩⟩ :
          Entry Request Reply Answer) :: past <:+
        runFrom platform redirect client actions →
      ∀ earlier reply', (⟨.roundTrip earlier, reply'⟩ : Called Reply) ∉ own thread past) := by
  have hcompiled : compilePolicy platform policy = .ok client.policy := by
    unfold newClient at hclient
    cases hpolicy : compilePolicy platform policy with
    | error e =>
        rw [hpolicy] at hclient
        cases hclient
    | ok compiled =>
        rw [hpolicy] at hclient
        cases hclient
        rfl
  have howes := (system platform redirect client).execute_owes
    (keeps_serve hcompiled redirect) actions ()
  exact ⟨fun thread request network address port reply past hentry =>
      howes _ past hentry,
    fun thread request url reply past hentry => howes _ past hentry⟩

section Sample

instance (c : Call) : DecidableEq (Reply c) := by
  cases c <;> unfold Reply <;> infer_instance

def samplePlatform : Platform where
  tables := ⟨id, id⟩
  parseAddr _ := none
  parsePrefix _ := .error "no CIDR"
  splitHostPort address :=
    match split address ':' with
    | [host, port] => .ok (host, port)
    | _ => .error "too many colons in address"
  parseURL _ := .error "no URL"
  printURL _ := ""

def samplePolicy : Policy := ⟨["*.example"], [], [], 0⟩

def sampleClient : Client := ⟨⟨["*.example"], [], []⟩, 2 ^ 20⟩

/-- The name server answers with this address, and the network connects. -/
def sampleChoice (address : Addr) : Choice := ⟨.ok [address], .ok (), .error "unused"⟩

/-- Two dials, the first of which is answered with a private address. -/
def reboundDials : List (Action Request Choice) :=
  let connect := sampleChoice (.v4 0x5db8d822#32)
  let rebound := sampleChoice (.v4 0x0a000005#32)
  [.start (.dial "tcp" "API.example.:443"), .start (.dial "tcp" "API.example.:443"),
    .step 0 rebound, .step 1 connect, .step 0 connect, .step 1 connect]

def noRedirect (_ : String) : URL := ⟨"", "", "", false, ""⟩

/-- What has happened before the second dial connects. -/
def reboundPast : Trace :=
  [⟨0, .dial "tcp" "API.example.:443", .answered (.failed .unsafeAddress)⟩,
    ⟨1, .dial "tcp" "API.example.:443",
      .called ⟨.lookupNetIP "api.example", .ok [.v4 0x5db8d822#32]⟩⟩,
    ⟨0, .dial "tcp" "API.example.:443",
      .called ⟨.lookupNetIP "api.example", .ok [.v4 0x0a000005#32]⟩⟩]

theorem reboundDials_run :
    runFrom samplePlatform noRedirect sampleClient reboundDials =
      ⟨1, .dial "tcp" "API.example.:443",
        .called ⟨.connect "tcp" (.v4 0x5db8d822#32) "443", .ok ()⟩⟩ :: reboundPast := by
  decide +kernel

/-- The dial that connects has asked itself; what the other was told does not count. -/
theorem reboundDials_connection :
    DialDuty samplePlatform samplePolicy "tcp" (.v4 0x5db8d822#32) "443"
      (.dial "tcp" "API.example.:443") [⟨.lookupNetIP "api.example", .ok [.v4 0x5db8d822#32]⟩] :=
  (connections_validated samplePlatform samplePolicy sampleClient noRedirect
    (by decide) reboundDials).1 1 _ "tcp" _ "443" (.ok ()) reboundPast
      (by rw [reboundDials_run])

end Sample

end Aegion.Egress
