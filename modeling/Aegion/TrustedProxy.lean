/-
Which client a request came from.  A peer among the trusted proxies is believed when it
names one in `X-Forwarded-For`, read from the right.
-/
import Aegion.FieldList
import Aegion.HttpHeader
import Aegion.IPAddress
import Mathlib.Data.Set.Finite.List

namespace Aegion.TrustedProxy

open Go Http IP FieldList

/-- The parsers of package `net`; an address in IPv6 notation that has a four-byte form is
returned in that form, and so is a range of such addresses. -/
structure Net where
  parseIP : String → Option Address
  parseIP_empty : parseIP "" = none
  parseCIDR : String → Option Cidr
  splitHostPort : String → Option (String × String)

variable (net : Net)

/-- `strings.Trim(s, "[]")`. -/
def trimBrackets (s : String) : String :=
  String.ofList (((s.toList.dropWhile (· ∈ ['[', ']'])).reverse.dropWhile
    (· ∈ ['[', ']'])).reverse)

def remoteIP (remoteAddr : String) : String :=
  let remoteAddr := trimSpace remoteAddr
  if remoteAddr = "" then ""
  else
    match net.splitHostPort remoteAddr with
    | some (host, _) => trimBrackets host
    | none => trimBrackets remoteAddr

def parseCIDRs (raw : String) : List Cidr :=
  (split raw ',').filterMap fun part =>
    let part := trimSpace part
    if part = "" then none else net.parseCIDR part

def isTrusted (ipStr : String) (trustedCIDRs : List Cidr) : Bool :=
  match net.parseIP ipStr with
  | none => false
  | some ip => trustedCIDRs.any (·.contains ip)

/-- `cidrCache`: lists of ranges by the text they were parsed from. -/
structure CIDRCache where
  entries : List (String × List Cidr)
  parsed : ∀ entry ∈ entries, entry.2 = parseCIDRs net entry.1

def CIDRCache.load (cache : CIDRCache net) (raw : String) : Option (List Cidr) :=
  cache.entries.lookup raw

def CIDRCache.store (cache : CIDRCache net) (raw : String) : CIDRCache net where
  entries := (raw, parseCIDRs net raw) :: cache.entries
  parsed entry hentry := by
    rcases List.mem_cons.mp hentry with rfl | hold
    · rfl
    · exact cache.parsed entry hold

/-- The ranges for a text, from the cache if it has them. -/
def cachedCIDRs (cache : CIDRCache net) (raw : String) : List Cidr × CIDRCache net :=
  match cache.load net raw with
  | some cidrs => (cidrs, cache)
  | none => (parseCIDRs net raw, cache.store net raw)

/-- The loop over the parts of the header, here from the right; a trusted address is the
answer if no part is left of it. -/
def scanForwarded (trustedCIDRs : List Cidr) : List String → Option String
  | [] => none
  | part :: left =>
      let candidate := trimSpace part
      if candidate = "" then scanForwarded trustedCIDRs left
      else if isTrusted net candidate trustedCIDRs = false then some candidate
      else if left = [] then some candidate
      else scanForwarded trustedCIDRs left

/-- The end of `ClientIP`, after the loop. -/
def fallbackIP (r : Request) : String :=
  let xri := trimSpace (get r.header "X-Real-IP")
  if xri ≠ "" then xri
  else
    let cfip := trimSpace (get r.header "CF-Connecting-IP")
    if cfip ≠ "" then cfip else remoteIP net r.remoteAddr

/-- What `ClientIP` does for a trusted peer. -/
def forwardedIP (trustedCIDRs : List Cidr) (r : Request) : String :=
  let xff := trimSpace (get r.header "X-Forwarded-For")
  let found := if xff = "" then none
    else scanForwarded net trustedCIDRs (split xff ',').reverse
  found.getD (fallbackIP net r)

variable (getenv : String → String)

def clientIP (cache : CIDRCache net) (r : Option Request) (trustForwarded : Bool)
    (envVar : String) : String × CIDRCache net :=
  match r with
  | none => ("", cache)
  | some r =>
      let remote := remoteIP net r.remoteAddr
      if trustForwarded = false then (remote, cache)
      else
        let (trustedCIDRs, cache) :=
          if envVar ≠ "" then cachedCIDRs net cache (getenv envVar) else ([], cache)
        if trustedCIDRs = [] then (remote, cache)
        else if isTrusted net remote trustedCIDRs = false then (remote, cache)
        else (forwardedIP net trustedCIDRs r, cache)

section Cache

variable {net}

theorem cachedCIDRs_fst (cache : CIDRCache net) (raw : String) :
    (cachedCIDRs net cache raw).1 = parseCIDRs net raw := by
  rw [cachedCIDRs]
  cases hload : cache.load net raw with
  | none => rfl
  | some cidrs =>
      obtain ⟨before, after, hentries, -⟩ := List.lookup_eq_some_iff.mp hload
      exact cache.parsed (raw, cidrs) (hentries ▸ by simp)

/-- What `ClientIP` answers for a trusted peer, whatever the cache holds. -/
theorem clientIP_of_trusted (cache : CIDRCache net) {envVar : String} (henv : envVar ≠ "")
    {r : Request} (hpeer : isTrusted net (remoteIP net r.remoteAddr)
      (parseCIDRs net (getenv envVar)) = true) :
    (clientIP net getenv cache (some r) true envVar).1 =
      forwardedIP net (parseCIDRs net (getenv envVar)) r := by
  have hcidrs := cachedCIDRs_fst cache (getenv envVar)
  have hnonempty : parseCIDRs net (getenv envVar) ≠ [] := by
    intro hempty
    rw [hempty, isTrusted] at hpeer
    split at hpeer
    · cases hpeer
    · cases hpeer
  simp [clientIP, henv, hcidrs, hnonempty, hpeer]

end Cache

section Scan

variable {net} {trustedCIDRs : List Cidr}

theorem scanForwarded_eq (parts : List String) :
    scanForwarded net trustedCIDRs parts =
      (((parts.map trimSpace).filter (· ≠ "")).find?
        fun entry => !isTrusted net entry trustedCIDRs).or
          ((parts.map trimSpace).getLast?.filter (· ≠ "")) := by
  induction parts with
  | nil => rfl
  | cons part left ih =>
      rw [scanForwarded, ih, List.map_cons]
      by_cases hblank : trimSpace part = ""
      · cases left with
        | nil => simp [hblank, Option.filter]
        | cons next more => simp [hblank]
      · by_cases htrusted : isTrusted net (trimSpace part) trustedCIDRs = true
        · cases left with
          | nil => simp [hblank, htrusted, Option.filter]
          | cons next more => simp [hblank, htrusted]
        · simp [hblank, htrusted]

variable (net trustedCIDRs) in
/-- The client a list names: the rightmost entry that is not trusted, else the leftmost
part. -/
def namedClient (s : String) : Option String :=
  (rightmost (fun entry => !isTrusted net entry trustedCIDRs) (entries s)).or
    ((parts s).head?.filter (· ≠ ""))

theorem scanForwarded_split (s : String) :
    scanForwarded net trustedCIDRs (split s ',').reverse = namedClient net trustedCIDRs s := by
  rw [scanForwarded_eq, List.map_reverse, List.getLast?_reverse, List.filter_reverse]
  rfl

theorem namedClient_trimSpace (s : String) :
    namedClient net trustedCIDRs (trimSpace s) = namedClient net trustedCIDRs s := by
  rw [namedClient, entries, parts_trimSpace, namedClient, entries]

theorem namedClient_empty : namedClient net trustedCIDRs "" = none := by
  have hparts : parts "" = [""] := by decide
  simp [namedClient, entries, hparts, rightmost, Option.filter]

/-- For a trusted peer only the first header line counts. -/
theorem forwardedIP_eq (r : Request) :
    forwardedIP net trustedCIDRs r =
      (namedClient net trustedCIDRs (get r.header "X-Forwarded-For")).getD (fallbackIP net r) := by
  rw [forwardedIP, scanForwarded_split, namedClient_trimSpace]
  split
  · rename_i hblank
    rw [← namedClient_trimSpace, hblank, namedClient_empty]
  · rfl

end Scan

section Spoofing

variable {net} {trustedCIDRs : List Cidr}

variable (net trustedCIDRs) in
/-- The rightmost entry that is not a trusted proxy. -/
def rightmostUntrusted (list : List String) : Option String :=
  rightmost (fun entry => !isTrusted net entry trustedCIDRs) list

variable (net trustedCIDRs) in
/-- The client that the whole list names: the rightmost entry that is not trusted, or one
of the entries if all are. -/
def NamesClient (list : List String) (ip : String) : Prop :=
  match rightmostUntrusted net trustedCIDRs list with
  | some entry => ip = entry
  | none => ip ∈ list

variable (net trustedCIDRs) in
/-- What the first line says about the client is what all lines say. -/
def FirstLineDecides (lines : List String) : Prop :=
  match rightmostUntrusted net trustedCIDRs (entries (join lines ",")) with
  | some entry =>
      rightmostUntrusted net trustedCIDRs (entries (lines.headD "")) = some entry
  | none => (parts (lines.headD "")).head? ≠ some ""

instance (lines : List String) : Decidable (FirstLineDecides net trustedCIDRs lines) :=
  match hall : rightmostUntrusted net trustedCIDRs (entries (join lines ",")) with
  | some entry =>
      decidable_of_iff
        (rightmostUntrusted net trustedCIDRs (entries (lines.headD "")) = some entry)
        (by rw [FirstLineDecides, hall])
  | none =>
      decidable_of_iff ((parts (lines.headD "")).head? ≠ some "")
        (by rw [FirstLineDecides, hall])

theorem head_mem_entries {s first : String} (hfirst : (parts s).head? = some first)
    (hne : first ≠ "") : first ∈ entries s :=
  mem_entries_iff.mpr ⟨List.mem_of_mem_head? hfirst, hne⟩

theorem exists_head_parts (s : String) : ∃ first, (parts s).head? = some first := by
  have hne : parts s ≠ [] := by
    simp [parts, split, List.splitOn_ne_nil]
  exact ⟨_, List.head?_eq_some_head hne⟩

/-- If the first line decides, then it names the client that the whole list names. -/
theorem namedClient_of_firstLineDecides {lines : List String}
    (hdecides : FirstLineDecides net trustedCIDRs lines) :
    ∃ ip, namedClient net trustedCIDRs (lines.headD "") = some ip ∧
      NamesClient net trustedCIDRs (entries (join lines ",")) ip := by
  unfold FirstLineDecides at hdecides
  unfold NamesClient
  cases hall : rightmostUntrusted net trustedCIDRs (entries (join lines ",")) with
  | some entry =>
      rw [hall] at hdecides
      refine ⟨entry, ?_, rfl⟩
      have hfirst : rightmost _ (entries (lines.headD "")) = some entry := hdecides
      rw [namedClient, hfirst, Option.some_or]
  | none =>
      rw [hall] at hdecides
      obtain ⟨first, hhead⟩ := exists_head_parts (lines.headD "")
      have hne : first ≠ "" := fun h => hdecides (h ▸ hhead)
      have hmem := entries_head_subset lines (head_mem_entries hhead hne)
      have hnone : rightmost (fun entry => !isTrusted net entry trustedCIDRs)
          (entries (lines.headD "")) = none :=
        rightmost_eq_none_iff.mpr fun entry hentry =>
          rightmost_eq_none_iff.mp hall entry (entries_head_subset lines hentry)
      refine ⟨first, ?_, hmem⟩
      rw [namedClient, hnone, hhead]
      simp [Option.filter, hne]

theorem firstLineDecides_of_namedClient {lines : List String} {ip : String}
    (hclient : namedClient net trustedCIDRs (lines.headD "") = some ip)
    (hnames : NamesClient net trustedCIDRs (entries (join lines ",")) ip) :
    FirstLineDecides net trustedCIDRs lines := by
  unfold FirstLineDecides
  unfold NamesClient at hnames
  rw [namedClient, Option.or_eq_some_iff] at hclient
  cases hall : rightmostUntrusted net trustedCIDRs (entries (join lines ",")) with
  | some entry =>
      rw [hall] at hnames
      subst hnames
      rcases hclient with hfirst | ⟨hnone, hhead⟩
      · exact hfirst
      · -- The leftmost part of an all-trusted line is trusted, and the entry is not.
        obtain ⟨hhead, hne⟩ := Option.filter_eq_some_iff.mp hhead
        have hmem := head_mem_entries hhead (of_decide_eq_true hne)
        have htrusted := rightmost_eq_none_iff.mp hnone ip hmem
        have huntrusted := (rightmost_eq_some_iff.mp hall).1
        rw [htrusted] at huntrusted
        cases huntrusted
  | none =>
      rw [hall] at hnames
      rcases hclient with hfirst | ⟨hnone, hhead⟩
      · obtain ⟨huntrusted, left, right, hentries, -⟩ := rightmost_eq_some_iff.mp hfirst
        have htrusted := rightmost_eq_none_iff.mp hall ip hnames
        rw [htrusted] at huntrusted
        cases huntrusted
      · obtain ⟨hhead, hne⟩ := Option.filter_eq_some_iff.mp hhead
        rw [hhead]
        simpa using hne

/-- There is always something else to write into a header. -/
theorem exists_other_value (list : List String) : ∃ s, trimSpace s = s ∧ s ≠ "" ∧ s ∉ list := by
  have hfinite : {n : Int | n.repr ∈ list}.Finite :=
    (List.finite_toSet list).preimage repr_injective.injOn
  obtain ⟨n, hn⟩ := hfinite.exists_notMem
  exact ⟨n.repr, trimSpace_repr n, repr_ne_empty n, hn⟩

/-- A client that may write what it likes into `X-Real-IP` is named by the header lines
exactly if the first of them decides. -/
theorem forwardedIP_names_iff (remoteAddr : String) (lines : List String) :
    (∀ r : Request, r.remoteAddr = remoteAddr → r.header "X-Forwarded-For" = lines →
        NamesClient net trustedCIDRs (entries (join lines ",")) (forwardedIP net trustedCIDRs r)) ↔
      FirstLineDecides net trustedCIDRs lines := by
  have hkey : canonicalKey "X-Forwarded-For" = "X-Forwarded-For" := by decide
  have hfirst : ∀ r : Request, r.header "X-Forwarded-For" = lines →
      get r.header "X-Forwarded-For" = lines.headD "" := by
    intro r hlines
    rw [Http.get, hkey, hlines, List.headD_eq_head?_getD]
  constructor
  · intro hnames
    cases hclient : namedClient net trustedCIDRs (lines.headD "") with
    | some ip =>
        let r : Request := ⟨remoteAddr, "", false, fun _ => lines⟩
        have hnamed := hnames r rfl rfl
        rw [forwardedIP_eq, hfirst r rfl, hclient] at hnamed
        exact firstLineDecides_of_namedClient hclient hnamed
    | none =>
        -- Then `X-Real-IP` is the answer, and it can be something else.
        exfalso
        obtain ⟨other, htrim, hne, hnew⟩ := exists_other_value (entries (join lines ","))
        let r : Request := ⟨remoteAddr, "", false,
          fun key => if key = "X-Forwarded-For" then lines else [other]⟩
        have hnamed := hnames r rfl rfl
        have hreal : get r.header "X-Real-IP" = other := by
          have hkey : canonicalKey "X-Real-IP" = "X-Real-Ip" := by decide
          rw [Http.get, hkey]
          rfl
        have hfallback : fallbackIP net r = other := by
          rw [fallbackIP, hreal, htrim, if_pos hne]
        rw [forwardedIP_eq, hfirst r rfl, hclient, Option.getD_none, hfallback,
          NamesClient] at hnamed
        split at hnamed
        · rename_i entry hall
          obtain ⟨-, left, right, hentries, -⟩ := rightmost_eq_some_iff.mp hall
          exact hnew (hnamed ▸ hentries ▸ by simp)
        · exact hnew hnamed
  · intro hdecides r _ hlines
    obtain ⟨ip, hclient, hnamed⟩ := namedClient_of_firstLineDecides hdecides
    rw [forwardedIP_eq, hfirst r hlines, hclient]
    exact hnamed

/-- Behind a trusted peer the client is the one that the joined lines of
`X-Forwarded-For` name, whatever other headers say, exactly if the first line decides.
Then nothing left of the rightmost entry that is not trusted matters. -/
theorem clientIP_names_iff (cache cache' : CIDRCache net) {envVar : String} (henv : envVar ≠ "")
    {remoteAddr : String} (hpeer : isTrusted net (remoteIP net remoteAddr)
      (parseCIDRs net (getenv envVar)) = true) :
    (∀ lines, (∀ r : Request, r.remoteAddr = remoteAddr → r.header "X-Forwarded-For" = lines →
            NamesClient net (parseCIDRs net (getenv envVar)) (entries (join lines ","))
              (clientIP net getenv cache (some r) true envVar).1) ↔
        FirstLineDecides net (parseCIDRs net (getenv envVar)) lines) ∧
    (∀ r r' : Request, r.remoteAddr = remoteAddr → r'.remoteAddr = remoteAddr →
      FirstLineDecides net (parseCIDRs net (getenv envVar)) (r.header "X-Forwarded-For") →
      FirstLineDecides net (parseCIDRs net (getenv envVar)) (r'.header "X-Forwarded-For") →
      ∀ left left' entry right,
        entries (join (r.header "X-Forwarded-For") ",") = left ++ entry :: right →
        entries (join (r'.header "X-Forwarded-For") ",") = left' ++ entry :: right →
        isTrusted net entry (parseCIDRs net (getenv envVar)) = false →
        (∀ other ∈ right, isTrusted net other (parseCIDRs net (getenv envVar)) = true) →
        (clientIP net getenv cache (some r) true envVar).1 =
          (clientIP net getenv cache' (some r') true envVar).1) := by
  have hforwarded : ∀ cache, ∀ r : Request, r.remoteAddr = remoteAddr →
      (clientIP net getenv cache (some r) true envVar).1 =
        forwardedIP net (parseCIDRs net (getenv envVar)) r := by
    rintro cache r rfl
    exact clientIP_of_trusted getenv cache henv hpeer
  constructor
  · intro lines
    rw [← forwardedIP_names_iff remoteAddr lines]
    refine forall_congr' fun r => forall_congr' fun hremote => ?_
    rw [hforwarded cache r hremote]
  · -- Both addresses are that entry.
    intro r r' hremote hremote' hdecides hdecides' left left' entry right hlist hlist'
      huntrusted htrusted
    have hentry : ∀ cache, ∀ s : Request, s.remoteAddr = remoteAddr → ∀ before,
        FirstLineDecides net (parseCIDRs net (getenv envVar)) (s.header "X-Forwarded-For") →
        entries (join (s.header "X-Forwarded-For") ",") = before ++ entry :: right →
        (clientIP net getenv cache (some s) true envVar).1 = entry := by
      intro cache s hs before hfirst hentries
      have hnames := (forwardedIP_names_iff remoteAddr _).mpr hfirst s hs rfl
      have hall : rightmostUntrusted net (parseCIDRs net (getenv envVar))
          (entries (join (s.header "X-Forwarded-For") ",")) = some entry :=
        rightmost_eq_some_iff.mpr ⟨by simp [huntrusted], before, right, hentries,
          fun other hother => by simp [htrusted other hother]⟩
      rw [NamesClient, hall] at hnames
      rw [hforwarded cache s hs]
      exact hnames
    rw [hentry cache r hremote left hdecides hlist,
      hentry cache' r' hremote' left' hdecides' hlist']

/-- One trusted range, and the addresses that occur. -/
def sampleNet : Net where
  parseIP s :=
    if s = "10.0.0.1" then some (.v4 0x0a000001#32)
    else if s = "198.51.100.7" then some (.v4 0xc6336407#32)
    else if s = "203.0.113.9" then some (.v4 0xcb007109#32)
    else none
  parseIP_empty := by decide
  parseCIDR s := if s = "10.0.0.0/8" then some ⟨.v4 0x0a000000#32, 8⟩ else none
  splitHostPort s := if s = "10.0.0.1:443" then some ("10.0.0.1", "443") else none

def sampleEnv (_ : String) : String := "10.0.0.0/8"

def forwardedRequest (lines : List String) (realIP : List String) : Request where
  remoteAddr := "10.0.0.1:443"
  host := "aegion.example"
  tls := true
  header key := if key = "X-Forwarded-For" then lines
    else if key = "X-Real-Ip" then realIP else []

/-- What stands left of the client in the only line does not matter. -/
theorem one_line_names_client :
    (clientIP sampleNet sampleEnv ⟨[], by simp⟩
        (some (forwardedRequest ["203.0.113.9, 198.51.100.7, 10.0.0.1"] [])) true
        "AEGION_TRUSTED_PROXY_CIDRS").1 =
      (clientIP sampleNet sampleEnv ⟨[], by simp⟩
        (some (forwardedRequest ["198.51.100.7,10.0.0.1"] ["203.0.113.9"])) true
        "AEGION_TRUSTED_PROXY_CIDRS").1 :=
  (@clientIP_names_iff sampleNet sampleEnv ⟨[], by simp⟩ ⟨[], by simp⟩
    "AEGION_TRUSTED_PROXY_CIDRS" (by decide) "10.0.0.1:443" (by decide)).2
      (forwardedRequest ["203.0.113.9, 198.51.100.7, 10.0.0.1"] [])
      (forwardedRequest ["198.51.100.7,10.0.0.1"] ["203.0.113.9"]) rfl rfl
      (by decide) (by decide) ["203.0.113.9"] [] "198.51.100.7"
      ["10.0.0.1"] (by decide) (by decide) (by decide)
      (by decide)

/-- The client writes a first line and the proxy adds its own; and a line whose leftmost
part is empty hands over to `X-Real-IP`. -/
theorem first_line_spoofs :
    isTrusted sampleNet (remoteIP sampleNet "10.0.0.1:443")
        (parseCIDRs sampleNet (sampleEnv "AEGION_TRUSTED_PROXY_CIDRS")) = true ∧
      rightmostUntrusted sampleNet
          (parseCIDRs sampleNet (sampleEnv "AEGION_TRUSTED_PROXY_CIDRS"))
          (entries (join ["203.0.113.9", "198.51.100.7"] ",")) = some "198.51.100.7" ∧
      (clientIP sampleNet sampleEnv ⟨[], by simp⟩
        (some (forwardedRequest ["203.0.113.9", "198.51.100.7"] [])) true
        "AEGION_TRUSTED_PROXY_CIDRS").1 = "203.0.113.9" ∧
      entries (join [", 10.0.0.1"] ",") = ["10.0.0.1"] ∧
      (clientIP sampleNet sampleEnv ⟨[], by simp⟩
        (some (forwardedRequest [", 10.0.0.1"] ["203.0.113.9"])) true
        "AEGION_TRUSTED_PROXY_CIDRS").1 = "203.0.113.9" := by
  decide

end Spoofing

end Aegion.TrustedProxy
