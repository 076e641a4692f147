/-
The signature over identity headers.  The payload lists the names in lower case with
their trimmed values, sorted, so it does not depend on the order of the names; if no
two names agree in that form, it determines every value.
-/
import Aegion.HttpHeader
import Aegion.SignedValues
import Mathlib.Data.List.Sort
import Mathlib.Data.String.Basic

namespace Aegion.Crypto

open Go

def identityEnvelopeKind : Bytes := bytesOf "identity_headers"

section Payload

variable (tables : CaseTables)

/-- The name as it stands in the payload. -/
def signedName (name : String) : String := tables.toLower (trimSpace name)

/-- The line of a header, unless its value is blank. -/
def headerLine (header : Http.Header) (name : String) : Option String :=
  let value := trimSpace (Http.get header name)
  if value = "" then none else some (signedName tables name ++ ":" ++ value)

def canonicalHeaderPayload (header : Http.Header) (signedHeaders : List String) : Bytes :=
  bytesOf (join ((signedHeaders.filterMap (headerLine tables header)).insertionSort
    (· ≤ ·)) "\n")

def signIdentityHeaders (hmac : Hmac) (secret : Bytes) (header : Http.Header)
    (signedHeaders : List String) (now : Instant) : Except Error Bytes :=
  let payload := canonicalHeaderPayload tables header signedHeaders
  if payload = [] then .ok []
  else signEnvelope hmac identityEnvelopeKind secret payload now

def verifyIdentityHeaders (hmac : Hmac) (secret : Bytes) (header : Http.Header)
    (signedHeaders : List String) (envelope : Bytes) (maxAge : Int64) (now : Instant) : Bool :=
  verifyEnvelope hmac identityEnvelopeKind secret
    (canonicalHeaderPayload tables header signedHeaders) envelope maxAge now

end Payload

section Lines

/-- A name without colon, a colon, and a value without newline. -/
structure IsLine (line : String) : Prop where
  split : ∃ name value, line.toList = name ++ ':' :: value ∧ ':' ∉ name ∧
    '\n' ∉ value

theorem toList_join_cons (line : String) (rest : List String) :
    (join (line :: rest) "\n").toList = line.toList ++
      (if rest = [] then [] else '\n' :: (join rest "\n").toList) := by
  cases rest with
  | nil => simp [join]
  | cons next more =>
      rw [join, String.intercalate_cons_cons, String.toList_append,
        String.toList_append, List.append_assoc, if_neg (by simp)]
      rfl

theorem IsLine.join_ne_empty {line : String} (hline : IsLine line)
    (rest : List String) : join (line :: rest) "\n" ≠ "" := by
  obtain ⟨name, value, hchars, -⟩ := hline.split
  intro hempty
  have hlist := congrArg String.toList hempty
  rw [toList_join_cons, hchars] at hlist
  simp at hlist

/-- Lines are told apart again: the first colon ends the name, which may hold
newlines, and the next newline ends the value. -/
theorem join_lines_inj {lines lines' : List String} (hlines : ∀ l ∈ lines, IsLine l)
    (hlines' : ∀ l ∈ lines', IsLine l)
    (hjoin : join lines "\n" = join lines' "\n") : lines = lines' := by
  induction lines generalizing lines' with
  | nil =>
      cases lines' with
      | nil => rfl
      | cons line' rest' =>
          exact absurd hjoin.symm ((hlines' line' List.mem_cons_self).join_ne_empty rest')
  | cons line rest ih =>
      cases lines' with
      | nil =>
          exact absurd hjoin ((hlines line List.mem_cons_self).join_ne_empty rest)
      | cons line' rest' =>
          obtain ⟨name, value, hline, hname, hvalue⟩ :=
            (hlines line List.mem_cons_self).split
          obtain ⟨name', value', hline', hname', hvalue'⟩ :=
            (hlines' line' List.mem_cons_self).split
          have hchars := congrArg String.toList hjoin
          rw [toList_join_cons, toList_join_cons, hline, hline', List.append_assoc,
            List.append_assoc, List.cons_append, List.cons_append,
            Delimited.append_cons_inj hname hname'] at hchars
          obtain ⟨rfl, hrest⟩ := hchars
          have hsplit : value = value' ∧ rest = rest' := by
            by_cases hnil : rest = []
            · by_cases hnil' : rest' = []
              · simpa [hnil, hnil'] using hrest
              · rw [if_pos hnil, if_neg hnil', List.append_nil] at hrest
                exact absurd (hrest ▸ by simp) hvalue
            · by_cases hnil' : rest' = []
              · rw [if_neg hnil, if_pos hnil', List.append_nil] at hrest
                exact absurd (hrest ▸ by simp) hvalue'
              · rw [if_neg hnil, if_neg hnil', Delimited.append_cons_inj hvalue hvalue'] at hrest
                exact ⟨hrest.1, ih (fun l hl => hlines l (List.mem_cons_of_mem _ hl))
                  (fun l hl => hlines' l (List.mem_cons_of_mem _ hl))
                  (String.toList_inj.mp hrest.2)⟩
          obtain ⟨rfl, rfl⟩ := hsplit
          rw [String.toList_inj.mp (hline.trans hline'.symm)]

end Lines

section Binding

variable {tables : CaseTables} {header header' : Http.Header} {names names' : List String}

/-- The order of the names does not matter. -/
theorem canonicalHeaderPayload_perm (hperm : names.Perm names') :
    canonicalHeaderPayload tables header names = canonicalHeaderPayload tables header names' := by
  have hlines := hperm.filterMap (headerLine tables header)
  have hsorted := ((List.perm_insertionSort (· ≤ ·) _).trans hlines).trans
    (List.perm_insertionSort (· ≤ ·) _).symm
  rw [canonicalHeaderPayload, canonicalHeaderPayload,
    hsorted.eq_of_pairwise' (List.pairwise_insertionSort _ _) (List.pairwise_insertionSort _ _)]

theorem headerLine_eq_some_iff {name line : String} :
    headerLine tables header name = some line ↔
      trimSpace (Http.get header name) ≠ "" ∧
        signedName tables name ++ ":" ++ trimSpace (Http.get header name) = line := by
  unfold headerLine
  dsimp only
  split
  case isTrue hblank => simp [hblank]
  case isFalse hvalue => simp [hvalue]

/-- Lower-casing makes no colon. -/
def KeepsColon (tables : CaseTables) : Prop :=
  ∀ c, tables.lowerRune c = ':' → c = ':'

theorem mem_of_mem_trimSpace {s : String} {c : Char}
    (hc : c ∈ (trimSpace s).toList) : c ∈ s.toList := by
  rw [trimSpace, String.toList_ofList, List.mem_reverse] at hc
  have hdrop := List.dropWhile_subset _ hc
  exact List.dropWhile_subset _ (List.mem_reverse.mp hdrop)

theorem colon_notMem_signedName (hcolon : KeepsColon tables) {name : String}
    (hname : ':' ∉ name.toList) : ':' ∉ (signedName tables name).toList := by
  rw [signedName, CaseTables.toLower, String.toList_ofList, List.mem_map]
  rintro ⟨c, hc, hlower⟩
  exact hname (hcolon c hlower ▸ mem_of_mem_trimSpace hc)

theorem isLine_headerLine (hcolon : KeepsColon tables) {name line : String}
    (hname : ':' ∉ name.toList) (hvalue : '\n' ∉ (Http.get header name).toList)
    (hline : headerLine tables header name = some line) : IsLine line := by
  obtain ⟨-, rfl⟩ := headerLine_eq_some_iff.mp hline
  refine ⟨_, _, ?_, colon_notMem_signedName hcolon hname,
    fun hnewline => hvalue (mem_of_mem_trimSpace hnewline)⟩
  rw [String.toList_append, String.toList_append, List.append_assoc]
  rfl

/-- Equal payloads list the same lines. -/
theorem mem_lines_iff_of_payload_eq (hcolon : KeepsColon tables)
    (hnames : ∀ name ∈ names, ':' ∉ name.toList)
    (hvalues : ∀ name ∈ names, '\n' ∉ (Http.get header name).toList)
    (hvalues' : ∀ name ∈ names, '\n' ∉ (Http.get header' name).toList)
    (hpayload : canonicalHeaderPayload tables header names =
      canonicalHeaderPayload tables header' names) (line : String) :
    line ∈ names.filterMap (headerLine tables header) ↔
      line ∈ names.filterMap (headerLine tables header') := by
  have hsorted := join_lines_inj (fun l hl => ?_) (fun l hl => ?_) (bytesOf_injective hpayload)
  · rw [← List.mem_insertionSort (· ≤ ·), hsorted, List.mem_insertionSort]
  · rw [List.mem_insertionSort] at hl
    obtain ⟨name, hname, hline⟩ := List.mem_filterMap.mp hl
    exact isLine_headerLine hcolon (hnames name hname) (hvalues name hname) hline
  · rw [List.mem_insertionSort] at hl
    obtain ⟨name, hname, hline⟩ := List.mem_filterMap.mp hl
    exact isLine_headerLine hcolon (hnames name hname) (hvalues' name hname) hline

/-- A value that is not blank is found again under the same name. -/
theorem value_eq_of_lines (hcolon : KeepsColon tables)
    (hdistinct : (names.map (signedName tables)).Nodup) (hnames : ∀ name ∈ names, ':' ∉ name.toList)
    (hlines : ∀ line, line ∈ names.filterMap (headerLine tables header) →
      line ∈ names.filterMap (headerLine tables header'))
    {name : String} (hname : name ∈ names) (hvalue : trimSpace (Http.get header name) ≠ "") :
    trimSpace (Http.get header name) = trimSpace (Http.get header' name) := by
  obtain ⟨name', hname', hline⟩ := List.mem_filterMap.mp (hlines _
    (List.mem_filterMap.mpr ⟨name, hname, headerLine_eq_some_iff.mpr ⟨hvalue, rfl⟩⟩))
  obtain ⟨-, heq⟩ := headerLine_eq_some_iff.mp hline
  have hchars := congrArg String.toList heq
  simp only [String.toList_append, List.append_assoc] at hchars
  obtain ⟨hsame, htext⟩ := (Delimited.append_cons_inj
    (colon_notMem_signedName hcolon (hnames name' hname'))
    (colon_notMem_signedName hcolon (hnames name hname))).mp hchars
  have hnameEq : name' = name :=
    List.inj_on_of_nodup_map hdistinct hname' hname (String.toList_inj.mp hsame)
  rw [← String.toList_inj.mp htext, hnameEq]

/-- The payload determines the trimmed value of every signed header. -/
theorem values_eq_of_payload_eq (hcolon : KeepsColon tables)
    (hdistinct : (names.map (signedName tables)).Nodup) (hnames : ∀ name ∈ names, ':' ∉ name.toList)
    (hvalues : ∀ name ∈ names, '\n' ∉ (Http.get header name).toList)
    (hvalues' : ∀ name ∈ names, '\n' ∉ (Http.get header' name).toList)
    (hpayload : canonicalHeaderPayload tables header names =
      canonicalHeaderPayload tables header' names) {name : String}
    (hname : name ∈ names) :
    trimSpace (Http.get header name) = trimSpace (Http.get header' name) := by
  have hlines := mem_lines_iff_of_payload_eq hcolon hnames hvalues hvalues' hpayload
  by_cases hvalue : trimSpace (Http.get header name) = ""
  · by_cases hvalue' : trimSpace (Http.get header' name) = ""
    · rw [hvalue, hvalue']
    · exact (value_eq_of_lines hcolon hdistinct hnames
        (fun line => (hlines line).mpr) hname hvalue').symm
  · exact value_eq_of_lines hcolon hdistinct hnames (fun line => (hlines line).mp) hname hvalue

theorem cVerifyEnvelope_nil (hmac : Hmac) (kind secret payload : Bytes)
    (limit : UInt64) (now : Int64) :
    cVerifyEnvelope hmac kind secret payload [] limit now = false := by
  rfl

/-- With an ideal HMAC, an envelope is accepted for the payload it was made for. -/
theorem payload_eq_of_verify {hmac : Hmac}
    (hideal : ∀ key, Function.Injective (hmac.mac key)) {secret envelope : Bytes}
    {now now' : Instant} {maxAge : Int64}
    (hsign : signIdentityHeaders tables hmac secret header names now = .ok envelope)
    (haccept : verifyIdentityHeaders tables hmac secret header' names' envelope maxAge
      now' = true) :
    canonicalHeaderPayload tables header names = canonicalHeaderPayload tables header' names' := by
  unfold signIdentityHeaders at hsign
  unfold verifyIdentityHeaders verifyEnvelope at haccept
  dsimp only at hsign
  split at hsign
  case isTrue =>
    cases hsign
    rw [cVerifyEnvelope_nil] at haccept
    cases haccept
  case isFalse =>
    exact (eq_of_verify_signEnvelope hideal ⟨identityEnvelopeKind, by decide⟩
      ⟨identityEnvelopeKind, by decide⟩ hsign haccept).2

end Binding

/-- If the names are distinct after trimming and lower-casing, then equal payloads mean
equal trimmed values of all signed headers, for every order of the names.  With an
ideal HMAC an envelope is thus accepted for the values it was signed for only. -/
theorem identity_signature_binds_headers (tables : CaseTables)
    (hcolon : KeepsColon tables) (hmac : Hmac)
    (hideal : ∀ key, Function.Injective (hmac.mac key)) (names names' : List String)
    (hperm : names.Perm names') (hdistinct : (names.map (signedName tables)).Nodup)
    (hnames : ∀ name ∈ names, ':' ∉ name.toList) (header header' : Http.Header)
    (hvalues : ∀ name ∈ names, '\n' ∉ (Http.get header name).toList)
    (hvalues' : ∀ name ∈ names, '\n' ∉ (Http.get header' name).toList) :
    canonicalHeaderPayload tables header names = canonicalHeaderPayload tables header names' ∧
      (canonicalHeaderPayload tables header names = canonicalHeaderPayload tables header' names' →
        ∀ name ∈ names,
          trimSpace (Http.get header name) = trimSpace (Http.get header' name)) ∧
      ∀ (secret envelope : Bytes) (now now' : Instant) (maxAge : Int64),
        signIdentityHeaders tables hmac secret header names now = .ok envelope →
        verifyIdentityHeaders tables hmac secret header' names' envelope maxAge now' = true →
        ∀ name ∈ names,
          trimSpace (Http.get header name) = trimSpace (Http.get header' name) := by
  have hbinds : canonicalHeaderPayload tables header names =
      canonicalHeaderPayload tables header' names' → ∀ name ∈ names,
        trimSpace (Http.get header name) = trimSpace (Http.get header' name) := by
    intro hpayload name hname
    rw [← canonicalHeaderPayload_perm hperm] at hpayload
    exact values_eq_of_payload_eq hcolon hdistinct hnames hvalues hvalues' hpayload hname
  refine ⟨canonicalHeaderPayload_perm hperm, hbinds, ?_⟩
  intro secret envelope now now' maxAge hsign haccept
  exact hbinds (payload_eq_of_verify hideal hsign haccept)

section Sample

def asciiTables : CaseTables := ⟨id, id⟩

theorem asciiTables_keepsColon : KeepsColon asciiTables := by
  have hsmall : ∀ n : Fin 128, (Char.ofNat n).toLower = ':' → Char.ofNat n = ':' := by
    decide
  intro c hc
  unfold CaseTables.lowerRune at hc
  split at hc
  case isTrue hascii =>
    have hnat : c.toNat < 128 := UInt32.lt_iff_toNat_lt.mp hascii
    have hlower := hsmall ⟨c.toNat, hnat⟩
    rw [Char.ofNat_toNat] at hlower
    exact hlower hc
  case isFalse => exact hc

/-- A header map with these values under these keys. -/
def headerOf (entries : List (String × String)) : Http.Header :=
  fun key => (entries.filter (·.1 = key)).map (·.2)

theorem roles_bound :
    trimSpace (Http.get (headerOf [("X-User-Id", "u1"), ("X-User-Roles", " a")]) "X-User-Roles") =
      trimSpace (Http.get (headerOf [("X-User-Id", "u1 "), ("X-User-Roles", "a")])
        "X-User-Roles") :=
  (identity_signature_binds_headers asciiTables asciiTables_keepsColon plainHmac
    (fun _ _ _ heq => (List.cons.inj heq).2) ["X-User-ID", "X-User-Roles"]
    ["X-User-Roles", "X-User-ID"] (List.Perm.swap _ _ _) (by decide)
    (by decide) _ _ (by decide) (by decide)).2.1
    (by decide) "X-User-Roles" (by decide)

/-- The names differ after lower-casing but not after trimming, so their values can be
swapped. -/
theorem trimmed_names_swapped :
    (["x", " x"].map asciiTables.toLower).Nodup ∧
      canonicalHeaderPayload asciiTables (headerOf [("X", "1"), (" x", "2")]) ["x", " x"] =
        canonicalHeaderPayload asciiTables (headerOf [("X", "2"), (" x", "1")]) ["x", " x"] ∧
      trimSpace (Http.get (headerOf [("X", "1"), (" x", "2")]) "x") ≠
        trimSpace (Http.get (headerOf [("X", "2"), (" x", "1")]) "x") := by
  decide

end Sample

end Aegion.Crypto
