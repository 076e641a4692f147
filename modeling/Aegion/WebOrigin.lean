/-
The origin of a URL reference, by the steps of the WHATWG URL parser that decide
scheme, host and port.  Credentials, path, query and fragment never change the
origin and are read over.  The host parser, and the parse of references with a
scheme that is not special, are parameters.
-/
import Mathlib.Data.List.DropRight
import Mathlib.Data.Nat.Digits.Defs

namespace Aegion.Web

/-- The special schemes with a host. -/
inductive Scheme where
  | ftp
  | http
  | https
  | ws
  | wss
deriving Repr, DecidableEq

def Scheme.defaultPort : Scheme → UInt16
  | .ftp => 21
  | .http | .ws => 80
  | .https | .wss => 443

def Scheme.ofChars (name : List Char) : Option Scheme :=
  if name = ['f', 't', 'p'] then some .ftp
  else if name = ['h', 't', 't', 'p'] then some .http
  else if name = ['h', 't', 't', 'p', 's'] then some .https
  else if name = ['w', 's'] then some .ws
  else if name = ['w', 's', 's'] then some .wss
  else none

/-- A tuple origin, with the serialised host; the default port of the scheme is
left out. -/
structure Origin where
  scheme : Scheme
  host : String
  port : Option UInt16
  proper : port ≠ some scheme.defaultPort
deriving DecidableEq

/-- What a reference resolves to: nothing, a URL whose origin equals no other, or a
URL of this origin. -/
inductive Resolution where
  | failure
  | isolated
  | site (origin : Origin)
deriving DecidableEq

structure Browser where
  /-- The host parser for special schemes, and the serialiser. -/
  parseHost : List Char → Option String
  /-- References whose scheme is not one of the above. -/
  resolveOther : List Char → List Char → Resolution

section Input

def isC0OrSpace (c : Char) : Bool := c.toNat ≤ 0x20

def isTabOrNewline (c : Char) : Bool := c = '\t' || c = '\n' || c = '\r'

/-- The input without leading and trailing C0 controls and spaces, and without tabs
and newlines. -/
def clean (input : List Char) : List Char :=
  ((input.dropWhile isC0OrSpace).rdropWhile isC0OrSpace).filter
    (!isTabOrNewline ·)

def isSlash (c : Char) : Bool := c = '/' || c = '\\'

/-- The end of the authority of a special URL. -/
def isEnd (c : Char) : Bool := isSlash c || c = '?' || c = '#'

def isSchemeChar (c : Char) : Bool := c.isAlphanum || c = '+' || c = '-' || c = '.'

def splitScheme (input : List Char) : Option (List Char × List Char) :=
  match input with
  | first :: _ =>
      if first.isAlpha then
        match input.dropWhile isSchemeChar with
        | ':' :: rest => some ((input.takeWhile isSchemeChar).map Char.toLower, rest)
        | _ => none
      else none
  | [] => none

end Input

section Authority

variable (browser : Browser)

def afterCredentials (authority : List Char) : List Char :=
  (authority.reverse.takeWhile (· ≠ '@')).reverse

/-- The text before the first colon outside of brackets, and the text after it. -/
def splitHostPort (inside : Bool) : List Char → List Char × Option (List Char)
  | [] => ([], none)
  | c :: rest =>
      if c = ':' ∧ inside = false then ([], some rest)
      else
        let inside := if c = '[' then true else if c = ']' then false else inside
        let (host, port) := splitHostPort inside rest
        (c :: host, port)

/-- The port state; `none` if it fails. -/
def parsePort (digits : List Char) : Option (Option UInt16) :=
  if digits.all Char.isDigit = false then none
  else if digits = [] then some none
  else
    let value := Nat.ofDigits 10 (digits.reverse.map fun c => c.toNat - '0'.toNat)
    if value < 65536 then some (some value.toUInt16) else none

def Origin.make (scheme : Scheme) (host : String) (port : Option UInt16) : Origin :=
  if hport : port = some scheme.defaultPort then ⟨scheme, host, none, by simp⟩
  else ⟨scheme, host, port, hport⟩

/-- The authority and host states for a special scheme. -/
def authority (scheme : Scheme) (input : List Char) : Resolution :=
  let (hostChars, portChars) :=
    splitHostPort false (afterCredentials (input.takeWhile (!isEnd ·)))
  if hostChars = [] then .failure
  else
    match browser.parseHost hostChars, parsePort (portChars.getD []) with
    | some host, some port => .site (.make scheme host port)
    | _, _ => .failure

/-- The special authority ignore slashes state. -/
def afterSlashes (scheme : Scheme) (input : List Char) : Resolution :=
  authority browser scheme (input.dropWhile isSlash)

/-- The relative and the relative slash state. -/
def relative (base : Origin) : List Char → Resolution
  | c :: d :: rest =>
      if isSlash c && isSlash d then afterSlashes browser base.scheme rest
      else .site base
  | _ => .site base

/-- The special relative or authority state. -/
def sameScheme (base : Origin) : List Char → Resolution
  | '/' :: '/' :: rest => afterSlashes browser base.scheme rest
  | input => relative browser base input

/-- The reference as a browser on a page of this origin resolves it. -/
def resolve (base : Origin) (input : String) : Resolution :=
  match splitScheme (clean input.toList) with
  | some (name, rest) =>
      match Scheme.ofChars name with
      | some scheme =>
          if scheme = base.scheme then sameScheme browser base rest
          else afterSlashes browser scheme rest
      | none => browser.resolveOther name rest
  | none => relative browser base (clean input.toList)

end Authority

section Laws

theorem isSlash_iff {c : Char} : isSlash c = true ↔ c = '/' ∨ c = '\\' := by
  simp [isSlash]

theorem rdropWhile_cons_of_neg {α : Type} {p : α → Bool} {a : α}
    (ha : p a = false) (rest : List α) : (a :: rest).rdropWhile p = a :: rest.rdropWhile p := by
  rw [List.rdropWhile, List.reverse_cons, List.dropWhile_append]
  split
  case isTrue hempty =>
    rw [List.isEmpty_iff] at hempty
    simp [List.rdropWhile, hempty, ha]
  case isFalse => simp [List.rdropWhile]

/-- Only controls are cut off at the end, so a slash that comes next stays. -/
theorem clean_slash_cons (rest : List Char) :
    ∃ more, clean ('/' :: rest) = '/' :: more ∧
      more.head?.any isSlash = (rest.find? (!isTabOrNewline ·)).any isSlash := by
  have hclean : clean ('/' :: rest) =
      '/' :: (rest.rdropWhile isC0OrSpace).filter (!isTabOrNewline ·) := by
    rw [clean, List.dropWhile_cons_of_neg (by decide),
      rdropWhile_cons_of_neg (by decide), List.filter_cons_of_pos (by decide)]
  refine ⟨_, hclean, ?_⟩
  have hcut : ((rest.rtakeWhile isC0OrSpace).find? (!isTabOrNewline ·)).any isSlash = false := by
    cases hfind : (rest.rtakeWhile isC0OrSpace).find? (!isTabOrNewline ·) with
    | none => rfl
    | some c =>
        have hcontrol := List.mem_rtakeWhile_imp (List.mem_of_find?_eq_some hfind)
        refine Bool.eq_false_of_not_eq_true fun hslash => ?_
        rcases isSlash_iff.mp hslash with rfl | rfl
        · exact absurd hcontrol (by decide)
        · exact absurd hcontrol (by decide)
  rw [List.head?_filter]
  have hsplit : rest.rdropWhile isC0OrSpace ++ rest.rtakeWhile isC0OrSpace = rest :=
    List.rdropWhile_append_rtakeWhile
  nth_rewrite 2 [← hsplit]
  rw [List.find?_append]
  cases (rest.rdropWhile isC0OrSpace).find? (!isTabOrNewline ·) with
  | none => simpa using hcut.symm
  | some c => rfl

/-- A reference that starts with a slash stays on the site unless a second slash
follows; then nothing of the base but its scheme is used. -/
theorem resolve_slash_cons (browser : Browser) {input : String} {rest : List Char}
    (hinput : input.toList = '/' :: rest) :
    ((rest.find? (!isTabOrNewline ·)).any isSlash = false →
        ∀ base, resolve browser base input = .site base) ∧
      ((rest.find? (!isTabOrNewline ·)).any isSlash = true → ∃ more, ∀ base,
          resolve browser base input = afterSlashes browser base.scheme more) := by
  obtain ⟨more, hclean, hhead⟩ := clean_slash_cons rest
  have hresolve : ∀ base, resolve browser base input = relative browser base ('/' :: more) := by
    intro base
    rw [resolve, hinput, hclean]
    rfl
  rw [← hhead]
  cases more with
  | nil => exact ⟨fun _ => hresolve, fun hslash => by cases hslash⟩
  | cons d more =>
      refine ⟨fun hother base => ?_, fun hslash => ⟨more, fun base => ?_⟩⟩
      · have hd : isSlash d = false := hother
        rw [hresolve, relative, hd, Bool.and_false, if_neg (by simp)]
      · have hd : isSlash d = true := hslash
        rw [hresolve, relative, hd, if_pos (by decide)]

/-- No reference that ignores the host of the base resolves to every https site. -/
theorem exists_ne_site (result : Resolution) :
    ∃ base : Origin, base.scheme = .https ∧ result ≠ .site base := by
  by_cases hresult : result = .site ⟨.https, "", none, by simp⟩
  · refine ⟨⟨.https, "", some 8443, by decide⟩, rfl, ?_⟩
    rw [hresult]
    decide
  · exact ⟨_, rfl, hresult⟩

end Laws

end Aegion.Web
