/-
Header maps of HTTP messages.  Every access goes through the canonical form of the
name, in which letters are upper case at the start and after a hyphen.
-/
import Mathlib.Logic.Function.Basic
import Mathlib.Data.List.Basic

namespace Aegion.Http

def isTokenChar (c : Char) : Bool :=
  c.isAlphanum || c ∈ "!#$%&*+-.^_|~".toList || c.toNat = 39 || c.toNat = 96

/-- Letters become upper case where a word starts, and lower case elsewhere. -/
def canonicalChars : Bool → List Char → List Char
  | _, [] => []
  | start, c :: rest =>
      (if start then c.toUpper else c.toLower) :: canonicalChars (c = '-') rest

/-- `textproto.CanonicalMIMEHeaderKey`; a name that is no token stays as it is. -/
def canonicalKey (name : String) : String :=
  if name.toList.all isTokenChar then String.ofList (canonicalChars true name.toList)
  else name

/-- `http.Header`: the values of each canonical key. -/
abbrev Header := String → List String

section Access

variable (header : Header) (name : String)

def get : String := (header (canonicalKey name)).head?.getD ""

def set (value : String) : Header :=
  Function.update header (canonicalKey name) [value]

def del : Header := Function.update header (canonicalKey name) []

end Access

/-- The parts of `http.Request` that say where a request comes from. -/
structure Request where
  remoteAddr : String
  host : String
  /-- Whether the request came over TLS. -/
  tls : Bool
  header : Header

end Aegion.Http
