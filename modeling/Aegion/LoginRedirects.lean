/-
Where a browser goes after a social or single sign-on login.  The services accept a
target with one leading slash; a browser also takes a backslash for a slash and
drops tabs, so some accepted targets name another host.
-/
import Aegion.GoText
import Aegion.WebOrigin

namespace Aegion

namespace SSO

open Go

def normalizeRedirect (value : String) : String :=
  let value := trimSpace value
  if value = "" then "/"
  else if value.toList.any fun c => c = '\r' || c = '\n' then "/"
  else if !hasPrefix value "/" || hasPrefix value "//" then "/"
  else value

end SSO

namespace Social

open Go

def normalizeRedirectTarget (target : String) : String :=
  let target := trimSpace target
  if target = "" then "/"
  else if target.toList.any fun c => c = '\r' || c = '\n' then "/"
  else if !hasPrefix target "/" || hasPrefix target "//" then "/"
  else target

/-- The two services normalise alike. -/
theorem normalizeRedirectTarget_eq (target : String) :
    normalizeRedirectTarget target = SSO.normalizeRedirect target := rfl

end Social

namespace Redirect

open Go Web SSO

/-- The trimmed input has no newline and starts with a slash that is followed by
a backslash, or by tabs and then by either. -/
def escapes (input : String) : Bool :=
  match (trimSpace input).toList with
  | '/' :: rest =>
      !rest.any (fun c => c = '\r' || c = '\n') && rest.head? ≠ some '/' &&
        (rest.find? (· ≠ '\t')).any isSlash
  | _ => false

/-- The two prefix tests, by the first two characters. -/
theorem hasPrefix_slashes {value : String} {first : Char} {rest : List Char}
    (hvalue : value.toList = first :: rest) :
    hasPrefix value "/" = decide (first = '/') ∧
      hasPrefix value "//" = (decide (first = '/') && rest.head? = some '/') := by
  have hone : hasPrefix value "/" = ['/'].isPrefixOf (first :: rest) := by
    rw [hasPrefix, hvalue]
    rfl
  have htwo : hasPrefix value "//" = ['/', '/'].isPrefixOf (first :: rest) := by
    rw [hasPrefix, hvalue]
    rfl
  rw [hone, htwo]
  cases rest with
  | nil => simp [List.isPrefixOf, @eq_comm _ first, Bool.beq_eq_decide_eq]
  | cons second rest =>
      simp [List.isPrefixOf, @eq_comm _ first, @eq_comm _ second, Bool.beq_eq_decide_eq]

/-- The root path, or the trimmed input, which then starts with a single slash. -/
theorem normalizeRedirect_cases (input : String) :
    normalizeRedirect input = "/" ∧ escapes input = false ∨
      ∃ rest, (normalizeRedirect input).toList = '/' :: rest ∧
        (∀ c ∈ rest, c ≠ '\r' ∧ c ≠ '\n') ∧
        escapes input = (rest.find? (· ≠ '\t')).any isSlash := by
  unfold normalizeRedirect escapes
  dsimp only
  generalize trimSpace input = value
  cases hchars : value.toList with
  | nil =>
      have hempty : value = "" := String.toList_inj.mp hchars
      exact Or.inl ⟨if_pos hempty, rfl⟩
  | cons first rest =>
      have hvalue : value ≠ "" := by
        rintro rfl
        cases hchars
      obtain ⟨hone, htwo⟩ := hasPrefix_slashes hchars
      rw [if_neg hvalue, hone, htwo]
      by_cases hfirst : first = '/'
      · subst hfirst
        by_cases hnewline : rest.any (fun c => c = '\r' || c = '\n') = true
        · exact Or.inl (by simp [hnewline])
        · by_cases hsecond : rest.head? = some '/'
          · exact Or.inl (by simp [hsecond])
          · refine Or.inr ⟨rest, ?_, ?_, ?_⟩
            · simp [hnewline, hsecond, hchars]
            · simpa using hnewline
            · simp [hnewline, hsecond]
      · exact Or.inl (by simp [hfirst])

/-- Without newlines, tabs are all that a browser leaves out. -/
theorem find?_of_no_newline {rest : List Char} (hrest : ∀ c ∈ rest, c ≠ '\r' ∧ c ≠ '\n') :
    rest.find? (!isTabOrNewline ·) = rest.find? (· ≠ '\t') := by
  induction rest with
  | nil => rfl
  | cons c rest ih =>
      obtain ⟨hreturn, hfeed⟩ := hrest c List.mem_cons_self
      have htab : (!isTabOrNewline c) = decide (c ≠ '\t') := by
        simp [isTabOrNewline, hreturn, hfeed]
      rw [List.find?_cons, List.find?_cons, htab,
        ih fun d hd => hrest d (List.mem_cons_of_mem c hd)]

theorem normalizeRedirect_stays_iff (browser : Browser) (input : String) :
    (∀ base : Origin, base.scheme = .https →
      resolve browser base (normalizeRedirect input) = .site base) ↔ escapes input = false := by
  have hroot : ∀ base, resolve browser base "/" = .site base :=
    (resolve_slash_cons browser (show "/".toList = '/' :: [] from rfl)).1 rfl
  rcases normalizeRedirect_cases input with
    ⟨hvalue, hescapes⟩ | ⟨rest, hvalue, hnewline, hescapes⟩
  · rw [hvalue, hescapes]
    exact ⟨fun _ => rfl, fun _ base _ => hroot base⟩
  · obtain ⟨hstays, hleaves⟩ := resolve_slash_cons browser hvalue
    rw [find?_of_no_newline hnewline, ← hescapes] at hstays hleaves
    refine ⟨fun hsite => ?_, fun hsafe base _ => hstays hsafe base⟩
    refine Bool.eq_false_of_not_eq_true fun hunsafe => ?_
    obtain ⟨more, hresolve⟩ := hleaves hunsafe
    obtain ⟨base, hscheme, hne⟩ :=
      exists_ne_site (afterSlashes browser .https more)
    rw [← hscheme, ← hresolve] at hne
    exact hne (hsite base hscheme)

end Redirect

/-- A redirect stays on every https site exactly if its input is not one of those
that a browser reads as naming a host. -/
theorem login_redirects_stay_iff (browser : Web.Browser) (input : String) :
    ((∀ base : Web.Origin, base.scheme = .https →
        Web.resolve browser base (Social.normalizeRedirectTarget input) =
          .site base) ↔ Redirect.escapes input = false) ∧
      ((∀ base : Web.Origin, base.scheme = .https →
        Web.resolve browser base (SSO.normalizeRedirect input) = .site base) ↔
          Redirect.escapes input = false) := by
  rw [Social.normalizeRedirectTarget_eq]
  exact ⟨Redirect.normalizeRedirect_stays_iff browser input,
    Redirect.normalizeRedirect_stays_iff browser input⟩

/-- Hosts are taken as they are written. -/
def plainBrowser : Web.Browser :=
  ⟨fun host => some (String.ofList host), fun _ _ => .failure⟩

def appOrigin : Web.Origin := ⟨.https, "app.example.org", none, by simp⟩

theorem backslash_leaves_site :
    Social.normalizeRedirectTarget "/\\evil.example" = "/\\evil.example" ∧
      SSO.normalizeRedirect "/\t/evil.example" = "/\t/evil.example" ∧
      ∀ target ∈ ["/\\evil.example", "/\t/evil.example"],
        Web.resolve plainBrowser appOrigin target =
          .site ⟨.https, "evil.example", none, by simp⟩ := by
  decide

end Aegion
