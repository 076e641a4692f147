/-
Rules and paths of the proxy.  A pattern that ends in `/*` covers the subtree of its directory and
nothing else, because it is compared with the clean path.  A rewrite however works on the path as
it was sent: the parent segments in it take back what the rewrite has put in front.
-/
import Aegion.GoPath
import Aegion.ProxyRules

namespace Aegion.ProxyRules

open Go

section Subtrees

def metacharacters : List Char := ['*', '?', '[', '\\']

/-- The package `path`, as far as rules use it: `Clean`, and `Match` for a pattern that is literal
up to a star at its end. -/
structure Platform.IsGo (platform : Platform) : Prop where
  clean_eq : ∀ path, platform.clean path = Path.clean path
  match_star : ∀ start name : String, (∀ c ∈ start.toList, c ∉ metacharacters) →
    platform.pathMatch (start ++ "*") name =
      some (hasPrefix name start && (trimPrefix name start).toList.all (· ≠ '/'))

/-- A segment without a meaning of its own, neither as a directory nor as a pattern. -/
def Literal (segment : String) : Prop :=
  segment ≠ "" ∧ segment ≠ "." ∧ segment ≠ ".." ∧
    ∀ c ∈ segment.toList, c ≠ '/' ∧ c ∉ metacharacters

instance instDecidableLiteral (segment : String) : Decidable (Literal segment) :=
  letI := List.decidableBAll (fun c => c ≠ '/' ∧ c ∉ metacharacters) segment.toList
  inferInstanceAs (Decidable (_ ∧ _ ∧ _ ∧ _))

def directory (names : List String) : String := "/" ++ join names "/"

variable {platform : Platform} {names : List String}

theorem toList_directory (names : List String) :
    (directory names).toList = Path.render (names.map String.toList) := by
  rw [directory, join, String.toList_append, String.toList_intercalate]
  rfl

theorem Literal.normal {segment : String} (hsegment : Literal segment) :
    Path.Normal segment.toList := by
  obtain ⟨hempty, hdot, hparent, hchars⟩ := hsegment
  refine ⟨?_, ?_, ?_, fun hslash => (hchars '/' hslash).1 rfl⟩
  · exact fun h => hempty (String.toList_injective h)
  · exact fun h => hdot (String.toList_injective h)
  · exact fun h => hparent (String.toList_injective h)

theorem normal_of_literal (hnames : ∀ name ∈ names, Literal name) :
    ∀ segment ∈ names.map String.toList, Path.Normal segment := by
  intro segment hsegment
  obtain ⟨name, hname, rfl⟩ := List.mem_map.mp hsegment
  exact (hnames name hname).normal

theorem literal_directory (hne : names ≠ []) (hnames : ∀ name ∈ names, Literal name) :
    ∀ c ∈ (directory names ++ "/").toList, c ∉ metacharacters := by
  have hslash : '/' ∉ metacharacters := by decide
  intro c hc
  have hclosed := Path.render_slash (mt List.map_eq_nil_iff.mp hne : names.map String.toList ≠ [])
  rw [String.toList_append, toList_directory] at hc
  rcases List.mem_cons.mp (hclosed ▸ hc) with rfl | hsegments
  · exact hslash
  · obtain ⟨segment, hsegment, hmem⟩ := List.mem_flatMap.mp hsegments
    obtain ⟨name, hname, rfl⟩ := List.mem_map.mp hsegment
    rcases List.mem_append.mp hmem with hchar | hend
    · exact ((hnames name hname).2.2.2 c hchar).2
    · rwa [List.mem_singleton.mp hend]

/-- The segments of a request's path. -/
def keptSegments (path : String) : List Path.Segment :=
  Path.resolve true (Path.segments path.toList)

theorem normal_keptSegments (path : String) : ∀ segment ∈ keptSegments path, Path.Normal segment :=
  Path.normal_resolve fun _ => Path.slash_notMem_of_mem_segments

theorem toList_clean_rooted (path : String) :
    (Path.clean ("/" ++ path)).toList = Path.render (keptSegments path) := by
  rw [Path.clean, String.toList_ofList, String.toList_append]
  rfl

theorem Platform.IsGo.toList_clean (hgo : platform.IsGo) (path : String) :
    (platform.clean ("/" ++ path)).toList = Path.render (keptSegments path) := by
  rw [hgo.clean_eq, toList_clean_rooted]

/-- To be in a subtree is to have its segments in front. -/
theorem Platform.IsGo.subtree_iff (hgo : platform.IsGo) (hne : names ≠ [])
    (hnames : ∀ name ∈ names, Literal name) (path : String) :
    (platform.clean ("/" ++ path) = directory names ∨
      hasPrefix (platform.clean ("/" ++ path)) (directory names ++ "/") = true) ↔
      names.map String.toList <+: keptSegments path := by
  rw [hasPrefix_iff, ← String.toList_inj, String.toList_append, hgo.toList_clean, toList_directory]
  exact Path.render_below_iff (by simpa using hne) (normal_of_literal hnames)
    (normal_keptSegments path)

theorem matchesBelow_iff (hgo : platform.IsGo) (hne : names ≠ [])
    (hnames : ∀ name ∈ names, Literal name) (path : String) :
    matchesBelow platform path (directory names ++ "/*") = true ↔
      names.map String.toList <+: keptSegments path := by
  have hpattern : directory names ++ "/*" = directory names ++ "/" ++ "*" := by
    rw [String.append_assoc]
    rfl
  have hsuffix : hasSuffix (directory names ++ "/*") "/*" = true := by
    rw [hasSuffix_iff, String.toList_append]
    exact List.suffix_append _ _
  have hrooted : hasPrefix (directory names ++ "/") "/" = true := by
    rw [hasPrefix_iff, String.toList_append, toList_directory]
    exact ⟨_, rfl⟩
  unfold matchesBelow
  rw [hsuffix, Bool.true_and, hpattern, trimSuffix_append, append_trimPrefix hrooted,
    hasPrefix_iff, String.toList_append, toList_directory]
  have hbelow := Path.render_below_iff (by simpa using hne) (normal_of_literal hnames)
    (normal_keptSegments path)
  split
  · rename_i hslash
    -- only the root ends in a slash, and it is in no subtree
    rw [hasSuffix_iff, hgo.toList_clean] at hslash
    have hroot := (Path.render_suffix_slash (normal_keptSegments path)).mp hslash
    rw [hgo.toList_clean]
    constructor
    · exact fun hstart => hbelow.mp (Or.inr hstart)
    · intro hin
      rw [hroot, List.prefix_nil, List.map_eq_nil_iff] at hin
      exact absurd hin hne
  · rw [String.toList_append, hgo.toList_clean, ← hbelow]
    exact (Path.eq_or_prefix_iff _ _).symm

/-- The pattern is clean, with the star as its last segment. -/
theorem clean_pattern (hgo : platform.IsGo) (hne : names ≠ [])
    (hnames : ∀ name ∈ names, Literal name) :
    platform.clean ("/" ++ (directory names ++ "/*")) = directory names ++ "/" ++ "*" := by
  have hclosed := Path.render_slash (mt List.map_eq_nil_iff.mp hne : names.map String.toList ≠ [])
  have hpattern : (directory names ++ "/*").toList =
      Path.render (names.map String.toList ++ [['*']]) := by
    rw [Path.render, Path.intercalate_concat, ← List.cons_append, ← hclosed, String.toList_append,
      toList_directory, List.append_assoc]
    rfl
  have hsegments : ∀ segment ∈ names.map String.toList ++ [['*']], Path.Normal segment := by
    rw [List.forall_mem_append]
    exact ⟨normal_of_literal hnames, by decide⟩
  have hcleaned := Path.cleanChars_render (List.append_ne_nil_of_right_ne_nil _ (by simp)) hsegments
  rw [← hpattern] at hcleaned
  rw [hgo.clean_eq, Path.clean, String.toList_append, String.append_assoc]
  exact (congrArg String.ofList hcleaned).trans String.ofList_toList

/-- A prefix rule covers exactly its subtree. -/
theorem matchesPattern_subtree_iff (hgo : platform.IsGo) (hne : names ≠ [])
    (hnames : ∀ name ∈ names, Literal name) (path : String) :
    matchesPattern platform path (directory names ++ "/*") = true ↔
      platform.clean ("/" ++ path) = directory names ∨
        hasPrefix (platform.clean ("/" ++ path)) (directory names ++ "/") = true := by
  unfold matchesPattern
  dsimp only
  rw [Bool.or_eq_true, matchesBelow_iff hgo hne hnames, ← hgo.subtree_iff hne hnames,
    clean_pattern hgo hne hnames]
  constructor
  · rintro (hbelow | hstar)
    · exact hbelow
    · rw [hgo.match_star _ _ (literal_directory hne hnames)] at hstar
      exact Or.inr (Bool.and_eq_true_iff.mp hstar).1
  · exact Or.inl

/-- Literal patterns, with or without a star at the end. -/
def matchStar (pattern name : String) : Option Bool :=
  if hasSuffix pattern "*" then
    some (hasPrefix name (trimSuffix pattern "*") &&
      (trimPrefix name (trimSuffix pattern "*")).toList.all (· ≠ '/'))
  else some (pattern = name)

theorem matchStar_append (start name : String) : matchStar (start ++ "*") name =
    some (hasPrefix name start && (trimPrefix name start).toList.all (· ≠ '/')) := by
  have hsuffix : hasSuffix (start ++ "*") "*" = true := by
    rw [hasSuffix_iff, String.toList_append]
    exact List.suffix_append _ _
  rw [matchStar, if_pos hsuffix, trimSuffix_append]

def starPlatform : Platform where
  tables := ⟨id, id⟩
  upper := id
  clean := Path.clean
  pathMatch := matchStar

theorem starPlatform_isGo : starPlatform.IsGo where
  clean_eq _ := rfl
  match_star start name _ := matchStar_append start name

theorem matchesPattern_api : directory ["api", "v1"] = "/api/v1" ∧ ∀ path : String,
    matchesPattern starPlatform path (directory ["api", "v1"] ++ "/*") = true ↔
      starPlatform.clean ("/" ++ path) = directory ["api", "v1"] ∨
        hasPrefix (starPlatform.clean ("/" ++ path)) (directory ["api", "v1"] ++ "/") = true :=
  ⟨by decide +kernel, matchesPattern_subtree_iff starPlatform_isGo (by decide) (by decide)⟩

end Subtrees

section Rewriting

/-- What the rest of a path may do after the prefix it was given.  After the root, it has to start
with a slash.  After another directory it may climb, but then it has to come back down: the first
segment of the rest continues the last one of the directory. -/
def StaysBelow (addPrefix rest : String) : Prop :=
  if addPrefix = "/" then rest = "" ∨ hasPrefix rest "/" = true
  else
    let segments := Path.segments addPrefix.toList.tail
    let beyond := Path.segments (segments.getLastD [] ++ rest.toList)
    segments.drop (segments.length - 1 - Path.ups beyond) <+: Path.downs beyond

instance instDecidableStaysBelow (addPrefix rest : String) :
    Decidable (StaysBelow addPrefix rest) := by
  unfold StaysBelow
  infer_instance

variable {platform : Platform} {rule : Rule} {rewrite : RewriteConfig}

theorem addPath_root (rest : String) :
    addPath "/" rest = if rest = "/" ∨ rest = "" then "/" ++ rest else rest := by
  have hroot : trimSuffix "/" "/" = "" := by decide
  have hslash : hasPrefix "/" "/" = true ∧ hasSuffix "/" "/" = true := by decide
  unfold addPath
  rw [if_pos (by decide)]
  simp only [hslash.1, hslash.2, if_true, true_and, hroot]
  by_cases hrest : rest = "/" ∨ rest = ""
  · rw [if_pos hrest, if_neg fun hboth => hrest.elim hboth.1 hboth.2]
  · rw [if_neg hrest, if_pos (not_or.mp hrest), String.empty_append]

theorem addPath_directory {addPrefix : String} (hrooted : hasPrefix addPrefix "/" = true)
    (hopen : hasSuffix addPrefix "/" = false) (rest : String) :
    addPath addPrefix rest = addPrefix ++ rest := by
  have hnonempty : addPrefix ≠ "" := by
    rintro rfl
    exact absurd hrooted (by decide)
  unfold addPath
  rw [if_pos hnonempty]
  simp [hrooted, hopen]

theorem Platform.IsGo.toList_clean_eq (hgo : platform.IsGo) (path : String) :
    (platform.clean path).toList = Path.cleanChars path.toList := by
  rw [hgo.clean_eq, Path.clean, String.toList_ofList]

/-- Below the root are the rooted paths. -/
theorem below_root_iff (hgo : platform.IsGo) (path : String) :
    Path.Below "/" (platform.clean path) ↔ hasPrefix path "/" = true := by
  have hslash : (if hasSuffix "/" "/" then "/" else "/" ++ "/") = "/" := by decide
  rw [Path.Below, hslash, hasPrefix_iff, hasPrefix_iff, hgo.toList_clean_eq]
  constructor
  · rintro (hroot | hstart)
    · by_contra hrelative
      have hresult := Path.cleanChars_relative hrelative
      rw [← hgo.toList_clean_eq, hroot] at hresult
      exact hresult (List.prefix_refl _)
    · by_contra hrelative
      exact Path.cleanChars_relative hrelative hstart
  · rintro ⟨rest, hrest⟩
    rw [← hrest]
    exact Or.inr ⟨_, rfl⟩

/-- A path that continues a directory, in terms of where it goes. -/
theorem below_directory_iff (hgo : platform.IsGo) {base : List Path.Segment} {last : Path.Segment}
    (hsegments : ∀ segment ∈ base ++ [last], Path.Normal segment) {addPrefix : String}
    (hadded : addPrefix.toList = Path.render (base ++ [last]))
    (hopen : hasSuffix addPrefix "/" = false) (rest : String) :
    Path.Below addPrefix (platform.clean (addPrefix ++ rest)) ↔
      (base ++ [last]).drop (base.length - Path.ups (Path.segments (last ++ rest.toList))) <+:
        Path.downs (Path.segments (last ++ rest.toList)) := by
  obtain ⟨hbase, -⟩ := List.forall_mem_append.mp hsegments
  have hbaseFree : ∀ segment ∈ base, '/' ∉ segment := fun segment hsegment =>
    (hbase segment hsegment).slash_notMem
  have hfree : ∀ segment ∈ Path.segments (last ++ rest.toList), '/' ∉ segment :=
    fun _ => Path.slash_notMem_of_mem_segments
  obtain ⟨hdowns, hresolved⟩ := Path.resolve_append hbase hfree
  have hcleaned : (platform.clean (addPrefix ++ rest)).toList = Path.render
      (base.take (base.length - Path.ups (Path.segments (last ++ rest.toList))) ++
        Path.downs (Path.segments (last ++ rest.toList))) := by
    rw [hgo.toList_clean_eq, String.toList_append, hadded, Path.render, List.cons_append,
      Path.intercalate_concat, Path.cleanChars_rooted, List.append_assoc,
      Path.segments_flatMap hbaseFree, hresolved]
  have hkept : ∀ segment ∈ base.take (base.length -
      Path.ups (Path.segments (last ++ rest.toList))) ++
        Path.downs (Path.segments (last ++ rest.toList)), Path.Normal segment :=
    List.forall_mem_append.mpr
      ⟨fun segment hsegment => hbase segment (List.mem_of_mem_take hsegment), hdowns⟩
  have hbelow := Path.render_below_iff (List.append_ne_nil_of_right_ne_nil base (by simp))
    hsegments hkept
  rw [Path.Below, if_neg (by simp [hopen]), hasPrefix_iff, ← String.toList_inj, hcleaned,
    String.toList_append, hadded]
  refine hbelow.trans ?_
  -- both sides begin with what is left of the directory
  have hshared : (base ++ [last]).take (base.length -
      Path.ups (Path.segments (last ++ rest.toList))) =
        base.take (base.length - Path.ups (Path.segments (last ++ rest.toList))) :=
    List.take_append_of_le_length (Nat.sub_le _ _)
  nth_rewrite 1 [← List.take_append_drop
    (base.length - Path.ups (Path.segments (last ++ rest.toList))) (base ++ [last])]
  rw [hshared, List.prefix_append_right_inj]

/-- A rewritten path stays below its prefix if and only if the rest of the path does. -/
theorem applyRewrite_below_iff (hgo : platform.IsGo) (hrewrite : rule.rewrite = some rewrite)
    (hrooted : hasPrefix rewrite.addPrefix "/" = true)
    (hclean : platform.clean rewrite.addPrefix = rewrite.addPrefix) (path : String) :
    Path.Below rewrite.addPrefix (platform.clean (rule.applyRewrite path)) ↔
      StaysBelow rewrite.addPrefix (stripPath rewrite.stripPrefix path) := by
  have happlied : rule.applyRewrite path =
      addPath rewrite.addPrefix (stripPath rewrite.stripPrefix path) := by
    rw [Rule.applyRewrite, hrewrite]
  rw [happlied]
  generalize stripPath rewrite.stripPrefix path = rest
  obtain ⟨kept, hkept, hnormal⟩ := Path.exists_render_of_clean ((hasPrefix_iff _ _).mp hrooted)
    (by rw [← hgo.toList_clean_eq, hclean])
  unfold StaysBelow
  by_cases hroot : rewrite.addPrefix = "/"
  · rw [if_pos hroot, hroot, below_root_iff hgo, addPath_root]
    by_cases hshort : rest = "/" ∨ rest = ""
    · rw [if_pos hshort]
      refine iff_of_true (by simp [hasPrefix]) ?_
      rcases hshort with rfl | rfl
      · exact Or.inr (by decide)
      · exact Or.inl rfl
    · rw [if_neg hshort]
      exact (or_iff_right (not_or.mp hshort).2).symm
  · rw [if_neg hroot]
    have hne : kept ≠ [] := by
      rintro rfl
      exact hroot (String.toList_inj.mp hkept)
    obtain ⟨base, last, rfl⟩ := (List.eq_nil_or_concat kept).resolve_left hne
    rw [List.concat_eq_append] at hkept hnormal hne
    have hopen : hasSuffix rewrite.addPrefix "/" = false := by
      rw [Bool.eq_false_iff, ne_eq, hasSuffix_iff, hkept]
      exact mt (Path.render_suffix_slash hnormal).mp hne
    have hsegments : Path.segments rewrite.addPrefix.toList.tail = base ++ [last] := by
      rw [hkept]
      exact List.splitOn_intercalate '/'
        (fun segment hsegment => (hnormal segment hsegment).slash_notMem) hne
    rw [addPath_directory hrooted hopen, below_directory_iff hgo hnormal hkept hopen, hsegments]
    simp

def versionRewrite : RewriteConfig := ⟨"", "/v1"⟩

/-- A rule for all paths that puts the path of an API version in front. -/
def versionRule : Rule :=
  ⟨"version", "/*", [], false, "", [], "api", 0, some versionRewrite, true⟩

theorem versionRule_users :
    starPlatform.clean versionRewrite.addPrefix = versionRewrite.addPrefix ∧
      Path.Below versionRewrite.addPrefix
        (starPlatform.clean (versionRule.applyRewrite "/users/../groups")) := by
  have hrewrite : versionRule.rewrite = some versionRewrite := rfl
  have hclean : starPlatform.clean versionRewrite.addPrefix = versionRewrite.addPrefix := by
    decide +kernel
  exact ⟨hclean, (applyRewrite_below_iff starPlatform_isGo hrewrite (by decide) hclean
    "/users/../groups").mpr (by decide +kernel)⟩

/-- The rule matches the clean path and forwards the one that was sent. -/
theorem versionRule_escapes :
    starPlatform.IsGo ∧ versionRule.validate starPlatform = .ok () ∧
      starPlatform.clean "/v1" = "/v1" ∧
      matchRule starPlatform [versionRule] ⟨"GET", "/../admin"⟩ = some versionRule ∧
      starPlatform.clean (versionRule.applyRewrite "/../admin") = "/admin" ∧
      ¬Path.Below "/v1" "/admin" :=
  ⟨starPlatform_isGo, by decide +kernel, by decide +kernel, by decide +kernel, by decide +kernel,
    by decide +kernel⟩

end Rewriting

end Aegion.ProxyRules
