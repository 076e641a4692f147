/-
The package `path`: cleaning a slash-separated path.  A path is read as its segments, which are
kept on a stack; a parent segment takes the last one back.  A rooted path has no parent segment
left, a relative one may start with some, and what a relative path does below a directory can be
read off its own clean form.
-/
import Aegion.GoText

namespace Aegion

namespace Go

namespace Path

abbrev Segment := List Char

def parent : Segment := ['.', '.']

def segments (path : List Char) : List Segment := path.splitOn '/'

/-- A parent segment after those kept so far, the last one first.  Above the root there is nothing
to take back; above a relative start the parent segment is kept. -/
def takeBack (rooted : Bool) : List Segment → List Segment
  | [] => if rooted then [] else [parent]
  | last :: before => if last = parent then parent :: last :: before else before

def push (rooted : Bool) (stack : List Segment) (segment : Segment) : List Segment :=
  if segment = [] ∨ segment = ['.'] then stack
  else if segment = parent then takeBack rooted stack
  else segment :: stack

def resolve (rooted : Bool) (path : List Segment) : List Segment :=
  (path.foldl (push rooted) []).reverse

/-- The rooted path of some segments. -/
def render (kept : List Segment) : List Char := '/' :: ['/'].intercalate kept

def cleanChars : List Char → List Char
  | '/' :: rest => render (resolve true (segments rest))
  | path =>
      if resolve false (segments path) = [] then ['.']
      else ['/'].intercalate (resolve false (segments path))

/-- `path.Clean`. -/
def clean (path : String) : String := String.ofList (cleanChars path.toList)

/-- A segment that a clean path keeps as it is. -/
def Normal (segment : Segment) : Prop :=
  segment ≠ [] ∧ segment ≠ ['.'] ∧ segment ≠ parent ∧ '/' ∉ segment

instance instDecidableNormal (segment : Segment) : Decidable (Normal segment) :=
  inferInstanceAs (Decidable (_ ∧ _ ∧ _ ∧ _))

section Segments

theorem Normal.slash_notMem {segment : Segment} (hsegment : Normal segment) : '/' ∉ segment :=
  hsegment.2.2.2

theorem segments_cons {segment : Segment} (hfree : '/' ∉ segment) (rest : List Char) :
    segments (segment ++ '/' :: rest) = segment :: segments rest := by
  unfold segments
  rw [List.splitOn_append_cons_self, List.splitOn_eq_singleton hfree]
  rfl

theorem segments_flatMap {base : List Segment} (hfree : ∀ segment ∈ base, '/' ∉ segment)
    (rest : List Char) : segments (base.flatMap (· ++ ['/']) ++ rest) = base ++ segments rest := by
  induction base with
  | nil => rfl
  | cons segment base ih =>
      rw [List.flatMap_cons, List.append_assoc, List.append_assoc, List.singleton_append,
        segments_cons (hfree segment List.mem_cons_self),
        ih fun other hother => hfree other (List.mem_cons_of_mem segment hother),
        List.cons_append]

theorem slash_notMem_of_mem_segments {path : List Char} {segment : Segment}
    (hsegment : segment ∈ segments path) : '/' ∉ segment := by
  induction hlength : path.length using Nat.strongRecOn generalizing path with
  | ind n ih =>
      by_cases hslash : '/' ∈ path
      · obtain ⟨first, rest, rfl, hfree⟩ := List.eq_append_cons_of_mem hslash
        rw [segments_cons hfree] at hsegment
        rcases List.mem_cons.mp hsegment with rfl | hrest
        · exact hfree
        · refine ih rest.length ?_ hrest rfl
          rw [← hlength, List.length_append, List.length_cons]
          omega
      · unfold segments at hsegment
        rw [List.splitOn_eq_singleton hslash, List.mem_singleton] at hsegment
        rwa [hsegment]

theorem intercalate_concat (base : List Segment) (last : Segment) :
    ['/'].intercalate (base ++ [last]) = base.flatMap (· ++ ['/']) ++ last := by
  induction base with
  | nil => simp [List.intercalate]
  | cons segment base ih =>
      cases base with
      | nil => simp [List.intercalate]
      | cons next base =>
          rw [List.cons_append, List.cons_append, List.intercalate_cons_cons, ← List.cons_append,
            ih, ← List.append_assoc]
          rfl

/-- With its closing slash, a rooted path is a slash and its closed segments. -/
theorem render_slash {kept : List Segment} (hkept : kept ≠ []) :
    render kept ++ ['/'] = '/' :: kept.flatMap (· ++ ['/']) := by
  obtain ⟨base, last, rfl⟩ := List.eq_nil_or_concat kept |>.resolve_left hkept
  rw [render, List.concat_eq_append, intercalate_concat, List.flatMap_append]
  simp

/-- Up to the first slash nothing else fits. -/
theorem append_slash_prefix_iff {one other : Segment} (hone : '/' ∉ one) (hother : '/' ∉ other)
    (left right : List Char) :
    one ++ '/' :: left <+: other ++ '/' :: right ↔ one = other ∧ left <+: right := by
  constructor
  · rintro ⟨rest, hrest⟩
    rw [List.append_assoc, List.cons_append] at hrest
    have hsegments := congrArg segments hrest
    rw [segments_cons hone, segments_cons hother] at hsegments
    cases (List.cons.inj hsegments).1
    exact ⟨rfl, rest, List.cons.inj (List.append_cancel_left hrest) |>.2⟩
  · rintro ⟨rfl, rest, rfl⟩
    exact ⟨rest, by rw [List.append_assoc, List.cons_append]⟩

/-- Closed segments begin with others exactly if the segments do. -/
theorem flatMap_prefix_iff {one other : List Segment} (hone : ∀ segment ∈ one, '/' ∉ segment)
    (hother : ∀ segment ∈ other, '/' ∉ segment) :
    one.flatMap (· ++ ['/']) <+: other.flatMap (· ++ ['/']) ↔ one <+: other := by
  induction one generalizing other with
  | nil => simp
  | cons segment one ih =>
      cases other with
      | nil => simp
      | cons next other =>
          rw [List.forall_mem_cons] at hone hother
          rw [List.flatMap_cons, List.flatMap_cons, List.append_assoc, List.append_assoc,
            List.singleton_append, List.singleton_append,
            append_slash_prefix_iff hone.1 hother.1, ih hone.2 hother.2, List.cons_prefix_cons]

end Segments

section Resolving

theorem push_skipped (rooted : Bool) (stack : List Segment) {segment : Segment}
    (hsegment : segment = [] ∨ segment = ['.']) : push rooted stack segment = stack :=
  if_pos hsegment

theorem push_normal (rooted : Bool) (stack : List Segment) {segment : Segment}
    (hsegment : Normal segment) : push rooted stack segment = segment :: stack := by
  obtain ⟨hempty, hdot, hparent, -⟩ := hsegment
  unfold push
  rw [if_neg (not_or.mpr ⟨hempty, hdot⟩), if_neg hparent]

theorem takeBack_normal (rooted : Bool) {last : Segment} (hlast : Normal last)
    (before : List Segment) : takeBack rooted (last :: before) = before :=
  if_neg hlast.2.2.1

theorem takeBack_replicate (up : Nat) :
    takeBack false (List.replicate up parent) = List.replicate (up + 1) parent := by
  cases up with
  | zero => rfl
  | succ up =>
      rw [List.replicate_succ, takeBack, if_pos rfl]
      rfl

theorem takeBack_drop {stack : List Segment} (hstack : ∀ segment ∈ stack, Normal segment)
    (up : Nat) : takeBack true (stack.drop up) = stack.drop (up + 1) := by
  rw [← List.drop_drop]
  cases hrest : stack.drop up with
  | nil => rfl
  | cons last before =>
      have hlast : last ∈ stack := List.mem_of_mem_drop (hrest ▸ List.mem_cons_self)
      exact takeBack_normal true (hstack last hlast) before

theorem foldl_push_normal (rooted : Bool) (stack : List Segment) {path : List Segment}
    (hpath : ∀ segment ∈ path, Normal segment) :
    path.foldl (push rooted) stack = path.reverse ++ stack := by
  induction path generalizing stack with
  | nil => rfl
  | cons segment path ih =>
      rw [List.forall_mem_cons] at hpath
      rw [List.foldl_cons, push_normal rooted stack hpath.1, ih _ hpath.2, List.reverse_cons,
        List.append_assoc, List.singleton_append]

theorem resolve_normal (rooted : Bool) {path : List Segment}
    (hpath : ∀ segment ∈ path, Normal segment) : resolve rooted path = path := by
  rw [resolve, foldl_push_normal rooted [] hpath, List.append_nil, List.reverse_reverse]

/-- What a segment does to a relative path, `up` parents and then `down`, and to the directory
`stack` below which that path is taken. -/
theorem push_relative {stack down : List Segment} (up : Nat)
    (hstack : ∀ segment ∈ stack, Normal segment) (hdown : ∀ segment ∈ down, Normal segment)
    {segment : Segment} (hfree : '/' ∉ segment) :
    ∃ up' down', (∀ kept ∈ down', Normal kept) ∧
      push false (down ++ List.replicate up parent) segment = down' ++ List.replicate up' parent ∧
      push true (down ++ stack.drop up) segment = down' ++ stack.drop up' := by
  by_cases hskipped : segment = [] ∨ segment = ['.']
  · exact ⟨up, down, hdown, push_skipped false _ hskipped, push_skipped true _ hskipped⟩
  by_cases hparent : segment = parent
  · subst hparent
    cases down with
    | nil => exact ⟨up + 1, [], hdown, takeBack_replicate up, takeBack_drop hstack up⟩
    | cons last before =>
        rw [List.forall_mem_cons] at hdown
        exact ⟨up, before, hdown.2, takeBack_normal false hdown.1 _, takeBack_normal true hdown.1 _⟩
  · have hnormal : Normal segment :=
      ⟨fun h => hskipped (Or.inl h), fun h => hskipped (Or.inr h), hparent, hfree⟩
    exact ⟨up, segment :: down, List.forall_mem_cons.mpr ⟨hnormal, hdown⟩,
      push_normal false _ hnormal, push_normal true _ hnormal⟩

/-- The two stacks of a whole path. -/
theorem foldl_push_relative {stack path : List Segment}
    (hstack : ∀ segment ∈ stack, Normal segment) (hpath : ∀ segment ∈ path, '/' ∉ segment)
    {down : List Segment} (up : Nat) (hdown : ∀ segment ∈ down, Normal segment) :
    ∃ up' down', (∀ kept ∈ down', Normal kept) ∧
      path.foldl (push false) (down ++ List.replicate up parent) =
        down' ++ List.replicate up' parent ∧
      path.foldl (push true) (down ++ stack.drop up) = down' ++ stack.drop up' := by
  induction path generalizing up down with
  | nil => exact ⟨up, down, hdown, rfl, rfl⟩
  | cons segment path ih =>
      rw [List.forall_mem_cons] at hpath
      obtain ⟨up', down', hdown', hrelative, hbelow⟩ := push_relative up hstack hdown hpath.1
      rw [List.foldl_cons, List.foldl_cons, hrelative, hbelow]
      exact ih hpath.2 up' hdown'

/-- How far up a relative path goes before it goes down. -/
def ups (path : List Segment) : Nat := ((resolve false path).takeWhile (· = parent)).length

def downs (path : List Segment) : List Segment := (resolve false path).dropWhile (· = parent)

theorem ups_downs_of_resolve {path down : List Segment} {up : Nat}
    (hdown : ∀ segment ∈ down, Normal segment)
    (hresolved : resolve false path = List.replicate up parent ++ down) :
    ups path = up ∧ downs path = down := by
  have hclimbed : ∀ segment ∈ List.replicate up parent, decide (segment = parent) = true := by
    intro segment hsegment
    rw [List.eq_of_mem_replicate hsegment]
    rfl
  rw [ups, downs, hresolved, List.takeWhile_append_of_pos hclimbed,
    List.dropWhile_append_of_pos hclimbed]
  cases down with
  | nil => simp
  | cons first rest =>
      have hfirst : decide (first = parent) = false :=
        decide_eq_false (hdown first List.mem_cons_self).2.2.1
      rw [List.takeWhile_cons_of_neg (by simp [hfirst]),
        List.dropWhile_cons_of_neg (by simp [hfirst])]
      simp

theorem exists_resolve {base path : List Segment} (hbase : ∀ segment ∈ base, Normal segment)
    (hpath : ∀ segment ∈ path, '/' ∉ segment) :
    ∃ up down, (∀ kept ∈ down, Normal kept) ∧
      resolve false path = List.replicate up parent ++ down ∧
      resolve true (base ++ path) = base.take (base.length - up) ++ down := by
  have hreverse : ∀ segment ∈ base.reverse, Normal segment := fun segment hsegment =>
    hbase segment (List.mem_reverse.mp hsegment)
  obtain ⟨up, down, hdown, hrelative, hbelow⟩ :=
    foldl_push_relative hreverse hpath 0 (List.forall_mem_nil Normal)
  refine ⟨up, down.reverse, fun segment hsegment => hdown segment (List.mem_reverse.mp hsegment),
    ?_, ?_⟩
  · have hreversed := congrArg List.reverse hrelative
    rwa [List.reverse_append, List.reverse_replicate] at hreversed
  · have hreversed := congrArg List.reverse hbelow
    rw [List.reverse_append, List.reverse_drop, List.reverse_reverse,
      List.length_reverse] at hreversed
    rw [resolve, List.foldl_append, foldl_push_normal true [] hbase, List.append_nil]
    exact hreversed

/-- A relative path below a directory: the directory without its last `ups` segments, and the
`downs`. -/
theorem resolve_append {base path : List Segment} (hbase : ∀ segment ∈ base, Normal segment)
    (hpath : ∀ segment ∈ path, '/' ∉ segment) :
    (∀ kept ∈ downs path, Normal kept) ∧
      resolve true (base ++ path) = base.take (base.length - ups path) ++ downs path := by
  obtain ⟨up, down, hdown, hrelative, hbelow⟩ := exists_resolve hbase hpath
  obtain ⟨rfl, rfl⟩ := ups_downs_of_resolve hdown hrelative
  exact ⟨hdown, hbelow⟩

/-- A rooted path keeps normal segments only. -/
theorem normal_resolve {path : List Segment} (hpath : ∀ segment ∈ path, '/' ∉ segment) :
    ∀ kept ∈ resolve true path, Normal kept := by
  obtain ⟨hdowns, hresolved⟩ := resolve_append (List.forall_mem_nil Normal) hpath
  rw [List.nil_append, List.take_nil, List.nil_append] at hresolved
  rwa [hresolved]

end Resolving

section Directories

/-- The path is the directory or lies below it. -/
def Below (directory path : String) : Prop :=
  path = directory ∨
    hasPrefix path (if hasSuffix directory "/" then directory else directory ++ "/") = true

instance instDecidableBelow (directory path : String) : Decidable (Below directory path) :=
  inferInstanceAs (Decidable (_ ∨ _))

theorem eq_or_prefix_iff (directory path : List Char) :
    (path = directory ∨ directory ++ ['/'] <+: path) ↔ directory ++ ['/'] <+: path ++ ['/'] := by
  rw [List.prefix_concat_iff]
  refine or_congr_left ?_
  rw [List.append_left_inj]
  exact eq_comm

/-- Below a directory that is not the root are the paths with its segments in front. -/
theorem render_below_iff {one kept : List Segment} (hne : one ≠ [])
    (hone : ∀ segment ∈ one, Normal segment) (hkept : ∀ segment ∈ kept, Normal segment) :
    (render kept = render one ∨ render one ++ ['/'] <+: render kept) ↔ one <+: kept := by
  have honeFree : ∀ segment ∈ one, '/' ∉ segment := fun segment hsegment =>
    (hone segment hsegment).slash_notMem
  rw [eq_or_prefix_iff, render_slash hne]
  by_cases hroot : kept = []
  · subst hroot
    -- the root with a slash more has one empty segment, which no directory has
    have hdouble : render [] ++ ['/'] = '/' :: [([] : Segment)].flatMap (· ++ ['/']) := rfl
    rw [hdouble, List.cons_prefix_cons, flatMap_prefix_iff honeFree (by simp), List.prefix_nil]
    refine iff_of_false ?_ hne |>.trans (Iff.of_eq rfl)
    rintro ⟨-, hprefix⟩
    cases one with
    | nil => exact hne rfl
    | cons segment one =>
        obtain ⟨hempty, -⟩ := List.cons_prefix_cons.mp hprefix
        exact (hone segment List.mem_cons_self).1 hempty
  · have hkeptFree : ∀ segment ∈ kept, '/' ∉ segment := fun segment hsegment =>
      (hkept segment hsegment).slash_notMem
    rw [render_slash hroot, List.cons_prefix_cons, flatMap_prefix_iff honeFree hkeptFree]
    exact and_iff_right rfl

theorem render_suffix_slash {kept : List Segment} (hkept : ∀ segment ∈ kept, Normal segment) :
    ['/'] <:+ render kept ↔ kept = [] := by
  constructor
  · intro hsuffix
    by_contra hne
    obtain ⟨base, last, rfl⟩ := (List.eq_nil_or_concat kept).resolve_left hne
    rw [List.concat_eq_append] at hkept hsuffix
    have hlast := hkept last (List.mem_append_right base List.mem_cons_self)
    rw [render, intercalate_concat, ← List.cons_append] at hsuffix
    obtain ⟨rest, hrest⟩ := hsuffix
    obtain ⟨before, final, rfl⟩ := (List.eq_nil_or_concat last).resolve_left hlast.1
    rw [List.concat_eq_append, ← List.append_assoc] at hrest
    have hfinal := List.append_inj_right' hrest rfl
    cases hfinal
    exact hlast.slash_notMem (by simp)
  · rintro rfl
    exact List.suffix_refl _

theorem cleanChars_rooted (rest : List Char) :
    cleanChars ('/' :: rest) = render (resolve true (segments rest)) := rfl

/-- A path that does not start at the root does not get there. -/
theorem cleanChars_relative {path : List Char} (hrelative : ¬['/'] <+: path) :
    ¬['/'] <+: cleanChars path := by
  unfold cleanChars
  split
  · rename_i rest
    exact absurd (List.prefix_append ['/'] rest) hrelative
  split
  · decide
  · rename_i hne
    have hfree : ∀ segment ∈ segments path, '/' ∉ segment := fun _ => slash_notMem_of_mem_segments
    obtain ⟨up, down, hdown, hresolved, -⟩ := exists_resolve (List.forall_mem_nil Normal) hfree
    have hkept : ∀ kept ∈ resolve false (segments path), kept ≠ [] ∧ '/' ∉ kept := by
      intro kept hmem
      rw [hresolved] at hmem
      rcases List.mem_append.mp hmem with hup | hmemDown
      · rw [List.eq_of_mem_replicate hup]
        decide
      · exact ⟨(hdown kept hmemDown).1, (hdown kept hmemDown).slash_notMem⟩
    cases hall : resolve false (segments path) with
    | nil => exact absurd hall hne
    | cons first rest =>
        obtain ⟨hfirst, hslash⟩ := hkept first (hall ▸ List.mem_cons_self)
        rintro ⟨tail, htail⟩
        cases first with
        | nil => exact hfirst rfl
        | cons c cs =>
            have hhead : '/' = c := by
              cases rest <;> simp [List.intercalate] at htail <;> exact htail.1
            exact hslash (hhead ▸ List.mem_cons_self)

/-- A clean rooted path and its segments. -/
theorem exists_render_of_clean {path : List Char} (hrooted : ['/'] <+: path)
    (hclean : cleanChars path = path) :
    ∃ kept, path = render kept ∧ ∀ segment ∈ kept, Normal segment := by
  obtain ⟨rest, rfl⟩ := hrooted
  exact ⟨_, hclean.symm, normal_resolve fun _ => slash_notMem_of_mem_segments⟩

theorem cleanChars_render {kept : List Segment} (hne : kept ≠ [])
    (hkept : ∀ segment ∈ kept, Normal segment) : cleanChars ('/' :: render kept) = render kept := by
  have hsegments : segments (render kept) = [] :: kept := by
    rw [render, ← List.nil_append ('/' :: _), segments_cons (by simp)]
    exact congrArg _ (List.splitOn_intercalate '/'
      (fun segment hsegment => (hkept segment hsegment).slash_notMem) hne)
  rw [cleanChars_rooted, hsegments]
  exact congrArg render (resolve_normal true hkept)

end Directories

end Path

end Go

end Aegion
