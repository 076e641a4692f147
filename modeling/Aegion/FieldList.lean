/-
Comma-separated lists in header lines.  Blanks around the text or its parts do not count,
and several lines are one list, their texts joined by commas.
-/
import Aegion.GoText

namespace Aegion.FieldList

open Go

/-- The parts between the commas, without the blanks around them. -/
def parts (s : String) : List String := (split s ',').map trimSpace

/-- The parts that are not empty. -/
def entries (s : String) : List String := (parts s).filter (· ≠ "")

/-- The last element with a property. -/
def rightmost {α : Type} (p : α → Bool) (xs : List α) : Option α := xs.reverse.find? p

section Rightmost

variable {α : Type} {p : α → Bool} {xs : List α} {x : α}

theorem rightmost_eq_some_iff :
    rightmost p xs = some x ↔
      p x = true ∧ ∃ left right, xs = left ++ x :: right ∧ ∀ y ∈ right, p y = false := by
  rw [rightmost, List.find?_eq_some_iff_append]
  refine and_congr_right fun _ => ⟨?_, ?_⟩
  · rintro ⟨right, left, hxs, hright⟩
    refine ⟨left.reverse, right.reverse, ?_, fun y hy => ?_⟩
    · rw [← List.reverse_inj, hxs]
      simp
    · simpa using hright y (List.mem_reverse.mp hy)
  · rintro ⟨left, right, rfl, hright⟩
    refine ⟨right.reverse, left.reverse, by simp, fun y hy => ?_⟩
    simpa using hright y (List.mem_reverse.mp hy)

theorem rightmost_eq_none_iff : rightmost p xs = none ↔ ∀ y ∈ xs, p y = false := by
  simp [rightmost]

end Rightmost

section Blanks

/-- `trimSpace` on the characters. -/
def trimChars (chars : List Char) : List Char :=
  ((chars.dropWhile isSpace).reverse.dropWhile isSpace).reverse

theorem trimSpace_ofList (chars : List Char) :
    trimSpace (String.ofList chars) = String.ofList (trimChars chars) := by
  rw [trimSpace, String.toList_ofList, trimChars]

variable {chars blanks : List Char}

theorem trimChars_append_left (hblanks : ∀ c ∈ blanks, isSpace c = true) :
    trimChars (blanks ++ chars) = trimChars chars := by
  rw [trimChars, List.dropWhile_append_of_pos hblanks, trimChars]

theorem trimChars_append_right (hblanks : ∀ c ∈ blanks, isSpace c = true) :
    trimChars (chars ++ blanks) = trimChars chars := by
  have hreverse : ∀ c ∈ blanks.reverse, isSpace c = true := fun c hc =>
    hblanks c (List.mem_reverse.mp hc)
  rw [trimChars, trimChars, List.dropWhile_append]
  by_cases hempty : (chars.dropWhile isSpace).isEmpty = true
  · rw [if_pos hempty, List.isEmpty_iff.mp hempty, List.dropWhile_eq_nil_iff.mpr hblanks]
  · rw [if_neg hempty, List.reverse_append, List.dropWhile_append_of_pos hreverse]

theorem comma_notMem (hblanks : ∀ c ∈ blanks, isSpace c = true) : ',' ∉ blanks := by
  intro hcomma
  cases hblanks ',' hcomma

/-- The parts, on the characters. -/
def charParts (chars : List Char) : List (List Char) := (chars.splitOn ',').map trimChars

theorem charParts_append_left (hblanks : ∀ c ∈ blanks, isSpace c = true) :
    charParts (blanks ++ chars) = charParts chars := by
  by_cases hmem : ',' ∈ chars
  · obtain ⟨first, rest, rfl, hfirst⟩ := List.eq_append_cons_of_mem hmem
    have hall : ',' ∉ blanks ++ first := by
      simpa using ⟨comma_notMem hblanks, hfirst⟩
    rw [charParts, charParts, ← List.append_assoc,
      List.splitOn_append_cons_self_of_not_mem hall,
      List.splitOn_append_cons_self_of_not_mem hfirst, List.map_cons, List.map_cons,
      trimChars_append_left hblanks]
  · have hall : ',' ∉ blanks ++ chars := by
      simpa using ⟨comma_notMem hblanks, hmem⟩
    rw [charParts, charParts, List.splitOn_eq_singleton hall, List.splitOn_eq_singleton hmem,
      List.map_singleton, List.map_singleton, trimChars_append_left hblanks]

theorem charParts_append_right (hblanks : ∀ c ∈ blanks, isSpace c = true) :
    charParts (chars ++ blanks) = charParts chars := by
  by_cases hmem : ',' ∈ chars
  · obtain ⟨last, rest, hreverse, hlast⟩ :=
      List.eq_append_cons_of_mem (List.mem_reverse.mpr hmem)
    obtain rfl : chars = rest.reverse ++ ',' :: last.reverse := by
      rw [← List.reverse_inj, hreverse]
      simp
    have hlast' : ',' ∉ last.reverse := by simpa using hlast
    have hall : ',' ∉ last.reverse ++ blanks := by
      simpa using ⟨hlast, comma_notMem hblanks⟩
    rw [charParts, charParts, List.append_assoc, List.cons_append,
      List.splitOn_append_cons_self, List.splitOn_append_cons_self,
      List.splitOn_eq_singleton hall, List.splitOn_eq_singleton hlast',
      List.map_append, List.map_append, List.map_singleton, List.map_singleton,
      trimChars_append_right hblanks]
  · have hall : ',' ∉ chars ++ blanks := by
      simpa using ⟨hmem, comma_notMem hblanks⟩
    rw [charParts, charParts, List.splitOn_eq_singleton hall, List.splitOn_eq_singleton hmem,
      List.map_singleton, List.map_singleton, trimChars_append_right hblanks]

theorem charParts_trimChars (chars : List Char) :
    charParts (trimChars chars) = charParts chars := by
  have hspace : ∀ {l : List Char}, ∀ c ∈ l.takeWhile isSpace, isSpace c = true :=
    fun c hc => List.mem_takeWhile_imp hc
  have hcore : chars.dropWhile isSpace = trimChars chars ++
      ((chars.dropWhile isSpace).reverse.takeWhile isSpace).reverse := by
    rw [trimChars, ← List.reverse_append, List.takeWhile_append_dropWhile, List.reverse_reverse]
  calc charParts (trimChars chars)
      = charParts (trimChars chars ++
          ((chars.dropWhile isSpace).reverse.takeWhile isSpace).reverse) :=
        (charParts_append_right fun c hc => hspace c (List.mem_reverse.mp hc)).symm
    _ = charParts (chars.dropWhile isSpace) := by rw [← hcore]
    _ = charParts (chars.takeWhile isSpace ++ chars.dropWhile isSpace) :=
        (charParts_append_left hspace).symm
    _ = charParts chars := by rw [List.takeWhile_append_dropWhile]

theorem parts_eq (s : String) : parts s = (charParts s.toList).map String.ofList := by
  simp only [parts, split, charParts, List.map_map]
  exact List.map_congr_left fun chars _ => trimSpace_ofList chars

@[simp]
theorem parts_trimSpace (s : String) : parts (trimSpace s) = parts s := by
  rw [parts_eq, parts_eq, trimSpace, String.toList_ofList]
  exact congrArg _ (charParts_trimChars s.toList)

end Blanks

section Lines

theorem parts_join_cons (line next : String) (rest : List String) :
    parts (join (line :: next :: rest) ",") = parts line ++ parts (join (next :: rest) ",") := by
  have hchars : (join (line :: next :: rest) ",").toList =
      line.toList ++ ',' :: (join (next :: rest) ",").toList := by
    rw [join, String.intercalate_cons_cons, String.toList_append, String.toList_append,
      List.append_assoc]
    rfl
  rw [parts, split, hchars, List.splitOn_append_cons_self, List.map_append, List.map_append]
  rfl

theorem mem_entries_iff {s entry : String} : entry ∈ entries s ↔ entry ∈ parts s ∧ entry ≠ "" := by
  rw [entries, List.mem_filter, decide_eq_true_eq]

/-- The entries of the first line are entries of the list. -/
theorem entries_head_subset (lines : List String) {entry : String}
    (hentry : entry ∈ entries (lines.headD "")) : entry ∈ entries (join lines ",") := by
  match lines with
  | [] => exact hentry
  | [line] => simpa [join] using hentry
  | line :: next :: rest =>
      rw [mem_entries_iff] at hentry ⊢
      rw [parts_join_cons]
      exact ⟨List.mem_append_left _ hentry.1, hentry.2⟩

end Lines

end Aegion.FieldList
