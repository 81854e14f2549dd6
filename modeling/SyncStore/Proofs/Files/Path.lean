import Mathlib.Data.List.Infix
import Mathlib.Data.List.TakeWhile
import SyncStore.Files.FileTree

/-! A path is known by its segments, and so is the path of its parent. -/

namespace SyncStore

namespace Path

/--
A normal segment is a name.

- `busy`: it leads somewhere
- `down`: it does not lead back
- `whole`: no slash cuts it
-/
structure IsNormal (segment : String) : Prop where
  busy : isIdle segment = false
  down : segment ≠ ".."
  whole : '/' ∉ segment.toList

/-- A segment that leads somewhere is neither empty nor a point. -/
theorem isIdle_eq_false {segment : String} :
    isIdle segment = false ↔ segment ≠ "" ∧ segment ≠ "." := by
  simp [isIdle]

/-- A normal segment has letters. -/
theorem IsNormal.ne_empty {segment : String} (normal : IsNormal segment) : segment ≠ "" :=
  (isIdle_eq_false.mp normal.busy).1

/-- The pieces between the slashes hold no slash. -/
theorem slash_not_mem_splitOn {letters piece : List Char} (part : piece ∈ letters.splitOn '/') :
    '/' ∉ piece := by
  induction letters generalizing piece with
  | nil =>
    obtain rfl : piece = [] := by simpa [List.splitOn_nil] using part
    simp
  | cons letter rest ih =>
    rw [List.splitOn_cons_eq_if_modifyHead] at part
    split at part
    · -- A slash ends an empty piece.
      rcases List.mem_cons.mp part with rfl | part
      · simp
      · exact ih part
    · -- Any other letter goes in front of the first piece.
      rename_i other
      cases pieces : rest.splitOn '/' with
      | nil => exact absurd pieces (List.splitOn_ne_nil _ _)
      | cons first others =>
        rw [pieces, List.modifyHead_cons] at part
        rw [pieces] at ih
        rcases List.mem_cons.mp part with rfl | part
        · have first := ih List.mem_cons_self
          simp only [List.mem_cons, not_or]
          exact ⟨fun same => other (by simp [← same]), first⟩
        · exact ih (List.mem_cons_of_mem _ part)

/-- No slash stands in a segment. -/
theorem slash_not_mem_segments {path segment : String} (part : segment ∈ segments path) :
    '/' ∉ segment.toList := by
  obtain ⟨letters, piece, rfl⟩ := List.mem_map.mp part
  rw [String.toList_ofList]
  exact slash_not_mem_splitOn piece

/-- A path has a segment. -/
theorem segments_ne_nil (path : String) : segments path ≠ [] := by
  simp [segments, List.splitOn_ne_nil]

/-- Segments that were joined are found again. -/
theorem segments_ofSegments {parts : List String} (whole : ∀ part ∈ parts, '/' ∉ part.toList)
    (some : parts ≠ []) : segments (ofSegments parts) = parts := by
  have split := @List.splitOn_intercalate _ (parts.map String.toList) _ _ '/' (by simpa using whole)
    (by simpa using some)
  rw [segments, ofSegments, String.toList_ofList, split, List.map_map]
  simp [Function.comp_def, String.ofList_toList]

/-- The segments of a path give it back. -/
theorem ofSegments_segments (path : String) : ofSegments (segments path) = path := by
  rw [segments, ofSegments, List.map_map]
  simp [Function.comp_def, List.intercalate_splitOn, String.ofList_toList]

/-- A slash ends a segment. -/
theorem segments_slash (front back : String) :
    segments (front ++ "/" ++ back) = segments front ++ segments back := by
  have split : (front ++ "/" ++ back).toList = front.toList ++ '/' :: back.toList := by simp
  rw [segments, split, List.splitOn_append_cons_self, List.map_append]
  rfl

/-- A path without text has one empty segment. -/
theorem segments_empty : segments "" = [""] := by decide +kernel

/-- A path is absolute when some text follows its first segment, which is empty. -/
theorem isAbsolute_ofSegments {parts : List String} (whole : ∀ part ∈ parts, '/' ∉ part.toList) :
    isAbsolute (ofSegments parts) = (parts.head? == some "" && parts.length != 1) := by
  rcases parts with _ | ⟨first, _ | ⟨second, rest⟩⟩
  · decide +kernel
  · -- The only segment is the whole path, which starts with no slash.
    have uncut := whole first List.mem_cons_self
    simp only [isAbsolute, ofSegments, List.map_cons, List.map_nil, List.intercalate_singleton,
      String.toList_ofList, List.length_singleton, bne_self_eq_false, Bool.and_false]
    rw [decide_eq_false_iff_not]
    exact fun starts => uncut (List.mem_of_head? starts)
  · -- The path starts with a slash when nothing stands in front of the first one.
    have uncut := whole first List.mem_cons_self
    simp only [isAbsolute, ofSegments, List.map_cons, String.toList_ofList,
      List.intercalate_cons_cons, List.length_cons]
    by_cases empty : first = ""
    · simp [empty]
    · obtain ⟨letter, letters, starts⟩ := List.exists_cons_of_ne_nil
        (fun none => empty (String.toList_eq_nil_iff.mp none))
      rw [starts] at uncut
      simp only [List.mem_cons, not_or] at uncut
      simp [empty, starts, Ne.symm uncut.1]

/-- An absolute path has segments behind its first slash. -/
theorem segments_of_isAbsolute {path : String} (rooted : isAbsolute path = true) :
    ∃ body, segments path = "" :: body ∧ path = "/" ++ ofSegments body := by
  -- The segment in front of the first slash is empty, and another one follows it.
  have spelled := isAbsolute_ofSegments (fun _ => @slash_not_mem_segments path _)
  rw [ofSegments_segments, rooted] at spelled
  have whole := ofSegments_segments path
  rcases cut : segments path with _ | ⟨first, body⟩
  · exact absurd cut (segments_ne_nil path)
  · rw [cut] at spelled whole
    obtain ⟨empty, more⟩ : first = "" ∧ body ≠ [] := by simpa using spelled.symm
    refine ⟨body, by rw [empty], ?_⟩
    obtain ⟨next, rest, rfl⟩ := List.exists_cons_of_ne_nil more
    rw [← whole, empty]
    apply String.toList_injective
    simp [ofSegments]

/-- The start of a relative path is relative. -/
theorem isAbsolute_of_starts {front path : String} (starts : front.toList <+: path.toList)
    (relative : isAbsolute path = false) : isAbsolute front = false := by
  obtain ⟨back, whole⟩ := starts
  rw [isAbsolute, decide_eq_false_iff_not] at relative ⊢
  intro slash
  cases letters : front.toList with
  | nil => simp [letters] at slash
  | cons letter rest =>
    rw [letters] at slash whole
    rw [← whole] at relative
    exact relative slash

/-- Segments in front of others end in a slash. -/
theorem ofSegments_append {front back : List String} (some : front ≠ []) (more : back ≠ []) :
    ofSegments (front ++ back) = ofSegments front ++ "/" ++ ofSegments back := by
  obtain ⟨next, rest, rfl⟩ := List.exists_cons_of_ne_nil more
  induction front with
  | nil => exact absurd rfl some
  | cons first front ih =>
    apply String.toList_injective
    cases front with
    | nil => simp [ofSegments]
    | cons second front =>
      have later := congrArg String.toList (ih (List.cons_ne_nil _ _))
      simp only [ofSegments, String.toList_append, String.toList_ofList, List.cons_append,
        List.map_cons, List.intercalate_cons_cons, List.append_assoc] at later ⊢
      rw [later]

/-- The segments in front spell the start of a path. -/
theorem ofSegments_starts {front parts : List String} (starts : front <+: parts) :
    (ofSegments front).toList <+: (ofSegments parts).toList := by
  simp only [ofSegments, String.toList_ofList]
  induction front generalizing parts with
  | nil => exact List.nil_prefix
  | cons part front ih =>
    obtain ⟨back, rfl⟩ := starts
    cases front with
    | nil =>
      -- The first segment starts the path, whatever follows it.
      cases back with
      | nil => exact List.prefix_refl _
      | cons next back =>
        simp only [List.map_cons, List.map_nil, List.intercalate_singleton, List.cons_append,
          List.nil_append, List.intercalate_cons_cons, List.append_assoc]
        exact List.prefix_append _ _
    | cons next front =>
      have rest := ih (List.prefix_append (next :: front) back)
      simp only [List.map_cons, List.cons_append, List.intercalate_cons_cons] at rest ⊢
      exact (List.prefix_append_right_inj _).mpr rest

/-- The name that takes an extension in place of another one. -/
def extended (extension name : String) : String :=
  match splitExtension name with
  | (stem, found) => if found = some extension then name else stem ++ "." ++ extension

/-- A path takes an extension in its last segment, if that is a name. -/
theorem withExtension_of_normal {path name : String} {before : List String}
    (split : segments path = before ++ [name]) (normal : IsNormal name) (extension : String) :
    withExtension extension path = ofSegments (before ++ [extended extension name]) := by
  have last : splitName? path = some (before, name) := by
    simp [splitName?, split, normal.busy, normal.down]
  rw [withExtension, last]
  dsimp only [extended]
  split
  · -- The path has the extension, and its segments give it back.
    rw [← split, ofSegments_segments]
  · rfl

/-- A stem is some text of its name. -/
theorem splitExtension_stem {name : String} (named : name ≠ "") :
    (splitExtension name).1 ≠ "" ∧ ∀ letter ∈ (splitExtension name).1.toList,
      letter ∈ name.toList := by
  unfold splitExtension
  dsimp only
  split
  · exact ⟨named, fun _ => id⟩
  · rename_i some
    refine ⟨by simpa [String.ext_iff] using some, fun letter used => ?_⟩
    rw [String.toList_ofList, List.mem_reverse] at used
    exact List.mem_reverse.mp
      ((List.dropWhile_suffix _).subset ((List.drop_suffix _ _).subset used))

/-- A name with an extension is a name. -/
theorem IsNormal.extended {name extension : String} (normal : IsNormal name)
    (some : extension ≠ "") (uncut : '/' ∉ extension.toList) :
    IsNormal (Path.extended extension name) := by
  unfold Path.extended
  dsimp only
  split
  · exact normal
  · obtain ⟨stem, part⟩ := splitExtension_stem normal.ne_empty
    -- A text on both sides of the point makes three letters at least.
    have long : 3 ≤ ((splitExtension name).1 ++ "." ++ extension).toList.length := by
      have left := List.length_pos_of_ne_nil fun none => stem (String.toList_eq_nil_iff.mp none)
      have right := List.length_pos_of_ne_nil fun none => some (String.toList_eq_nil_iff.mp none)
      simp only [String.toList_append, List.length_append]
      have point : ".".toList.length = 1 := by decide +kernel
      omega
    have other : ∀ short : String, short.toList.length < 3 →
        (splitExtension name).1 ++ "." ++ extension ≠ short := by
      rintro short few rfl
      omega
    refine ⟨isIdle_eq_false.mpr ⟨other "" (by decide +kernel), other "." (by decide +kernel)⟩,
      other ".." (by decide +kernel), ?_⟩
    simp only [String.toList_append, List.mem_append, not_or]
    exact ⟨⟨fun used => normal.whole (part _ used), by decide +kernel⟩, uncut⟩

/-- Trimming the end removes nothing but idle segments. -/
theorem trimEnd_append (rooted : Bool) (parts : List String) :
    ∃ idle, parts = trimEnd rooted parts ++ idle ∧ ∀ part ∈ idle, isIdle part = true := by
  -- What is dropped from the reversed segments stood at their end.
  have cut : ∀ parts : List String, ∃ idle,
      parts = (parts.reverse.dropWhile isIdle).reverse ++ idle ∧
        ∀ part ∈ idle, isIdle part = true := by
    intro parts
    refine ⟨(parts.reverse.takeWhile isIdle).reverse, ?_, fun part dropped => ?_⟩
    · rw [← List.reverse_append, List.takeWhile_append_dropWhile, List.reverse_reverse]
    · exact List.mem_takeWhile_imp (List.mem_reverse.mp dropped)
  unfold trimEnd
  split
  · rename_i rest
    obtain ⟨idle, same, dropped⟩ := cut rest
    exact ⟨idle, by rw [List.cons_append, ← same], dropped⟩
  · exact cut parts

/-- Segments that were trimmed end in one that leads somewhere, or are a single point at most. -/
theorem getLast?_trimEnd {rooted : Bool} {parts : List String} {last : String}
    (ends : (trimEnd rooted parts).getLast? = some last) :
    isIdle last = false ∨ trimEnd rooted parts = ["."] := by
  have busy : ∀ parts : List String,
      (parts.reverse.dropWhile isIdle).reverse.getLast? = some last → isIdle last = false := by
    intro parts ends
    rw [List.getLast?_reverse] at ends
    have kept := List.head?_dropWhile_not isIdle parts.reverse
    rw [ends] at kept
    simpa using kept
  unfold trimEnd at ends ⊢
  split at ends
  · rename_i rest
    -- The point in front is the last segment only when nothing is left behind it.
    rcases left : (rest.reverse.dropWhile isIdle).reverse with _ | ⟨next, others⟩
    · exact .inr rfl
    · rw [left, List.getLast?_cons_cons, ← left] at ends
      exact .inl (busy rest ends)
  · exact .inl (busy parts ends)

/-- Idle segments behind one that leads somewhere are trimmed. -/
theorem trimEnd_of_busy (rooted : Bool) {front after : List String} {last : String}
    (busy : isIdle last = false) (idle : ∀ part ∈ after, isIdle part = true) :
    trimEnd rooted (front ++ last :: after) = front ++ [last] := by
  have cut : ∀ front : List String,
      ((front ++ last :: after).reverse.dropWhile isIdle).reverse = front ++ [last] := by
    intro front
    have reversed : (front ++ last :: after).reverse = after.reverse ++ last :: front.reverse := by
      simp
    rw [reversed, List.dropWhile_append_of_pos (by simpa using idle),
      List.dropWhile_cons_of_neg (by simp [busy])]
    simp
  unfold trimEnd
  split
  · rename_i rest starts
    -- The point in front is another segment than the last.
    rcases front with _ | ⟨first, front⟩
    · obtain ⟨rfl, -⟩ := List.cons.inj starts
      simp [isIdle] at busy
    · obtain ⟨rfl, rfl⟩ := List.cons.inj starts
      exact congrArg ("." :: ·) (cut front)
  · exact cut front

end Path

namespace FileTree

open SyncStore.Path

/-- The names of joined segments are those that are not empty. -/
theorem names_ofSegments {parts : List String} (whole : ∀ part ∈ parts, '/' ∉ part.toList) :
    names (ofSegments parts) = parts.filter (· ≠ "") := by
  by_cases none : parts = []
  · rw [none]
    decide +kernel
  · rw [names, segments_ofSegments whole none]

/-- The names around a slash are those of both paths. -/
theorem names_slash (front back : String) :
    names (front ++ "/" ++ back) = names front ++ names back := by
  rw [names, segments_slash, List.filter_append]
  rfl

/-- A path without text has no names. -/
theorem names_empty : names "" = [] := by decide +kernel

/-- Relative paths add their segments to some that have the names of their base. -/
theorem segments_join (base : String) :
    ∃ lead, lead.filter (· ≠ "") = names base ∧
      (base ≠ "" → lead ≠ [] ∧ base.toList <+: (ofSegments lead ++ "/").toList) ∧
      ∀ path, isAbsolute path = false → segments (join base path) = lead ++ segments path ∧
        isAbsolute (join base path) = isAbsolute base := by
  -- A base with some text starts the joined path.
  have side : ∀ rest : String, base ≠ "" → isAbsolute (base ++ rest) = isAbsolute base := by
    intro rest some
    obtain ⟨letter, letters, starts⟩ := List.exists_cons_of_ne_nil
      (fun none => some (String.toList_eq_nil_iff.mp none))
    simp [isAbsolute, starts]
  by_cases empty : base = ""
  · subst empty
    have root : isAbsolute "" = false := by decide +kernel
    refine ⟨[], by rw [names_empty]; rfl, fun some => absurd rfl some, fun path relative => ?_⟩
    rw [join, if_neg (by simp [relative]), if_pos (by simp), String.empty_append, root]
    exact ⟨rfl, relative⟩
  by_cases slash : base.toList.getLast? = some '/'
  · -- The base brings the slash.
    obtain ⟨letters, ends⟩ := List.getLast?_eq_some_iff.mp slash
    have spelled : base = String.ofList letters ++ "/" := by
      apply String.toList_injective
      simp [ends]
    have names : names base = names (String.ofList letters) := by
      have around := names_slash (String.ofList letters) ""
      rwa [String.append_empty, ← spelled, names_empty, List.append_nil] at around
    refine ⟨segments (String.ofList letters), names.symm, fun _ => ⟨segments_ne_nil _, ?_⟩,
      fun path relative => ?_⟩
    · rw [ofSegments_segments, ← spelled]
    · rw [join, if_neg (by simp [relative]), if_pos (by simp [slash]), side _ empty]
      conv => lhs; rw [spelled, segments_slash]
      exact ⟨rfl, rfl⟩
  · refine ⟨segments base, rfl, fun _ => ⟨segments_ne_nil _, ?_⟩, fun path relative => ?_⟩
    · rw [ofSegments_segments, String.toList_append]
      exact List.prefix_append _ _
    · rw [join, if_neg (by simp [relative]), if_neg (by simp [slash, empty]), segments_slash,
        String.append_assoc, side _ empty]
      exact ⟨rfl, rfl⟩

/-- The last name of a path stands behind the segments of its other names. -/
theorem segments_of_names {path last : String} {before : List String}
    (whole : names path = before ++ [last]) :
    ∃ front after, segments path = front ++ last :: after ∧ front.filter (· ≠ "") = before ∧
      ∀ part ∈ after, part = "" := by
  obtain ⟨front, back, split, same, rest⟩ := List.filter_eq_append_iff.mp whole
  obtain ⟨gap, after, rfl, empty, -, none⟩ := List.filter_eq_cons_iff.mp rest
  refine ⟨front ++ gap, after, by rw [split, List.append_assoc], ?_, ?_⟩
  · have dropped : gap.filter (· ≠ "") = [] := List.filter_eq_nil_iff.mpr empty
    rw [List.filter_append, same, dropped, List.append_nil]
  · simpa using none

/-- Trimmed segments have no point as their last name, unless it is their only one. -/
theorem filter_trimEnd_last {rooted : Bool} {parts : List String}
    (ends : ((trimEnd rooted parts).filter (· ≠ "")).getLast? = some ".") :
    (trimEnd rooted parts).filter (· ≠ "") = ["."] := by
  rcases List.eq_nil_or_concat (trimEnd rooted parts) with none | ⟨front, last, whole⟩
  · rw [none] at ends
    cases ends
  · rw [List.concat_eq_append] at whole
    rcases getLast?_trimEnd (by rw [whole, List.getLast?_concat]) with busy | point
    · -- The last segment is a name, and no point.
      obtain ⟨named, noPoint⟩ := isIdle_eq_false.mp busy
      rw [whole, List.filter_append, List.filter_cons_of_pos (by simpa using named),
        List.filter_nil, List.getLast?_concat, Option.some.injEq] at ends
      exact absurd ends noPoint
    · rw [point]
      decide +kernel

/-- Segments that are trimmed and spelled as a path lose nothing but points of their names. -/
theorem names_trimEnd (rooted : Bool) (lead : List String)
    (uncut : ∀ part ∈ lead, '/' ∉ part.toList) :
    ∃ points, lead.filter (· ≠ "") = names (ofSegments (trimEnd rooted lead)) ++ points ∧
      (∀ point ∈ points, point = ".") ∧
      ((names (ofSegments (trimEnd rooted lead))).getLast? = some "." →
        names (ofSegments (trimEnd rooted lead)) = ["."]) := by
  obtain ⟨gap, same, dropped⟩ := trimEnd_append rooted lead
  have whole : ∀ part ∈ trimEnd rooted lead, '/' ∉ part.toList := by
    intro part used
    refine uncut part ?_
    rw [same]
    exact List.mem_append_left _ used
  rw [names_ofSegments whole]
  refine ⟨gap.filter (· ≠ ""), ?_, fun point left => ?_, filter_trimEnd_last⟩
  · conv => lhs; rw [same, List.filter_append]
  · -- What was trimmed is idle, and what has letters among it is a point.
    have idle := dropped point (List.mem_filter.mp left).1
    simpa [isIdle, show point ≠ "" by simpa using (List.mem_filter.mp left).2] using idle

/-- Behind the names of its parent, a path has points at most and its last name. -/
theorem parent?_of_names {path last : String} {before : List String}
    (whole : names path = before ++ [last]) (noPoint : last ≠ ".") :
    ∃ parent points, parent? path = some parent ∧ parent.toList <+: path.toList ∧
      isAbsolute parent = isAbsolute path ∧ before = names parent ++ points ∧
      (∀ point ∈ points, point = ".") ∧
      ((names parent).getLast? = some "." → names parent = ["."]) := by
  obtain ⟨front, after, split, rfl, empty⟩ := segments_of_names whole
  have named : last ≠ "" := by
    have part : last ∈ names path := by rw [whole]; simp
    simpa using (List.mem_filter.mp part).2
  have busy : isIdle last = false := isIdle_eq_false.mpr ⟨named, noPoint⟩
  have idle : ∀ part ∈ after, isIdle part = true := by
    intro part left
    rw [empty part left]
    decide +kernel
  -- The parent spells the trimmed segments in front, behind the slash of an absolute path.
  have parts := fun (lead : List String) (part : lead <:+ front) =>
    names_trimEnd (isAbsolute path) lead fun segment used =>
      slash_not_mem_segments (split ▸ List.mem_append_left _ (part.subset used))
  have spelled := ofSegments_segments path
  have found : ∀ lead, trimEnd (isAbsolute path) (lead ++ last :: after) = lead ++ [last] :=
    fun lead => trimEnd_of_busy _ busy idle
  cases rooted : isAbsolute path with
  | false =>
    obtain ⟨points, same, only, ends⟩ := parts front (List.suffix_refl _)
    simp only [rooted] at same ends found
    obtain ⟨gap, cut, -⟩ := trimEnd_append false front
    have starts : (ofSegments (trimEnd false front)).toList <+: path.toList := by
      rw [← spelled, split]
      refine ofSegments_starts ((List.prefix_append _ gap).trans ?_)
      rw [← cut]
      exact List.prefix_append _ _
    refine ⟨ofSegments (trimEnd false front), points, ?_, starts, ?_, same, only, ends⟩
    · rw [parent?, rooted]
      simp only [Bool.false_eq_true, ↓reduceIte, split, found]
      split
      · rename_i none
        simp at none
      · simp [String.empty_append]
    · exact isAbsolute_of_starts starts rooted
  | true =>
    -- The path spells its slash in front of all other segments.
    obtain ⟨body, cut, slash⟩ := segments_of_isAbsolute rooted
    obtain ⟨lead, rfl, rfl⟩ : ∃ lead, front = "" :: lead ∧ body = lead ++ last :: after := by
      rw [split] at cut
      rcases front with _ | ⟨first, lead⟩
      · exact absurd (List.cons.inj cut).1 named
      · obtain ⟨rfl, rest⟩ := List.cons.inj cut
        exact ⟨lead, rfl, rest.symm⟩
    obtain ⟨points, same, only, ends⟩ := parts lead (List.suffix_cons _ _)
    simp only [rooted] at same ends found
    obtain ⟨gap, trimmed, -⟩ := trimEnd_append true lead
    have rest := names_slash "" (ofSegments (trimEnd true lead))
    rw [names_empty, String.empty_append, List.nil_append] at rest
    refine ⟨"/" ++ ofSegments (trimEnd true lead), points, ?_, ?_, ?_, ?_, only, by rwa [rest]⟩
    · rw [parent?, rooted]
      simp only [↓reduceIte, split, List.cons_append, List.drop_one, List.tail_cons, found]
      split
      · rename_i none
        simp at none
      · simp
    · rw [slash, String.toList_append, String.toList_append]
      refine (List.prefix_append_right_inj _).mpr
        (ofSegments_starts ((List.prefix_append _ gap).trans ?_))
      rw [← trimmed]
      exact List.prefix_append _ _
    · simp [isAbsolute]
    · rw [rest, ← same, List.filter_cons_of_neg (by simp)]

/-- A path without a parent has no names but points. -/
theorem names_of_parentless {path : String} (none : parent? path = none) :
    ∀ name ∈ names path, name = "." := by
  intro name part
  obtain ⟨used, named⟩ := List.mem_filter.mp part
  -- All segments behind the first slash were trimmed.
  have trimmed : ∀ body, trimEnd (isAbsolute path) body = [] → ∀ segment ∈ body,
      isIdle segment = true := by
    intro body nothing
    obtain ⟨idle, same, dropped⟩ := trimEnd_append (isAbsolute path) body
    rw [nothing, List.nil_append] at same
    rwa [same]
  have idle : isIdle name = true := by
    unfold parent? at none
    split at none
    · rename_i rooted
      obtain ⟨body, cut, -⟩ := segments_of_isAbsolute rooted
      rw [cut, List.drop_one, List.tail_cons] at none
      rw [cut] at used
      have rest := (List.mem_cons.mp used).resolve_left (by simpa using named)
      dsimp only at none
      split at none
      · rename_i nothing
        exact trimmed body nothing name rest
      · cases none
    · dsimp only at none
      split at none
      · rename_i nothing
        exact trimmed _ nothing name used
      · cases none
  simpa [isIdle, show name ≠ "" by simpa using named] using idle

end FileTree

end SyncStore
