import Mathlib.Data.List.DropRight
import SyncStore.Proofs.Files.Enclosing

/-! A file is named by its stem in its directory, and only a leading tilde is expanded. -/

namespace SyncStore

namespace Path

/-- A name without its last point and the text behind it, unless it has no point but a first one. -/
def stem (name : String) : String :=
  if '.' ∈ name.toList.tail then
    String.ofList (name.toList.rdropWhile (· ≠ '.')).dropLast
  else name

/-- A path that starts at the home directory is a tilde, or a tilde in front of a slash. -/
def StartsHome (path : String) : Prop := path = "~" ∨ "~/".toList <+: path.toList

section Stem

variable {name front ending : String}

/-- A name with a point behind its first letter is cut at its last point. -/
theorem exists_cut (dotted : '.' ∈ name.toList.tail) :
    ∃ front ending, name = front ++ "." ++ ending ∧ front ≠ "" ∧ '.' ∉ ending.toList := by
  obtain ⟨first, rest, letters⟩ : ∃ first rest, name.toList = first :: rest :=
    List.exists_cons_of_ne_nil fun none => by simp [none] at dotted
  rw [letters, List.tail_cons] at dotted
  -- The last point is the first one of the reversed letters.
  obtain ⟨behind, before, split, free⟩ :=
    List.eq_append_cons_of_mem (List.mem_reverse.mpr dotted)
  have forward : rest = before.reverse ++ '.' :: behind.reverse := by
    rw [← List.reverse_reverse rest, split]
    simp
  refine ⟨String.ofList (first :: before.reverse), String.ofList behind.reverse, ?_, ?_, ?_⟩
  · apply String.toList_injective
    simp [letters, forward]
  · simp [← String.toList_eq_nil_iff]
  · simpa using free

/-- The reversed letters of a cut name show its ending first. -/
theorem reverse_cut : (front ++ "." ++ ending).toList.reverse =
    ending.toList.reverse ++ '.' :: front.toList.reverse := by
  simp

/-- A search for the last point passes over letters that are none. -/
theorem passed_of_free {letters : List Char} (free : '.' ∉ letters) :
    ∀ letter ∈ letters.reverse, decide (letter ≠ '.') = true := by
  intro letter used
  rw [decide_eq_true_iff]
  rintro rfl
  exact free (List.mem_reverse.mp used)

/-- The stem of a cut name is what stands before the cut. -/
theorem stem_cut (some : front ≠ "") (free : '.' ∉ ending.toList) :
    stem (front ++ "." ++ ending) = front := by
  obtain ⟨first, rest, letters⟩ :=
    List.exists_cons_of_ne_nil fun none => some (String.toList_eq_nil_iff.mp none)
  have dotted : '.' ∈ (front ++ "." ++ ending).toList.tail := by
    simp [letters]
  -- The search from the end passes over the ending and stops at its point.
  rw [stem, if_pos dotted, List.rdropWhile, reverse_cut,
    List.dropWhile_append_of_pos (passed_of_free free), List.dropWhile_cons_of_neg (by simp)]
  simp [String.ofList_toList]

/-- A cut name gives both of its parts. -/
theorem splitExtension_cut (some : front ≠ "") (free : '.' ∉ ending.toList) :
    splitExtension (front ++ "." ++ ending) = (front, .some ending) := by
  have more : front.toList.reverse.isEmpty = false := by simpa using some
  rw [splitExtension, reverse_cut, List.dropWhile_append_of_pos (passed_of_free free),
    List.dropWhile_cons_of_neg (by simp), List.takeWhile_append_of_pos (passed_of_free free),
    List.takeWhile_cons_of_neg (by simp)]
  simp [more, String.ofList_toList]

/-- A name with no point behind its first letter is its own stem, and has no extension. -/
theorem splitExtension_whole (whole : '.' ∉ name.toList.tail) :
    splitExtension name = (name, none) := by
  -- Nothing stands before the only point, if there is one.
  have nothing : (name.toList.reverse.dropWhile (· ≠ '.')).drop 1 = [] := by
    cases letters : name.toList with
    | nil => rfl
    | cons first rest =>
      rw [letters, List.tail_cons] at whole
      rw [List.reverse_cons, List.dropWhile_append_of_pos (passed_of_free whole)]
      by_cases point : first = '.' <;> simp [point]
  rw [splitExtension, nothing]
  rfl

/-- A name takes an extension behind its stem, whether or not it has that extension. -/
theorem extended_eq (ending name : String) : extended ending name = stem name ++ "." ++ ending := by
  by_cases dotted : '.' ∈ name.toList.tail
  · obtain ⟨front, old, rfl, some, free⟩ := exists_cut dotted
    rw [extended, splitExtension_cut some free, stem_cut some free]
    dsimp only
    split
    · -- A name that has the extension is kept, and is spelled in the same way.
      rename_i same
      rw [Option.some.inj same]
    · rfl
  · rw [extended, splitExtension_whole dotted, stem, if_neg dotted]
    rfl

/-- A name with some text has a stem. -/
theorem stem_ne_empty (named : name ≠ "") : stem name ≠ "" := by
  by_cases dotted : '.' ∈ name.toList.tail
  · obtain ⟨front, old, rfl, some, free⟩ := exists_cut dotted
    rwa [stem_cut some free]
  · rwa [stem, if_neg dotted]

/-- Names that take the same extension are told apart by their stems. -/
theorem extended_inj {other : String} :
    stem other ++ "." ++ ending = stem name ++ "." ++ ending ↔ stem other = stem name := by
  refine ⟨fun same => String.toList_injective ?_, fun same => by rw [same]⟩
  have letters := congrArg String.toList same
  simp only [String.toList_append] at letters
  -- The extension and its point stand at the end of both names.
  exact List.append_cancel_right (List.append_cancel_right letters)

end Stem

/-- A normal name is its only segment. -/
theorem IsNormal.segments {name : String} (normal : IsNormal name) :
    Path.segments name = [name] := by
  have single : ofSegments [name] = name := by simp [ofSegments, String.ofList_toList]
  have split := @segments_ofSegments [name] (by simpa using normal.whole) (by simp)
  rwa [single] at split

/-- A normal name leads from no root. -/
theorem IsNormal.relative {name : String} (normal : IsNormal name) : isAbsolute name = false := by
  rw [isAbsolute, decide_eq_false_iff_not]
  exact fun slash => normal.whole (List.mem_of_head? slash)

/-- A path to a normal name takes the extension behind the stem of that name. -/
theorem withExtension_join {name ending : String} (normal : IsNormal name) (some : ending ≠ "")
    (uncut : '/' ∉ ending.toList) (base : String) :
    withExtension ending (join base name) = join base (stem name ++ "." ++ ending) ∧
      ∃ before, segments (join base (stem name ++ "." ++ ending)) =
        before ++ [stem name ++ "." ++ ending] := by
  have named := normal.extended some uncut
  rw [extended_eq] at named
  -- Both names stand behind the same segments of the base.
  obtain ⟨lead, -, -, joined⟩ := FileTree.segments_join base
  have old := (joined name normal.relative).1
  have new := (joined _ named.relative).1
  rw [normal.segments] at old
  rw [named.segments] at new
  refine ⟨?_, lead, new⟩
  rw [withExtension_of_normal old normal, extended_eq, ← new, ofSegments_segments]

/-- A path starts at the home directory when its first segment is a tilde. -/
theorem startsHome_iff {path : String} :
    StartsHome path ↔ ∃ rest, segments path = "~" :: rest := by
  have tilde : segments "~" = ["~"] := by decide +kernel
  constructor
  · rintro (rfl | ⟨back, whole⟩)
    · exact ⟨[], tilde⟩
    · -- The slash behind the tilde ends the first segment.
      have spelled : path = "~" ++ "/" ++ String.ofList back := by
        apply String.toList_injective
        rw [← whole]
        simp
      exact ⟨segments (String.ofList back), by rw [spelled, segments_slash, tilde]; rfl⟩
  · rintro ⟨rest, split⟩
    have spelled := ofSegments_segments path
    rw [split] at spelled
    cases rest with
    | nil =>
      rw [← spelled]
      exact .inl (by decide +kernel)
    | cons next others =>
      have cut := @ofSegments_append ["~"] (next :: others) (by simp) (by simp)
      have single : ofSegments ["~"] = "~" := by decide +kernel
      rw [List.singleton_append, spelled, single] at cut
      refine .inr ⟨(ofSegments (next :: others)).toList, ?_⟩
      rw [cut]
      simp

/-- A directory stays as it is without a home directory, or without a tilde that leads there. -/
theorem expandHome_of_away {home : Option String} {path : String}
    (away : home = none ∨ ¬ StartsHome path) : expandHome home path = path := by
  unfold expandHome
  split
  · rename_i start rest split
    rcases away with none | other
    · cases none
    · exact absurd (startsHome_iff.mpr ⟨rest, split⟩) other
  · rfl

/-- What is left of trimmed segments starts with none that is idle. -/
theorem head?_trimIdle (parts : List String) : (trimIdle parts).head? ≠ some "" := by
  -- Only the end of what is left in front is trimmed, so its first segment stays.
  obtain ⟨cut, whole⟩ : trimIdle parts <+: parts.dropWhile isIdle := by
    have suffix := List.dropWhile_suffix isIdle (l := (parts.dropWhile isIdle).reverse)
    simpa [trimIdle] using List.reverse_prefix.mpr suffix
  intro empty
  have first : (parts.dropWhile isIdle).head? = some "" := by
    rw [← whole, List.head?_append, empty]
    rfl
  have busy := List.head?_dropWhile_not isIdle parts
  rw [first] at busy
  simp [isIdle] at busy

/-- Trimming removes no segment that leads somewhere. -/
theorem filter_trimIdle (parts : List String) :
    (trimIdle parts).filter (!isIdle ·) = parts.filter (!isIdle ·) := by
  have dropped : ∀ parts : List String,
      (parts.dropWhile isIdle).filter (!isIdle ·) = parts.filter (!isIdle ·) := by
    intro parts
    have idle : (parts.takeWhile isIdle).filter (!isIdle ·) = [] := by
      refine List.filter_eq_nil_iff.mpr fun part taken => ?_
      simpa using List.mem_takeWhile_imp taken
    conv => rhs; rw [← List.takeWhile_append_dropWhile (p := isIdle) (l := parts)]
    rw [List.filter_append, idle, List.nil_append]
  rw [trimIdle, List.filter_reverse, dropped, List.filter_reverse, List.reverse_reverse, dropped]

/-- The names of a path that lead somewhere. -/
def busyNames (path : String) : List String := (segments path).filter (!isIdle ·)

/-- The busy names of joined segments are the busy ones among those. -/
theorem busyNames_ofSegments {parts : List String} (whole : ∀ part ∈ parts, '/' ∉ part.toList) :
    busyNames (ofSegments parts) = parts.filter (!isIdle ·) := by
  by_cases none : parts = []
  · rw [none]
    decide +kernel
  · rw [busyNames, segments_ofSegments whole none]

/-- A relative path continues the busy names of its base. -/
theorem busyNames_join {base path : String} (relative : isAbsolute path = false) :
    busyNames (join base path) = busyNames base ++ busyNames path := by
  obtain ⟨lead, same, -, joined⟩ := FileTree.segments_join base
  have split := (joined path relative).1
  -- Segments without text are idle, so the names of the base are enough.
  have narrow : ∀ parts : List String,
      parts.filter (!isIdle ·) = (parts.filter (· ≠ "")).filter (!isIdle ·) := by
    intro parts
    rw [List.filter_filter]
    refine List.filter_congr fun part _ => ?_
    by_cases empty : part = "" <;> simp [isIdle, empty]
  rw [busyNames, split, List.filter_append, narrow lead, same, FileTree.names, ← narrow]
  rfl

/-- A path that starts at the home directory continues it by its other names. -/
theorem expandHome_of_startsHome {path : String} (start : String) (starts : StartsHome path) :
    ∃ rest, expandHome (some start) path = join start rest ∧ isAbsolute rest = false ∧
      busyNames path = "~" :: busyNames rest := by
  obtain ⟨rest, split⟩ := startsHome_iff.mp starts
  -- What is left after trimming are segments of the path, so no slash cuts them.
  have whole : ∀ part ∈ trimIdle rest, '/' ∉ part.toList := by
    intro part used
    have kept : part ∈ rest := (List.dropWhile_sublist isIdle).subset
      (List.mem_reverse.mp ((List.dropWhile_sublist isIdle).subset (List.mem_reverse.mp used)))
    refine @slash_not_mem_segments path part ?_
    rw [split]
    exact List.mem_cons_of_mem _ kept
  refine ⟨ofSegments (trimIdle rest), by simp only [expandHome, split], ?_, ?_⟩
  · have head := head?_trimIdle rest
    rw [isAbsolute_ofSegments whole]
    simp [head]
  · rw [busyNames_ofSegments whole, filter_trimIdle, busyNames, split,
      List.filter_cons_of_pos (by decide)]

end Path

namespace FileDestination

variable {kind : BackendKind} {format : FileFormat} {name : String}

/-- Files of one format in one directory are the same when their paths are. -/
theorem locate_of_path {home : Option String} {directory other : String}
    (same : (locate format home directory other).path = (locate format home directory name).path) :
    locate format home directory other = locate format home directory name := by
  simp only [locate] at same ⊢
  rw [same]

/-- A file is right in its directory, under its name with the extension of its format. -/
theorem place_locate (keeps : kind.format? = some format) (home : Option String)
    (directory : String) (normal : Path.IsNormal name) (tree : FileTree) :
    let file := locate format home directory name
    file.place tree = (Path.stem name ++ "." ++ format.ending) ::
      FileTree.resolve (tree.origin file.directory) (FileTree.names file.directory) := by
  intro file
  have ending := ending_of_format? keeps
  have single : Path.ofSegments [name] = name := by
    rw [← normal.segments, Path.ofSegments_segments]
  have located : file = locate format home directory (Path.ofSegments ([] ++ [name])) := by
    rw [List.nil_append, single]
  obtain ⟨names, origin, -⟩ := @names_locate _ _ file _ _ tree keeps [] name
    (by simpa using normal) located
  have named := normal.extended ending.1 ending.2
  obtain ⟨-, noPoint⟩ := Path.isIdle_eq_false.mp named.busy
  rw [FileDestination.place, names, origin, List.append_nil, FileTree.resolve, List.foldl_append,
    ← Path.extended_eq]
  -- The last name is neither a point nor two, so it leads one step down.
  simp only [List.foldl_cons, List.foldl_nil, FileTree.onward, noPoint, named.down, ↓reduceIte]
  rfl

/--
A file is named by the stem of the name it is asked for, with the extension of its format.

It is right in its directory, and its own name leads to it again.
Two names lead to the same path, and to the same place, exactly when their stems are equal.
Only a whole tilde in front of a directory is replaced, and only by a home directory.
-/
theorem located_by_stem (keeps : kind.format? = some format) (home : Option String)
    (directory : String) (normal : Path.IsNormal name) :
    let file := locate format home directory name
    let found := Path.stem name ++ "." ++ format.ending
    (file.directory = Path.expandHome home directory ∧
      file.path = Path.join file.directory found) ∧
    (Path.IsNormal found ∧
      Path.splitExtension found = (Path.stem name, some format.ending) ∧
      (∃ before, Path.splitName? file.path = some (before, found)) ∧
      ∀ tree, file.place tree = found ::
        FileTree.resolve (tree.origin file.directory) (FileTree.names file.directory)) ∧
    locate format home directory found = file ∧
    (∀ other, Path.IsNormal other →
      let otherFile := locate format home directory other
      (otherFile.path = file.path ↔ Path.stem other = Path.stem name) ∧
      ∀ tree, otherFile.place tree = file.place tree ↔ Path.stem other = Path.stem name) ∧
    (home = none ∨ ¬ Path.StartsHome directory → Path.expandHome home directory = directory) ∧
    ∀ start, home = some start → Path.StartsHome directory →
      ∃ rest, Path.expandHome home directory = Path.join start rest ∧
        Path.isAbsolute rest = false ∧ Path.busyNames directory = "~" :: Path.busyNames rest ∧
        Path.busyNames (Path.join start rest) = Path.busyNames start ++ Path.busyNames rest := by
  intro file found
  have ending := ending_of_format? keeps
  have free : '.' ∉ format.ending.toList := by
    cases kind with
    | redis => cases keeps
    | _ =>
      obtain rfl := Option.some.inj keeps
      decide +kernel
  have some := Path.stem_ne_empty normal.ne_empty
  have named : Path.IsNormal found := by
    have taken := normal.extended ending.1 ending.2
    rwa [Path.extended_eq] at taken
  -- Every normal name is joined with the extension behind its stem.
  have joined : ∀ other, Path.IsNormal other →
      (locate format home directory other).path =
        Path.join file.directory (Path.stem other ++ "." ++ format.ending) :=
    fun other normal => (Path.withExtension_join normal ending.1 ending.2 _).1
  have places : ∀ other, Path.IsNormal other → ∀ tree,
      (locate format home directory other).place tree = file.place tree ↔
        Path.stem other = Path.stem name := by
    intro other normal' tree
    rw [place_locate keeps home directory normal' tree,
      place_locate keeps home directory normal tree]
    exact (List.cons_eq_cons.trans (and_iff_left rfl)).trans Path.extended_inj
  refine ⟨⟨rfl, joined name normal⟩, ⟨named, Path.splitExtension_cut some free, ?_,
    place_locate keeps home directory normal⟩, ?_, fun other normal' => ⟨?_, places other normal'⟩,
    Path.expandHome_of_away, ?_⟩
  · obtain ⟨before, split⟩ :=
      (Path.withExtension_join normal ending.1 ending.2 file.directory).2
    refine ⟨before, ?_⟩
    rw [joined name normal, Path.splitName?, split]
    simp [found, named.busy, named.down]
  · have again := joined found named
    rw [Path.stem_cut some free, ← joined name normal] at again
    exact locate_of_path again
  · refine ⟨fun same => (places other normal' .empty).mp ?_, fun same => ?_⟩
    · rw [FileDestination.place, same]
      rfl
    · rw [joined other normal', joined name normal, same]
  · rintro start rfl starts
    obtain ⟨rest, expanded, relative, busy⟩ := Path.expandHome_of_startsHome start starts
    exact ⟨rest, expanded, relative, busy, Path.busyNames_join relative⟩

/-- A name with two points loses what follows the last one, so another name can meet it. -/
theorem located_by_stem_of_two_points :
    let home := some "/home/u"
    let file := locate .yaml home "~/.config/store" "data.v1.json"
    file.path = "/home/u/.config/store/data.v1.yaml" ∧
      locate .yaml home "~/.config/store" "data.v1.yaml" = file ∧
      (locate .yaml home "~/.config/store" "data.v1.txt").path = file.path ∧
      (locate .yaml home "~/.config/store" "data.v1").path ≠ file.path ∧
      Path.expandHome home "~u" = "~u" ∧
      ∃ rest, Path.expandHome home "~/.config/store" = Path.join "/home/u" rest := by
  intro home file
  have keeps : BackendKind.yaml.format? = some FileFormat.yaml := rfl
  have normal : ∀ name ∈ ["data.v1.json", "data.v1.txt", "data.v1"], Path.IsNormal name := by
    intro name used
    have checked : Path.isIdle name = false ∧ name ≠ ".." ∧ '/' ∉ name.toList := by
      revert name
      decide +kernel
    exact ⟨checked.1, checked.2.1, checked.2.2⟩
  have stem : Path.stem "data.v1.json" = "data.v1" := by decide +kernel
  obtain ⟨⟨-, path⟩, -, again, others, -, expands⟩ :=
    located_by_stem keeps home "~/.config/store" (normal "data.v1.json" (by simp))
  obtain ⟨-, -, -, -, stays, -⟩ :=
    located_by_stem keeps home "~u" (normal "data.v1.json" (by simp))
  rw [stem] at path again others
  refine ⟨path.trans (by decide +kernel), ?_, ?_, ?_, stays (.inr ?_), ?_⟩
  · have found : "data.v1" ++ "." ++ FileFormat.yaml.ending = "data.v1.yaml" := by decide +kernel
    rwa [found] at again
  · exact (others "data.v1.txt" (normal _ (by simp))).1.mpr (by decide +kernel)
  · exact fun same => absurd ((others "data.v1" (normal _ (by simp))).1.mp same) (by decide +kernel)
  · -- A name behind the tilde is a part of the segment.
    rintro (same | starts)
    · exact absurd same (by decide)
    · exact absurd starts (by decide +kernel)
  · obtain ⟨rest, expanded, -⟩ := expands "/home/u" rfl (.inr (by decide +kernel))
    exact ⟨rest, expanded⟩

end FileDestination

end SyncStore
