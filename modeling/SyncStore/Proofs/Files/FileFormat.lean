import Mathlib
import SyncStore.Proofs.Toml.Reading
import SyncStore.Store.Opening

/-! Which texts hold no data for a backend, and what it reads back from the text it wrote. -/

namespace SyncStore

/-- A text with a visible character is not blank. -/
theorem isEmpty_trimBlanks {text : List Char} {c : Char} (inside : c ∈ text)
    (visible : isBlank c = false) : (trimBlanks text).isEmpty = false := by
  -- The scan from the front leaves the character, and so it stops the scan from the back.
  have left : c ∈ text.dropWhile isBlank := by
    rw [← @List.takeWhile_append_dropWhile _ isBlank text, List.mem_append] at inside
    refine inside.resolve_left fun passed => ?_
    rw [List.mem_takeWhile_imp passed] at visible
    cases visible
  by_contra blank
  simp only [trimBlanks, Bool.not_eq_false, List.isEmpty_iff, List.reverse_eq_nil_iff,
    List.dropWhile_eq_nil_iff, List.mem_reverse] at blank
  rw [blank c left] at visible
  cases visible

namespace Yaml

/-- Every member is written with a colon behind its key. -/
theorem colon_mem_writeMembers {indent : Nat} {members : List (String × Value)}
    (nonempty : members ≠ []) : ':' ∈ (writeMembers indent members).text := by
  -- A key in front of its value and a key on a line of its own have one alike.
  match members with
  | [] => exact absurd rfl nonempty
  | [(key, value)] =>
    rw [writeMembers]
    split <;> simp [simpleMember, complexMember, Written.after, Written.line]
  | (key, value) :: next :: rest =>
    rw [writeMembers]
    · split <;> simp [simpleMember, complexMember, Written.after, Written.line]
    · simp

/-- No data is written as blank text. -/
theorem render_not_blank (data : Data) : (trimBlanks (render data).toList).isEmpty = false := by
  rw [render, String.toList_ofList]
  -- Empty data is written as braces, and any other data with a colon.
  cases data with
  | nil => exact isEmpty_trimBlanks (c := '\x7b') (by decide +kernel) (by decide)
  | cons member rest =>
    have colon : ':' ∈ (writeMembers 0 (member :: rest)).text := colon_mem_writeMembers (by simp)
    exact isEmpty_trimBlanks (List.mem_append_left _ colon) (by decide)

/-- Data whose text has its value is read from that text. -/
theorem read_render {data : Data} (back : value? (render data) = some (.object data)) :
    read (render data) = .ok data := by
  simp only [read, render_not_blank, Bool.false_eq_true, ↓reduceIte, back]

end Yaml

/-- TOML files are read as TOML. -/
theorem FileFormat.toml_read (text : String) : toml.read text = readToml text := rfl

/-- YAML files are read as YAML. -/
theorem FileFormat.yaml_read (text : String) : yaml.read text = Yaml.read text := rfl

namespace BackendKind

/--
Text that is no document of its format, or a document that is no data.

Blank text and null are empty YAML documents and hold empty data; any other root must be a mapping.
-/
inductive Refuses : BackendKind → String → Prop where
  | notToml {text : String} (malformed : Toml.read? text = none) : Refuses .toml text
  | nonFinite {text : String} {document : Toml.Document} (found : Toml.read? text = some document)
    (holds : Toml.HoldsNonFinite document) : Refuses .toml text
  | notYaml {text : String} (filled : (trimBlanks text.toList).isEmpty = false)
    (malformed : Yaml.value? text = none) : Refuses .yaml text
  | notMapping {text : String} {root : Value} (filled : (trimBlanks text.toList).isEmpty = false)
    (found : Yaml.value? text = some root)
    (other : root.isObject = false ∧ root.isNull = false) : Refuses .yaml text

/-- What a format promises of data: its text, as it was printed, reads back as what was printed. -/
def PrintsBack : BackendKind → Data → Prop
  | .toml, data => ∀ document, Toml.ofData data = .ok document →
    Toml.read? (Toml.render document) = some (Toml.printed document)
  | .yaml, data => Yaml.value? (Yaml.render data) = some (.object data)
  | .redis, _ => True

/-- What a file keeps of data: TOML leaves out the null members, and YAML nothing. -/
def kept : BackendKind → Data → Data
  | .toml, data => Toml.membersWithoutNulls data
  | _, data => data

variable {kind : BackendKind} {format : FileFormat}

/-- A file is read without data exactly when its text is refused. -/
theorem read_eq_error (keeps : kind.format? = some format) {text : String} :
    (∃ error, format.read text = .error error) ↔ kind.Refuses text := by
  cases kind with
  | redis => cases keeps
  | toml =>
    obtain rfl := Option.some.inj keeps
    rw [FileFormat.toml_read, FileFormat.readToml]
    cases found : Toml.read? text with
    | none => exact iff_of_true ⟨_, rfl⟩ (.notToml found)
    | some document =>
      -- A document is only refused for one of its floats.
      refine Toml.toData_eq_error.trans ⟨.nonFinite found, fun refused => ?_⟩
      cases refused with
      | notToml malformed => cases found.symm.trans malformed
      | nonFinite same holds => exact Option.some.inj (found.symm.trans same) ▸ holds
  | yaml =>
    obtain rfl := Option.some.inj keeps
    rw [FileFormat.yaml_read, Yaml.read]
    cases filled : (trimBlanks text.toList).isEmpty with
    | true =>
      -- Blank text holds no data, and that is not refused.
      refine iff_of_false (by simp) fun refused => ?_
      cases refused with
      | notYaml visible malformed => cases filled.symm.trans visible
      | notMapping visible found other => cases filled.symm.trans visible
    | false =>
      cases found : Yaml.value? text with
      | none => exact iff_of_true ⟨_, rfl⟩ (.notYaml filled found)
      | some root =>
        have mapping (data : root.isObject = true ∨ root.isNull = true) :
            ¬ BackendKind.yaml.Refuses text := fun refused => by
          cases refused with
          | notYaml _ malformed => cases found.symm.trans malformed
          | notMapping _ same other =>
            obtain rfl := Option.some.inj (found.symm.trans same)
            simp [other] at data
        -- A mapping and null hold data, and every other root is refused.
        cases root with
        | object members => exact iff_of_false (by simp) (mapping (.inl rfl))
        | null => exact iff_of_false (by simp) (mapping (.inr rfl))
        | _ => exact iff_of_true ⟨_, rfl⟩ (.notMapping filled found ⟨rfl, rfl⟩)

/-- What is read from a file is all kept. -/
theorem kept_of_read (keeps : kind.format? = some format) {text : String} {data : Data}
    (read : format.read text = .ok data) : kind.kept data = data := by
  cases kind with
  | redis => cases keeps
  | yaml => rfl
  | toml =>
    obtain rfl := Option.some.inj keeps
    rw [FileFormat.toml_read, FileFormat.readToml] at read
    split at read
    · cases read
    · -- The data of a document has no null members to leave out.
      exact Toml.membersWithoutNulls_of_toData read

/-- Data that was written is read back with what the file keeps of it, in some order. -/
theorem read_written (keeps : kind.format? = some format) {data : Data} {text : String}
    (written : format.write data = .ok text) (back : kind.PrintsBack data) :
    ∃ again, format.read text = .ok again ∧
      (Value.object again).Reordered (.object (kind.kept data)) := by
  cases kind with
  | redis => cases keeps
  | toml =>
    obtain rfl := Option.some.inj keeps
    obtain ⟨document, converted, rfl⟩ := map_eq_ok.mp written
    -- The document is read in printed order, and holds the data as it is printed.
    refine ⟨Toml.dataAsPrinted data, ?_, Toml.dataAsPrinted_reordered data⟩
    rw [FileFormat.toml_read, FileFormat.readToml, back document converted]
    exact (Toml.printed_round_trip converted).2
  | yaml =>
    obtain rfl := Option.some.inj keeps
    obtain rfl := Except.ok.inj written
    exact ⟨data, (FileFormat.yaml_read _).trans (Yaml.read_render back), .same _⟩

/-- Empty data has a text that holds empty data. -/
theorem empty_round_trip (keeps : kind.format? = some format) :
    ∃ text, format.write [] = .ok text ∧ format.read text = .ok [] := by
  cases kind with
  | redis => cases keeps
  | toml =>
    obtain rfl := Option.some.inj keeps
    have read : FileFormat.toml.read (Toml.render []) = .ok [] := by cbv
    exact ⟨Toml.render [], rfl, read⟩
  | yaml =>
    obtain rfl := Option.some.inj keeps
    have back : Yaml.value? (Yaml.render []) = some (.object []) := by cbv
    exact ⟨Yaml.render [], rfl, (FileFormat.yaml_read _).trans (Yaml.read_render back)⟩

/-- Readable TOML data without repeated keys is printed back when all its floats are. -/
theorem printsBack_toml {data : Data} (readable : Toml.ReadableMembers Toml.maxDepth data)
    (distinct : (Value.object data).Throughout Value.DistinctKeys)
    (back : (Value.object data).Throughout (Value.FloatSatisfies Toml.ReadsBack)) :
    BackendKind.toml.PrintsBack data :=
  fun _ converted => Toml.read?_render (Toml.sound_of_ofData converted readable distinct back)

end BackendKind

end SyncStore
