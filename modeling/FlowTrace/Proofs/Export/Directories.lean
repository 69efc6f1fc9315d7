import FlowTrace.Proofs.Export.Labels
import FlowTrace.Proofs.Storage.Paths
import FlowTrace.Proofs.Text.Numeral

/-! # Export directories

Whatever an export is named after, its directory lies right below `exports`, under a name without a
separator (`exportDirectory_eq`). A label cannot change that, since it is made safe
(`safe_labels_stay_below_exports`). The glob for manifests fits just their paths in such directories
(`Export.fits_manifests_iff`), and a manifest tells which files it is for at its end
(`Manifest.write_of_files`). -/

namespace FlowTrace

open FlowTrace.Path (IsName separator)

/-! ## Names -/

/-- A stamp is made of digits, hyphens and underscores. -/
theorem Moment.notMem_stamp {c : UInt8} (no_digit : Text.isDigit c = false)
    (no_line : c ∉ Text.of "-_") (m : Moment) : c ∉ m.stamp := by
  have zero : c ≠ '0' := by
    rintro rfl
    exact absurd no_digit (by decide)
  have number : ∀ width n, c ∉ Decimal.padLeft width (Text.ofNat n) := by
    intro width n member
    rcases List.mem_append.1 member with zeros | digits
    · exact zero (List.eq_of_mem_replicate zeros)
    · exact Bool.false_ne_true (no_digit.symm.trans (Text.isDigit_of_mem_ofNat digits))
  have hyphen : c ∉ Text.of "-" := fun member => no_line (List.mem_append_left (Text.of "_") member)
  have line : c ∉ Text.of "_" := fun member => no_line (List.mem_append_right (Text.of "-") member)
  have year : c ∉ yearText m.year := by
    rw [yearText]
    split
    · exact List.not_mem_append hyphen (number _ _)
    · exact number _ _
  simp only [stamp, dateText, two, List.mem_append, year, hyphen, line, number, or_self,
    not_false_eq_true]

/-- A text with an underscore and without separators is a name. -/
theorem isName_of_underscore {t : Text} (clean : separator ∉ t) (line : ('_' : UInt8) ∈ t) :
    IsName t where
  ne_nil := List.ne_nil_of_mem line
  separator_notMem := clean
  ne_here := fun same => absurd (same ▸ line) (by decide)
  ne_up := fun same => absurd (same ▸ line) (by decide)

/-- The directory of exports is in normal form. -/
theorem normal_exports : (Path.mk false [Text.of "exports"]).Normal := Path.normal_ofText "exports"

/-- A name is joined to the directory of exports by a slash. -/
theorem join_exports {name : Text} (is_name : IsName name) :
    Path.join ["exports", name] = "exports/" ++ name := by
  have joined : Path.join ["exports", name] = _ := Path.join_pair normal_exports is_name.ne_nil
  rw [joined, Path.append, Path.components_of_isWritten is_name.toIsWritten,
    Path.extend_name is_name.ne_here is_name.ne_up, Path.toText_concat _ (List.cons_ne_nil _ _)]
  exact (List.append_cons _ _ _)

/-- The path of an export as text. -/
theorem Export.toText_exports (name : Text) :
    Path.toText ⟨false, [Text.of "exports", name]⟩ = "exports/" ++ name :=
  (Path.toText_concat false (List.cons_ne_nil (Text.of "exports") []) name).trans
    (List.append_cons _ _ _)

/-- The path of an export is read back. -/
theorem Export.ofText_exports {name : Text} (is_name : IsName name) :
    Path.ofText ("exports/" ++ name) = ⟨false, [Text.of "exports", name]⟩ := by
  rw [← toText_exports]
  exact Path.ofText_toText (normal_exports.concat_name is_name)

/-- The **name** of an export directory with a label in it. -/
def labelledName (id label : Text) (at_ : Moment) : Text :=
  at_.stamp ++ "_" ++ Label.safe label 30 ++ "_" ++ id.take 8

section Labelled

variable {id : Text}

/-- A barred byte of the name can only come from the id. -/
theorem notMem_labelledName {c : UInt8} (is_barred : c ∈ Label.barred) (clean : c ∉ id)
    (label : Text) (at_ : Moment) : c ∉ labelledName id label at_ := by
  have apart : ∀ d ∈ Label.barred,
      Text.isDigit d = false ∧ d ∉ Text.of "-_" ∧ d ∉ Text.of "_" := by decide +kernel
  obtain ⟨no_digit, no_line, line⟩ := apart c is_barred
  have stamp := at_.notMem_stamp no_digit no_line
  have is_safe : Label.IsSafe 30 (Label.safe label 30) := Label.isSafe_safe label (by decide)
  have label_clean := is_safe.notMem c is_barred
  have short : c ∉ id.take 8 := fun member => clean (List.mem_of_mem_take member)
  simp only [labelledName, List.mem_append, stamp, line, label_clean, short, or_self,
    not_false_eq_true]

/-- A name made of a label is a name. -/
theorem isName_labelledName (clean : separator ∉ id) (label : Text) (at_ : Moment) :
    IsName (labelledName id label at_) :=
  isName_of_underscore (notMem_labelledName (by decide) clean label at_)
    (List.mem_append_left _ (List.mem_append_right _ (by decide)))

/-- The directory of an export by its label. -/
theorem exportDirectory_byLabel (clean : separator ∉ id) (label : Text) (at_ : Moment) :
    exportDirectory id label at_ .byLabel = "exports/" ++ labelledName id label at_ :=
  join_exports (isName_labelledName clean label at_)

end Labelled

/-- **An export directory** lies right below `exports`, whatever the export is named after. -/
theorem exportDirectory_eq {id : Text} (is_name : IsName id) (label : Text) (at_ : Moment)
    (naming : Naming) :
    ∃ name, IsName name ∧ exportDirectory id label at_ naming = "exports/" ++ name := by
  have clean := is_name.separator_notMem
  cases naming with
  | byId => exact ⟨id, is_name, join_exports is_name⟩
  | byTime =>
    have short : separator ∉ id.take 8 := fun member => clean (List.mem_of_mem_take member)
    have line : separator ∉ Text.of "_" := by decide
    have stamp : separator ∉ at_.stamp := at_.notMem_stamp (by decide) (by decide)
    have is_name : IsName (at_.stamp ++ "_" ++ id.take 8) :=
      isName_of_underscore (by simp [stamp, line, short])
        (List.mem_append_left _ (List.mem_append_right _ (by decide)))
    exact ⟨_, is_name, join_exports is_name⟩
  | byLabel =>
    exact ⟨_, isName_labelledName clean label at_, exportDirectory_byLabel clean label at_⟩

/-- **Safe labels stay below `exports`.** Whatever bytes a label has, it becomes a safe component of
at most 30 bytes, which is the label in lower case if and only if this is safe already. So the
directory with the label in its name lies right below `exports`, under a name without a separator
and without a point, as long as the id has neither. -/
theorem safe_labels_stay_below_exports (label : Text) :
    Label.IsSafe 30 (Label.safe label 30) ∧
      (Label.safe label 30 = label.lower ↔ Label.IsSafe 30 label.lower) ∧
      ∀ (id : Text) (at_ : Moment), separator ∉ id → ('.' : UInt8) ∉ id →
        exportDirectory id label at_ .byLabel = "exports/" ++ labelledName id label at_ ∧
        Path.ofText (exportDirectory id label at_ .byLabel) =
          ⟨false, ["exports", labelledName id label at_]⟩ ∧
        IsName (labelledName id label at_) ∧ ('.' : UInt8) ∉ labelledName id label at_ := by
  have is_safe : Label.IsSafe 30 (Label.safe label 30) := Label.isSafe_safe label (by decide)
  refine ⟨is_safe, ⟨fun same => same ▸ is_safe, Label.safe_eq_lower⟩, ?_⟩
  intro id at_ clean pointless
  have directory := exportDirectory_byLabel clean label at_
  have is_name := isName_labelledName clean label at_
  refine ⟨directory, ?_, is_name, notMem_labelledName (by decide) pointless label at_⟩
  rw [directory, Export.ofText_exports is_name]

/-- A label that climbs, has a letter of two bytes and is cut behind a hyphen. -/
theorem climbing_label_stays_below_exports :
    (separator ∉ Text.of "82f06b15-1234" ∧ ('.' : UInt8) ∉ Text.of "82f06b15-1234") ∧
      Path.ofText (exportDirectory "82f06b15-1234"
        ".. / ..\\Quicksort [C++]: Übungen, Teil 1 -- von 9" ⟨2025, 7, 16, 15, 30, 0, 0, 0⟩ .byLabel) =
      ⟨false, ["exports", "2025-07-16_1530_quicksort-cpp-übungen-teil-1_82f06b15"]⟩ := by
  have clean : separator ∉ Text.of "82f06b15-1234" := by decide
  have pointless : ('.' : UInt8) ∉ Text.of "82f06b15-1234" := by decide
  obtain ⟨-, leads, -⟩ := (safe_labels_stay_below_exports _).2.2 _ _ clean pointless
  refine ⟨⟨clean, pointless⟩, leads.trans ?_⟩
  decide +kernel

namespace Export

variable {name leaf : Text}

/-- The directory of a file right below an export directory. -/
theorem directory_file (is_name : IsName name) (is_leaf : IsName leaf) :
    Path.directory ("exports/" ++ name ++ "/" ++ leaf) = "exports/" ++ name := by
  have normal : (Path.mk false [Text.of "exports", name, leaf]).Normal :=
    (normal_exports.concat_name is_name).concat_name is_leaf
  have text : Path.toText ⟨false, [Text.of "exports", name, leaf]⟩ =
      "exports/" ++ name ++ "/" ++ leaf := by
    have deep : Path.toText ⟨false, [Text.of "exports", name] ++ [leaf]⟩ = _ :=
      Path.toText_concat _ (List.cons_ne_nil _ _) leaf
    rw [toText_exports] at deep
    exact deep.trans (List.append_cons _ _ _)
  rw [← text, Path.directory_toText normal]
  exact toText_exports name

/-! ## Manifests -/

/-- The items of the glob for manifests. -/
def manifestItems : List Glob.Item :=
  (Text.of "exports/").map .byte ++ .star :: (Text.of "/manifest.yaml").map .byte

/-- The pattern for manifests can be read. -/
theorem parse?_manifests :
    Glob.parse? (Path.join ["exports", "*", manifestFile]) 0 = some manifestItems := by decide

/-- Literal bytes in a pattern are those of the path. -/
theorem fits_bytes_append (bytes : Text) (items : List Glob.Item) (path : Text) :
    Glob.fits (bytes.map .byte ++ items) path = true ↔
      ∃ rest, path = bytes ++ rest ∧ Glob.fits items rest = true := by
  induction bytes generalizing path with
  | nil => simp
  | cons b bytes ih =>
    cases path with
    | nil => simp [Glob.fits]
    | cons c path =>
      simp only [List.map_cons, List.cons_append, Glob.fits, Bool.and_eq_true, beq_iff_eq, ih,
        List.cons.injEq]
      constructor
      · rintro ⟨rfl, rest, rfl, fits⟩
        exact ⟨rest, ⟨rfl, rfl⟩, fits⟩
      · rintro ⟨rest, ⟨rfl, rfl⟩, fits⟩
        exact ⟨rfl, rest, rfl, fits⟩

/-- A pattern of literal bytes fits only itself. -/
theorem fits_bytes (bytes path : Text) :
    Glob.fits (bytes.map .byte) path = true ↔ path = bytes := by
  have whole := fits_bytes_append bytes [] path
  simpa [Glob.fits] using whole

/-- A star goes on over anything but separators. -/
theorem anyTail_iff (accept : Text → Bool) (path : Text) :
    Glob.fits.anyTail accept path = true ↔
      ∃ front rest, separator ∉ front ∧ path = front ++ rest ∧ accept rest = true := by
  induction path with
  | nil => simp [Glob.fits.anyTail]
  | cons c path ih =>
    rw [Glob.fits.anyTail, Bool.or_eq_true, Bool.and_eq_true, bne_iff_ne, ih]
    constructor
    · rintro (here | ⟨other, front, rest, clean, rfl, fits⟩)
      · exact ⟨[], c :: path, List.not_mem_nil, rfl, here⟩
      · exact ⟨c :: front, rest, by simp [clean, Ne.symm other], rfl, fits⟩
    · rintro ⟨front, rest, clean, split, fits⟩
      cases front with
      | nil => exact Or.inl (split ▸ fits)
      | cons d front =>
        obtain ⟨rfl, rfl⟩ := List.cons.inj split
        rw [List.mem_cons, not_or] at clean
        exact Or.inr ⟨Ne.symm clean.1, front, rest, clean.2, rfl, fits⟩

/-- **The glob for manifests** fits their paths right below directories below `exports`. -/
theorem fits_manifests_iff (path : Text) : Glob.fits manifestItems path = true ↔
    ∃ name, separator ∉ name ∧ path = "exports/" ++ name ++ "/" ++ manifestFile := by
  have tail : Text.of "/manifest.yaml" = "/" ++ manifestFile := by decide
  rw [manifestItems, fits_bytes_append]
  constructor
  · rintro ⟨rest, rfl, fits⟩
    obtain ⟨name, last, clean, rfl, ends⟩ := (anyTail_iff _ _).1 fits
    obtain rfl := (fits_bytes _ _).1 ends
    exact ⟨name, clean, by rw [tail]; simp⟩
  · rintro ⟨name, clean, rfl⟩
    refine ⟨name ++ ("/" ++ manifestFile), by simp, (anyTail_iff _ _).2 ?_⟩
    exact ⟨name, _, clean, rfl, (fits_bytes _ _).2 tail.symm⟩

end Export

/-- Entries are written one after the other. -/
theorem Yaml.writeEntries_append (depth : Nat) (front back : List (Text × Yaml.Document)) :
    writeEntries depth (front ++ back) = writeEntries depth front ++ writeEntries depth back := by
  induction front with
  | nil => simp [writeEntries]
  | cons entry front ih => simp [writeEntries, ih]

/-- A writer of manifests **lists the files** if what it writes for a flowchart and steps ends with
their list. -/
def Manifest.Writer.ListsFiles (write : Manifest.Writer) : Prop :=
  ∀ m data, write m = .ok data → m.files = [Export.flowchartFile, Export.stepsFile] →
    ∃ start, data = start ++ Text.of "files:\n    - flowchart.svg\n    - steps.txt\n"

/-- **A manifest ends with the list of its files.** -/
theorem Manifest.write_of_files {m : Manifest}
    (files : m.files = [Export.flowchartFile, Export.stepsFile]) :
    ∃ start, m.write = start ++ Text.of "files:\n    - flowchart.svg\n    - steps.txt\n" := by
  have listed : Yaml.writeEntries 0 [("files", .list [Export.flowchartFile, Export.stepsFile])] =
      Text.of "files:\n    - flowchart.svg\n    - steps.txt\n" := by decide
  let first : List (Text × Yaml.Document) :=
    [("id", .text m.id), ("created_at", .fixed m.createdAt.text), ("language", .text m.language),
      ("steps", .fixed (Text.ofInt m.steps))]
  refine ⟨Yaml.writeEntries 0
    (first ++ optional "time_complexity" m.time ++ optional "estimated_memory" m.memory), ?_⟩
  rw [write, Yaml.write, entries, Yaml.writeEntries_append, files, listed]

/-- The writer of YAML lists the files. -/
theorem Manifest.Writer.listsFiles_yaml : Manifest.Writer.yaml.ListsFiles := by
  intro m data written files
  cases written
  exact Manifest.write_of_files files

end FlowTrace
