import JobDispatch.Handler.Thumbnail
import JobDispatch.Proofs.Files.Extension
import JobDispatch.Proofs.Files.Writing

/-!
# Where thumbnails go

Unless a payload says where its thumbnail goes, the thumbnail lies beside its image: in the same directory,
under a name that is made from that of the image.  The name is never that of the image, and two names are
never made into one, whatever dots they have.

## Main definitions

* `Thumbnail.mark` — what the stem of an image gets.
* `Thumbnail.Beside` — what becomes of the files when a thumbnail is made beside its image.

## Main results

* `Thumbnail.splits_nameOf` — the stem gets a mark, and the extension stays.
* `Thumbnail.nameOf_injective` — **two names are never made into one.**
* `Thumbnail.names_defaultOutputPath` — a thumbnail lies in the directory of its image.
* `Thumbnail.beside_of_make` — what is made beside an image touches no file of another name.
* `Thumbnail.default_paths_apart` — **default paths lie beside their images and apart from each other.**
-/

namespace JobDispatch

namespace Thumbnail

open JobDispatch.Path (Names Splits Component)

variable {name stem : List Char} {ext? : Option (List Char)}

/-! ### Names -/

/-- What the stem of an image gets. -/
def mark : List Char := ['_', 't', 'h', 'u', 'm', 'b']

theorem nameOf_of_eq_none (h : Path.splitName name = (stem, none)) : nameOf name = stem ++ mark := by
  simp only [nameOf, h]
  rfl

theorem nameOf_of_eq_some {ext : List Char} (h : Path.splitName name = (stem, some ext)) :
    nameOf name = stem ++ mark ++ '.' :: ext := by
  simp only [nameOf, h]
  rfl

/-- **The stem gets a mark, and the extension stays**: absent or empty, it is so afterwards. -/
theorem splits_nameOf (h : Splits name stem ext?) : Splits (nameOf name) (stem ++ mark) ext? := by
  have hsplit := h.splitName_eq
  cases h with
  | whole hdot =>
    rw [nameOf_of_eq_none hsplit]
    refine .whole fun hmem => ?_
    cases name with
    | nil => revert hmem; decide
    | cons c tail =>
      rcases List.mem_append.mp hmem with hmem | hmem
      · exact hdot hmem
      · revert hmem; decide
  | extended hstem hext =>
    rw [nameOf_of_eq_some hsplit]
    exact .extended (List.append_ne_nil_of_left_ne_nil hstem mark) hext

/-- The mark stands within the name of the image, or at its end. -/
theorem exists_nameOf_eq (name : List Char) :
    ∃ stem rest, name = stem ++ rest ∧ nameOf name = stem ++ mark ++ rest := by
  obtain ⟨stem, ext?, hsplits⟩ := Path.exists_splits name
  have hsplit := hsplits.splitName_eq
  cases hsplits with
  | whole =>
    refine ⟨name, [], (List.append_nil name).symm, ?_⟩
    rw [nameOf_of_eq_none hsplit, List.append_nil]
  | @extended stem ext _ _ => exact ⟨stem, '.' :: ext, rfl, nameOf_of_eq_some hsplit⟩

/-- **Two names are never made into one.** -/
theorem nameOf_injective : Function.Injective nameOf := by
  intro name name' h
  obtain ⟨stem, ext?, hsplits⟩ := Path.exists_splits name
  obtain ⟨stem', ext?', hsplits'⟩ := Path.exists_splits name'
  -- a name has one stem and one extension, so the marked stems are the same
  have hsame : (stem ++ mark, ext?) = (stem' ++ mark, ext?') := by
    rw [← (splits_nameOf hsplits).splitName_eq, ← (splits_nameOf hsplits').splitName_eq, h]
  obtain ⟨hstem, rfl⟩ := Prod.mk.inj hsame
  obtain rfl := List.append_cancel_right hstem
  exact hsplits.name_inj hsplits'

/-- The name is not that of the image. -/
theorem nameOf_ne (name : List Char) : nameOf name ≠ name := by
  obtain ⟨stem, rest, hname, hmarked⟩ := exists_nameOf_eq name
  intro h
  have hlength := congrArg List.length (hmarked.symm.trans (h.trans hname))
  simp only [List.length_append, mark, List.length_cons, List.length_nil] at hlength
  omega

theorem isName_nameOf (name : List Char) : Path.isName (nameOf name) = true := by
  obtain ⟨stem, rest, -, hmarked⟩ := exists_nameOf_eq name
  have hmem : '_' ∈ nameOf name := by
    rw [hmarked]
    exact List.mem_append_left rest (List.mem_append_right stem List.mem_cons_self)
  rw [Path.isName_iff]
  refine ⟨?_, ?_, ?_⟩
  all_goals
    intro h
    rw [h] at hmem
    revert hmem
    decide

theorem slash_not_mem_nameOf (h : '/' ∉ name) : '/' ∉ nameOf name := by
  obtain ⟨stem, rest, rfl, hmarked⟩ := exists_nameOf_eq name
  rw [hmarked]
  rw [List.mem_append, not_or] at h
  simp [mark, h.1, h.2]

/-! ### Paths -/

variable {input : String} {directory : List Component}

/-- **A thumbnail lies in the directory of its image.** -/
theorem names_defaultOutputPath (h : Names input.toList directory name) :
    Names (defaultOutputPath input).toList directory (nameOf name) := by
  have hslash : '/' ∉ name := Path.slash_not_mem_of_fileName? h.fileName?_eq
  rw [defaultOutputPath, String.toList_ofList, h.fileName?_eq]
  exact h.withFileName (isName_nameOf name) (slash_not_mem_nameOf hslash)

/-- The extension of a thumbnail is that of its image. -/
theorem extension?_defaultOutputPath (h : Names input.toList directory name) :
    Path.extension? (defaultOutputPath input).toList = Path.extension? input.toList := by
  obtain ⟨stem, ext?, hsplits⟩ := Path.exists_splits name
  rw [Path.extension?, Path.extension?, h.fileName?_eq, (names_defaultOutputPath h).fileName?_eq,
    Option.bind_some, Option.bind_some, (splits_nameOf hsplits).splitName_eq, hsplits.splitName_eq]

/-! ### Files -/

/-- **What becomes of the files when a thumbnail is made beside its image**: the image can be read as
before, the thumbnail can be read where it goes, and so can every file of any other name. -/
structure Beside (files files' : FileTree) (input : String) : Prop where
  image : ∃ content, files.read input.toList = .ok content ∧ files'.read input.toList = .ok content
  thumbnail : ∃ image, files'.read (defaultOutputPath input).toList = .ok (.image image)
  others : ∀ path directory name content, Names path directory name →
    Path.fileName? (defaultOutputPath input).toList ≠ some name →
    files.read path = .ok content → files'.read path = .ok content

theorem exists_ok_of_bind {α β : Type} {x : Except HandlerError α} {f : α → Except HandlerError β} {b : β}
    (h : (x >>= f) = .ok b) : ∃ a, x = .ok a ∧ f a = .ok b := by
  cases x with
  | error e => cases h
  | ok a => exact ⟨a, rfl, h⟩

theorem exists_ok_of_isOk {α : Type} {x : Except HandlerError α} (h : x.isOk = true) :
    ∃ a, x = .ok a := by
  cases x with
  | error e => cases h
  | ok a => exact ⟨a, rfl⟩

section Reports

variable [ImageReports] {files files' : FileTree} {payload result : Json}

theorem exists_read_of_readImage {path : String} {image : Image}
    (h : readImage files path = .ok image) : ∃ content, files.read path.toList = .ok content := by
  unfold readImage at h
  cases hread : files.read path.toList with
  | ok content => exact ⟨content, rfl⟩
  | error e => cases hformat : formatOf? path.toList <;> simp [hread, hformat] at h

theorem exists_write_of_writeImage {path : String} {image : Image}
    (h : writeImage files path image = .ok files') :
    ∃ written, files.write path.toList (.image written) = .ok files' := by
  unfold writeImage at h
  cases hformat : formatOf? path.toList with
  | none => simp [hformat] at h
  | some format =>
    simp only [hformat] at h
    split at h
    · refine ⟨{ image with format }, ?_⟩
      cases hwrite : files.write path.toList (.image { image with format }) with
      | error e => simp [hwrite] at h
      | ok written => simpa [hwrite] using h
    · cases h

/-- **Making a thumbnail beside its image** reads the image and writes the thumbnail. -/
theorem make_cases (hinput : WordCount.path? payload "input_path" = some input)
    (houtput : WordCount.path? payload "output_path" = none)
    (h : make files payload = .ok (result, files')) :
    (∃ content, files.read input.toList = .ok content) ∧
      ∃ image, files.write (defaultOutputPath input).toList (.image image) = .ok files' := by
  simp only [make, hinput, houtput, Option.getD_none] at h
  obtain ⟨width, -, h⟩ := exists_ok_of_bind h
  obtain ⟨height, -, h⟩ := exists_ok_of_bind h
  cases hresolve : files.resolve input.toList with
  | error e =>
    rw [hresolve] at h
    cases h
  | ok found =>
    rw [hresolve] at h
    obtain ⟨image, hread, h⟩ := exists_ok_of_bind h
    obtain ⟨written, hwrite, h⟩ := exists_ok_of_bind h
    obtain ⟨-, rfl⟩ := Prod.mk.inj (Except.ok.inj h)
    exact ⟨exists_read_of_readImage hread, exists_write_of_writeImage hwrite⟩

/-- **What is made beside an image touches no file of another name**, the image itself among them. -/
theorem beside_of_make (hnames : Names input.toList directory name)
    (hinput : WordCount.path? payload "input_path" = some input)
    (houtput : WordCount.path? payload "output_path" = none)
    (h : make files payload = .ok (result, files')) : Beside files files' input := by
  obtain ⟨⟨content, hread⟩, image, hwrite⟩ := make_cases hinput houtput h
  have hout := (names_defaultOutputPath hnames).fileName?_eq
  refine ⟨⟨content, hread, ?_⟩, ⟨image, FileTree.read_of_write hwrite⟩, ?_⟩
  · exact FileTree.read_of_write_of_ne hwrite hout hnames.fileName?_eq (nameOf_ne name).symm hread
  · intro path other n kept hother hne hkept
    refine FileTree.read_of_write_of_ne hwrite hout hother.fileName?_eq ?_ hkept
    rintro rfl
    exact hne hout

/-! ### Apart from each other -/

/-- **Default paths lie beside their images and apart from each other.**  Take an image at a path that has
a file name.  Its thumbnail goes into the same directory, under another name: with the stem of the image
and a mark as its stem, and with the same extension, absent or empty as it may be.  Images of different
names have thumbnails of different names, wherever they are, and only for two paths that say the same do the
default paths say the same.  So a thumbnail that is made beside its image leaves the image as it is, and
every other file that is not called like the thumbnail. -/
theorem default_paths_apart :
    (∀ input name, Path.fileName? input.toList = some name →
      ∃ directory thumb stem ext?, Names input.toList directory name ∧
        Names (defaultOutputPath input).toList directory thumb ∧ thumb ≠ name ∧
        Splits name stem ext? ∧ Splits thumb (stem ++ mark) ext? ∧
        Path.extension? (defaultOutputPath input).toList = Path.extension? input.toList) ∧
    (∀ input directory name input' directory' name', Names input.toList directory name →
      Names input'.toList directory' name' →
      (name ≠ name' → defaultOutputPath input ≠ defaultOutputPath input' ∧
        Path.fileName? (defaultOutputPath input).toList ≠
          Path.fileName? (defaultOutputPath input').toList) ∧
      (Path.components (defaultOutputPath input).toList =
          Path.components (defaultOutputPath input').toList ↔
        Path.components input.toList = Path.components input'.toList)) ∧
    ∀ input directory name files files' payload result, Names input.toList directory name →
      WordCount.path? payload "input_path" = some input →
      WordCount.path? payload "output_path" = none →
      make files payload = .ok (result, files') → Beside files files' input := by
  refine ⟨?_, ?_, ?_⟩
  · intro input name hfile
    obtain ⟨directory, h⟩ := Path.fileName?_eq_some_iff_names.mp hfile
    obtain ⟨stem, ext?, hsplits⟩ := Path.exists_splits name
    exact ⟨directory, nameOf name, stem, ext?, h, names_defaultOutputPath h, nameOf_ne name, hsplits,
      splits_nameOf hsplits, extension?_defaultOutputPath h⟩
  · intro input directory name input' directory' name' h h'
    have hout := names_defaultOutputPath h
    have hout' := names_defaultOutputPath h'
    constructor
    · intro hne
      have hnames : Path.fileName? (defaultOutputPath input).toList ≠
          Path.fileName? (defaultOutputPath input').toList := by
        rw [hout.fileName?_eq, hout'.fileName?_eq]
        intro hsame
        exact hne (nameOf_injective (Option.some.inj hsame))
      exact ⟨fun hsame => hnames (by rw [hsame]), hnames⟩
    · rw [hout, hout', h, h', List.append_singleton_inj, List.append_singleton_inj]
      simp [nameOf_injective.eq_iff]
  · intro input directory name files files' payload result hnames hinput houtput h
    exact beside_of_make hnames hinput houtput h

end Reports

/-- A tree with one image, in a dot file that has an extension. -/
def album : FileTree :=
  FileTree.empty.withFile "album/.cover.png".toList (.image ⟨300, 600, .png, 3⟩)

/-- Asks for a thumbnail of that image. -/
def coverPayload : Json := .object [("input_path", .string "album/./.cover.png")]

/-- What the library of images might say. -/
@[reducible] def terseReports : ImageReports := ⟨fun _ _ => "unreadable", fun _ _ _ => "unwritable"⟩

/-- A dot file and a file with an empty extension, in one directory that is written in two ways. -/
theorem apart_of_dotFile :
    Names "album/./.cover.png".toList [.name "album".toList] ".cover.png".toList ∧
      Names "album//cover./".toList [.name "album".toList] "cover.".toList ∧
      defaultOutputPath "album/./.cover.png" ≠ defaultOutputPath "album//cover./" ∧
      Path.extension? (defaultOutputPath "album//cover./").toList = some [] ∧
      ∃ result files, @make terseReports album coverPayload = .ok (result, files) ∧
        Beside album files "album/./.cover.png" := by
  have hdot : Names "album/./.cover.png".toList [.name "album".toList] ".cover.png".toList := by
    rw [Names]
    decide
  have hempty : Names "album//cover./".toList [.name "album".toList] "cover.".toList := by
    rw [Names]
    decide
  obtain ⟨hbeside, hapart, hfiles⟩ := @default_paths_apart terseReports
  obtain ⟨-, -, -, -, -, -, -, -, -, hextension⟩ := hbeside _ _ hempty.fileName?_eq
  obtain ⟨⟨result, files⟩, hmake⟩ :=
    exists_ok_of_isOk (x := @make terseReports album coverPayload) (by decide +kernel)
  refine ⟨hdot, hempty, ((hapart _ _ _ _ _ _ hdot hempty).1 (by decide)).1, ?_, result, files, hmake,
    hfiles _ _ _ _ _ _ _ hdot rfl rfl hmake⟩
  rw [hextension]
  decide

end Thumbnail

end JobDispatch
