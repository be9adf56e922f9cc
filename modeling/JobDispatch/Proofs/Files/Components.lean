import JobDispatch.Files.Path
import Mathlib.Data.List.DropRight

/-!
# What a path says

Of the parts between the slashes only some say something: an empty part says something at the start alone,
and so does a single dot.  What is said, component by component, is what two paths have in common that are
written differently and mean the same.

## Main definitions

* `Path.Component` — one component of a path.
* `Path.components` — what a path says.
* `Path.Names` — a path names something within a directory.

## Main results

* `Path.fileName?_eq_some_iff` — where the file name stands among the parts of a path.
* `Path.fileName?_eq_some_iff_names` — **the file name is what a path names.**
* `Path.components_parent`, `Path.names_within` — taking the file name off and putting one on.
* `Path.Names.withFileName` — **with another file name a path stays in its directory.**
-/

namespace JobDispatch

namespace Path

variable {path n : List Char} {before idle ps qs : List (List Char)}

/-! ### Parts -/

theorem segments_of_not_mem {s : List Char} (h : '/' ∉ s) : segments s = [s] := by
  induction s with
  | nil => rfl
  | cons c s ih =>
    have hc : c ≠ '/' := fun hc => h (hc ▸ List.mem_cons_self)
    have hs : '/' ∉ s := fun hs => h (List.mem_cons_of_mem c hs)
    rw [segments, if_neg hc, ih hs]

/-- A slash separates the parts on its sides. -/
theorem segments_append_slash (s t : List Char) :
    segments (s ++ '/' :: t) = segments s ++ segments t := by
  induction s with
  | nil => rfl
  | cons c s ih =>
    rw [List.cons_append, segments, segments, ih]
    split
    · rfl
    · cases h : segments s with
      | nil => exact absurd h (segments_ne_nil s)
      | cons part rest => rfl

theorem not_mem_of_mem_segments (s : List Char) : ∀ part ∈ segments s, '/' ∉ part := by
  induction s with
  | nil =>
    intro part h
    obtain rfl := List.mem_singleton.mp h
    exact List.not_mem_nil
  | cons c s ih =>
    rw [segments]
    split
    · -- a slash begins a new part
      intro part h
      rcases List.mem_cons.mp h with rfl | h
      · exact List.not_mem_nil
      · exact ih part h
    · next hc =>
      cases hs : segments s with
      | nil => exact absurd hs (segments_ne_nil s)
      | cons first rest =>
        intro part h
        rcases List.mem_cons.mp h with rfl | h
        · intro hmem
          rcases List.mem_cons.mp hmem with rfl | hmem
          · exact hc rfl
          · exact ih first (hs ▸ List.mem_cons_self) hmem
        · exact ih part (hs ▸ List.mem_cons_of_mem first h)

/-- Parts without slashes are the parts of the text that is put together from them. -/
theorem segments_joined (hne : ps ≠ []) (h : ∀ p ∈ ps, '/' ∉ p) : segments (joined ps) = ps := by
  induction ps with
  | nil => exact absurd rfl hne
  | cons p ps ih =>
    have hp : '/' ∉ p := h p List.mem_cons_self
    cases ps with
    | nil => exact segments_of_not_mem hp
    | cons q qs =>
      have hrest : segments (joined (q :: qs)) = q :: qs :=
        ih (List.cons_ne_nil q qs) fun r hr => h r (List.mem_cons_of_mem p hr)
      rw [joined, segments_append_slash, segments_of_not_mem hp, hrest, List.singleton_append]
      exact List.cons_ne_nil q qs

/-! ### The end of a path -/

theorem isName_iff : isName n = true ↔ n ≠ [] ∧ n ≠ ['.'] ∧ n ≠ ['.', '.'] := by
  simp [isName, isIdle, and_assoc]

theorem isIdle_of_isName (h : isName n = true) : isIdle n = false := by
  simp only [isName, Bool.and_eq_true, Bool.not_eq_true'] at h
  exact h.1

theorem not_isIdle_of_isName (h : isName n = true) : ¬isIdle n = true := by
  rw [isIdle_of_isName h]
  exact Bool.false_ne_true

theorem withoutIdleEnd_eq_nil (h : ∀ p ∈ idle, isIdle p = true) : withoutIdleEnd idle = [] :=
  List.rdropWhile_eq_nil_iff.mpr h

theorem withoutIdleEnd_append_cons (hn : isIdle n = false) (h : ∀ p ∈ idle, isIdle p = true) :
    withoutIdleEnd (before ++ n :: idle) = before ++ [n] := by
  have hback : ∀ p ∈ idle.reverse, isIdle p = true := fun p hp => h p (List.mem_reverse.mp hp)
  rw [withoutIdleEnd, List.reverse_append, List.reverse_cons, List.append_assoc,
    List.dropWhile_append_of_pos hback, List.singleton_append, List.dropWhile_cons_of_neg (by simp [hn])]
  simp

/-- Every path has a last part that says something, after which there are only parts that say nothing;
or there are none before it, and it need not say anything. -/
theorem exists_last (path : List Char) : ∃ before last idle, segments path = before ++ last :: idle ∧
    (∀ p ∈ idle, isIdle p = true) ∧ (isIdle last = true → before = []) := by
  obtain ⟨first, rest, hpath⟩ := List.exists_cons_of_ne_nil (segments_ne_nil path)
  by_cases hkept : rest.rdropWhile isIdle = []
  · exact ⟨[], first, rest, hpath, List.rdropWhile_eq_nil_iff.mp hkept, fun _ => rfl⟩
  · have hlast := List.rdropWhile_last_not isIdle rest hkept
    refine ⟨first :: (rest.rdropWhile isIdle).dropLast, (rest.rdropWhile isIdle).getLast hkept,
      rest.rtakeWhile isIdle, ?_, fun p hp => List.mem_rtakeWhile_imp hp, fun h => absurd h hlast⟩
    rw [hpath, List.cons_append, List.append_cons, List.dropLast_append_getLast,
      List.rdropWhile_append_rtakeWhile]

theorem parts_of_segments_cons (h : segments path = n :: idle) (hidle : ∀ p ∈ idle, isIdle p = true) :
    parts path = (n, []) := by
  rw [parts, h]
  exact congrArg (Prod.mk n) (withoutIdleEnd_eq_nil hidle)

theorem parts_of_segments_append {first : List Char} {mid : List (List Char)}
    (h : segments path = first :: mid ++ n :: idle) (hn : isIdle n = false)
    (hidle : ∀ p ∈ idle, isIdle p = true) : parts path = (first, mid ++ [n]) := by
  rw [parts, h, List.cons_append]
  exact congrArg (Prod.mk first) (withoutIdleEnd_append_cons hn hidle)

/-- The file name is the last part that says something, if that is a name. -/
theorem fileName?_of_segments {last : List Char} (h : segments path = before ++ last :: idle)
    (hidle : ∀ p ∈ idle, isIdle p = true) (hlast : isIdle last = true → before = []) :
    fileName? path = if isName last then some last else none := by
  cases before with
  | nil =>
    rw [fileName?, parts_of_segments_cons h hidle]
    rfl
  | cons first mid =>
    have hnot : isIdle last = false := by
      cases hi : isIdle last with
      | false => rfl
      | true => cases hlast hi
    rw [fileName?, parts_of_segments_append h hnot hidle]
    simp

/-- **Where the file name stands**: it is a name, and all parts after it say nothing. -/
theorem fileName?_eq_some_iff : fileName? path = some n ↔ isName n = true ∧
    ∃ before idle, segments path = before ++ n :: idle ∧ ∀ p ∈ idle, isIdle p = true := by
  constructor
  · intro h
    obtain ⟨before, last, idle, hpath, hidle, hlast⟩ := exists_last path
    rw [fileName?_of_segments hpath hidle hlast] at h
    split at h
    · next hname =>
      obtain rfl := Option.some.inj h
      exact ⟨hname, before, idle, hpath, hidle⟩
    · cases h
  · rintro ⟨hname, before, idle, hpath, hidle⟩
    have hlast : isIdle n = true → before = [] := fun hi => absurd hi (not_isIdle_of_isName hname)
    rw [fileName?_of_segments hpath hidle hlast, if_pos hname]

theorem slash_not_mem_of_fileName? (h : fileName? path = some n) : '/' ∉ n := by
  obtain ⟨-, before, idle, hpath, -⟩ := fileName?_eq_some_iff.mp h
  exact not_mem_of_mem_segments path n (hpath ▸ List.mem_append_right before List.mem_cons_self)

/-! ### Components -/

/-- **One component of a path.** -/
inductive Component
  /-- Begin at the root. -/
  | root
  /-- Begin at the current directory. -/
  | here
  /-- Go to the directory above. -/
  | up
  /-- Go to what has a name. -/
  | name (n : List Char)
  deriving DecidableEq

namespace Component

/-- What the first part of a path says, if the path is not empty. -/
def ofFirst (part : List Char) : Component :=
  if part = [] then .root else if part = ['.'] then .here
  else if part = ['.', '.'] then .up else .name part

/-- What any other part says. -/
def ofPart? (part : List Char) : Option Component :=
  if isIdle part then none else if part = ['.', '.'] then some .up else some (.name part)

/-- What parts say, the first of which stands at the start of a path. -/
def ofParts : List (List Char) → List Component
  | [] => []
  | first :: rest => ofFirst first :: rest.filterMap ofPart?

@[simp] theorem ofParts_nil : ofParts [] = [] := rfl

@[simp] theorem ofParts_cons (first : List Char) (rest : List (List Char)) :
    ofParts (first :: rest) = ofFirst first :: rest.filterMap ofPart? := rfl

theorem ofFirst_eq_name_iff {part : List Char} :
    ofFirst part = .name n ↔ isName n = true ∧ part = n := by
  rw [isName_iff, ofFirst]
  grind

theorem ofPart?_eq_some_name_iff {part : List Char} :
    ofPart? part = some (.name n) ↔ isName n = true ∧ part = n := by
  rw [isName_iff, ofPart?, isIdle]
  grind

theorem filterMap_ofPart?_of_idle (h : ∀ p ∈ idle, isIdle p = true) : idle.filterMap ofPart? = [] := by
  rw [List.filterMap_eq_nil_iff]
  intro p hp
  rw [ofPart?, if_pos (h p hp)]

theorem filterMap_withoutIdleEnd (ps : List (List Char)) :
    (withoutIdleEnd ps).filterMap ofPart? = ps.filterMap ofPart? := by
  have hps : withoutIdleEnd ps ++ ps.rtakeWhile isIdle = ps := List.rdropWhile_append_rtakeWhile
  conv_rhs => rw [← hps, List.filterMap_append]
  rw [filterMap_ofPart?_of_idle fun p hp => List.mem_rtakeWhile_imp hp, List.append_nil]

theorem ofParts_append (hps : ps ≠ []) (qs : List (List Char)) :
    ofParts (ps ++ qs) = ofParts ps ++ qs.filterMap ofPart? := by
  cases ps with
  | nil => exact absurd rfl hps
  | cons first rest =>
    rw [List.cons_append, ofParts_cons, ofParts_cons, List.filterMap_append, List.cons_append]

/-- The last part that says something is a component of its own; it is a name if the part is one. -/
theorem exists_ofParts_append_cons {last : List Char} (h : ∀ p ∈ idle, isIdle p = true)
    (hlast : isIdle last = true → before = []) :
    ∃ c, ofParts (before ++ last :: idle) = ofParts before ++ [c] ∧
      ∀ n, c = .name n ↔ isName n = true ∧ last = n := by
  cases before with
  | nil =>
    refine ⟨ofFirst last, ?_, fun n => ofFirst_eq_name_iff⟩
    rw [List.nil_append, ofParts_cons, filterMap_ofPart?_of_idle h, ofParts_nil, List.nil_append]
  | cons first mid =>
    have hnot : isIdle last ≠ true := fun hi => List.cons_ne_nil first mid (hlast hi)
    obtain ⟨c, hc⟩ : ∃ c, ofPart? last = some c := by
      rw [ofPart?, if_neg hnot]
      split
      · exact ⟨_, rfl⟩
      · exact ⟨_, rfl⟩
    refine ⟨c, ?_, fun n => ?_⟩
    · rw [ofParts_append (List.cons_ne_nil first mid), List.filterMap_cons, hc,
        filterMap_ofPart?_of_idle h]
    · rw [← ofPart?_eq_some_name_iff, hc, Option.some_inj]

/-- A name at the end is a component of its own. -/
theorem ofParts_append_cons (hn : isName n = true) (h : ∀ p ∈ idle, isIdle p = true) :
    ofParts (before ++ n :: idle) = ofParts before ++ [.name n] := by
  have hlast : isIdle n = true → before = [] := fun hi => absurd hi (not_isIdle_of_isName hn)
  obtain ⟨c, hc, hname⟩ := exists_ofParts_append_cons h hlast
  rw [hc, (hname n).mpr ⟨hn, rfl⟩]

end Component

open Component

/-- **What a path says**, component by component. -/
def components (path : List Char) : List Component :=
  if path = [] then [] else ofParts (segments path)

/-- **A path names something within a directory.**  The directory is what the path says before. -/
def Names (path : List Char) (directory : List Component) (n : List Char) : Prop :=
  components path = directory ++ [.name n]

theorem components_of_ne_nil (h : path ≠ []) : components path = ofParts (segments path) := if_neg h

theorem ne_nil_of_fileName? (h : fileName? path = some n) : path ≠ [] := by
  rintro rfl
  cases h

/-- What a path with a file name says. -/
theorem names_of_segments (hn : isName n = true) (h : segments path = before ++ n :: idle)
    (hidle : ∀ p ∈ idle, isIdle p = true) : Names path (ofParts before) n := by
  have hfile : fileName? path = some n := fileName?_eq_some_iff.mpr ⟨hn, before, idle, h, hidle⟩
  rw [Names, components_of_ne_nil (ne_nil_of_fileName? hfile), h, ofParts_append_cons hn hidle]

/-- **The file name is what a path names.** -/
theorem fileName?_eq_some_iff_names : fileName? path = some n ↔ ∃ directory, Names path directory n := by
  constructor
  · intro h
    obtain ⟨hn, before, idle, hpath, hidle⟩ := fileName?_eq_some_iff.mp h
    exact ⟨ofParts before, names_of_segments hn hpath hidle⟩
  · rintro ⟨directory, h⟩
    have hne : path ≠ [] := by
      rintro rfl
      simp [Names, components] at h
    obtain ⟨before, last, idle, hpath, hidle, hlast⟩ := exists_last path
    obtain ⟨c, hc, hname⟩ := exists_ofParts_append_cons hidle hlast
    rw [Names, components_of_ne_nil hne, hpath, hc] at h
    have hlast' : c = .name n := List.singleton_inj.mp (List.append_inj' h rfl).2
    obtain ⟨hn, rfl⟩ := (hname n).mp hlast'
    rw [fileName?_of_segments hpath hidle hlast, if_pos hn]

theorem Names.fileName?_eq {directory : List Component} (h : Names path directory n) :
    fileName? path = some n :=
  fileName?_eq_some_iff_names.mpr ⟨directory, h⟩

/-! ### Taking a file name off and putting one on -/

/-- The text before the file name: parts with slashes between them, or a slash for the root alone. -/
theorem parent_of_segments {first : List Char} {mid : List (List Char)} (hn : isName n = true)
    (h : segments path = first :: mid ++ n :: idle) (hidle : ∀ p ∈ idle, isIdle p = true) :
    parent path = if first = [] ∧ withoutIdleEnd mid = [] then ['/']
      else joined (first :: withoutIdleEnd mid) := by
  obtain ⟨q, qs, hq⟩ : ∃ q qs, mid ++ [n] = q :: qs :=
    List.exists_cons_of_ne_nil (List.append_ne_nil_of_right_ne_nil mid (List.cons_ne_nil n []))
  have hinit : (q :: qs).dropLast = mid := by rw [← hq, List.dropLast_concat]
  rw [parent, parts_of_segments_append h (isIdle_of_isName hn) hidle]
  simp only [hq, hinit]
  split
  · next hkept =>
    cases first with
    | nil => simp [hkept]
    | cons c cs => simp [hkept, joined]
  · next hkept => rw [if_neg fun hroot => hkept hroot.2]

/-- What stands before the file name says what the path says before it. -/
theorem components_parent (hn : isName n = true) (h : segments path = before ++ n :: idle)
    (hidle : ∀ p ∈ idle, isIdle p = true) : components (parent path) = ofParts before := by
  cases before with
  | nil =>
    rw [parent, parts_of_segments_cons h hidle]
    rfl
  | cons first mid =>
    have hkept : ofParts (first :: mid) = ofParts (first :: withoutIdleEnd mid) := by
      rw [ofParts_cons, ofParts_cons, filterMap_withoutIdleEnd]
    have hslash : ∀ p ∈ first :: withoutIdleEnd mid, '/' ∉ p := by
      intro p hp
      have hmem : p ∈ first :: mid :=
        (List.Sublist.cons_cons first (List.rdropWhile_prefix isIdle mid).sublist).mem hp
      exact not_mem_of_mem_segments path p (h ▸ List.mem_append_left _ hmem)
    rw [parent_of_segments hn h hidle, hkept]
    split
    · next hroot => rw [hroot.1, hroot.2]; rfl
    · next hroot =>
      have hsegments := segments_joined (List.cons_ne_nil first _) hslash
      have hne : joined (first :: withoutIdleEnd mid) ≠ [] := by
        intro hnil
        obtain ⟨hfirst, hrest⟩ := List.cons.inj (hnil ▸ hsegments : segments [] = _)
        exact hroot ⟨hfirst.symm, hrest.symm⟩
      rw [components_of_ne_nil hne, hsegments]

/-- A name that is put into a directory is the last part of the path. -/
theorem exists_segments_within (hslash : '/' ∉ n) (directory : List Char) :
    ∃ before, segments (within directory n) = before ++ [n] ∧
      components directory = ofParts before := by
  rw [within]
  split
  · next h =>
    rw [List.getLast?_eq_none_iff] at h
    exact ⟨[], segments_of_not_mem hslash, by rw [h]; rfl⟩
  · next h =>
    -- the directory ends in a slash already
    obtain ⟨d, rfl⟩ := List.getLast?_eq_some_iff.mp h
    refine ⟨segments d, ?_, ?_⟩
    · rw [List.append_assoc, List.singleton_append, segments_append_slash, segments_of_not_mem hslash]
    · rw [components_of_ne_nil (by simp), segments_append_slash, ofParts_append (segments_ne_nil d)]
      simp [segments, ofPart?, isIdle]
  · next c _ h =>
    have hne : directory ≠ [] := by
      rintro rfl
      cases h
    refine ⟨segments directory, ?_, components_of_ne_nil hne⟩
    rw [segments_append_slash, segments_of_not_mem hslash]

/-- **A name within a directory** is named within it. -/
theorem names_within (hn : isName n = true) (hslash : '/' ∉ n) (directory : List Char) :
    Names (within directory n) (components directory) n := by
  obtain ⟨before, h, hdirectory⟩ := exists_segments_within hslash directory
  rw [hdirectory]
  exact names_of_segments hn h (List.forall_mem_nil _)

variable {m : List Char} {directory : List Component}

/-- **With another file name a path stays in its directory.** -/
theorem Names.withFileName (h : Names path directory n) (hm : isName m = true) (hslash : '/' ∉ m) :
    Names (withFileName path m) directory m := by
  obtain ⟨hn, before, idle, hpath, hidle⟩ := fileName?_eq_some_iff.mp h.fileName?_eq
  have hsame : ofParts before ++ [.name n] = directory ++ [.name n] :=
    (names_of_segments hn hpath hidle).symm.trans h
  have hbefore : ofParts before = directory := List.append_cancel_right hsame
  have hparent : components (parent path) = directory := by
    rw [components_parent hn hpath hidle, hbefore]
  rw [Path.withFileName, h.fileName?_eq, ← hparent]
  exact names_within hm hslash (parent path)

end Path

end JobDispatch
