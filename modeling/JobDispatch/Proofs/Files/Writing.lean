import JobDispatch.Files.Tree
import JobDispatch.Proofs.Files.Components

/-!
# Writing a file

A file that is written is there afterwards, and what has another file name is as it was before, wherever
the two lie.

## Main results

* `FileTree.follow_put` — a new file is in nobody's way.
* `FileTree.write_cases` — all that writing can do.
* `FileTree.read_of_write` — **what is written is read.**
* `FileTree.read_of_write_of_ne` — **what has another file name stays as it is.**
-/

namespace JobDispatch

namespace FileTree

variable {t t' : FileTree} {place place' other rest : List (List Char)} {node : FileNode}

/-! ### Places -/

theorem at?_put_self (h : place ≠ []) : (t.put place node).at? place = some node := by
  simp [at?, put, h]

theorem at?_put_of_ne (h : other ≠ place) : (t.put place node).at? other = t.at? other := by
  have hfind : ((place, node) :: t.nodes.filter fun n => n.1 != place).find? (fun n => n.1 == other) =
      t.nodes.find? fun n => n.1 == other := by
    rw [List.find?_cons_of_neg (by simpa using h.symm), List.find?_filter]
    congr 1
    funext n
    by_cases hn : n.1 = other
    · simp [hn, h]
    · simp [hn]
  rw [at?, at?, put, hfind]

/-- Whatever is put at a place, a place that was taken is taken. -/
theorem isSome_at?_put (h : (t.at? other).isSome) : ((t.put place node).at? other).isSome := by
  by_cases hp : other = place
  · subst hp
    by_cases hnil : other = []
    · simp [at?, hnil]
    · rw [at?_put_self hnil]; rfl
  · rwa [at?_put_of_ne hp]

/-! ### Following a path -/

theorem follow_append (ps qs : List (List Char)) : ∀ place,
    t.follow place (ps ++ qs) = (t.follow place ps).bind fun p => t.follow p qs := by
  induction ps with
  | nil => intro place; rfl
  | cons p ps ih =>
    intro place
    rw [List.cons_append, follow, follow]
    cases t.at? place with
    | none => rfl
    | some node =>
      cases node with
      | file content => rfl
      | directory =>
        simp only
        split
        · exact ih place
        · split
          · exact ih place.dropLast
          · split
            · rfl
            · cases t.at? (place ++ [p]) with
              | none => rfl
              | some _ => exact ih (place ++ [p])

theorem follow_idle_iff {p : List Char} (hp : Path.isIdle p = true) :
    t.follow place (p :: rest) = .ok place' ↔
      t.at? place = some .directory ∧ t.follow place rest = .ok place' := by
  rw [follow]
  cases t.at? place with
  | none => simp
  | some node => cases node <;> simp [hp]

theorem follow_up_iff : t.follow place (['.', '.'] :: rest) = .ok place' ↔
    t.at? place = some .directory ∧ t.follow place.dropLast rest = .ok place' := by
  rw [follow]
  cases t.at? place with
  | none => simp
  | some node => cases node <;> simp [Path.isIdle]

theorem follow_name_iff {n : List Char} (hn : Path.isName n = true) :
    t.follow place (n :: rest) = .ok place' ↔
      t.at? place = some .directory ∧ Path.byteLength n ≤ maxName ∧
        (t.at? (place ++ [n])).isSome ∧ t.follow (place ++ [n]) rest = .ok place' := by
  obtain ⟨-, -, hup⟩ := Path.isName_iff.mp hn
  rw [follow]
  cases t.at? place with
  | none => simp
  | some node =>
    cases node with
    | file content => simp
    | directory =>
      simp only [Path.isIdle_of_isName hn, hup, Bool.false_eq_true, if_false, true_and]
      split
      · next hlong => simp [Nat.not_le_of_lt hlong]
      · next hshort =>
        rw [Nat.not_lt] at hshort
        cases t.at? (place ++ [n]) <;> simp [hshort]

/-- Parts that say nothing lead nowhere else. -/
theorem follow_of_isIdle {idle : List (List Char)} (h : ∀ p ∈ idle, Path.isIdle p = true)
    (hfollow : t.follow place idle = .ok place') : place' = place := by
  induction idle with
  | nil => exact (Except.ok.inj hfollow).symm
  | cons p idle ih =>
    obtain ⟨-, hrest⟩ := (follow_idle_iff (h p List.mem_cons_self)).mp hfollow
    exact ih (fun q hq => h q (List.mem_cons_of_mem p hq)) hrest

/-- A path with a file name leads to a place of that name. -/
theorem follow_of_fileName? {path n : List Char} (hname : Path.fileName? path = some n)
    (h : t.follow place (Path.segments path) = .ok place') : ∃ directory, place' = directory ++ [n] := by
  obtain ⟨hn, before, idle, hpath, hidle⟩ := Path.fileName?_eq_some_iff.mp hname
  rw [hpath, follow_append] at h
  cases hbefore : t.follow place before with
  | error e =>
    rw [hbefore] at h
    cases h
  | ok directory =>
    rw [hbefore] at h
    obtain ⟨-, -, -, hrest⟩ := (follow_name_iff hn).mp h
    exact ⟨directory, follow_of_isIdle hidle hrest⟩

/-- **A new file is in nobody's way**: where a path led before, it leads then. -/
theorem follow_put {content : FileContent} (hplace : t.at? place ≠ some .directory)
    (parts : List (List Char)) : ∀ here there, t.follow here parts = .ok there →
      (t.put place (.file content)).follow here parts = .ok there := by
  induction parts with
  | nil => intro _ _ h; exact h
  | cons p parts ih =>
    intro here there h
    have hkept : ∀ q, t.at? q = some .directory →
        (t.put place (.file content)).at? q = some .directory := by
      intro q hq
      rwa [at?_put_of_ne]
      rintro rfl
      exact hplace hq
    by_cases hidle : Path.isIdle p = true
    · obtain ⟨hat, hrest⟩ := (follow_idle_iff hidle).mp h
      exact (follow_idle_iff hidle).mpr ⟨hkept _ hat, ih _ _ hrest⟩
    · by_cases hup : p = ['.', '.']
      · subst hup
        obtain ⟨hat, hrest⟩ := follow_up_iff.mp h
        exact follow_up_iff.mpr ⟨hkept _ hat, ih _ _ hrest⟩
      · have hn : Path.isName p = true := by
          simp [Path.isName, hidle, hup]
        obtain ⟨hat, hshort, hthere, hrest⟩ := (follow_name_iff hn).mp h
        exact (follow_name_iff hn).mpr ⟨hkept _ hat, hshort, isSome_at?_put hthere, ih _ _ hrest⟩

/-! ### Reading and writing -/

variable {path : List Char} {content : FileContent}

/-- **All that reading can find.** -/
theorem read_eq_ok_iff : t.read path = .ok content ↔ flaw? path = none ∧
    ∃ place, t.follow (t.start path) (Path.segments path) = .ok place ∧
      t.at? place = some (.file content) := by
  rw [read, resolve]
  cases flaw? path with
  | some e => simp
  | none =>
    cases t.follow (t.start path) (Path.segments path) with
    | error e => simp
    | ok place =>
      cases hat : t.at? place with
      | none => simp [hat]
      | some node => cases node <;> simp [hat]

/-- **All that writing can do**: it puts a file into a directory, under the last part of the path. -/
theorem write_cases (h : t.write path content = .ok t') : flaw? path = none ∧
    ∃ before name directory, Path.segments path = before ++ [name] ∧ Path.isName name = true ∧
      t.follow (t.start path) before = .ok directory ∧ t.at? directory = some .directory ∧
      Path.byteLength name ≤ maxName ∧ t.at? (directory ++ [name]) ≠ some .directory ∧
      t' = t.put (directory ++ [name]) (.file content) := by
  have hparts : (Path.segments path).dropLast ++ [(Path.segments path).getLast?.getD []] =
      Path.segments path := by
    rw [List.getLast?_eq_some_getLast (Path.segments_ne_nil path)]
    exact List.dropLast_append_getLast (Path.segments_ne_nil path)
  rw [write] at h
  cases hflaw : flaw? path with
  | some e => simp [hflaw] at h
  | none =>
    cases hfollow : t.follow (t.start path) (Path.segments path).dropLast with
    | error e => simp [hflaw, hfollow] at h
    | ok directory =>
      cases hat : t.at? directory with
      | none => simp [hflaw, hfollow, hat] at h
      | some node =>
        cases node with
        | file content => simp [hflaw, hfollow, hat] at h
        | directory =>
          simp only [hflaw, hfollow, hat] at h
          split at h
          · cases h
          · next hname =>
            split at h
            · cases h
            · next hshort =>
              split at h
              · cases h
              · next htaken =>
                exact ⟨rfl, _, _, directory, hparts.symm, by simpa using hname, hfollow, hat,
                  Nat.le_of_not_lt hshort, htaken, (Except.ok.inj h).symm⟩

/-- **What is written is read.** -/
theorem read_of_write (h : t.write path content = .ok t') : t'.read path = .ok content := by
  obtain ⟨hflaw, before, name, directory, hpath, hname, hfollow, hat, hshort, hfree, rfl⟩ :=
    write_cases h
  have hplace : directory ++ [name] ≠ [] := List.append_ne_nil_of_right_ne_nil _ (List.cons_ne_nil _ _)
  have hself : (t.put (directory ++ [name]) (.file content)).at? (directory ++ [name]) =
      some (.file content) := at?_put_self hplace
  have hdirectory : (t.put (directory ++ [name]) (.file content)).at? directory = some .directory := by
    rw [at?_put_of_ne (by simp), hat]
  have hbefore : (t.put (directory ++ [name]) (.file content)).follow
      ((t.put (directory ++ [name]) (.file content)).start path) before = .ok directory :=
    follow_put hfree before _ _ hfollow
  refine read_eq_ok_iff.mpr ⟨hflaw, directory ++ [name], ?_, hself⟩
  rw [hpath, follow_append, hbefore]
  exact (follow_name_iff hname).mpr ⟨hdirectory, hshort, by rw [hself]; rfl, rfl⟩

/-- **What has another file name stays as it is**, wherever it is. -/
theorem read_of_write_of_ne {other n m : List Char} {kept : FileContent}
    (h : t.write path content = .ok t') (hpath : Path.fileName? path = some m)
    (hother : Path.fileName? other = some n) (hne : n ≠ m) (hread : t.read other = .ok kept) :
    t'.read other = .ok kept := by
  obtain ⟨-, before, name, directory, hsegments, hname, -, -, -, hfree, rfl⟩ := write_cases h
  obtain ⟨hflaw, place, hfollow, hat⟩ := read_eq_ok_iff.mp hread
  have hm : m = name := by
    have hlast : Path.fileName? path = some name :=
      Path.fileName?_eq_some_iff.mpr ⟨hname, before, [], hsegments, List.forall_mem_nil _⟩
    exact Option.some.inj (hpath.symm.trans hlast)
  obtain ⟨parent, rfl⟩ := follow_of_fileName? hother hfollow
  have hplace : parent ++ [n] ≠ directory ++ [name] := by
    intro hsame
    exact hne ((List.singleton_inj.mp (List.append_inj' hsame rfl).2).trans hm.symm)
  refine read_eq_ok_iff.mpr ⟨hflaw, parent ++ [n], follow_put hfree _ _ _ hfollow, ?_⟩
  rw [at?_put_of_ne hplace, hat]

end FileTree

end JobDispatch
