import Chronomap.Command.Surroundings

/-!
# What writing a file changes

A text is written whole to the place that its path names, or not at all, and nothing else changes:

    w.write path text = .ok w' → Stored w w' path text                     (stored_of_write)

In particular no directory appears: a path leads only through directories, so all that lies above
the place of a file is there before the file is (`holds_walk`).  Whether a path can be written to
does not depend on the text (`write_error_iff`).

A directory is there because something lies below it.  An empty one has an entry that no path leads
to, such as `["tiles", ""]`.
-/

namespace Chronomap.Workspace

/-! ## Files -/

section

variable {place other : List String} {content : Content} {files : List (List String × Content)}

theorem lookup_cons_of_ne (h : other ≠ place) :
    ((place, content) :: files).lookup other = files.lookup other := by
  rw [List.lookup_cons, beq_eq_false_iff_ne.2 h]

theorem lookup_put_self : (put place content files).lookup place = some content := by
  induction files with
  | nil => exact List.lookup_cons_self
  | cons file files ih =>
    obtain ⟨first, old⟩ := file
    rw [put]
    split
    · exact List.lookup_cons_self
    · next hne => rw [lookup_cons_of_ne (Ne.symm hne), ih]

theorem lookup_put_of_ne (h : other ≠ place) :
    (put place content files).lookup other = files.lookup other := by
  induction files with
  | nil => exact lookup_cons_of_ne h
  | cons file files ih =>
    obtain ⟨first, old⟩ := file
    rw [put]
    split
    · next heq =>
      subst heq
      rw [lookup_cons_of_ne h, lookup_cons_of_ne h]
    · rw [List.lookup_cons, List.lookup_cons, ih]

/-- Only one place more can be seen after a file was put. -/
theorem any_put (here : List String → Bool) :
    ((put place content files).any fun file => here file.1) =
      (here place || files.any fun file => here file.1) := by
  induction files with
  | nil => simp [put]
  | cons file files ih =>
    obtain ⟨first, old⟩ := file
    rw [put]
    by_cases hfirst : first = place
    · subst hfirst
      simp
    · rw [if_neg hfirst, List.any_cons, List.any_cons, ih, Bool.or_left_comm]

end

/-! ## Directories -/

/-- All that lies above a place is a directory. -/
def Holds (w : Workspace) (place : List String) : Prop :=
  ∀ above, above <+: place → above ≠ place → w.isDirectory above = true

section

variable {w w' : Workspace} {place : List String}

theorem holds_nil (w : Workspace) : w.Holds [] := by
  intro above habove hne
  exact absurd (List.prefix_nil.1 habove) hne

theorem Holds.dropLast (h : w.Holds place) : w.Holds place.dropLast := by
  have hshorter : place.dropLast <+: place := List.dropLast_prefix place
  intro above habove hne
  refine h above (habove.trans hshorter) ?_
  rintro rfl
  exact hne (hshorter.eq_of_length_le habove.length_le).symm

theorem Holds.concat (h : w.Holds place) (hplace : w.isDirectory place = true) (name : String) :
    w.Holds (place ++ [name]) := by
  intro above habove hne
  rcases List.prefix_concat_iff.1 habove with heq | hbelow
  · exact absurd heq hne
  · by_cases heq : above = place
    · rw [heq, hplace]
    · exact h above hbelow heq

/-- A path leads through directories only. -/
theorem holds_walk {names : List String} {last : List String} (h : w.Holds place)
    (hwalk : w.walk place names = .ok last) : w.Holds last := by
  induction names generalizing place with
  | nil =>
    obtain rfl := Except.ok.inj hwalk
    exact h
  | cons name names ih =>
    rw [walk] at hwalk
    by_cases hplace : w.isDirectory place = true
    · rw [if_pos hplace] at hwalk
      -- The walk stays, goes up, or goes down by one name.
      refine ih ?_ hwalk
      split
      · exact h
      · split
        · exact h.dropLast
        · exact h.concat hplace name
    · rw [if_neg hplace] at hwalk
      cases hwalk

theorem holds_resolve {path : String} (h : w.resolve path = .ok place) : w.Holds place :=
  holds_walk (holds_nil w) h

/-- Where directories are the same, so are the places of paths. -/
theorem walk_congr {names : List String} {last : List String}
    (h : ∀ place, w'.isDirectory place = w.isDirectory place)
    (hwalk : w.walk place names = .ok last) : w'.walk place names = .ok last := by
  induction names generalizing place with
  | nil => exact hwalk
  | cons name names ih =>
    rw [walk] at hwalk ⊢
    rw [h]
    by_cases hplace : w.isDirectory place = true
    · rw [if_pos hplace] at hwalk ⊢
      exact ih hwalk
    · rw [if_neg hplace] at hwalk
      cases hwalk

/-- A file that is put where a path leads makes no directory. -/
theorem isDirectory_put (h : w.Holds place) (content : Content) (other : List String) :
    isDirectory ⟨put place content w.files⟩ other = w.isDirectory other := by
  have hany : isDirectory ⟨put place content w.files⟩ other =
      (other == [] || (other.isPrefixOf place && other != place ||
        w.files.any fun file => other.isPrefixOf file.1 && other != file.1)) :=
    congrArg (other == [] || ·) (any_put fun file => other.isPrefixOf file && other != file)
  rw [hany, Bool.or_left_comm]
  by_cases habove : (other.isPrefixOf place && other != place) = true
  · rw [Bool.and_eq_true, List.isPrefixOf_iff_prefix, bne_iff_ne] at habove
    have hdir := h other habove.1 habove.2
    rw [isDirectory] at hdir ⊢
    rw [hdir, Bool.or_true]
  · rw [Bool.eq_false_iff.2 habove, Bool.false_or]
    rfl

end

/-! ## Writing -/

/-- `w'` is the workspace `w` with a text in the file that a path names, and no other change. -/
structure Stored (w w' : Workspace) (path text : String) : Prop where
  /-- The text is read back. -/
  read : w'.read path = .ok text
  /-- The file at the place of the path has the text, and all others are as they were. -/
  files : ∃ place, w.resolve path = .ok place ∧ w'.file? place = some (.text text) ∧
    ∀ other, other ≠ place → w'.file? other = w.file? other
  /-- No directory was made or removed. -/
  directories : ∀ place, w'.isDirectory place = w.isDirectory place

section

variable {w w' : Workspace} {path text : String}

theorem withoutEndSlashes_eq_self (h : path.toList.getLast? ≠ some '/') :
    withoutEndSlashes path = path := by
  have hkept : path.toList.reverse.dropWhile (· == '/') = path.toList.reverse := by
    rw [← List.head?_reverse] at h
    cases hr : path.toList.reverse with
    | nil => rfl
    | cons c cs =>
      have hc : (c == '/') = false := by
        rw [hr] at h
        simpa using h
      rw [List.dropWhile_cons, hc]
      rfl
  rw [withoutEndSlashes, hkept, List.reverse_reverse, String.ofList_toList]

/-- Whether a text can be written does not depend on the text. -/
theorem write_error_iff (text text' : String) {fault : IoFault} :
    w.write path text = .error fault ↔ w.write path text' = .error fault := by
  rw [write, write]
  split
  · rfl
  · split
    · rfl
    · simp

/-- A text that was written is where its path leads, which was no directory. -/
theorem exists_of_write (h : w.write path text = .ok w') :
    ∃ place, w.resolve path = .ok place ∧ w.isDirectory place = false ∧
      w' = ⟨put place (.text text) w.files⟩ := by
  rw [write] at h
  split at h
  · cases h
  · next place hplace =>
    split at h
    · cases h
    · next hfile =>
      rw [Bool.or_eq_true, not_or, Bool.not_eq_true, beq_iff_eq] at hfile
      rw [withoutEndSlashes_eq_self hfile.2] at hplace
      exact ⟨place, hplace, hfile.1, (Except.ok.inj h).symm⟩

theorem stored_of_write (h : w.write path text = .ok w') : Stored w w' path text := by
  obtain ⟨place, hplace, hfile, rfl⟩ := exists_of_write h
  have hdirectories := isDirectory_put (holds_resolve hplace) (.text text)
  have hput : file? ⟨put place (.text text) w.files⟩ place = some (.text text) := lookup_put_self
  refine ⟨?_, ⟨place, hplace, hput, fun other hne => lookup_put_of_ne hne⟩, hdirectories⟩
  have hresolve : resolve ⟨put place (.text text) w.files⟩ path = .ok place :=
    walk_congr hdirectories hplace
  rw [read, hresolve]
  simp only [hdirectories, hfile, hput]
  rfl

end

end Chronomap.Workspace
