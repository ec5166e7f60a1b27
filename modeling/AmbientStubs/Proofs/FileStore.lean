import AmbientStubs.FileStore
import AmbientStubs.Proofs.FileTree
import AmbientStubs.Proofs.PathText

/-!
What file operations change.  A path that is found leads where its parts say, a write changes the
one file its path leads to, and making directories changes no file.
-/

namespace AmbientStubs.FileStore

open PathText

/-- The tree is sorted, and relative paths start from a location made of file names. -/
structure WellFormed (store : FileStore) : Prop where
  sorted : store.tree.Sorted
  current : ∀ name ∈ store.current, IsName name

section Walk

variable {tree : FileTree} {here location : List String} {parts : List String}

theorem walk_cons_of_ok {part : String} {rest : List String}
    (walked : walk tree here (part :: rest) = .ok location) :
    walk tree (follow here part) rest = .ok location := by
  rw [walk] at walked
  rw [follow]
  split at walked
  · split at walked
    · next stays => rwa [if_pos stays]
    · next moves =>
        rw [if_neg moves]
        split at walked
        · next up => rwa [if_pos up]
        · next down =>
            rw [if_neg down]
            split at walked
            · cases walked
            · split at walked
              · exact walked
              · cases walked
  · cases walked

/-- A walk that succeeds ends where the parts lead. -/
theorem eq_locate_of_walk (walked : walk tree here parts = .ok location) :
    location = locate here parts := by
  induction parts generalizing here with
  | nil =>
      cases walked
      rfl
  | cons part rest inductionHypothesis => exact inductionHypothesis (walk_cons_of_ok walked)

end Walk

section Resolve

variable {store : FileStore} {path : String} {location : List String}

theorem eq_locate_of_resolve (resolved : store.resolve path = .ok location) :
    location = locate (store.start path) (parts path) := by
  rw [resolve] at resolved
  split at resolved
  · cases resolved
  · rw [locate_parts]
    exact eq_locate_of_walk resolved

theorem start_of_isAbsolute (absolute : isAbsolute path = true) : store.start path = [] :=
  if_pos absolute

theorem WellFormed.names_of_resolve (wellFormed : store.WellFormed)
    (resolved : store.resolve path = .ok location) : ∀ name ∈ location, IsName name := by
  rw [eq_locate_of_resolve resolved]
  refine names_locate (fun part inside => (mem_parts inside).2) ?_
  rw [start]
  split
  · simp
  · exact wellFormed.current

end Resolve

/-- The content of a file after writes to some locations, of which the last one counts. -/
def contentAfter (old : Option ByteArray) (writes : List (List String × ByteArray))
    (location : List String) : Option ByteArray :=
  writes.foldl (fun content write => if write.1 = location then some write.2 else content) old

section ContentAfter

variable {old : Option ByteArray} {writes : List (List String × ByteArray)}
  {location : List String}

theorem contentAfter_append (earlier later : List (List String × ByteArray)) :
    contentAfter old (earlier ++ later) location =
      contentAfter (contentAfter old earlier location) later location :=
  List.foldl_append

theorem contentAfter_of_forall_ne (elsewhere : ∀ write ∈ writes, write.1 ≠ location) :
    contentAfter old writes location = old := by
  induction writes with
  | nil => rfl
  | cons write rest inductionHypothesis =>
      rw [List.forall_mem_cons] at elsewhere
      rw [contentAfter, List.foldl_cons, if_neg elsewhere.1]
      exact inductionHypothesis elsewhere.2

theorem contentAfter_last {earlier later : List (List String × ByteArray)} {content : ByteArray}
    (elsewhere : ∀ write ∈ later, write.1 ≠ location) :
    contentAfter old (earlier ++ (location, content) :: later) location = some content := by
  rw [contentAfter_append, contentAfter, List.foldl_cons, if_pos rfl]
  exact contentAfter_of_forall_ne elsewhere

theorem exists_write_of_contentAfter_ne (changed : contentAfter old writes location ≠ old) :
    ∃ write ∈ writes, write.1 = location := by
  apply Classical.byContradiction
  intro none
  exact changed (contentAfter_of_forall_ne fun write inside same => none ⟨write, inside, same⟩)

/-- The same writes a second time change nothing. -/
theorem contentAfter_again : contentAfter (contentAfter old writes location) writes location =
    contentAfter old writes location := by
  have overwritten (other : Option ByteArray) :
      contentAfter other writes location = contentAfter old writes location ∨
        ∀ any, contentAfter any writes location = any := by
    induction writes generalizing old other with
    | nil => exact .inr fun _ => rfl
    | cons write rest inductionHypothesis =>
        simp only [contentAfter, List.foldl_cons]
        split
        · exact .inl rfl
        · exact inductionHypothesis other
  rcases overwritten (contentAfter old writes location) with same | untouched
  · exact same
  · rw [untouched, untouched]

theorem isSome_contentAfter (present : old.isSome = true ∨ ∃ write ∈ writes, write.1 = location) :
    (contentAfter old writes location).isSome = true := by
  induction writes generalizing old with
  | nil =>
      rcases present with there | ⟨write, inside, -⟩
      · exact there
      · simp at inside
  | cons first rest inductionHypothesis =>
      rw [contentAfter, List.foldl_cons]
      apply inductionHypothesis
      split
      · exact .inl rfl
      · next elsewhere =>
          refine present.imp_right ?_
          rintro ⟨write, inside, same⟩
          rcases List.mem_cons.1 inside with rfl | later
          · exact absurd same elsewhere
          · exact ⟨write, later, same⟩

end ContentAfter

/-- One store comes from another by writing files: the files are those of the writes, and
directories do not matter. -/
structure Writes (before : FileStore) (writes : List (List String × ByteArray))
    (after : FileStore) : Prop where
  wellFormed : after.WellFormed
  fileAt? : ∀ location, after.tree.fileAt? location =
    contentAfter (before.tree.fileAt? location) writes location

namespace Writes

theorem refl {store : FileStore} (wellFormed : store.WellFormed) : Writes store [] store :=
  ⟨wellFormed, fun _ => rfl⟩

theorem trans {before between after : FileStore} {earlier later : List (List String × ByteArray)}
    (first : Writes before earlier between) (second : Writes between later after) :
    Writes before (earlier ++ later) after :=
  ⟨second.wellFormed, fun location => by
    rw [second.fileAt?, first.fileAt?, contentAfter_append]⟩

end Writes

section Put

variable {store : FileStore} {location : List String} {name : String}

theorem WellFormed.put (wellFormed : store.WellFormed) {tree : FileTree} (sorted : tree.Sorted)
    (location : List String) : (store.put location tree).WellFormed :=
  ⟨wellFormed.sorted.insertAt sorted location, wellFormed.current⟩

/-- The store that holds some texts, with paths that start at the root. -/
def ofTexts (texts : List (List String × String)) : FileStore :=
  texts.foldl (fun store entry => store.put entry.1 (.file entry.2.toUTF8))
    { tree := .empty }

theorem wellFormed_ofTexts (texts : List (List String × String)) : (ofTexts texts).WellFormed := by
  have start : (FileStore.mk .empty []).WellFormed := ⟨FileTree.sorted_empty, by simp⟩
  rw [ofTexts]
  generalize FileStore.mk .empty [] = store at start
  induction texts generalizing store with
  | nil => exact start
  | cons entry rest inductionHypothesis =>
      exact inductionHypothesis _ (start.put (.file _) _)

theorem writes_put_file (wellFormed : store.WellFormed)
    (parent : store.tree.nodeAt? location = some .directory)
    (free : store.tree.nodeAt? (location ++ [name]) ≠ some .directory) (content : ByteArray) :
    Writes store [(location ++ [name], content)]
      (store.put (location ++ [name]) (.file content)) := by
  refine ⟨wellFormed.put (.file content) _, fun sought => ?_⟩
  rw [put, FileTree.fileAt?_insertAt wellFormed.sorted (fun _ _ => rfl) parent free]
  by_cases same : sought = location ++ [name]
  · rw [if_pos same, contentAfter, List.foldl_cons, if_pos same.symm]
    rfl
  · rw [if_neg same, contentAfter, List.foldl_cons, if_neg (Ne.symm same)]
    rfl

theorem writes_put_empty (wellFormed : store.WellFormed)
    (parent : store.tree.nodeAt? location = some .directory)
    (free : store.tree.nodeAt? (location ++ [name]) = none) :
    Writes store [] (store.put (location ++ [name]) .empty) := by
  refine ⟨wellFormed.put FileTree.sorted_empty _, fun sought => ?_⟩
  rw [put, FileTree.fileAt?_insertAt wellFormed.sorted (fun _ _ => rfl) parent (by simp [free])]
  split
  · next same =>
      subst same
      rw [FileTree.fileAt?, free]
      rfl
  · rfl

end Put

section Operations

theorem exists_of_bind_eq_ok {Cause First Second : Type} {action : Except Cause First}
    {next : First → Except Cause Second} {result : Second}
    (succeeds : action >>= next = .ok result) :
    ∃ value, action = .ok value ∧ next value = .ok result := by
  cases action with
  | error cause => cases succeeds
  | ok value => exact ⟨value, rfl, succeeds⟩

variable {store after : FileStore}

/-- The directory that the parts above the last one lead to, and what stands in it. -/
theorem nodeAt?_of_parent {first above location : List String}
    {entries : List (String × FileTree)}
    (found : store.parent first above = .ok (location, entries)) :
    location = locate first above ∧ walk store.tree first above = .ok location ∧
      store.tree.nodeAt? location = some .directory ∧
      ∀ name, store.tree.nodeAt? (location ++ [name]) =
        (FileTree.entryNamed? name entries).map FileTree.node := by
  obtain ⟨reached, walked, found⟩ := exists_of_bind_eq_ok found
  split at found
  · next looked =>
      cases found
      refine ⟨eq_locate_of_walk walked, walked, by rw [FileTree.nodeAt?, looked]; rfl,
        fun name => ?_⟩
      rw [FileTree.nodeAt?_append, looked, Option.bind_some, FileTree.nodeAt?_cons]
      cases named : FileTree.entryNamed? name entries <;> simp [FileTree.child?, named]
  · cases found

theorem parent_of_walk {first above location : List String}
    (walked : walk store.tree first above = .ok location)
    (isDirectory : store.tree.nodeAt? location = some .directory) :
    ∃ entries, store.parent first above = .ok (location, entries) := by
  obtain ⟨subtree, looked, node⟩ := Option.map_eq_some_iff.1 isDirectory
  cases subtree with
  | file content => cases node
  | directory entries => exact ⟨entries, by simp only [parent, walked, bind, Except.bind, looked]⟩

/-- A path under which a file can be written: its last part is a name, the parts above lead to a
directory, and no directory has the name. -/
structure Writable (store : FileStore) (path : String) (above : List String) (name : String) :
    Prop where
  accepted : refusal? path = none
  noSlash : Text.endsWith path "/" = false
  shape : parts path = above ++ [name]
  proper : IsName name
  short : name.utf8ByteSize ≤ longestName
  walked : walk store.tree (store.start path) above = .ok (locate (store.start path) above)
  parent : store.tree.nodeAt? (locate (store.start path) above) = some .directory
  free : store.tree.nodeAt? (locate (store.start path) above ++ [name]) ≠ some .directory

theorem Writable.leads {path name : String} {above : List String}
    (writable : store.Writable path above name) :
    locate (store.start path) (parts path) = locate (store.start path) above ++ [name] := by
  rw [writable.shape, locate_append, locate_cons, follow_name writable.proper, locate_nil]

/-- Writing puts a file where its path leads, and fails if the path is not writable. -/
theorem write_eq_ok_iff {path : String} {content : ByteArray} :
    store.write path content = .ok after ↔ ∃ above name, store.Writable path above name ∧
      after = store.put (locate (store.start path) above ++ [name]) (.file content) := by
  constructor
  · intro written
    rw [write] at written
    split at written
    · cases written
    · cases written
    · next last above accepted reversed =>
        obtain ⟨⟨location, entries⟩, found, written⟩ := exists_of_bind_eq_ok written
        obtain ⟨rfl, walked, isDirectory, inside⟩ := nodeAt?_of_parent found
        have shape : parts path = above.reverse ++ [last] := by
          rw [← List.reverse_reverse (parts path), reversed, List.reverse_cons]
        have listed : last ∈ parts path := by
          rw [shape]
          exact List.mem_append_right _ List.mem_cons_self
        dsimp only at written
        split at written
        · cases written
        next moves =>
        split at written
        · cases written
        next short =>
        split at written
        · cases written
        next noDirectory =>
        cases written
        rw [not_or, not_or, Bool.not_eq_true] at moves
        refine ⟨above.reverse, last, ⟨accepted, moves.2.2, shape,
          ⟨(mem_parts listed).1, moves.1, moves.2.1, (mem_parts listed).2⟩, Nat.le_of_not_lt short,
          walked, isDirectory, ?_⟩, rfl⟩
        rw [inside]
        intro same
        obtain ⟨subtree, named, node⟩ := Option.map_eq_some_iff.1 same
        cases subtree with
        | file old => cases node
        | directory old => exact noDirectory old named
  · rintro ⟨above, name, writable, rfl⟩
    obtain ⟨entries, found⟩ := parent_of_walk writable.walked writable.parent
    obtain ⟨-, -, -, inside⟩ := nodeAt?_of_parent found
    have noEntry : ∀ old, FileTree.entryNamed? name entries ≠ some (.directory old) := by
      intro old named
      apply writable.free
      rw [inside, named]
      rfl
    simp only [write, writable.accepted, writable.shape, List.reverse_append, List.reverse_cons,
      List.reverse_nil, List.nil_append, List.singleton_append, List.reverse_reverse, found, bind,
      Except.bind, writable.proper.2.1, writable.proper.2.2.1, writable.noSlash,
      Nat.not_lt.2 writable.short, false_or, Bool.false_eq_true, if_false]

theorem writes_of_write (wellFormed : store.WellFormed) {path : String} {content : ByteArray}
    (written : store.write path content = .ok after) :
    Writes store [(locate (store.start path) (parts path), content)] after := by
  obtain ⟨above, name, writable, rfl⟩ := write_eq_ok_iff.1 written
  rw [writable.leads]
  exact writes_put_file wellFormed writable.parent writable.free content

theorem exists_put_of_makeDirectory {first reversed : List String}
    (made : store.makeDirectory first reversed = .ok after) :
    ∃ last above, reversed = last :: above ∧ last ≠ "." ∧ last ≠ ".." ∧
      last.utf8ByteSize ≤ longestName ∧
      walk store.tree first above.reverse = .ok (locate first above.reverse) ∧
      store.tree.nodeAt? (locate first above.reverse) = some .directory ∧
      store.tree.nodeAt? (locate first above.reverse ++ [last]) = none ∧
      after = store.put (locate first above.reverse ++ [last]) .empty := by
  cases reversed with
  | nil => cases made
  | cons last above =>
      obtain ⟨⟨location, entries⟩, found, made⟩ := exists_of_bind_eq_ok made
      obtain ⟨rfl, walked, isDirectory, inside⟩ := nodeAt?_of_parent found
      dsimp only at made
      split at made
      · cases made
      next proper =>
      split at made
      · cases made
      next short =>
      split at made
      · cases made
      next absent =>
      cases made
      rw [not_or] at proper
      refine ⟨last, above, rfl, proper.1, proper.2, Nat.le_of_not_lt short, walked, isDirectory,
        ?_, rfl⟩
      rw [inside, Option.map_eq_none_iff]
      simpa using absent

theorem writes_of_makeDirectory (wellFormed : store.WellFormed) {first reversed : List String}
    (made : store.makeDirectory first reversed = .ok after) : Writes store [] after := by
  obtain ⟨last, above, -, -, -, -, -, isDirectory, absent, rfl⟩ := exists_put_of_makeDirectory made
  exact writes_put_empty wellFormed isDirectory absent

theorem writes_makeDirectoriesFrom (wellFormed : store.WellFormed) (first reversed : List String) :
    Writes store [] (store.makeDirectoriesFrom first reversed).2 := by
  fun_induction makeDirectoriesFrom store first reversed with
  | case1 reversed after made => exact writes_of_makeDirectory wellFormed made
  | case2 => exact .refl wellFormed
  | case3 reversed _ _ _ cause between above inductionHypothesis =>
      rwa [above] at inductionHypothesis
  | case4 reversed _ _ _ between above after made inductionHypothesis =>
      rw [above] at inductionHypothesis
      exact inductionHypothesis.trans
        (writes_of_makeDirectory inductionHypothesis.wellFormed made)
  | case5 reversed _ _ _ between above _ _ _ inductionHypothesis =>
      rwa [above] at inductionHypothesis
  | case6 reversed _ _ _ between above _ _ _ inductionHypothesis =>
      rwa [above] at inductionHypothesis
  | case7 => exact .refl wellFormed
  | case8 => exact .refl wellFormed

/-- Making directories changes no file, whether it succeeds or not. -/
theorem writes_makeDirectories (wellFormed : store.WellFormed) (path : String) :
    Writes store [] (store.makeDirectories path).2 := by
  rw [makeDirectories]
  split
  · exact .refl wellFormed
  · split
    · exact .refl wellFormed
    · exact writes_makeDirectoriesFrom wellFormed _ _

end Operations

end AmbientStubs.FileStore
