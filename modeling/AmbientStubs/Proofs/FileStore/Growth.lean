import AmbientStubs.Proofs.FileStore

/-!
Stores that grow.  No operation removes anything: directories stay directories and files stay files,
so whatever a path led to it still leads to, and what could be written or made once can be written
or made again.
-/

namespace AmbientStubs

open PathText

theorem Text.fromUTF8?_toUTF8 (text : String) : String.fromUTF8? text.toUTF8 = some text := by
  rw [String.fromUTF8?, String.toUTF8_eq_toByteArray, dif_pos text.isValidUTF8]
  rfl

namespace PathText

theorem rawParts_append_slash (first second : String) :
    rawParts (first ++ "/" ++ second) = rawParts first ++ rawParts second := by
  have joined : (first ++ "/" ++ second).toList = first.toList ++ '/' :: second.toList := by simp
  simp [rawParts, Text.splitText, joined, Text.pieces_append]

theorem getLast?_pieces {separator : Char} {text : List Char}
    (ends : (Text.pieces separator text).getLast? = some []) :
    text = [] ∨ text.getLast? = some separator := by
  induction text with
  | nil => exact .inl rfl
  | cons character rest inductionHypothesis =>
      obtain ⟨piece, more, split⟩ := List.exists_cons_of_ne_nil (Text.pieces_ne_nil separator rest)
      rw [split] at inductionHypothesis
      rw [Text.pieces, split] at ends
      refine .inr ?_
      split at ends
      · next same =>
          rcases inductionHypothesis (by simpa using ends) with rfl | last
          · rw [same, List.getLast?_singleton]
          · rw [List.getLast?_cons, last, Option.getD_some]
      · cases more with
        | nil => simp at ends
        | cons second others =>
            rcases inductionHypothesis (by simpa using ends) with rfl | last
            · simp [Text.pieces] at split
            · rw [List.getLast?_cons, last, Option.getD_some]

theorem endsWith_slash_of_getLast? {path : String} (ends : (rawParts path).getLast? = some "")
    (nonempty : path ≠ "") : Text.endsWith path "/" = true := by
  rw [rawParts, Text.splitText, List.getLast?_map, Option.map_eq_some_iff] at ends
  obtain ⟨piece, last, empty⟩ := ends
  have nothing : piece = [] := by simpa using congrArg String.toList empty
  rcases getLast?_pieces (nothing ▸ last) with none | slash
  · exact absurd (String.toList_inj.1 none) nonempty
  · obtain ⟨front, shape⟩ := List.getLast?_eq_some_iff.1 slash
    exact endsWith_slash_iff.2 ⟨String.ofList front, String.toList_inj.1 (by simpa using shape)⟩

end PathText

namespace FileTree

theorem nodeAt?_dropLast {tree : FileTree} {location : List String}
    (isDirectory : tree.nodeAt? location = some .directory) :
    tree.nodeAt? location.dropLast = some .directory := by
  rcases List.eq_nil_or_concat location with rfl | ⟨front, last, rfl⟩
  · exact isDirectory
  · rw [List.concat_eq_append, List.dropLast_concat]
    apply Classical.byContradiction
    intro noDirectory
    rw [List.concat_eq_append, nodeAt?_below noDirectory] at isDirectory
    cases isDirectory

end FileTree

namespace FileStore

section Walk

variable {tree : FileTree} {here location : List String} {part : String} {rest : List String}

theorem walk_cons_of_not_directory (noDirectory : tree.nodeAt? here ≠ some .directory) :
    walk tree here (part :: rest) = .error .notDirectory := by
  rw [walk]
  split
  · next entries looked => exact absurd (by rw [FileTree.nodeAt?, looked]; rfl) noDirectory
  · rfl

theorem walk_cons_of_directory (isDirectory : tree.nodeAt? here = some .directory) :
    walk tree here (part :: rest) =
      if part = "" ∨ part = "." then walk tree here rest
      else if part = ".." then walk tree here.dropLast rest
      else if longestName < part.utf8ByteSize then .error .nameTooLong
      else if (tree.nodeAt? (here ++ [part])).isSome then walk tree (here ++ [part]) rest
      else .error .notFound := by
  obtain ⟨subtree, looked, node⟩ := Option.map_eq_some_iff.1 isDirectory
  cases subtree with
  | file content => cases node
  | directory entries =>
      have named : (FileTree.entryNamed? part entries).isSome =
          (tree.nodeAt? (here ++ [part])).isSome := by
        rw [FileTree.nodeAt?_append, looked, Option.bind_some, FileTree.nodeAt?_cons]
        cases found : FileTree.entryNamed? part entries <;> simp [FileTree.child?, found]
      rw [walk, looked]
      dsimp only
      rw [named]

theorem walk_append (first second : List String) :
    walk tree here (first ++ second) = walk tree here first >>= fun reached =>
      walk tree reached second := by
  induction first generalizing here with
  | nil => rfl
  | cons part rest inductionHypothesis =>
      by_cases isDirectory : tree.nodeAt? here = some .directory
      · rw [List.cons_append, walk_cons_of_directory isDirectory,
          walk_cons_of_directory isDirectory]
        repeat' split
        all_goals first | exact inductionHypothesis | rfl
      · rw [List.cons_append, walk_cons_of_not_directory isDirectory,
          walk_cons_of_not_directory isDirectory]
        rfl

/-- Empty parts may be left out, except at the end. -/
theorem walk_filter {raw : List String} (ends : ∀ last ∈ raw.getLast?, last ≠ "") :
    walk tree here (raw.filter (· ≠ "")) = walk tree here raw := by
  induction raw generalizing here with
  | nil => rfl
  | cons part rest inductionHypothesis =>
      have later : ∀ last ∈ rest.getLast?, last ≠ "" := by
        intro last found
        refine ends last ?_
        rw [List.getLast?_cons, Option.mem_def.1 found]
        rfl
      by_cases empty : part = ""
      · subst empty
        rw [List.filter_cons_of_neg (by simp), inductionHypothesis later]
        cases rest with
        | nil => exact absurd rfl (ends "" rfl)
        | cons next more =>
            by_cases isDirectory : tree.nodeAt? here = some .directory
            · exact ((walk_cons_of_directory isDirectory).trans (if_pos (.inl rfl))).symm
            · rw [walk_cons_of_not_directory isDirectory, walk_cons_of_not_directory isDirectory]
      · rw [List.filter_cons_of_pos (by simpa using empty)]
        by_cases isDirectory : tree.nodeAt? here = some .directory
        · rw [walk_cons_of_directory isDirectory, walk_cons_of_directory isDirectory,
            inductionHypothesis later, inductionHypothesis later, inductionHypothesis later]
        · rw [walk_cons_of_not_directory isDirectory, walk_cons_of_not_directory isDirectory]

/-- A part can be followed: it is taken from a directory, and a name that goes down is there. -/
def Passable (tree : FileTree) (here : List String) (part : String) : Prop :=
  tree.nodeAt? here = some .directory ∧ ((part = "" ∨ part = ".") ∨ part = ".." ∨
    part.utf8ByteSize ≤ longestName ∧ (tree.nodeAt? (here ++ [part])).isSome = true)

theorem walk_cons_eq_ok :
    walk tree here (part :: rest) = .ok location ↔
      Passable tree here part ∧ walk tree (follow here part) rest = .ok location := by
  by_cases isDirectory : tree.nodeAt? here = some .directory
  · rw [walk_cons_of_directory isDirectory, Passable, follow]
    by_cases stays : part = "" ∨ part = "."
    · simp only [stays, isDirectory, if_true, true_or, true_and]
    by_cases up : part = ".."
    · subst up
      simp [isDirectory]
    simp only [stays, up, isDirectory, if_false, false_or, true_and]
    split
    · next long => simp [Nat.not_le_of_lt long]
    · next short =>
        split
        · next present => exact (and_iff_right ⟨Nat.le_of_not_lt short, present⟩).symm
        · next absent => simp [absent]
  · rw [walk_cons_of_not_directory isDirectory, Passable]
    simp [isDirectory]

theorem walk_filter_of_ok {raw : List String} (walked : walk tree here raw = .ok location) :
    walk tree here (raw.filter (· ≠ "")) = .ok location := by
  induction raw generalizing here with
  | nil => exact walked
  | cons part rest inductionHypothesis =>
      obtain ⟨passable, later⟩ := walk_cons_eq_ok.1 walked
      by_cases empty : part = ""
      · rw [empty, follow, if_pos (.inl rfl)] at later
        rw [List.filter_cons_of_neg (by simpa using empty)]
        exact inductionHypothesis later
      · rw [List.filter_cons_of_pos (by simpa using empty)]
        exact walk_cons_eq_ok.2 ⟨passable, inductionHypothesis later⟩

end Walk

section Files

variable {store : FileStore} {path : String} {location : List String}

theorem ne_empty_of_accepted (accepted : refusal? path = none) : path ≠ "" := by
  rintro rfl
  cases accepted

/-- What a path names does not depend on doubled slashes. -/
theorem resolve_eq_walk (accepted : refusal? path = none)
    (noSlash : Text.endsWith path "/" = false) :
    store.resolve path = walk store.tree (store.start path) (parts path) := by
  rw [resolve, accepted]
  refine (walk_filter fun last ends empty => ?_).symm
  rw [empty] at ends
  rw [endsWith_slash_of_getLast? ends (ne_empty_of_accepted accepted)] at noSlash
  cases noSlash

theorem walk_parts_of_resolve (resolved : store.resolve path = .ok location) :
    refusal? path = none ∧ walk store.tree (store.start path) (parts path) = .ok location := by
  rw [resolve] at resolved
  split at resolved
  · cases resolved
  · next accepted => exact ⟨accepted, walk_filter_of_ok resolved⟩

theorem isFile_iff : store.isFile path = true ↔
    ∃ location, store.resolve path = .ok location ∧
      (store.tree.fileAt? location).isSome = true := by
  rw [isFile, get?]
  cases resolved : store.resolve path with
  | error cause => simp
  | ok location =>
      simp only [Except.ok.injEq, exists_eq_left']
      rw [FileTree.fileAt?, FileTree.nodeAt?]
      cases store.tree.lookup? location with
      | none => simp
      | some subtree => cases subtree <;> simp [FileTree.node, FileTree.Node.content?]

theorem read_of_fileAt? {content : ByteArray} (resolved : store.resolve path = .ok location)
    (file : store.tree.fileAt? location = some content) :
    store.read path = match String.fromUTF8? content with
      | some text => .ok text
      | none => .error .notUnicode := by
  have looked := FileTree.lookup?_eq_some_file.2 file
  cases decoded : String.fromUTF8? content with
  | none => simp [read, resolved, looked, decoded, bind, Except.bind]
  | some text => simp [read, resolved, looked, decoded, bind, Except.bind]

theorem not_directory_of_file (file : (store.tree.fileAt? location).isSome = true) :
    store.tree.nodeAt? location ≠ some .directory := by
  intro isDirectory
  rw [FileTree.fileAt?, isDirectory] at file
  cases file

theorem noSlash_of_file (resolved : store.resolve path = .ok location)
    (file : (store.tree.fileAt? location).isSome = true) :
    Text.endsWith path "/" = false := by
  rw [← Bool.not_eq_true]
  intro slash
  obtain ⟨base, rfl⟩ := endsWith_slash_iff.1 slash
  have split := rawParts_append_slash base ""
  rw [String.append_empty] at split
  rw [resolve, (walk_parts_of_resolve resolved).1, split, walk_append] at resolved
  obtain ⟨here, -, last⟩ := exists_of_bind_eq_ok resolved
  obtain ⟨⟨isDirectory, -⟩, stays⟩ := walk_cons_eq_ok.1 last
  cases stays
  exact not_directory_of_file file isDirectory

theorem exists_parts_eq_append (accepted : refusal? path = none)
    (noSlash : Text.endsWith path "/" = false) : ∃ front last, parts path = front ++ [last] := by
  rcases List.eq_nil_or_concat (rawParts path) with none | ⟨front, last, shape⟩
  · rw [rawParts, Text.splitText, List.map_eq_nil_iff] at none
    exact absurd none (Text.pieces_ne_nil _ _)
  · have nonempty : last ≠ "" := by
      rintro rfl
      have ends : (rawParts path).getLast? = some "" := by simp [shape]
      rw [endsWith_slash_of_getLast? ends (ne_empty_of_accepted accepted)] at noSlash
      cases noSlash
    refine ⟨front.filter (· ≠ ""), last, ?_⟩
    rw [parts, shape, List.concat_eq_append, List.filter_append]
    simp [nonempty]

/-- A file that a path leads to can be written. -/
theorem writable_of_file (resolved : store.resolve path = .ok location)
    (file : (store.tree.fileAt? location).isSome = true) :
    ∃ above name, store.Writable path above name ∧
      locate (store.start path) above ++ [name] = location := by
  have noSlash := noSlash_of_file resolved file
  obtain ⟨accepted, walked⟩ := walk_parts_of_resolve resolved
  obtain ⟨front, last, shape⟩ := exists_parts_eq_append accepted noSlash
  have noDirectory := not_directory_of_file file
  have listed : last ∈ parts path := by
    rw [shape]
    exact List.mem_append_right _ List.mem_cons_self
  rw [shape, walk_append] at walked
  obtain ⟨here, walkedFront, walkedLast⟩ := exists_of_bind_eq_ok walked
  obtain rfl := eq_locate_of_walk walkedFront
  obtain ⟨⟨isDirectory, ways⟩, ends⟩ := walk_cons_eq_ok.1 walkedLast
  cases ends
  have stays : ¬ (last = "" ∨ last = ".") := fun stays => by
    rw [follow, if_pos stays] at noDirectory
    exact noDirectory isDirectory
  have up : last ≠ ".." := fun up => by
    rw [follow, if_neg stays, if_pos up] at noDirectory
    exact noDirectory (FileTree.nodeAt?_dropLast isDirectory)
  obtain ⟨short, -⟩ := (ways.resolve_left stays).resolve_left up
  rw [not_or] at stays
  have proper : IsName last := ⟨stays.1, stays.2, up, (mem_parts listed).2⟩
  rw [follow_name proper] at noDirectory
  exact ⟨front, last, ⟨accepted, noSlash, shape, proper, short, walkedFront, isDirectory,
    noDirectory⟩, (follow_name proper _).symm⟩

end Files

/-- One store comes from another by growing: directories stay directories and files stay files. -/
structure Grows (before after : FileStore) : Prop where
  current : after.current = before.current
  directory : ∀ location, before.tree.nodeAt? location = some .directory →
    after.tree.nodeAt? location = some .directory
  file : ∀ location, (before.tree.fileAt? location).isSome = true →
    (after.tree.fileAt? location).isSome = true

namespace Grows

variable {before between after : FileStore} {path : String} {here location : List String}

theorem refl (store : FileStore) : Grows store store :=
  ⟨rfl, fun _ => id, fun _ => id⟩

theorem trans (first : Grows before between) (second : Grows between after) :
    Grows before after :=
  ⟨second.current.trans first.current,
    fun location there => second.directory location (first.directory location there),
    fun location there => second.file location (first.file location there)⟩

theorem isSome_nodeAt? (grows : Grows before after)
    (there : (before.tree.nodeAt? location).isSome = true) :
    (after.tree.nodeAt? location).isSome = true := by
  obtain ⟨node, found⟩ := Option.isSome_iff_exists.1 there
  cases node with
  | directory => rw [grows.directory location found, Option.isSome_some]
  | file content =>
      have file := grows.file location (by rw [FileTree.fileAt?, found]; rfl)
      rw [FileTree.fileAt?] at file
      exact Option.isSome_of_isSome_bind file

theorem walk (grows : Grows before after) {parts : List String}
    (walked : FileStore.walk before.tree here parts = .ok location) :
    FileStore.walk after.tree here parts = .ok location := by
  induction parts generalizing here with
  | nil => exact walked
  | cons part rest inductionHypothesis =>
      obtain ⟨⟨isDirectory, ways⟩, later⟩ := walk_cons_eq_ok.1 walked
      refine walk_cons_eq_ok.2 ⟨⟨grows.directory here isDirectory, ?_⟩, inductionHypothesis later⟩
      exact ways.imp_right (·.imp_right (·.imp_right grows.isSome_nodeAt?))

theorem start (grows : Grows before after) (path : String) :
    after.start path = before.start path := by
  rw [FileStore.start, FileStore.start, grows.current]

theorem resolve (grows : Grows before after) (resolved : before.resolve path = .ok location) :
    after.resolve path = .ok location := by
  rw [FileStore.resolve] at resolved ⊢
  split at resolved
  · cases resolved
  · rw [grows.start path]
    exact grows.walk resolved

theorem read (grows : Grows before after) {text : String} (read : before.read path = .ok text)
    (same : ∀ location, after.tree.fileAt? location = before.tree.fileAt? location) :
    after.read path = .ok text := by
  obtain ⟨location, resolved, found⟩ := exists_of_bind_eq_ok read
  split at found
  · next content looked =>
      have held := FileTree.lookup?_eq_some_file.1 looked
      rw [← read, read_of_fileAt? resolved held,
        read_of_fileAt? (grows.resolve resolved) ((same location).trans held)]
  · cases found
  · cases found

end Grows

section Put

variable {store : FileStore} {location : List String} {name : String}

theorem grows_put_file (wellFormed : store.WellFormed)
    (parent : store.tree.nodeAt? location = some .directory)
    (free : store.tree.nodeAt? (location ++ [name]) ≠ some .directory) (content : ByteArray) :
    Grows store (store.put (location ++ [name]) (.file content)) := by
  have nodes := FileTree.nodeAt?_insertAt wellFormed.sorted
    (show ∀ name rest, (FileTree.file content).nodeAt? (name :: rest) = none from fun _ _ => rfl)
    parent free
  refine ⟨rfl, fun sought there => ?_, fun sought there => ?_⟩
  · rw [put, nodes, if_neg]
    · exact there
    · rintro rfl
      exact free there
  · rw [FileTree.fileAt?, put, nodes]
    split
    · rfl
    · exact there

theorem grows_put_empty (wellFormed : store.WellFormed)
    (parent : store.tree.nodeAt? location = some .directory)
    (free : store.tree.nodeAt? (location ++ [name]) = none) :
    Grows store (store.put (location ++ [name]) .empty) := by
  have nodes := FileTree.nodeAt?_insertAt wellFormed.sorted
    (show ∀ name rest, FileTree.empty.nodeAt? (name :: rest) = none from fun _ _ => rfl) parent
    (show store.tree.nodeAt? (location ++ [name]) ≠ some .directory by simp [free])
  refine ⟨rfl, fun sought there => ?_, fun sought there => ?_⟩
  · rw [put, nodes]
    split
    · rfl
    · exact there
  · rw [FileTree.fileAt?, put, nodes, if_neg]
    · exact there
    · rintro rfl
      rw [FileTree.fileAt?, free] at there
      cases there

end Put

section Operations

variable {store after : FileStore} {path : String}

theorem grows_of_write (wellFormed : store.WellFormed) {content : ByteArray}
    (written : store.write path content = .ok after) : Grows store after := by
  obtain ⟨above, name, writable, rfl⟩ := write_eq_ok_iff.1 written
  exact grows_put_file wellFormed writable.parent writable.free content

theorem grows_of_makeDirectory (wellFormed : store.WellFormed) {first reversed : List String}
    (made : store.makeDirectory first reversed = .ok after) : Grows store after := by
  obtain ⟨last, above, -, -, -, -, -, isDirectory, absent, rfl⟩ := exists_put_of_makeDirectory made
  exact grows_put_empty wellFormed isDirectory absent

theorem partsAbove_suffix (reversed : List String) : partsAbove reversed <:+ reversed :=
  ((List.dropWhile_suffix _).trans (List.drop_suffix 1 _)).trans (List.dropWhile_suffix _)

/-- A relation of stores that holds of every directory made on the way holds of all of them. -/
theorem makeDirectoriesFrom_induction {Related : FileStore → FileStore → Prop}
    (refl : ∀ store, Related store store)
    (trans : ∀ {first second third}, Related first second → Related second third →
      Related first third)
    {first reversed : List String}
    (step : ∀ {store after some}, some <:+ reversed → store.WellFormed →
      store.makeDirectory first some = .ok after → Related store after)
    (wellFormed : store.WellFormed) :
    Related store (store.makeDirectoriesFrom first reversed).2 := by
  have written := writes_makeDirectoriesFrom wellFormed first (partsAbove reversed)
  have ending := partsAbove_suffix reversed
  fun_induction makeDirectoriesFrom store first reversed with
  | case1 reversed after made => exact step List.suffix_rfl wellFormed made
  | case2 => exact refl _
  | case3 reversed _ _ _ cause between above inductionHypothesis =>
      rw [above] at inductionHypothesis
      exact inductionHypothesis (fun ends => step (ends.trans ending))
        (writes_makeDirectoriesFrom wellFormed first _) (partsAbove_suffix _)
  | case4 reversed _ _ _ between above after made inductionHypothesis =>
      rw [above] at inductionHypothesis written
      exact trans (inductionHypothesis (fun ends => step (ends.trans ending))
        (writes_makeDirectoriesFrom wellFormed first _) (partsAbove_suffix _))
        (step List.suffix_rfl written.wellFormed made)
  | case5 reversed _ _ _ between above _ _ _ inductionHypothesis =>
      rw [above] at inductionHypothesis
      exact inductionHypothesis (fun ends => step (ends.trans ending))
        (writes_makeDirectoriesFrom wellFormed first _) (partsAbove_suffix _)
  | case6 reversed _ _ _ between above _ _ _ inductionHypothesis =>
      rw [above] at inductionHypothesis
      exact inductionHypothesis (fun ends => step (ends.trans ending))
        (writes_makeDirectoriesFrom wellFormed first _) (partsAbove_suffix _)
  | case7 => exact refl _
  | case8 => exact refl _

/-- One store comes from another by writing files and making directories, the latter at the given
locations only. -/
structure Builds (allowed : List String → Prop) (before after : FileStore) : Prop where
  wellFormed : before.WellFormed → after.WellFormed
  grows : Grows before after
  directories : ∀ location, after.tree.nodeAt? location = some .directory →
    before.tree.nodeAt? location = some .directory ∨ allowed location

theorem Builds.refl {allowed : List String → Prop} (store : FileStore) :
    Builds allowed store store :=
  ⟨id, .refl store, fun _ => .inl⟩

theorem Builds.trans {allowed : List String → Prop} {before between after : FileStore}
    (first : Builds allowed before between) (second : Builds allowed between after) :
    Builds allowed before after :=
  ⟨second.wellFormed ∘ first.wellFormed, first.grows.trans second.grows, fun location there =>
    (second.directories location there).elim (first.directories location) .inr⟩

theorem Builds.mono {allowed more : List String → Prop} {before after : FileStore}
    (builds : Builds allowed before after) (weaker : ∀ location, allowed location → more location) :
    Builds more before after :=
  ⟨builds.wellFormed, builds.grows, fun location there =>
    (builds.directories location there).imp_right (weaker location)⟩

theorem builds_of_write {allowed : List String → Prop} (wellFormed : store.WellFormed)
    {content : ByteArray} (written : store.write path content = .ok after) :
    Builds allowed store after := by
  refine ⟨fun _ => (writes_of_write wellFormed written).wellFormed,
    grows_of_write wellFormed written, fun location there => .inl ?_⟩
  obtain ⟨above, name, writable, rfl⟩ := write_eq_ok_iff.1 written
  rw [put, FileTree.nodeAt?_insertAt wellFormed.sorted (fun _ _ => rfl) writable.parent
    writable.free] at there
  split at there
  · cases there
  · exact there

theorem builds_of_makeDirectory {allowed : List String → Prop} (wellFormed : store.WellFormed)
    {first reversed : List String} (proper : ∀ part ∈ reversed, part ≠ "" ∧ '/' ∉ part.toList)
    (made : store.makeDirectory first reversed = .ok after)
    (within : allowed (locate first reversed.reverse)) : Builds allowed store after := by
  refine ⟨fun _ => (writes_of_makeDirectory wellFormed made).wellFormed,
    grows_of_makeDirectory wellFormed made, fun location there => ?_⟩
  obtain ⟨last, above, rfl, noDot, noUp, -, -, isDirectory, absent, rfl⟩ :=
    exists_put_of_makeDirectory made
  obtain ⟨nonempty, plain⟩ := proper last List.mem_cons_self
  have free : store.tree.nodeAt? (locate first above.reverse ++ [last]) ≠ some .directory := by
    simp [absent]
  rw [put, FileTree.nodeAt?_insertAt wellFormed.sorted (fun _ _ => rfl) isDirectory free] at there
  split at there
  · next same =>
      rw [List.reverse_cons, locate_append, locate_cons, follow_name ⟨nonempty, noDot, noUp, plain⟩,
        locate_nil] at within
      exact .inr (same ▸ within)
  · exact .inl there

/-- The directories that are made are where the first parts of the path lead. -/
theorem builds_makeDirectories (wellFormed : store.WellFormed) (path : String) :
    Builds (fun location => ∃ front, front <+: parts path ∧
      location = locate (store.start path) front) store (store.makeDirectories path).2 := by
  rw [makeDirectories]
  split
  · exact .refl store
  · split
    · exact .refl store
    · refine makeDirectoriesFrom_induction .refl .trans
        (fun {_ _ some} ending wellFormed made => ?_) wellFormed
      refine builds_of_makeDirectory wellFormed (fun part inside => ?_) made
        ⟨some.reverse, List.reverse_suffix.1 (by simpa using ending), rfl⟩
      exact mem_parts (List.mem_reverse.1 (ending.subset inside))

theorem leadsToDirectory_iff {first reversed : List String} :
    store.leadsToDirectory first reversed = true ↔
      ∃ location, walk store.tree first reversed.reverse = .ok location ∧
        store.tree.nodeAt? location = some .directory := by
  rw [leadsToDirectory]
  cases walk store.tree first reversed.reverse with
  | error cause => simp [Except.toOption]
  | ok location =>
      simp only [Except.toOption, Option.bind_some, Except.ok.injEq, exists_eq_left',
        FileTree.nodeAt?]
      cases store.tree.lookup? location with
      | none => simp
      | some subtree => cases subtree <;> simp [FileTree.node]

theorem leadsToDirectory_of_makeDirectory (wellFormed : store.WellFormed)
    {first reversed : List String} (made : store.makeDirectory first reversed = .ok after) :
    after.leadsToDirectory first reversed = true := by
  have grows := grows_of_makeDirectory wellFormed made
  obtain ⟨last, above, rfl, noDot, noUp, short, walked, isDirectory, absent, rfl⟩ :=
    exists_put_of_makeDirectory made
  have free : store.tree.nodeAt? (locate first above.reverse ++ [last]) ≠ some .directory := by
    simp [absent]
  have nodes := FileTree.nodeAt?_insertAt wellFormed.sorted
    (show ∀ name rest, FileTree.empty.nodeAt? (name :: rest) = none from fun _ _ => rfl)
    isDirectory free (locate first above.reverse ++ [last])
  rw [if_pos rfl] at nodes
  have still := grows.directory _ isDirectory
  rw [leadsToDirectory_iff, List.reverse_cons]
  simp only [walk_append, grows.walk walked]
  by_cases empty : last = ""
  · exact ⟨_, walk_cons_eq_ok.2 ⟨⟨still, .inl (.inl empty)⟩, rfl⟩,
      by rwa [follow, if_pos (.inl empty)]⟩
  · refine ⟨_, walk_cons_eq_ok.2 ⟨⟨still, .inr (.inr ⟨short, ?_⟩)⟩, rfl⟩, ?_⟩
    · rw [put, nodes, Option.isSome_some]
    · rw [follow, if_neg (by simp [empty, noDot]), if_neg noUp, put, nodes]
      rfl

theorem leadsToDirectory_of_makeDirectoriesFrom (wellFormed : store.WellFormed)
    {first reversed : List String}
    (made : store.makeDirectoriesFrom first reversed = (.ok (), after)) :
    after.leadsToDirectory first reversed = true := by
  have written := writes_makeDirectoriesFrom wellFormed first (partsAbove reversed)
  revert made
  fun_cases makeDirectoriesFrom store first reversed with
  | case1 between once =>
      rintro made
      cases made
      exact leadsToDirectory_of_makeDirectory wellFormed once
  | case2 => nofun
  | case3 => nofun
  | case4 _ _ _ between above last once =>
      rintro made
      cases made
      rw [above] at written
      exact leadsToDirectory_of_makeDirectory written.wellFormed once
  | case5 _ _ _ between above _ _ leads =>
      rintro made
      cases made
      exact leads
  | case6 => nofun
  | case7 _ _ _ leads =>
      rintro made
      cases made
      exact leads
  | case8 => nofun

/-- A directory that is there is not made again. -/
theorem makeDirectoriesFrom_of_leadsToDirectory {first reversed : List String}
    (proper : "" ∉ reversed) (leads : store.leadsToDirectory first reversed = true) :
    store.makeDirectoriesFrom first reversed = (.ok (), store) := by
  have refused : store.makeDirectory first reversed = .error .alreadyExists := by
    cases reversed with
    | nil => rfl
    | cons last above =>
        obtain ⟨location, walked, -⟩ := leadsToDirectory_iff.1 leads
        rw [List.reverse_cons, walk_append] at walked
        obtain ⟨here, walkedAbove, walkedLast⟩ := exists_of_bind_eq_ok walked
        obtain ⟨⟨isDirectory, ways⟩, -⟩ := walk_cons_eq_ok.1 walkedLast
        obtain ⟨entries, found⟩ := parent_of_walk walkedAbove isDirectory
        obtain ⟨-, -, -, inside⟩ := nodeAt?_of_parent found
        rw [List.mem_cons, not_or] at proper
        simp only [makeDirectory, found, bind, Except.bind]
        split
        · rfl
        · next moves =>
            rw [not_or] at moves
            have goes : ¬ (last = "" ∨ last = ".") := by simp [Ne.symm proper.1, moves.1]
            obtain ⟨short, there⟩ := (ways.resolve_left goes).resolve_left moves.2
            rw [inside, Option.isSome_map] at there
            rw [if_neg (Nat.not_lt.2 short), if_pos there]
  rw [makeDirectoriesFrom.eq_def, refused]
  simp [leads]

/-- What was made once is there, so it is not made again. -/
theorem makeDirectories_again {between : FileStore} (wellFormed : store.WellFormed)
    (made : store.makeDirectories path = (.ok (), between)) (grows : Grows between after) :
    after.makeDirectories path = (.ok (), after) := by
  rw [makeDirectories] at made ⊢
  split
  · rfl
  · next nonempty =>
      rw [if_neg nonempty] at made
      split
      · next cause refused =>
          rw [refused] at made
          cases made
      · next accepted =>
          rw [accepted] at made
          have kept : between.start path = store.start path := by
            have before := (builds_makeDirectories wellFormed path).grows
            rw [makeDirectories, if_neg nonempty, accepted] at before
            rw [made] at before
            exact before.start path
          refine makeDirectoriesFrom_of_leadsToDirectory ?_ ?_
          · rw [List.mem_reverse]
            exact fun inside => (mem_parts inside).1 rfl
          · have leads := leadsToDirectory_of_makeDirectoriesFrom wellFormed made
            obtain ⟨location, walked, isDirectory⟩ := leadsToDirectory_iff.1 leads
            rw [grows.start, kept, leadsToDirectory_iff]
            exact ⟨location, grows.walk walked, grows.directory location isDirectory⟩

theorem write_again {between : FileStore} (wellFormed : store.WellFormed) {content : ByteArray}
    (written : store.write path content = .ok between) (grows : Grows between after)
    (newContent : ByteArray) : ∃ final, after.write path newContent = .ok final := by
  have grown := grows_of_write wellFormed written
  obtain ⟨above, name, writable, rfl⟩ := write_eq_ok_iff.1 written
  have file : (after.tree.fileAt? (locate (store.start path) above ++ [name])).isSome = true := by
    apply grows.file
    rw [put, FileTree.fileAt?_insertAt wellFormed.sorted (fun _ _ => rfl) writable.parent
      writable.free, if_pos rfl]
    rfl
  have start : after.start path = store.start path := (grown.trans grows).start path
  refine ⟨_, write_eq_ok_iff.2 ⟨above, name, ⟨writable.accepted, writable.noSlash, writable.shape,
    writable.proper, writable.short, ?_, ?_, ?_⟩, rfl⟩⟩
  · rw [start]
    exact (grown.trans grows).walk writable.walked
  · rw [start]
    exact (grown.trans grows).directory _ writable.parent
  · rw [start]
    exact not_directory_of_file file

theorem exists_write_of_read {text : String} (read : store.read path = .ok text)
    (content : ByteArray) : ∃ after, store.write path content = .ok after := by
  obtain ⟨location, resolved, read⟩ := exists_of_bind_eq_ok read
  split at read
  · next old looked =>
      obtain ⟨above, name, writable, -⟩ := writable_of_file resolved
        (by rw [FileTree.lookup?_eq_some_file.1 looked, Option.isSome_some])
      exact ⟨_, write_eq_ok_iff.2 ⟨above, name, writable, rfl⟩⟩
  · cases read
  · cases read

theorem read_of_write (wellFormed : store.WellFormed) {text : String}
    (written : store.write path text.toUTF8 = .ok after) : after.read path = .ok text := by
  have grows := grows_of_write wellFormed written
  obtain ⟨above, name, writable, rfl⟩ := write_eq_ok_iff.1 written
  have node := FileTree.nodeAt?_insertAt wellFormed.sorted
    (show ∀ name rest, (FileTree.file text.toUTF8).nodeAt? (name :: rest) = none from
      fun _ _ => rfl)
    writable.parent writable.free (locate (store.start path) above ++ [name])
  rw [if_pos rfl] at node
  have resolved : (store.put (locate (store.start path) above ++ [name])
      (.file text.toUTF8)).resolve path = .ok (locate (store.start path) above ++ [name]) := by
    rw [resolve_eq_walk writable.accepted writable.noSlash, grows.start, writable.shape,
      walk_append, grows.walk writable.walked]
    refine walk_cons_eq_ok.2 ⟨⟨grows.directory _ writable.parent, .inr (.inr ⟨writable.short, ?_⟩)⟩,
      by rw [follow_name writable.proper]; rfl⟩
    rw [put, node, Option.isSome_some]
  have file : (store.put (locate (store.start path) above ++ [name])
      (.file text.toUTF8)).tree.fileAt? (locate (store.start path) above ++ [name]) =
      some text.toUTF8 := by
    rw [FileTree.fileAt?, put, node]
    rfl
  rw [read_of_fileAt? resolved file, Text.fromUTF8?_toUTF8]

end Operations

end FileStore

end AmbientStubs
