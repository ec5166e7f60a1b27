import AmbientStubs.FileTree
import AmbientStubs.Proofs.Catalog

/-!
File trees as maps from locations.  Putting a file or an empty directory into a directory
changes what stands at that one location and nothing else.
-/

namespace AmbientStubs.FileTree

/-- The entries of every directory are listed by ascending name, each name once. -/
inductive Sorted : FileTree → Prop where
  | file (content : ByteArray) : Sorted (file content)
  | directory {entries : List (String × FileTree)} (ascending : (Catalog.mk entries).Ascending)
      (each : ∀ entry ∈ entries, Sorted entry.2) : Sorted (directory entries)

theorem sorted_empty : Sorted empty :=
  .directory Catalog.ascending_empty (by simp)

theorem insertByName_of_forall_lt {entry : String × FileTree} {entries : List (String × FileTree)}
    (least : ∀ other ∈ entries, entry.1 < other.1) :
    insertByName entry entries = entry :: entries := by
  cases entries with
  | nil => rfl
  | cons first rest =>
      rw [insertByName, if_neg (String.lt_asymm (least first List.mem_cons_self))]

/-- A sorted tree is in order already. -/
theorem Sorted.inOrder_eq {tree : FileTree} (sorted : tree.Sorted) : tree.inOrder = tree := by
  induction sorted with
  | file content => rfl
  | @directory entries ascending each inductionHypothesis =>
      clear each
      rw [inOrder]
      congr 1
      induction entries with
      | nil => rfl
      | cons entry rest restInOrder =>
          obtain ⟨least, ascending⟩ := List.pairwise_cons.mp ascending
          rw [List.forall_mem_cons] at inductionHypothesis
          rw [entriesInOrder, inductionHypothesis.1, restInOrder ascending inductionHypothesis.2]
          exact insertByName_of_forall_lt least

/-- What stands at a location, without what lies below it. -/
inductive Node where
  | file (content : ByteArray)
  | directory

def node : FileTree → Node
  | file content => .file content
  | directory _ => .directory

def nodeAt? (tree : FileTree) (location : List String) : Option Node :=
  (tree.lookup? location).map node

def Node.content? : Node → Option ByteArray
  | file content => some content
  | directory => none

def fileAt? (tree : FileTree) (location : List String) : Option ByteArray :=
  (tree.nodeAt? location).bind Node.content?

theorem lookup?_eq_some_file {tree : FileTree} {location : List String} {content : ByteArray} :
    tree.lookup? location = some (file content) ↔ tree.fileAt? location = some content := by
  rw [fileAt?, nodeAt?]
  cases tree.lookup? location with
  | none => simp
  | some subtree => cases subtree <;> simp [node, Node.content?]

theorem nodeAt?_cons (tree : FileTree) (name : String) (rest : List String) :
    tree.nodeAt? (name :: rest) = (tree.child? name).bind (·.nodeAt? rest) := by
  rw [nodeAt?, lookup?, Option.map_bind]
  rfl

@[simp]
theorem nodeAt?_nil (tree : FileTree) : tree.nodeAt? [] = some tree.node := by
  simp [nodeAt?]

theorem nodeAt?_append (tree : FileTree) (first second : List String) :
    tree.nodeAt? (first ++ second) =
      (tree.lookup? first).bind fun subtree => subtree.nodeAt? second := by
  rw [nodeAt?, lookup?_append, Option.map_bind]
  rfl

theorem nodeAt?_below {tree : FileTree} {location : List String}
    (noDirectory : tree.nodeAt? location ≠ some .directory) (name : String) (rest : List String) :
    tree.nodeAt? (location ++ name :: rest) = none := by
  rw [nodeAt?] at noDirectory
  rw [nodeAt?_append]
  cases found : tree.lookup? location with
  | none => rfl
  | some subtree =>
      cases subtree with
      | file content => rfl
      | directory entries => exact absurd (by rw [found]; rfl) noDirectory

theorem child?_insertAt {entries : List (String × FileTree)}
    (ascending : (Catalog.mk entries).Ascending) (new : FileTree) (name : String)
    (rest : List String) (sought : String) :
    ((directory entries).insertAt new (name :: rest)).child? sought =
      if sought = name then some ((((directory entries).child? name).getD empty).insertAt new rest)
      else (directory entries).child? sought := by
  rw [insertAt]
  exact Catalog.get?_alter ascending name (fun old => (old.getD empty).insertAt new rest) sought

theorem Sorted.insertAt {tree new : FileTree} (sorted : tree.Sorted) (sortedNew : new.Sorted)
    (location : List String) : (tree.insertAt new location).Sorted := by
  induction location generalizing tree with
  | nil =>
      cases tree <;> exact sortedNew
  | cons name rest inductionHypothesis =>
      cases sorted with
      | file content => exact .file content
      | directory ascending each =>
          refine .directory (ascending.alter name _) (Catalog.forall_mem_alterEntries ?_ each)
          intro old sortedOld
          cases old with
          | none => exact inductionHypothesis sorted_empty
          | some subtree => exact inductionHypothesis (sortedOld subtree rfl)

theorem Sorted.child {tree subtree : FileTree} {name : String} (sorted : tree.Sorted)
    (found : tree.child? name = some subtree) : subtree.Sorted := by
  cases sorted with
  | file content => cases found
  | directory ascending each =>
      obtain ⟨entry, listed, rfl⟩ := Option.map_eq_some_iff.1 found
      exact each entry (List.mem_of_find?_eq_some listed)

/-- A tree put into a directory, where no directory was before it and with nothing below it, is
the only change. -/
theorem nodeAt?_insertAt {tree new : FileTree} (sorted : tree.Sorted)
    (bare : ∀ name rest, new.nodeAt? (name :: rest) = none) {location : List String} {name : String}
    (parent : tree.nodeAt? location = some .directory)
    (free : tree.nodeAt? (location ++ [name]) ≠ some .directory) (sought : List String) :
    (tree.insertAt new (location ++ [name])).nodeAt? sought =
      if sought = location ++ [name] then some new.node else tree.nodeAt? sought := by
  induction location generalizing tree sought with
  | nil =>
      cases sorted with
      | file content => simp [node] at parent
      | @directory entries ascending each =>
          rw [List.nil_append] at free ⊢
          cases sought with
          | nil => simp [FileTree.insertAt, node]
          | cons first rest =>
              rw [nodeAt?_cons, child?_insertAt ascending]
              by_cases same : first = name
              · subst same
                cases rest with
                | nil => simp [FileTree.insertAt]
                | cons second more =>
                    have nothing := nodeAt?_below free second more
                    rw [List.singleton_append] at nothing
                    rw [if_pos rfl, if_neg (by simp), nothing]
                    exact bare second more
              · rw [if_neg same, if_neg (by simp [same]), nodeAt?_cons]
  | cons first location inductionHypothesis =>
      cases sorted with
      | file content => cases parent
      | @directory entries ascending each =>
          rw [nodeAt?_cons, Option.bind_eq_some_iff] at parent
          obtain ⟨subtree, found, parent⟩ := parent
          rw [List.cons_append, nodeAt?_cons, found, Option.bind_some] at free
          have sortedSubtree := (Sorted.directory ascending each).child found
          have inner := inductionHypothesis sortedSubtree parent free
          cases sought with
          | nil => simp [FileTree.insertAt, node]
          | cons next rest =>
              rw [List.cons_append, nodeAt?_cons, child?_insertAt ascending, nodeAt?_cons, found]
              by_cases same : next = first
              · subst same
                rw [if_pos rfl, Option.bind_some, Option.getD_some, inner rest, found,
                  Option.bind_some]
                simp
              · rw [if_neg same, if_neg (by simp [same])]

theorem fileAt?_insertAt {tree new : FileTree} (sorted : tree.Sorted)
    (bare : ∀ name rest, new.nodeAt? (name :: rest) = none) {location : List String} {name : String}
    (parent : tree.nodeAt? location = some .directory)
    (free : tree.nodeAt? (location ++ [name]) ≠ some .directory) (sought : List String) :
    (tree.insertAt new (location ++ [name])).fileAt? sought =
      if sought = location ++ [name] then new.node.content? else tree.fileAt? sought := by
  rw [fileAt?, nodeAt?_insertAt sorted bare parent free]
  split <;> rfl

end AmbientStubs.FileTree
