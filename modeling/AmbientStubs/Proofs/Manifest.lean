import AmbientStubs.Manifest
import AmbientStubs.Proofs.FileStore.Growth
import AmbientStubs.Proofs.JsonValue.RoundTrip
import AmbientStubs.Proofs.StubPackage

/-!
What a manifest says before and after it is patched.  References are added after the dependencies,
and the printed manifest is read back, so nothing that a manifest says is lost.
-/

namespace AmbientStubs

open PathText JsonValue

def FileStore.jsonAt? (store : FileStore) (location : List String) : Option JsonValue :=
  (store.tree.fileAt? location).bind fun content =>
    (String.fromUTF8? content).bind JsonValue.ofText?

theorem FileStore.exists_fileAt?_of_read {store : FileStore} {path text : String}
    (read : store.read path = .ok text) :
    ∃ content, store.tree.fileAt? (locate (store.start path) (parts path)) = some content ∧
      String.fromUTF8? content = some text := by
  obtain ⟨location, resolved, read⟩ := exists_of_bind_eq_ok read
  rw [← eq_locate_of_resolve resolved]
  split at read
  · next content looked =>
      refine ⟨content, FileTree.lookup?_eq_some_file.1 looked, ?_⟩
      split at read
      · next decoded =>
          cases read
          exact decoded
      · cases read
  · cases read
  · cases read

namespace JsonValue

variable {key other : String} {value : JsonValue} {members more : List (String × JsonValue)}

theorem member?_setMember_self : member? key (setMember key value members) = some value := by
  induction members with
  | nil => simp [setMember, member?]
  | cons member rest inductionHypothesis =>
      rw [setMember]
      split
      · next same => simp [member?, same]
      · next different =>
          rw [member?, List.find?_cons_of_neg (by simpa using different)]
          exact inductionHypothesis

theorem member?_setMember_of_ne (different : other ≠ key) :
    member? other (setMember key value members) = member? other members := by
  induction members with
  | nil => simp [setMember, member?, Ne.symm different]
  | cons member rest inductionHypothesis =>
      obtain ⟨present, old⟩ := member
      rw [setMember]
      split
      · next same =>
          have skipped : (present == other) = false := by simpa [same] using Ne.symm different
          simp [member?, skipped]
      · rw [member?, member?] at inductionHypothesis
        cases found : present == other <;> simp [member?, found, inductionHypothesis]

theorem member?_append_of_some (found : member? key members = some value) :
    member? key (members ++ more) = some value := by
  rw [member?, Option.map_eq_some_iff] at found
  obtain ⟨entry, listed, same⟩ := found
  rw [member?, List.find?_append, listed]
  exact congrArg some same

theorem mem_of_member? (found : member? key members = some value) : (key, value) ∈ members := by
  rw [member?, Option.map_eq_some_iff] at found
  obtain ⟨⟨present, held⟩, listed, rfl⟩ := found
  have same : present = key := by simpa using List.find?_some listed
  exact same ▸ List.mem_of_find?_eq_some listed

theorem member?_eq_none : member? key members = none ↔ key ∉ members.map (·.1) := by
  rw [member?, Option.map_eq_none_iff, List.find?_eq_none, List.mem_map]
  simp only [beq_iff_eq, not_exists, not_and]

end JsonValue

namespace Manifest

/-- A manifest says everything that another one says: it has the same members besides the
dependencies, and among the dependencies it has the same entries. -/
structure Keeps (old new : List (String × JsonValue)) : Prop where
  members : ∀ key, key ≠ dependenciesKey → member? key new = member? key old
  dependencies : ∀ entries, member? dependenciesKey old = some (.object entries) →
    ∃ others, member? dependenciesKey new = some (.object others) ∧
      ∀ key value, member? key entries = some value → member? key others = some value

variable {members : List (String × JsonValue)} {modules : List String}

theorem Keeps.refl (members : List (String × JsonValue)) : Keeps members members :=
  ⟨fun _ _ => rfl, fun entries found => ⟨entries, found, fun _ _ => id⟩⟩

theorem keeps_addReferences (members : List (String × JsonValue)) (modules : List String) :
    Keeps members (addReferences members modules) where
  members := fun _ different => member?_setMember_of_ne different
  dependencies := by
    intro entries found
    have listed : Manifest.dependencies members = entries := by
      rw [Manifest.dependencies, found]
      rfl
    rw [addReferences, member?_setMember_self, listed]
    exact ⟨_, rfl, fun _ _ => member?_append_of_some⟩

theorem partition_eq (members : List (String × JsonValue)) (modules : List String) :
    partition members modules =
      (modules.filter fun module => (member? module (dependencies members)).isNone,
       modules.filter fun module => (member? module (dependencies members)).isSome) := by
  rw [partition, List.partition_eq_filter_filter]
  congr 2
  funext module
  simp

theorem mem_added_iff {module : String} :
    module ∈ (partition members modules).1 ↔
      module ∈ modules ∧ member? module (dependencies members) = none := by
  rw [partition_eq, List.mem_filter, Option.isNone_iff_eq_none]

section Printable

theorem dependencies_cases (members : List (String × JsonValue)) :
    Manifest.dependencies members = [] ∨
      (dependenciesKey, JsonValue.object (Manifest.dependencies members)) ∈ members := by
  rw [Manifest.dependencies]
  cases found : member? dependenciesKey members with
  | none => exact .inl rfl
  | some value =>
      cases value with
      | object entries => exact .inr (mem_of_member? found)
      | _ => exact .inl rfl

theorem regular_addReferences (regular : (JsonValue.object members).Regular)
    (distinct : modules.Nodup)
    (fresh : ∀ module ∈ modules, member? module (Manifest.dependencies members) = none) :
    (JsonValue.object (addReferences members modules)).Regular := by
  cases regular with
  | object distinctMembers each =>
      have entries : (JsonValue.object (Manifest.dependencies members)).Regular := by
        rcases dependencies_cases members with none | listed
        · rw [none]
          exact .object List.nodup_nil (by simp)
        · exact each _ listed
      cases entries with
      | object distinctEntries eachEntry =>
          refine .object (nodup_keys_setMember distinctMembers) fun member inside => ?_
          rcases mem_setMember inside with rfl | old
          · refine .object ?_ ?_
            · have names : (modules.map fun module =>
                  (module, JsonValue.text (StubPackage.reference module))).map (·.1) = modules := by
                simp [Function.comp_def]
              rw [List.map_append, names, List.nodup_append]
              refine ⟨distinctEntries, distinct, ?_⟩
              rintro key held _ added rfl
              exact member?_eq_none.1 (fresh key added) held
            · rw [List.forall_mem_append]
              exact ⟨eachEntry, by simp [JsonValue.Regular.text]⟩
          · exact each member old

theorem plainText_append {first second : String} (plainFirst : PlainText first)
    (plainSecond : PlainText second) : PlainText (first ++ second) := by
  simp only [PlainText, String.toList_append, List.mem_append, not_or]
  exact ⟨⟨plainFirst.1, plainSecond.1⟩, ⟨plainFirst.2, plainSecond.2⟩⟩

theorem quotable_addReferences (quotable : (JsonValue.object members).Quotable)
    (plainModules : ∀ module ∈ modules, PlainText module) :
    (JsonValue.object (addReferences members modules)).Quotable := by
  cases quotable with
  | object keys each =>
      have entries : (JsonValue.object (Manifest.dependencies members)).Quotable := by
        rcases dependencies_cases members with none | listed
        · rw [none]
          exact .object (by simp) (by simp)
        · exact each _ listed
      have referencesQuotable : ∀ module ∈ modules,
          (JsonValue.text (StubPackage.reference module)).Quotable := fun module inside =>
        .text (plainText_append (by decide) (plainModules module inside))
      cases entries with
      | object entryKeys eachEntry =>
          refine .object (fun member inside => ?_) fun member inside => ?_
          · rcases mem_setMember inside with rfl | old
            · exact (by decide : PlainText dependenciesKey)
            · exact keys member old
          · rcases mem_setMember inside with rfl | old
            · refine .object ?_ ?_
              · rw [List.forall_mem_append, List.forall_mem_map]
                exact ⟨entryKeys, plainModules⟩
              · rw [List.forall_mem_append, List.forall_mem_map]
                exact ⟨eachEntry, referencesQuotable⟩
            · exact each member old

theorem regular_written (regular : (JsonValue.object members).Regular) (distinct : modules.Nodup) :
    (JsonValue.object (addReferences members (partition members modules).1)).Regular := by
  refine regular_addReferences regular ?_ fun module listed => (mem_added_iff.1 listed).2
  rw [partition_eq]
  exact distinct.filter _

theorem quotable_written (quotable : (JsonValue.object members).Quotable)
    (plain : ∀ module ∈ modules, PlainText module) :
    (JsonValue.object (addReferences members (partition members modules).1)).Quotable :=
  quotable_addReferences quotable fun module listed => plain module (mem_added_iff.1 listed).1

end Printable

section Patch

variable {settings : StubSettings} {location : List String} {store : FileStore}

theorem jsonAt?_of_quotable {value : JsonValue} (quotable : value.Quotable)
    (regular : value.Regular)
    (written : store.tree.fileAt? location = some (value.pretty ++ "\n").toUTF8) :
    store.jsonAt? location = some value := by
  rw [FileStore.jsonAt?, written, Option.bind_some, Text.fromUTF8?_toUTF8, Option.bind_some,
    ofText?_pretty quotable regular]

theorem jsonAt?_eq_some_of_pretty {value : JsonValue} (plain : value.Plain)
    (regular : value.Regular)
    (written : store.tree.fileAt? location = some (value.pretty ++ "\n").toUTF8) :
    store.jsonAt? location = some value :=
  jsonAt?_of_quotable plain.quotable regular written

theorem regular_of_jsonAt? {value : JsonValue} (read : store.jsonAt? location = some value) :
    value.Regular := by
  rw [FileStore.jsonAt?, Option.bind_eq_some_iff] at read
  obtain ⟨content, -, read⟩ := read
  obtain ⟨text, -, read⟩ := Option.bind_eq_some_iff.1 read
  exact regular_of_ofText? read

/-- Patching writes the manifest that was read with references added, or nothing. -/
theorem writes_patch (wellFormed : store.WellFormed) (names : ∀ name ∈ location, IsName name)
    (manifestName : IsName settings.manifestName) (modules : List String) :
    ∃ written, store.Writes written
        ((patch settings (ofLocation location) modules).perform store).2 ∧
      (written = [] ∨ ∃ members,
        store.jsonAt? (location ++ [settings.manifestName]) = some (.object members) ∧
        written = [(location ++ [settings.manifestName],
          ((JsonValue.object (addReferences members (partition members modules).1)).pretty ++
            "\n").toUTF8)]) := by
  have absolute := isAbsolute_push_ofLocation manifestName location
  have target := locate_push_ofLocation names manifestName
  rw [patch, FileAction.perform_get_bind]
  dsimp only
  split
  · exact ⟨[], .refl wellFormed, .inl rfl⟩
  rw [FileAction.perform_bind, FileAction.perform_read]
  cases read : store.read (push (ofLocation location) settings.manifestName) with
  | error cause => exact ⟨[], .refl wellFormed, .inl rfl⟩
  | ok text =>
      obtain ⟨content, held, decoded⟩ := FileStore.exists_fileAt?_of_read read
      rw [FileStore.start_of_isAbsolute absolute, target] at held
      have parsed : store.jsonAt? (location ++ [settings.manifestName]) = ofText? text := by
        rw [FileStore.jsonAt?, held, Option.bind_some, decoded, Option.bind_some]
      dsimp only [Except.mapError]
      split
      · exact ⟨[], .refl wellFormed, .inl rfl⟩
      · next members isObject =>
          split
          · have outputs := FileAction.outputs_write absolute ((JsonValue.object
              (addReferences members (partition members modules).1)).pretty ++ "\n")
            rw [target] at outputs
            obtain ⟨written, begun, changed, -⟩ := outputs store wellFormed
            rw [FileAction.perform_map_snd]
            refine ⟨written, changed, ?_⟩
            rw [List.prefix_cons_iff] at begun
            rcases begun with nothing | ⟨more, once, begun⟩
            · exact .inl nothing
            · rw [List.prefix_nil] at begun
              exact .inr ⟨members, parsed.trans isObject, begun ▸ once⟩
          · exact ⟨[], .refl wellFormed, .inl rfl⟩
      · exact ⟨[], .refl wellFormed, .inl rfl⟩

/-- A manifest that is read as an object is still read as one after patching, and says all that it
said. -/
theorem jsonAt?_patch (wellFormed : store.WellFormed) (names : ∀ name ∈ location, IsName name)
    (manifestName : IsName settings.manifestName) {members : List (String × JsonValue)}
    (read : store.jsonAt? (location ++ [settings.manifestName]) = some (.object members))
    (plain : (JsonValue.object members).Plain) {modules : List String} (distinct : modules.Nodup)
    (plainModules : ∀ module ∈ modules, PlainText module) :
    ∃ patched, ((patch settings (ofLocation location) modules).perform store).2.jsonAt?
        (location ++ [settings.manifestName]) = some (.object patched) ∧
      Keeps members patched := by
  obtain ⟨written, changed, nothing | ⟨found, readAgain, once⟩⟩ :=
    writes_patch wellFormed names manifestName modules
  · refine ⟨members, ?_, .refl members⟩
    rw [FileStore.jsonAt?, changed.fileAt?, nothing]
    exact read
  · rw [read] at readAgain
    cases readAgain
    refine ⟨_, jsonAt?_of_quotable (quotable_written plain.quotable plainModules)
      (regular_written (regular_of_jsonAt? read) distinct) ?_, keeps_addReferences members _⟩
    rw [changed.fileAt?, once]
    exact if_pos rfl

end Patch

end Manifest

end AmbientStubs
