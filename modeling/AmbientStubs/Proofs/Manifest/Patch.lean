import AmbientStubs.Proofs.JsonValue.Separators
import AmbientStubs.Proofs.Manifest

/-!
What patching a manifest does, and what it does the second time.  The modules that a manifest does
not name get a reference behind its dependencies, and nothing else changes; a second time there is
nothing to add, provided that the manifest can be read at all.
-/

namespace AmbientStubs.Manifest

open PathText JsonValue

def references (modules : List String) : List (String × JsonValue) :=
  modules.map fun module => (module, .text ("file:../" ++ module))

/-- A manifest with references behind its dependencies, which come last if it had none. -/
inductive Extends (added : List String) :
    List (String × JsonValue) → List (String × JsonValue) → Prop where
  | absent {members : List (String × JsonValue)} (none : dependenciesKey ∉ members.map (·.1)) :
      Extends added members (members ++ [(dependenciesKey, .object (references added))])
  | present {before behind entries : List (String × JsonValue)}
      (first : dependenciesKey ∉ before.map (·.1)) :
      Extends added (before ++ (dependenciesKey, .object entries) :: behind)
        (before ++ (dependenciesKey, .object (entries ++ references added)) :: behind)

structure Parted (modules : List String) (entries : List (String × JsonValue))
    (added kept : List String) : Prop where
  ascendingAdded : added.Pairwise (· < ·)
  ascendingKept : kept.Pairwise (· < ·)
  mem_added : ∀ module, module ∈ added ↔ module ∈ modules ∧ module ∉ entries.map (·.1)
  mem_kept : ∀ module, module ∈ kept ↔ module ∈ modules ∧ module ∈ entries.map (·.1)

section Members

variable {members : List (String × JsonValue)} {modules : List String}

theorem setMember_append {key : String} {old new : JsonValue}
    {before behind : List (String × JsonValue)} (fresh : key ∉ before.map (·.1)) :
    setMember key new (before ++ (key, old) :: behind) = before ++ (key, new) :: behind := by
  induction before with
  | nil => simp [setMember]
  | cons member rest inductionHypothesis =>
      rw [List.map_cons, List.mem_cons, not_or] at fresh
      rw [List.cons_append, setMember, if_neg (Ne.symm fresh.1), inductionHypothesis fresh.2,
        List.cons_append]

theorem exists_split_of_member? {key : String} {value : JsonValue}
    (found : member? key members = some value) :
    ∃ before behind, members = before ++ (key, value) :: behind ∧ key ∉ before.map (·.1) := by
  rw [member?, Option.map_eq_some_iff] at found
  obtain ⟨⟨present, held⟩, listed, rfl⟩ := found
  obtain ⟨same, before, behind, shape, others⟩ := List.find?_eq_some_iff_append.1 listed
  obtain rfl : present = key := by simpa using same
  refine ⟨before, behind, shape, fun inside => ?_⟩
  obtain ⟨member, earlier, named⟩ := List.mem_map.1 inside
  simpa [named] using others member earlier

theorem isSome_member?_iff {key : String} :
    (member? key members).isSome = true ↔ key ∈ members.map (·.1) := by
  rw [Option.isSome_iff_ne_none, ne_eq, member?_eq_none, Decidable.not_not]

theorem extends_addReferences (added : List String)
    (object : ∀ value, member? dependenciesKey members = some value →
      ∃ entries, value = .object entries) :
    Extends added members (addReferences members added) := by
  cases found : member? dependenciesKey members with
  | none =>
      have fresh := member?_eq_none.1 found
      have nothing : dependencies members = [] := by
        rw [dependencies, found]
        rfl
      rw [addReferences, nothing, List.nil_append, setMember_of_fresh fresh]
      exact .absent fresh
  | some value =>
      obtain ⟨entries, rfl⟩ := object value found
      obtain ⟨before, behind, rfl, first⟩ := exists_split_of_member? found
      have listed : dependencies (before ++ (dependenciesKey, .object entries) :: behind) =
          entries := by
        rw [dependencies, found]
        rfl
      rw [addReferences, listed, setMember_append first]
      exact .present first

theorem dependencies_addReferences (members : List (String × JsonValue)) (added : List String) :
    dependencies (addReferences members added) = dependencies members ++ references added := by
  rw [dependencies, addReferences, member?_setMember_self]
  rfl

theorem member?_references {modules : List String} {module : String} (listed : module ∈ modules) :
    member? module (references modules) = some (.text (StubPackage.reference module)) := by
  induction modules with
  | nil => cases listed
  | cons first rest inductionHypothesis =>
      rw [references, List.map_cons, member?, List.find?_cons]
      by_cases same : first = module
      · subst same
        simp [StubPackage.reference]
      · simp only [beq_eq_false_iff_ne.2 same]
        exact inductionHypothesis ((List.mem_cons.1 listed).resolve_left (Ne.symm same))

theorem parted_partition (ascending : modules.Pairwise (· < ·)) :
    Parted modules (dependencies members) (partition members modules).1
      (partition members modules).2 := by
  rw [partition_eq]
  refine ⟨ascending.filter _, ascending.filter _, fun module => ?_, fun module => ?_⟩
  · rw [List.mem_filter, Option.isNone_iff_eq_none, member?_eq_none]
  · rw [List.mem_filter, isSome_member?_iff]

theorem partition_of_nothing_missing (nothing : (partition members modules).1 = []) :
    partition members modules = ([], modules) := by
  refine Prod.ext nothing ?_
  rw [partition_eq] at nothing ⊢
  refine List.filter_eq_self.2 fun module inside => ?_
  simpa [Option.isSome_iff_ne_none] using List.filter_eq_nil_iff.1 nothing module inside

/-- No module is missing any more once the missing ones have been added. -/
theorem partition_addReferences (members : List (String × JsonValue)) (modules : List String) :
    partition (addReferences members (partition members modules).1) modules = ([], modules) := by
  apply partition_of_nothing_missing
  rw [partition_eq]
  refine List.filter_eq_nil_iff.2 fun module inside missing => ?_
  rw [Option.isNone_iff_eq_none, member?_eq_none, dependencies_addReferences, List.map_append,
    List.mem_append, not_or, partition_eq] at missing
  refine missing.2 ?_
  simpa [references, Function.comp_def, inside] using member?_eq_none.2 missing.1

/-- Every module that was missing is found among the dependencies once it has been added. -/
theorem member?_addReferences {module : String}
    (added : module ∈ (partition members modules).1) :
    member? module (dependencies (addReferences members (partition members modules).1)) =
      some (.text (StubPackage.reference module)) := by
  have fresh := (mem_added_iff.1 added).2
  rw [member?, Option.map_eq_none_iff] at fresh
  rw [dependencies_addReferences, member?, List.find?_append, fresh, Option.none_or]
  exact member?_references added

end Members

section Perform

variable {settings : StubSettings} {moduleRoot path text : String} {modules : List String}
  {store after : FileStore} {members : List (String × JsonValue)} {added kept : List String}

theorem isFile_of_read (read : store.read path = .ok text) : store.isFile path = true := by
  obtain ⟨location, resolved, read⟩ := FileStore.exists_of_bind_eq_ok read
  refine FileStore.isFile_iff.2 ⟨location, resolved, ?_⟩
  split at read
  · next content looked =>
      rw [FileTree.lookup?_eq_some_file.1 looked, Option.isSome_some]
  · cases read
  · cases read

theorem perform_patch_of_missing
    (missing : store.isFile (push moduleRoot settings.manifestName) = false) :
    (patch settings moduleRoot modules).perform store =
      (.ok (.missing (push moduleRoot settings.manifestName)), store) := by
  rw [patch, FileAction.perform_get_bind]
  simp only [missing]
  rfl

theorem perform_patch_of_unreadable {cause : FileError}
    (there : store.isFile (push moduleRoot settings.manifestName) = true)
    (unreadable : store.read (push moduleRoot settings.manifestName) = .error cause) :
    (patch settings moduleRoot modules).perform store =
      (.error (.unreadable (push moduleRoot settings.manifestName) cause), store) := by
  rw [patch, FileAction.perform_get_bind]
  simp only [there, Bool.not_true, Bool.false_eq_true, if_false]
  rw [FileAction.perform_bind, FileAction.perform_read, unreadable]
  rfl

theorem perform_patch_of_read
    (read : store.read (push moduleRoot settings.manifestName) = .ok text) :
    (patch settings moduleRoot modules).perform store =
      match ofText? text with
      | none => (.error (.manifestSyntax (push moduleRoot settings.manifestName)), store)
      | some (.object members) =>
          if (partition members modules).1 = [] then
            (.ok (.patched (push moduleRoot settings.manifestName) []
              (partition members modules).2), store)
          else
            match store.write (push moduleRoot settings.manifestName) ((JsonValue.object
              (addReferences members (partition members modules).1)).pretty ++ "\n").toUTF8 with
            | .ok after => (.ok (.patched (push moduleRoot settings.manifestName)
                (partition members modules).1 (partition members modules).2), after)
            | .error cause =>
                (.error (.unwritable (push moduleRoot settings.manifestName) cause), store)
      | some _ =>
          (.error (.manifestNotObject (push moduleRoot settings.manifestName)), store) := by
  rw [patch, FileAction.perform_get_bind]
  simp only [isFile_of_read read, Bool.not_true, Bool.false_eq_true, if_false]
  rw [FileAction.perform_bind, FileAction.perform_read, read]
  dsimp only [Except.mapError]
  cases ofText? text with
  | none => rfl
  | some value =>
      cases value with
      | object members =>
          dsimp only
          by_cases nothing : (partition members modules).1 = []
          · rw [if_pos nothing, nothing]
            rfl
          · have something : (!(partition members modules).1.isEmpty) = true := by
              simpa using nothing
            rw [if_neg nothing, if_pos something, FileAction.perform_bind,
              FileAction.perform_write]
            cases store.write (push moduleRoot settings.manifestName) ((JsonValue.object
              (addReferences members (partition members modules).1)).pretty ++ "\n").toUTF8 <;> rfl
      | _ => rfl

theorem perform_patch_of_complete
    (read : store.read (push moduleRoot settings.manifestName) = .ok text)
    (parsed : ofText? text = some (.object members))
    (nothing : (partition members modules).1 = []) :
    (patch settings moduleRoot modules).perform store =
      (.ok (.patched (push moduleRoot settings.manifestName) [] (partition members modules).2),
        store) := by
  rw [perform_patch_of_read read, parsed]
  exact if_pos nothing

theorem exists_perform_patch_of_incomplete (wellFormed : store.WellFormed)
    (read : store.read (push moduleRoot settings.manifestName) = .ok text)
    (parsed : ofText? text = some (.object members))
    (something : (partition members modules).1 ≠ []) :
    ∃ after, (patch settings moduleRoot modules).perform store =
        (.ok (.patched (push moduleRoot settings.manifestName) (partition members modules).1
          (partition members modules).2), after) ∧
      after.read (push moduleRoot settings.manifestName) = .ok ((JsonValue.object
        (addReferences members (partition members modules).1)).pretty ++ "\n") ∧
      ∀ other, other ≠ locate (store.start (push moduleRoot settings.manifestName))
          (parts (push moduleRoot settings.manifestName)) →
        after.tree.fileAt? other = store.tree.fileAt? other := by
  obtain ⟨after, written⟩ := FileStore.exists_write_of_read read ((JsonValue.object
    (addReferences members (partition members modules).1)).pretty ++ "\n").toUTF8
  refine ⟨after, ?_, FileStore.read_of_write wellFormed written, fun other elsewhere => ?_⟩
  · rw [perform_patch_of_read read, parsed]
    dsimp only
    rw [if_neg something, written]
  · rw [(FileStore.writes_of_write wellFormed written).fileAt?]
    exact FileStore.contentAfter_of_forall_ne (by simpa using Ne.symm elsewhere)

/-- What a patch that succeeds has done. -/
theorem patch_cases {outcome : PatchOutcome}
    (performed : (patch settings moduleRoot modules).perform store = (.ok outcome, after)) :
    (store.isFile (push moduleRoot settings.manifestName) = false ∧
      outcome = .missing (push moduleRoot settings.manifestName) ∧ after = store) ∨
    ∃ text members, store.read (push moduleRoot settings.manifestName) = .ok text ∧
      ofText? text = some (.object members) ∧
      outcome = .patched (push moduleRoot settings.manifestName) (partition members modules).1
        (partition members modules).2 ∧
      ((partition members modules).1 = [] ∧ after = store ∨
        (partition members modules).1 ≠ [] ∧
          store.write (push moduleRoot settings.manifestName) ((JsonValue.object
            (addReferences members (partition members modules).1)).pretty ++ "\n").toUTF8 =
          .ok after) := by
  cases there : store.isFile (push moduleRoot settings.manifestName) with
  | false =>
      rw [perform_patch_of_missing there] at performed
      cases performed
      exact .inl ⟨rfl, rfl, rfl⟩
  | true =>
      refine .inr ?_
      cases read : store.read (push moduleRoot settings.manifestName) with
      | error cause =>
          rw [perform_patch_of_unreadable there read] at performed
          cases performed
      | ok text =>
          rw [perform_patch_of_read read] at performed
          split at performed
          · cases performed
          · next members parsed =>
              refine ⟨text, members, rfl, parsed, ?_⟩
              split at performed
              · next nothing =>
                  cases performed
                  exact ⟨by rw [nothing], .inl ⟨nothing, rfl⟩⟩
              · next something =>
                  split at performed
                  · next written =>
                      cases performed
                      exact ⟨rfl, .inr ⟨something, written⟩⟩
                  · cases performed
          · cases performed

/-- A manifest that was patched names the modules that are reported as added. -/
theorem exists_members_of_patched (wellFormed : store.WellFormed) {path : String}
    {added kept : List String}
    (performed : (patch settings moduleRoot modules).perform store =
      (.ok (.patched path added kept), after)) (something : added ≠ []) :
    path = push moduleRoot settings.manifestName ∧
      ∃ members, after.read path = .ok ((JsonValue.object members).pretty ++ "\n") ∧
        ∀ module ∈ added, module ∈ modules ∧
          member? module (dependencies members) = some (.text (StubPackage.reference module)) := by
  rcases patch_cases performed with ⟨-, missing, -⟩ | ⟨text, members, -, -, reported, done⟩
  · cases missing
  · cases reported
    rcases done with ⟨nothing, -⟩ | ⟨-, written⟩
    · exact absurd nothing something
    · exact ⟨rfl, _, FileStore.read_of_write wellFormed written, fun module listed =>
        ⟨(mem_added_iff.1 listed).1, member?_addReferences listed⟩⟩

theorem builds_of_patch {outcome : PatchOutcome} {allowed : List String → Prop}
    (wellFormed : store.WellFormed)
    (performed : (patch settings moduleRoot modules).perform store = (.ok outcome, after)) :
    store.Builds allowed after := by
  rcases patch_cases performed with ⟨-, -, rfl⟩ | ⟨_, _, -, -, -, ⟨-, rfl⟩ | ⟨-, written⟩⟩
  · exact .refl after
  · exact .refl after
  · exact FileStore.builds_of_write wellFormed written

/-- After a patch the manifest names every module, provided that what was written can be read. -/
theorem exists_complete_of_patched (wellFormed : store.WellFormed) (distinct : modules.Nodup)
    (read : store.read path = .ok text) (parsed : ofText? text = some (.object members))
    (done : (partition members modules).1 = [] ∧ after = store ∨
      (partition members modules).1 ≠ [] ∧
        store.write path ((JsonValue.object
          (addReferences members (partition members modules).1)).pretty ++ "\n").toUTF8 =
        .ok after)
    (readable : (partition members modules).1 = [] ∨
      (JsonValue.object (addReferences members (partition members modules).1)).Quotable) :
    ∃ newText newMembers, after.read path = .ok newText ∧
      ofText? newText = some (.object newMembers) ∧
      partition newMembers modules = ([], modules) := by
  rcases done with ⟨nothing, rfl⟩ | ⟨something, written⟩
  · exact ⟨text, members, read, parsed, partition_of_nothing_missing nothing⟩
  · exact ⟨_, _, FileStore.read_of_write wellFormed written,
      ofText?_pretty (readable.resolve_left something)
        (regular_written (regular_of_ofText? parsed) distinct),
      partition_addReferences members modules⟩

/-- Patching adds a reference for every module that is not among the dependencies, behind the
dependencies, and changes nothing else.  A manifest that is missing, that cannot be read or that is
no object is left alone. -/
theorem patching_adds_exactly_the_missing_modules (wellFormed : store.WellFormed)
    (ascending : modules.Pairwise (· < ·))
    (isPath : path = push moduleRoot settings.manifestName) :
    (∀ text members, store.read path = .ok text → ofText? text = some (.object members) →
      (∀ value, member? dependenciesKey members = some value →
        ∃ entries, value = .object entries) →
      (JsonValue.object members).Quotable → (∀ module ∈ modules, PlainText module) →
      ∃ added kept after,
        (patch settings moduleRoot modules).perform store =
          (.ok (.patched path added kept), after) ∧
        Parted modules (dependencies members) added kept ∧
        (added = [] → after = store) ∧
        (added ≠ [] → ∃ newText patched, after.read path = .ok newText ∧
          ofText? newText = some (.object patched) ∧ Extends added members patched ∧
          ∀ other, other ≠ locate (store.start path) (parts path) →
            after.tree.fileAt? other = store.tree.fileAt? other)) ∧
    (store.isFile path = false →
      (patch settings moduleRoot modules).perform store = (.ok (.missing path), store)) ∧
    (∀ cause, store.isFile path = true → store.read path = .error cause →
      (patch settings moduleRoot modules).perform store =
        (.error (.unreadable path cause), store)) ∧
    (∀ text, store.read path = .ok text → ofText? text = none →
      (patch settings moduleRoot modules).perform store =
        (.error (.manifestSyntax path), store)) ∧
    ∀ text value, store.read path = .ok text → ofText? text = some value →
      (∀ members, value ≠ .object members) →
      (patch settings moduleRoot modules).perform store =
        (.error (.manifestNotObject path), store) := by
  subst isPath
  refine ⟨fun text members read parsed object quotable plain => ?_, perform_patch_of_missing,
    fun cause => perform_patch_of_unreadable, fun text read syntaxError => ?_,
    fun text value read parsed other => ?_⟩
  · have parted : Parted modules (dependencies members) _ _ := parted_partition ascending
    by_cases nothing : (partition members modules).1 = []
    · rw [nothing] at parted
      exact ⟨_, _, _, perform_patch_of_complete read parsed nothing, parted, fun _ => rfl,
        fun something => absurd rfl something⟩
    · obtain ⟨after, performed, readAgain, others⟩ :=
        exists_perform_patch_of_incomplete wellFormed read parsed nothing
      have regular := regular_written (regular_of_ofText? parsed) (ascending.imp String.ne_of_lt)
      exact ⟨_, _, _, performed, parted, fun none => absurd none nothing, fun _ =>
        ⟨_, _, readAgain, ofText?_pretty (quotable_written quotable plain) regular,
          extends_addReferences _ object, others⟩⟩
  · rw [perform_patch_of_read read, syntaxError]
  · rw [perform_patch_of_read read, parsed]
    cases value with
    | object members => exact absurd rfl (other members)
    | _ => rfl

def sizedMembers : List (String × JsonValue) :=
  [("license", .text "MIT"), ("size", .double ⟨false, 0x10000000000000, -53⟩),
    ("dependencies", .object [("lodash", .text "1.0.0")])]

theorem quotable_sizedMembers : (JsonValue.object sizedMembers).Quotable := by
  refine .object (by decide) ?_
  simp only [sizedMembers, List.forall_mem_cons]
  exact ⟨.text (by decide), .double _, .object (by decide) (by simpa using .text (by decide)),
    by simp⟩

theorem regular_sizedMembers : (JsonValue.object sizedMembers).Regular := by
  refine .object (by decide +kernel) ?_
  simp only [sizedMembers, List.forall_mem_cons]
  exact ⟨.text _, .double ⟨by decide, by decide, by decide, .inr (by decide)⟩,
    .object (by decide) (by simp [JsonValue.Regular.text]), by simp⟩

def sizedModule : FileStore :=
  .ofTexts [(["entry", "oh-package.json5"], (JsonValue.object sizedMembers).pretty ++ "\n")]

theorem read_sizedModule : sizedModule.read "/entry/oh-package.json5" =
    .ok ((JsonValue.object sizedMembers).pretty ++ "\n") := by
  decide +kernel

theorem exists_perform_patch_sizedModule : ∃ after,
    (patch {} "/entry" ["lib", "lodash"]).perform sizedModule =
      (.ok (.patched "/entry/oh-package.json5" ["lib"] ["lodash"]), after) := by
  have shown : ((patch {} "/entry" ["lib", "lodash"]).perform sizedModule).1 =
      .ok (.patched "/entry/oh-package.json5" ["lib"] ["lodash"]) := by
    decide +kernel
  generalize (patch {} "/entry" ["lib", "lodash"]).perform sizedModule = outcome at shown ⊢
  exact ⟨outcome.2, Prod.ext shown rfl⟩

theorem lib_is_added_behind_lodash :
    ∃ after newText patched,
      (patch {} "/entry" ["lib", "lodash"]).perform sizedModule =
        (.ok (.patched "/entry/oh-package.json5" ["lib"] ["lodash"]), after) ∧
      after.read "/entry/oh-package.json5" = .ok newText ∧
      ofText? newText = some (.object patched) ∧ Extends ["lib"] sizedMembers patched := by
  obtain ⟨final, shown⟩ := exists_perform_patch_sizedModule
  obtain ⟨added, kept, after, performed, -, -, written⟩ :=
    (patching_adds_exactly_the_missing_modules (show sizedModule.WellFormed from
      FileStore.wellFormed_ofTexts _) (show ["lib", "lodash"].Pairwise (· < ·) by decide +kernel)
      (show "/entry/oh-package.json5" = push "/entry" ({} : StubSettings).manifestName by
        decide +kernel)).1 _ sizedMembers read_sizedModule
      (ofText?_pretty quotable_sizedMembers regular_sizedMembers)
      (fun value found => ⟨_, (Option.some.inj found).symm⟩) quotable_sizedMembers (by decide)
  rw [performed] at shown
  cases shown
  obtain ⟨newText, patched, readAgain, parsed, extended, -⟩ := written (by decide)
  exact ⟨final, newText, patched, performed, readAgain, parsed, extended⟩

/-- A manifest that was patched is patched again with nothing to add and stays as it is, unless the
first time a text with a separator of lines or paragraphs was written into it: then it cannot be
read any more. -/
theorem patching_again_adds_nothing_unless_a_separator_was_written (wellFormed : store.WellFormed)
    (ascending : modules.Pairwise (· < ·))
    (patched : (patch settings moduleRoot modules).perform store =
      (.ok (.patched path added kept), after)) :
    ∃ text members, store.read path = .ok text ∧ ofText? text = some (.object members) ∧
      (added = [] ∨ (JsonValue.object (addReferences members added)).Quotable →
        (patch settings moduleRoot modules).perform after =
          (.ok (.patched path [] modules), after)) ∧
      (added ≠ [] → ¬ (JsonValue.object (addReferences members added)).Quotable →
        (patch settings moduleRoot modules).perform after =
          (.error (.manifestSyntax path), after)) ∧
      ((JsonValue.object members).Quotable → (∀ module ∈ modules, PlainText module) →
        (JsonValue.object (addReferences members added)).Quotable) := by
  have distinct : modules.Nodup := ascending.imp String.ne_of_lt
  rcases patch_cases patched with ⟨-, missing, -⟩ | ⟨text, members, read, parsed, same, done⟩
  · cases missing
  obtain ⟨rfl, rfl, rfl⟩ := PatchOutcome.patched.inj same
  refine ⟨text, members, read, parsed, fun readable => ?_, fun something separated => ?_,
    quotable_written⟩
  · obtain ⟨newText, newMembers, readAgain, parsedAgain, complete⟩ :=
      exists_complete_of_patched wellFormed distinct read parsed done readable
    rw [perform_patch_of_complete readAgain parsedAgain (congrArg Prod.fst complete), complete]
  · obtain ⟨-, written⟩ := done.resolve_left fun nothing => something nothing.1
    rw [perform_patch_of_read (FileStore.read_of_write wellFormed written),
      ofText?_pretty_eq_none (regular_written (regular_of_ofText? parsed) distinct) separated]

theorem sized_manifest_is_patched_again :
    ∃ after, (patch {} "/entry" ["lib", "lodash"]).perform sizedModule =
        (.ok (.patched "/entry/oh-package.json5" ["lib"] ["lodash"]), after) ∧
      (patch {} "/entry" ["lib", "lodash"]).perform after =
        (.ok (.patched "/entry/oh-package.json5" [] ["lib", "lodash"]), after) := by
  obtain ⟨after, performed⟩ := exists_perform_patch_sizedModule
  obtain ⟨text, members, read, parsed, again, -, quotable⟩ :=
    patching_again_adds_nothing_unless_a_separator_was_written (show sizedModule.WellFormed from
      FileStore.wellFormed_ofTexts _) (by decide +kernel) performed
  have same : (JsonValue.object sizedMembers).pretty ++ "\n" = text :=
    Except.ok.inj (read_sizedModule.symm.trans read)
  rw [← same, ofText?_pretty quotable_sizedMembers regular_sizedMembers] at parsed
  obtain rfl : sizedMembers = members := JsonValue.object.inj (Option.some.inj parsed)
  exact ⟨after, performed, again (.inr (quotable quotable_sizedMembers (by decide)))⟩

/-- A module whose manifest holds a line separator, written as an escape. -/
def separatedModule : FileStore :=
  .ofTexts [(["entry", "oh-package.json5"], "\x7b\"note\": \"\\u2028\"\x7d")]

theorem separated_manifest_cannot_be_patched_again :
    separatedModule.WellFormed ∧
    ((patch {} "/entry" ["lib"]).perform separatedModule).1 =
      .ok (.patched "/entry/oh-package.json5" ["lib"] []) ∧
    ((patch {} "/entry" ["lib"]).perform
        ((patch {} "/entry" ["lib"]).perform separatedModule).2).1 =
      .error (.manifestSyntax "/entry/oh-package.json5") :=
  ⟨FileStore.wellFormed_ofTexts _, by decide +kernel⟩

end Perform

end AmbientStubs.Manifest
