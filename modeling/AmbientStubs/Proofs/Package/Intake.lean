import AmbientStubs.Proofs.Access.WellFormed
import AmbientStubs.Proofs.Package.Attribution

/-!
No access of a source text is dropped on its way into the packages.  The collection has several
ways to pass an access over; a well-formed access takes one of them only if the import that
answers to its base is that of a local file.
-/

namespace AmbientStubs.Package

open Text Convention

/-- A package shows an access through the import of its base: it has the method of a static call
and the class that owns it, the symbol of the last member of any other access, and all else that
the access calls for. -/
structure Shows (package : Package) (imported : Import) (access : Access) : Prop where
  staticCall : ∀ className, access.className = some className →
    ⟨access.member, className, true⟩ ∈ package.methods.map Method.identity ∧
      package.hasTopLevel className = true
  member : access.className = none → ∃ way,
    access.segments = access.base :: (way ++ [access.member]) ∧
      package.Knows
        ⟨access.member, memberKind access.context, some (dotted (imported.rootName :: way))⟩
  symbols : ∀ identity, CallsForSymbol access (usePath imported access) identity →
    package.Knows identity
  methods : ∀ identity, CallsForMethod access (usePath imported access) identity →
    identity ∈ package.methods.map Method.identity

section WellFormed

variable {reserved : List String} {imports : List Import} {access : Access}
  (wellFormed : access.WellFormed reserved imports)

include wellFormed

theorem staticOwner?_of_wellFormed {className : String}
    (named : access.className = some className) : staticOwner? access = some className := by
  obtain ⟨between, segments, -⟩ := wellFormed.owner className named
  have isStatic : access.context = .staticCall :=
    wellFormed.className_iff.mp (by rw [named, Option.isSome_some])
  rw [staticOwner?, if_pos ⟨isStatic, by simp [membersOf, segments]⟩, named]

/-- A well-formed access calls for something, so that a package which has all that it calls for
shows it. -/
theorem Shows.of_wellFormed {package : Package} {imported : Import}
    (symbols : ∀ identity, CallsForSymbol access (usePath imported access) identity →
      package.Knows identity)
    (methods : ∀ identity, CallsForMethod access (usePath imported access) identity →
      identity ∈ package.methods.map Method.identity)
    (owner : ∀ owner, staticOwner? access = some owner → package.hasTopLevel owner = true) :
    package.Shows imported access where
  staticCall := by
    intro className named
    obtain ⟨between, segments, -⟩ := wellFormed.owner className named
    have isStatic : access.isStaticCall = true := by
      have context := wellFormed.className_iff.mp (by rw [named, Option.isSome_some])
      simp [Access.isStaticCall, context, named]
    refine ⟨methods _ (.ofClass isStatic ?_ named), owner className ?_⟩
    · simp [usePath, membersOf, segments]
    · exact staticOwner?_of_wellFormed wellFormed named
  member := by
    intro unnamed
    have plain : access.isStaticCall = false := by simp [Access.isStaticCall, unnamed]
    obtain ⟨front, segments⟩ := List.getLast?_eq_some_iff.mp wellFormed.last
    have long := wellFormed.twoSegments
    have first := wellFormed.first
    rw [segments] at long first
    cases front with
    | nil => simp at long
    | cons base way =>
        obtain rfl : base = access.base := by simpa using first
        have path : usePath imported access =
            imported.rootName :: (way ++ [access.member]) := by
          simp [usePath, membersOf, segments]
        refine ⟨way, by simpa using segments, symbols _ ?_⟩
        have last := @CallsForSymbol.last access (imported.rootName :: (way ++ [access.member]))
          access.member plain (by simp) (by simp)
        rw [path]
        simpa using last
  symbols := symbols
  methods := methods

/-- Taking in a well-formed access shows it, whatever the package held before. -/
theorem shows_addAccess (settings : InferenceSettings) (package : Package) (imported : Import) :
    (package.addAccess settings imported access).Shows imported access := by
  refine .of_wellFormed wellFormed ?_ ?_ ?_
  · intro identity called
    have asked : package.Knows identity ∨
        identity ∈ ((Use.ofAccess imported access).symbols settings).map Symbol.identity :=
      .inr (mem_map_nestedSymbols.mpr called)
    exact knows_apply asked
  · intro identity called
    have applied := apply_eq settings package (.ofAccess imported access)
    rw [Use.apply] at applied
    rw [applied, mem_map_appendAllNew]
    exact .inr (mem_map_observedMethod?.mpr called)
  · intro owner static
    exact (hasTopLevel_apply settings package (.ofAccess imported access)).mpr
      (.inr (by simp [Use.topLevelNames, static]))

end WellFormed

section Passage

variable (settings : InferenceSettings) (earlier later : List SourceSummary)
  (file : SourceSummary) (before : List Access)

/-- The collection when an access of a file is reached: it has taken in the files before, the
imports of the file and the accesses before. -/
def reached : Collection :=
  before.foldl (Collection.addAccess settings file.imports)
    (file.imports.foldl (Collection.addImport settings) (collect settings earlier))

theorem ready_reached : Collection.Ready file.imports (reached settings earlier file before) := by
  have collected := ready_collect settings earlier
  exact (collected.foldl_addImport settings file.imports).foldl_addAccess settings before

variable {settings earlier later file before}

/-- The run goes through the collection at which an access is reached. -/
theorem collect_eq_of_reached {access : Access} {after : List Access}
    (accesses : file.accesses = before ++ access :: after) :
    collect settings (earlier ++ file :: later) =
      later.foldl (Collection.addSummary settings)
        (after.foldl (Collection.addAccess settings file.imports)
          (Collection.addAccess settings file.imports
            (reached settings earlier file before) access)) := by
  rw [collect, List.foldl_append, List.foldl_cons, Collection.addSummary, accesses,
    List.foldl_append, List.foldl_cons]
  rfl

variable (settings earlier before) in
theorem addAccess_of_external {access : Access} {imported : Import}
    (bound : file.binding? access.base = some imported) (external : imported.isExternal = true) :
    ∃ package, (reached settings earlier file before).get? imported.modulePath = some package ∧
      Collection.addAccess settings file.imports (reached settings earlier file before) access =
        (reached settings earlier file before).insert imported.modulePath
          (package.addAccess settings imported access) := by
  have present := (ready_reached settings earlier file before).present imported
    (mem_of_binding? bound) external
  obtain ⟨package, found⟩ := Option.isSome_iff_exists.mp present
  rw [SourceSummary.binding?] at bound
  exact ⟨package, found, by simp only [Collection.addAccess, bound, found]⟩

theorem addAccess_of_local {access : Access} {imported : Import}
    (bound : file.binding? access.base = some imported) (isLocal : imported.isExternal = false) :
    Collection.addAccess settings file.imports (reached settings earlier file before) access =
      reached settings earlier file before := by
  have absent : (reached settings earlier file before).get? imported.modulePath = none := by
    rw [Option.eq_none_iff_forall_ne_some]
    intro package found
    have external := (ready_reached settings earlier file before).external _ _ found
    simp [Import.isExternal, external] at isLocal
  rw [SourceSummary.binding?] at bound
  simp only [Collection.addAccess, bound, absent]

end Passage

/-- Every access of a source text is well formed, and none is dropped when the text is collected
with any other files.  An import of the file answers to its base; if the first such import is
that of a package, then the package is there when the access is reached, takes it in and shows
it, and shows it still when all files are collected; and only if the first such import is that of
a local file does the collection stay as it is. -/
theorem accesses_of_a_source_text_are_never_dropped (reserved : List String)
    (path content : String) (file : SourceSummary)
    (parsed : file = SourceSummary.ofText reserved path content) :
    (∀ access ∈ file.accesses, access.WellFormed reserved file.imports) ∧
    ∀ (settings : InferenceSettings) (earlier later : List SourceSummary)
      (before after : List Access) (access : Access),
      file.accesses = before ++ access :: after →
      collect settings (earlier ++ file :: later) =
        later.foldl (Collection.addSummary settings)
          (after.foldl (Collection.addAccess settings file.imports)
            (Collection.addAccess settings file.imports
              (reached settings earlier file before) access)) ∧
      ∃ imported, file.binding? access.base = some imported ∧
        (imported.isExternal = true →
          (∃ package,
            (reached settings earlier file before).get? imported.modulePath = some package ∧
            Collection.addAccess settings file.imports (reached settings earlier file before)
                access =
              (reached settings earlier file before).insert imported.modulePath
                (package.addAccess settings imported access) ∧
            (package.addAccess settings imported access).Shows imported access) ∧
          ∃ package, (collect settings (earlier ++ file :: later)).get? imported.modulePath =
            some package ∧ package.Shows imported access) ∧
        (imported.isExternal = false →
          Collection.addAccess settings file.imports (reached settings earlier file before)
            access = reached settings earlier file before) := by
  have wellFormed : ∀ access ∈ file.accesses, access.WellFormed reserved file.imports := by
    rw [parsed]
    exact fun access => SourceSummary.wellFormed_of_mem_ofText
  refine ⟨wellFormed, ?_⟩
  intro settings earlier later before after access accesses
  have ofFile := wellFormed access (by simp [accesses])
  obtain ⟨imported, bound⟩ := ofFile.exists_binding?
  refine ⟨collect_eq_of_reached accesses, imported, bound, ?_, addAccess_of_local bound⟩
  intro external
  obtain ⟨package, found, step⟩ :=
    addAccess_of_external settings earlier before bound external
  refine ⟨⟨package, found, step, shows_addAccess ofFile settings package imported⟩, ?_⟩
  have attributed :
      IsAttributedTo settings earlier later file (before ++ after) access imported :=
    isAttributedTo_of_binding? accesses bound
  obtain ⟨package, found, symbols, methods, owner⟩ := attributed.taken external
  exact ⟨package, found, .of_wellFormed ofFile symbols methods owner⟩

def boxAndLogText : String :=
  "import * as Lib from 'm';\nimport \x7b Log \x7d from './log';\nLib.tools.Box.open();\nLog.add();"

theorem box_call_is_shown_and_log_call_is_local :
    (∃ package, (collect {} [SourceSummary.ofText ["enc"] "a.ets" boxAndLogText]).get? "m" =
        some package ∧
      package.Shows (.wholeModule "m" "Lib" false)
        ⟨"Lib", "Lib.tools.Box.open", "open", .staticCall, some "Box"⟩) ∧
    Collection.addAccess {} (SourceSummary.ofText ["enc"] "a.ets" boxAndLogText).imports
        (reached {} [] (SourceSummary.ofText ["enc"] "a.ets" boxAndLogText)
          [⟨"Lib", "Lib.tools.Box.open", "open", .staticCall, some "Box"⟩])
        ⟨"Log", "Log.add", "add", .methodCall, none⟩ =
      reached {} [] (SourceSummary.ofText ["enc"] "a.ets" boxAndLogText)
        [⟨"Lib", "Lib.tools.Box.open", "open", .staticCall, some "Box"⟩] := by
  have accesses : (SourceSummary.ofText ["enc"] "a.ets" boxAndLogText).accesses =
      [⟨"Lib", "Lib.tools.Box.open", "open", .staticCall, some "Box"⟩,
        ⟨"Log", "Log.add", "add", .methodCall, none⟩] := by
    decide +kernel
  have fromPackage : (SourceSummary.ofText ["enc"] "a.ets" boxAndLogText).binding? "Lib" =
      some (.wholeModule "m" "Lib" false) := by
    decide +kernel
  have fromFile : (SourceSummary.ofText ["enc"] "a.ets" boxAndLogText).binding? "Log" =
      some (.named "./log" "Log" none false) := by
    decide +kernel
  obtain ⟨-, taken⟩ := accesses_of_a_source_text_are_never_dropped ["enc"] "a.ets"
    boxAndLogText _ rfl
  obtain ⟨-, kit, isKit, shown, -⟩ := taken {} [] [] [] [_] _ accesses
  obtain ⟨-, log, isLog, -, passed⟩ := taken {} [] [] [_] [] _ accesses
  obtain rfl := Option.some.inj (isKit.symm.trans fromPackage)
  obtain rfl := Option.some.inj (isLog.symm.trans fromFile)
  exact ⟨(shown (by decide)).2, passed (by decide)⟩

end AmbientStubs.Package
