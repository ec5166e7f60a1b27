import AmbientStubs.Proofs.FileStore.Growth
import AmbientStubs.Proofs.StubPackage

/-!
Writing stubs again.  Nothing that is written or made stands in the way of writing or making it once
more, so an action composed of such steps succeeds again in whatever has become of the store.
-/

namespace AmbientStubs

open PathText

namespace FileAction

variable {First Second : Type}

/-- An action that makes directories at the given locations only, and that after a success succeeds
with the same result in every store that has grown since. -/
structure Repeatable (allowed : List String → Prop) (action : FileAction First) : Prop where
  builds : ∀ {store : FileStore}, store.WellFormed →
    store.Builds allowed (action.perform store).2
  again : ∀ {store between after : FileStore} {value : First}, store.WellFormed →
    action.perform store = (.ok value, between) → between.Grows after → after.WellFormed →
    ∃ final, action.perform after = (.ok value, final)

variable {allowed : List String → Prop}

theorem repeatable_pure (result : First) : Repeatable allowed (pure result) := by
  refine ⟨fun {store} _ => .refl store, fun {_ _ after _} _ performed _ _ => ⟨after, ?_⟩⟩
  cases performed
  rfl

theorem Repeatable.bind {action : FileAction First} {next : First → FileAction Second}
    (first : Repeatable allowed action) (second : ∀ value, Repeatable allowed (next value)) :
    Repeatable allowed (action >>= next) := by
  constructor
  · intro store wellFormed
    have begun := first.builds wellFormed
    rw [perform_bind]
    cases performed : action.perform store with
    | mk outcome between =>
        rw [performed] at begun
        cases outcome with
        | error cause => exact begun
        | ok value => exact begun.trans ((second value).builds (begun.wellFormed wellFormed))
  · intro store between after result wellFormed performed grows wellFormedAfter
    rw [perform_bind] at performed
    split at performed
    · next value begun once =>
        have built := first.builds wellFormed
        rw [once] at built
        have wellFormedBegun := built.wellFormed wellFormed
        have builtMore := (second value).builds wellFormedBegun
        rw [performed] at builtMore
        obtain ⟨middle, twice⟩ := first.again wellFormed once (builtMore.grows.trans grows)
          wellFormedAfter
        have rebuilt := first.builds wellFormedAfter
        rw [twice] at rebuilt
        obtain ⟨final, finished⟩ := (second value).again wellFormedBegun performed
          (grows.trans rebuilt.grows) (rebuilt.wellFormed wellFormedAfter)
        exact ⟨final, by rw [perform_bind, twice]; exact finished⟩
    · cases performed

theorem repeatable_write (path content : String) : Repeatable allowed (write path content) := by
  constructor
  · intro store wellFormed
    rw [perform_write]
    cases written : store.write path content.toUTF8 with
    | error cause => exact .refl store
    | ok after => exact FileStore.builds_of_write wellFormed written
  · intro store between after value wellFormed performed grows _
    rw [perform_write] at performed
    split at performed
    · next written =>
        cases performed
        obtain ⟨final, rewritten⟩ := FileStore.write_again wellFormed written grows content.toUTF8
        exact ⟨final, by rw [perform_write, rewritten]⟩
    · cases performed

theorem repeatable_makeDirectories {path : String} (absolute : isAbsolute path = true)
    (within : ∀ front, front <+: parts path → allowed (locate [] front)) :
    Repeatable allowed (makeDirectories path) := by
  constructor
  · intro store wellFormed
    rw [perform_makeDirectories]
    refine (FileStore.builds_makeDirectories wellFormed path).mono ?_
    rintro _ ⟨front, starts, rfl⟩
    rw [FileStore.start_of_isAbsolute absolute]
    exact within front starts
  · intro store between after value wellFormed performed grows _
    rw [perform_makeDirectories] at performed
    cases made : store.makeDirectories path with
    | mk outcome built =>
        rw [made] at performed
        cases outcome with
        | error cause => cases performed
        | ok done =>
            cases performed
            exact ⟨after, by
              rw [perform_makeDirectories, FileStore.makeDirectories_again wellFormed made grows]
              rfl⟩

end FileAction

namespace StubPackage

variable {settings : StubSettings} {project : List String} {allowed : List String → Prop}

theorem repeatable_write (names : ∀ name ∈ project, IsName name) {package : Package}
    (within : ∀ front, front <+: project ++ parts package.modulePath → allowed (locate [] front)) :
    FileAction.Repeatable allowed (write settings (ofLocation project) package) := by
  have directories : FileAction.Repeatable allowed
      (FileAction.makeDirectories (directory (ofLocation project) package.modulePath)) :=
    FileAction.repeatable_makeDirectories (isAbsolute_directory (isAbsolute_ofLocation project) _)
      (by rwa [parts_directory, parts_ofLocation names])
  exact directories.bind fun _ => (FileAction.repeatable_write _ _).bind fun _ =>
    (FileAction.repeatable_write _ _).bind fun _ => FileAction.repeatable_pure _

/-- Stubs that were written can be written again. -/
theorem repeatable_writeAll (names : ∀ name ∈ project, IsName name) {packages : List Package}
    (within : ∀ package ∈ packages, ∀ front, front <+: project ++ parts package.modulePath →
      allowed (locate [] front)) :
    FileAction.Repeatable allowed (writeAll settings (ofLocation project) packages) := by
  induction packages with
  | nil => exact FileAction.repeatable_pure []
  | cons package rest inductionHypothesis =>
      rw [List.forall_mem_cons] at within
      rw [writeAll, List.mapM_cons]
      exact (repeatable_write names within.1).bind fun _ =>
        FileAction.Repeatable.bind (inductionHypothesis within.2) fun _ =>
          FileAction.repeatable_pure _

end StubPackage

end AmbientStubs
