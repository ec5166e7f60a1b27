import AmbientStubs.StubPackage
import AmbientStubs.Proofs.FileAction

/-!
The files of stubs.  A stub is two files at the place that its module path leads to, and the stubs
of packages are written one after the other.
-/

namespace AmbientStubs

open PathText

namespace StubPackage

def place (project : List String) (modulePath : String) : List String :=
  locate project (parts modulePath)

def files (settings : StubSettings) (project : List String) (package : Package) :
    List (List String × ByteArray) :=
  [(place project package.modulePath ++ [declarationFileName], package.declarationText.toUTF8),
   (place project package.modulePath ++ [settings.manifestName],
    ((manifest settings package).pretty ++ "\n").toUTF8)]

theorem eq_place_of_mem_files {settings : StubSettings} {project : List String} {package : Package}
    {write : List String × ByteArray} (listed : write ∈ files settings project package) :
    write.1 = place project package.modulePath ++ [declarationFileName] ∨
      write.1 = place project package.modulePath ++ [settings.manifestName] := by
  rw [files, List.mem_cons, List.mem_singleton] at listed
  exact listed.imp (congrArg Prod.fst) (congrArg Prod.fst)

theorem parts_directory (projectRoot modulePath : String) :
    parts (directory projectRoot modulePath) = parts projectRoot ++ parts modulePath :=
  parts_foldl_push projectRoot fun _ => mem_parts

theorem isAbsolute_directory {projectRoot : String} (absolute : isAbsolute projectRoot = true)
    (modulePath : String) : isAbsolute (directory projectRoot modulePath) = true :=
  isAbsolute_foldl_push absolute fun _ inside => (mem_parts inside).2

variable {settings : StubSettings} {project : List String}

/-- The directory of a stub leads to its place. -/
theorem locate_directory (names : ∀ name ∈ project, IsName name) (modulePath : String) :
    locate [] (parts (directory (ofLocation project) modulePath)) = place project modulePath := by
  rw [parts_directory, parts_ofLocation names, locate_append, locate_names names, List.nil_append]
  rfl

theorem locate_push_directory (names : ∀ name ∈ project, IsName name) (modulePath : String)
    {name : String} (proper : IsName name) :
    locate [] (parts (push (directory (ofLocation project) modulePath) name)) =
      place project modulePath ++ [name] := by
  rw [parts_push proper.1 proper.2.2.2, locate_append, locate_directory names, locate_cons,
    follow_name proper, locate_nil]

theorem isName_declarationFileName : IsName declarationFileName := by
  decide

theorem outputs_write (names : ∀ name ∈ project, IsName name)
    (manifestName : IsName settings.manifestName) (package : Package) :
    FileAction.Outputs (write settings (ofLocation project) package)
      (files settings project package) (directory (ofLocation project) package.modulePath) := by
  have absolute {name : String} (proper : IsName name) :
      isAbsolute (push (directory (ofLocation project) package.modulePath) name) = true :=
    isAbsolute_push (isAbsolute_directory (isAbsolute_ofLocation project) _) proper.2.2.2
  have declarations := FileAction.outputs_write (absolute isName_declarationFileName)
    package.declarationText
  have manifestText := FileAction.outputs_write (absolute manifestName)
    ((manifest settings package).pretty ++ "\n")
  rw [locate_push_directory names _ isName_declarationFileName] at declarations
  rw [locate_push_directory names _ manifestName] at manifestText
  exact (FileAction.outputs_makeDirectories _).bind
    (declarations.bind (manifestText.bind (FileAction.outputs_pure _)))

theorem outputs_writeAll (names : ∀ name ∈ project, IsName name)
    (manifestName : IsName settings.manifestName) (packages : List Package) :
    FileAction.Outputs (writeAll settings (ofLocation project) packages)
      (packages.flatMap (files settings project))
      (packages.map fun package => directory (ofLocation project) package.modulePath) := by
  induction packages with
  | nil => exact FileAction.outputs_pure []
  | cons package rest inductionHypothesis =>
      have others : FileAction.Outputs
          (writeAll settings (ofLocation project) rest >>= fun found =>
            pure (directory (ofLocation project) package.modulePath :: found))
          (rest.flatMap (files settings project) ++ []) _ :=
        inductionHypothesis.bind (FileAction.outputs_pure _)
      rw [List.append_nil] at others
      rw [writeAll, List.mapM_cons, List.flatMap_cons]
      exact (outputs_write names manifestName package).bind others

end StubPackage

end AmbientStubs
