import AmbientStubs.Run.Error
import AmbientStubs.Proofs.FileStore

/-!
Actions on files by what they write.  An action that fails keeps what it has written so far, so an
action is described by the files it writes in order.
-/

namespace AmbientStubs

open PathText

namespace FileAction

variable {First Second : Type}

theorem perform_bind (action : FileAction First) (next : First → FileAction Second)
    (store : FileStore) :
    (action >>= next).perform store =
      match action.perform store with
      | (.ok value, after) => (next value).perform after
      | (.error cause, after) => (.error cause, after) := by
  unfold perform
  rw [ExceptT.run_bind, StateT.run_bind]
  cases StateT.run (ExceptT.run action) store with
  | mk outcome after => cases outcome <;> rfl

/-- An action that has succeeded has succeeded step by step. -/
theorem exists_of_perform_bind {action : FileAction First} {next : First → FileAction Second}
    {store after : FileStore} {result : Second}
    (performed : (action >>= next).perform store = (.ok result, after)) :
    ∃ value between, action.perform store = (.ok value, between) ∧
      (next value).perform between = (.ok result, after) := by
  rw [perform_bind] at performed
  split at performed
  · next value between first => exact ⟨value, between, first, performed⟩
  · cases performed

theorem perform_get_bind (next : FileStore → FileAction Second) (store : FileStore) :
    (get >>= next).perform store = (next store).perform store := rfl

theorem perform_map_snd (action : FileAction First) (value : First → Second) (store : FileStore) :
    ((action >>= fun found => pure (value found)).perform store).2 = (action.perform store).2 := by
  rw [perform_bind]
  cases action.perform store with
  | mk outcome after => cases outcome <;> rfl

theorem exists_perform_eq_ok {action : FileAction First} {store : FileStore}
    {view : First → Second} {viewed : Second}
    (shown : (action.perform store).1.toOption.map view = some viewed) :
    ∃ value after, action.perform store = (.ok value, after) ∧ view value = viewed := by
  cases performed : action.perform store with
  | mk outcome after =>
      rw [performed] at shown
      cases outcome with
      | error cause => cases shown
      | ok value => exact ⟨value, after, rfl, Option.some.inj shown⟩

theorem perform_read (path : String) (store : FileStore) :
    (read path).perform store = ((store.read path).mapError (.unreadable path), store) := by
  rw [read, perform_get_bind]
  cases store.read path <;> rfl

theorem perform_write (path content : String) (store : FileStore) :
    (write path content).perform store =
      match store.write path content.toUTF8 with
      | .ok after => (.ok (), after)
      | .error cause => (.error (.unwritable path cause), store) := by
  rw [write, perform_get_bind]
  cases store.write path content.toUTF8 <;> rfl

theorem perform_makeDirectories (path : String) (store : FileStore) :
    (makeDirectories path).perform store =
      ((store.makeDirectories path).1.mapError (.unwritable path),
        (store.makeDirectories path).2) := by
  rw [makeDirectories, perform_get_bind]
  cases store.makeDirectories path with
  | mk outcome after => cases outcome <;> rfl

/-- An action writes the given files one after the other and returns the given result; if it
fails, it has written the first of them. -/
def Outputs (action : FileAction First) (files : List (List String × ByteArray))
    (result : First) : Prop :=
  ∀ store : FileStore, store.WellFormed → ∃ written, written <+: files ∧
    store.Writes written (action.perform store).2 ∧
    ∀ found, (action.perform store).1 = .ok found → written = files ∧ found = result

theorem outputs_pure (result : First) : Outputs (pure result) [] result := by
  intro store wellFormed
  refine ⟨[], List.prefix_rfl, .refl wellFormed, ?_⟩
  rintro found same
  cases same
  exact ⟨rfl, rfl⟩

theorem Outputs.bind {action : FileAction First} {next : First → FileAction Second}
    {earlier later : List (List String × ByteArray)} {value : First} {result : Second}
    (first : Outputs action earlier value) (second : Outputs (next value) later result) :
    Outputs (action >>= next) (earlier ++ later) result := by
  intro store wellFormed
  obtain ⟨written, begun, changed, finished⟩ := first store wellFormed
  rw [perform_bind]
  cases performed : action.perform store with
  | mk outcome between =>
      rw [performed] at changed finished
      cases outcome with
      | error cause =>
          exact ⟨written, begun.trans (List.prefix_append earlier later), changed, nofun⟩
      | ok found =>
          obtain ⟨rfl, rfl⟩ := finished found rfl
          obtain ⟨more, begunMore, changedMore, finishedMore⟩ := second between changed.wellFormed
          refine ⟨written ++ more, (List.prefix_append_right_inj written).2 begunMore,
            changed.trans changedMore, fun final same => ?_⟩
          obtain ⟨rfl, rfl⟩ := finishedMore final same
          exact ⟨rfl, rfl⟩

theorem outputs_write {path : String} (absolute : isAbsolute path = true) (content : String) :
    Outputs (write path content) [(locate [] (parts path), content.toUTF8)] () := by
  intro store wellFormed
  rw [perform_write]
  cases written : store.write path content.toUTF8 with
  | error cause => exact ⟨[], List.nil_prefix, .refl wellFormed, nofun⟩
  | ok after =>
      have changed := FileStore.writes_of_write wellFormed written
      rw [FileStore.start_of_isAbsolute absolute] at changed
      exact ⟨_, List.prefix_rfl, changed, fun _ _ => ⟨rfl, rfl⟩⟩

theorem outputs_makeDirectories (path : String) : Outputs (makeDirectories path) [] () := by
  intro store wellFormed
  rw [perform_makeDirectories]
  exact ⟨[], List.prefix_rfl, FileStore.writes_makeDirectories wellFormed path,
    fun _ _ => ⟨rfl, rfl⟩⟩

end FileAction

end AmbientStubs
