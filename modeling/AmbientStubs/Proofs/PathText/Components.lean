import AmbientStubs.Proofs.PathText

/-!
The components of paths.  A relative path put behind another one adds its parts without the dots,
so below one path files have the same components only if they have the same names.
-/

namespace AmbientStubs.PathText

open Text

section Components

variable {path part : String}

theorem parts_push_of_relative (path : String) (relative : isAbsolute part = false) :
    parts (push path part) = parts path ++ parts part := by
  rw [push, if_neg (by simp [relative])]
  split
  · next ending =>
      rw [Bool.or_eq_true, String.isEmpty_iff, endsWith_slash_iff] at ending
      rcases ending with rfl | ⟨base, rfl⟩
      · rw [String.empty_append]
        rfl
      · have inner := parts_append_slash base ""
        rw [String.append_empty] at inner
        rw [parts_append_slash, inner]
        simp [show parts "" = [] from rfl]
  · exact parts_append_slash path part

theorem isAbsolute_push_of_relative (nonempty : path ≠ "") (relative : isAbsolute part = false) :
    isAbsolute (push path part) = isAbsolute path := by
  obtain ⟨first, more, shape⟩ := exists_toList_eq_cons nonempty
  rw [push, if_neg (by simp [relative]), Bool.eq_iff_iff, isAbsolute_iff, isAbsolute_iff]
  split <;> simp [shape]

theorem parts_ne_nil (nonempty : path ≠ "") (relative : isAbsolute path = false) :
    parts path ≠ [] := by
  obtain ⟨first, more, shape⟩ := exists_toList_eq_cons nonempty
  have noSlash : first ≠ '/' := by
    rintro rfl
    rw [isAbsolute_iff.2 ⟨more, shape⟩] at relative
    cases relative
  obtain ⟨piece, others, split⟩ := List.exists_cons_of_ne_nil (pieces_ne_nil '/' more)
  have raw : rawParts path = String.ofList (first :: piece) :: others.map String.ofList := by
    rw [rawParts, splitText, shape, pieces, if_neg noSlash, split]
    rfl
  rw [parts, raw, List.filter_cons_of_pos (by simp)]
  exact List.cons_ne_nil _ _

/-- What a relative path adds to the components of another one. -/
theorem components_push (nonempty : path ≠ "") (relative : isAbsolute part = false) :
    components (push path part) =
      ((components path).1, (components path).2 ++ (parts part).filter (· ≠ ".")) := by
  have absolute := isAbsolute_push_of_relative nonempty relative
  rw [components, components, absolute, parts_push_of_relative path relative]
  cases start : isAbsolute path with
  | true => simp
  | false =>
      obtain ⟨first, rest, shape⟩ := List.exists_cons_of_ne_nil (parts_ne_nil nonempty start)
      rw [shape]
      by_cases dot : first = "."
      · subst dot
        simp
      · simp [dot]

theorem components_foldl_push {names : List String} (nonempty : path ≠ "")
    (proper : ∀ name ∈ names, IsName name) :
    components (names.foldl push path) =
      ((components path).1, (components path).2 ++ names) := by
  induction names generalizing path with
  | nil => simp
  | cons name rest inductionHypothesis =>
      rw [List.forall_mem_cons] at proper
      obtain ⟨⟨solid, noDot, -, plain⟩, properRest⟩ := proper
      have relative : isAbsolute name = false := by simpa using not_isAbsolute plain
      rw [List.foldl_cons, inductionHypothesis (push_ne_empty path solid) properRest,
        components_push nonempty relative, parts_of_not_mem solid plain]
      simp [noDot]

theorem components_fst (path : String) : (components path).1 = isAbsolute path := by
  rw [components]
  split
  · next absolute => exact absolute.symm
  · next relative =>
      rw [Bool.not_eq_true] at relative
      split <;> exact relative.symm

theorem stays_of_dropped {part : String} (dropped : decide (part ≠ ".") = false) :
    part = "" ∨ part = "." :=
  .inr (by simpa using dropped)

/-- The components lead where the parts do. -/
theorem locate_components (here : List String) (path : String) :
    locate here (components path).2 = locate here (parts path) := by
  have dotless := locate_filter (fun _ => stays_of_dropped) here
  rw [components]
  split
  · exact dotless (parts path)
  · split
    · next rest shape =>
        rw [shape, locate_cons, locate_cons, locate_filter fun _ => stays_of_dropped]
    · exact dotless (parts path)

theorem locate_parts_of_down (down : ".." ∉ parts path) (here : List String) :
    locate here (parts path) = here ++ (parts path).filter (· ≠ ".") := by
  have proper : ∀ name ∈ (parts path).filter (· ≠ "."), IsName name := by
    intro name inside
    obtain ⟨listed, noDot⟩ := List.mem_filter.mp inside
    obtain ⟨solid, plain⟩ := mem_parts listed
    exact ⟨solid, by simpa using noDot, fun up => down (up ▸ listed), plain⟩
  rw [← locate_filter (fun _ => stays_of_dropped) here (parts path), locate_names proper]

end Components

section Extension

theorem pieces_eq_singleton_nil_iff (separator : Char) (text : List Char) :
    pieces separator text = [[]] ↔ text = [] := by
  constructor
  · intro split
    rw [← intercalate_pieces separator text, split]
    rfl
  · rintro rfl
    rfl

theorem extension?_append {stem ending : List Char} (plain : '.' ∉ ending) :
    extension? (String.ofList (stem ++ '.' :: ending)) =
      if stem = [] then none else some (String.ofList ending) := by
  have split : (pieces '.' (stem ++ '.' :: ending)).reverse =
      ending :: (pieces '.' stem).reverse := by
    rw [pieces_append, pieces_of_not_mem plain]
    simp
  rw [extension?, String.toList_ofList, split]
  cases shape : (pieces '.' stem).reverse with
  | nil => exact absurd (List.reverse_eq_nil_iff.mp shape) (pieces_ne_nil '.' stem)
  | cons before more =>
      have whole : before = [] ∧ more = [] ↔ stem = [] := by
        rw [← pieces_eq_singleton_nil_iff '.' stem, List.reverse_eq_iff.mp shape,
          List.reverse_eq_iff]
        simp
      simp [whole]

theorem extension?_eq_some_iff {name extension : String} :
    extension? name = some extension ↔
      '.' ∉ extension.toList ∧ ∃ stem, stem ≠ "" ∧ name = stem ++ "." ++ extension := by
  constructor
  · intro found
    by_cases dotted : '.' ∈ name.toList
    · obtain ⟨behind, before, shape, plain⟩ :=
        List.eq_append_cons_of_mem (List.mem_reverse.mpr dotted)
      have whole : name.toList = before.reverse ++ '.' :: behind.reverse := by
        rw [← List.reverse_reverse name.toList, shape]
        simp
      rw [← String.ofList_toList (s := name), whole,
        extension?_append (by simpa using plain)] at found
      obtain ⟨nonempty, same⟩ := Option.ite_none_left_eq_some.mp found
      obtain rfl := Option.some.inj same
      refine ⟨by simpa using plain, String.ofList before.reverse, by simpa using nonempty, ?_⟩
      rw [← String.toList_inj, whole]
      simp
    · rw [extension?, pieces_of_not_mem dotted] at found
      cases found
  · rintro ⟨plain, stem, nonempty, rfl⟩
    have whole : stem ++ "." ++ extension =
        String.ofList (stem.toList ++ '.' :: extension.toList) := by
      rw [← String.toList_inj]
      simp
    rw [whole, extension?_append plain, if_neg (by simpa using nonempty), String.ofList_toList]

end Extension

end AmbientStubs.PathText
