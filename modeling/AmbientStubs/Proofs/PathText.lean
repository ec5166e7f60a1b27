import AmbientStubs.PathText
import AmbientStubs.Proofs.Text.Pieces

/-!
Where paths lead.  `.` stays, `..` goes up and every other part goes down, so the parts of a path
say where it leads if it leads anywhere.
-/

namespace AmbientStubs.PathText

open Text

/-- A plain file name: one part of a path that goes down. -/
def IsName (name : String) : Prop :=
  name ≠ "" ∧ name ≠ "." ∧ name ≠ ".." ∧ '/' ∉ name.toList

instance (name : String) : Decidable (IsName name) :=
  inferInstanceAs (Decidable (_ ∧ _))

def follow (here : List String) (part : String) : List String :=
  if part = "" ∨ part = "." then here
  else if part = ".." then here.dropLast
  else here ++ [part]

def locate (here : List String) (parts : List String) : List String :=
  parts.foldl follow here

@[simp]
theorem locate_nil (here : List String) : locate here [] = here := rfl

@[simp]
theorem locate_cons (here : List String) (part : String) (rest : List String) :
    locate here (part :: rest) = locate (follow here part) rest := rfl

theorem locate_append (here first second : List String) :
    locate here (first ++ second) = locate (locate here first) second :=
  List.foldl_append

@[simp]
theorem follow_name {name : String} (proper : IsName name) (here : List String) :
    follow here name = here ++ [name] := by
  simp [follow, proper.1, proper.2.1, proper.2.2.1]

theorem locate_names {names : List String} (proper : ∀ name ∈ names, IsName name)
    (here : List String) : locate here names = here ++ names := by
  induction names generalizing here with
  | nil => simp
  | cons name rest inductionHypothesis =>
      rw [List.forall_mem_cons] at proper
      rw [locate_cons, follow_name proper.1, inductionHypothesis proper.2, List.append_assoc,
        List.singleton_append]

theorem names_follow {here : List String} {part : String} (plain : '/' ∉ part.toList)
    (proper : ∀ name ∈ here, IsName name) : ∀ name ∈ follow here part, IsName name := by
  rw [follow]
  split
  · exact proper
  · next moves =>
      rw [not_or] at moves
      split
      · exact fun name inside => proper name (List.dropLast_subset here inside)
      · next down =>
          rw [List.forall_mem_append]
          exact ⟨proper, by simpa using ⟨moves.1, moves.2, down, plain⟩⟩

theorem names_locate {here parts : List String} (plain : ∀ part ∈ parts, '/' ∉ part.toList)
    (proper : ∀ name ∈ here, IsName name) : ∀ name ∈ locate here parts, IsName name := by
  induction parts generalizing here with
  | nil => exact proper
  | cons part rest inductionHypothesis =>
      rw [List.forall_mem_cons] at plain
      exact inductionHypothesis plain.2 (names_follow plain.1 proper)

theorem locate_filter {keep : String → Bool}
    (stays : ∀ part, keep part = false → part = "" ∨ part = ".") (here parts : List String) :
    locate here (parts.filter keep) = locate here parts := by
  induction parts generalizing here with
  | nil => rfl
  | cons part rest inductionHypothesis =>
      cases kept : keep part with
      | true => rw [List.filter_cons_of_pos kept, locate_cons, locate_cons, inductionHypothesis]
      | false =>
          rw [List.filter_cons_of_neg (by simp [kept]), locate_cons, inductionHypothesis, follow,
            if_pos (stays part kept)]

theorem locate_parts (here : List String) (path : String) :
    locate here (parts path) = locate here (rawParts path) :=
  locate_filter (by simp) here (rawParts path)

/-- Without `..` parts only lead down. -/
theorem isPrefix_locate {parts : List String} (down : ".." ∉ parts) (here : List String) :
    here <+: locate here parts := by
  induction parts generalizing here with
  | nil => exact List.prefix_rfl
  | cons part rest inductionHypothesis =>
      rw [List.mem_cons, not_or] at down
      have first : here <+: follow here part := by
        rw [follow, if_neg (Ne.symm down.1)]
        split
        · exact List.prefix_rfl
        · exact List.prefix_append here [part]
      exact first.trans (inductionHypothesis down.2 _)

theorem parts_append_slash (first second : String) :
    parts (first ++ "/" ++ second) = parts first ++ parts second := by
  have joined : (first ++ "/" ++ second).toList = first.toList ++ '/' :: second.toList := by simp
  simp [parts, rawParts, splitText, joined, pieces_append]

theorem parts_of_not_mem {part : String} (nonempty : part ≠ "") (plain : '/' ∉ part.toList) :
    parts part = [part] := by
  simp [parts, rawParts, splitText, pieces_of_not_mem plain, nonempty]

theorem mem_parts {path part : String} (inside : part ∈ parts path) :
    part ≠ "" ∧ '/' ∉ part.toList := by
  rw [parts, List.mem_filter] at inside
  obtain ⟨piece, listed, rfl⟩ := List.mem_map.1 inside.1
  refine ⟨by simpa using inside.2, ?_⟩
  rw [String.toList_ofList]
  exact not_mem_of_mem_pieces listed

theorem isAbsolute_iff {path : String} :
    isAbsolute path = true ↔ ∃ rest, path.toList = '/' :: rest := by
  rw [isAbsolute, startsWith, List.isPrefixOf_iff_prefix]
  constructor
  · rintro ⟨rest, same⟩
    exact ⟨rest, same.symm⟩
  · rintro ⟨rest, same⟩
    exact ⟨rest, same.symm⟩

theorem endsWith_slash_iff {path : String} :
    endsWith path "/" = true ↔ ∃ base, path = base ++ "/" := by
  rw [endsWith, List.isSuffixOf_iff_suffix]
  constructor
  · rintro ⟨base, same⟩
    exact ⟨String.ofList base, String.toList_inj.1 (by simp [← same])⟩
  · rintro ⟨base, rfl⟩
    exact ⟨base.toList, by simp⟩

section Push

variable {path part : String}

theorem not_isAbsolute (plain : '/' ∉ part.toList) : ¬ isAbsolute part = true := by
  rw [isAbsolute_iff]
  rintro ⟨rest, shape⟩
  exact plain (shape ▸ List.mem_cons_self)

theorem parts_push (nonempty : part ≠ "") (plain : '/' ∉ part.toList) :
    parts (push path part) = parts path ++ [part] := by
  have alone := parts_of_not_mem nonempty plain
  rw [push, if_neg (not_isAbsolute plain)]
  split
  · next ending =>
      rw [Bool.or_eq_true, String.isEmpty_iff, endsWith_slash_iff] at ending
      rcases ending with rfl | ⟨base, rfl⟩
      · rw [String.empty_append, alone]
        rfl
      · have inner := parts_append_slash base ""
        rw [String.append_empty] at inner
        rw [parts_append_slash, alone, inner]
        simp [show parts "" = [] from rfl]
  · rw [parts_append_slash, alone]

theorem push_eq (nonempty : path ≠ "") (noSlash : endsWith path "/" = false)
    (plain : '/' ∉ part.toList) : push path part = path ++ "/" ++ part := by
  rw [push, if_neg (not_isAbsolute plain), if_neg (by simp [nonempty, noSlash])]

theorem mem_toList_push {character : Char} (noSlash : character ≠ '/')
    (inside : character ∈ (push path part).toList) :
    character ∈ path.toList ∨ character ∈ part.toList := by
  rw [push] at inside
  split at inside
  · exact .inr inside
  · split at inside <;> simpa [noSlash] using inside

theorem isAbsolute_push (absolute : isAbsolute path = true) (plain : '/' ∉ part.toList) :
    isAbsolute (push path part) = true := by
  rw [isAbsolute_iff] at absolute
  obtain ⟨rest, shape⟩ := absolute
  rw [push, if_neg (not_isAbsolute plain), isAbsolute_iff]
  split
  · exact ⟨rest ++ part.toList, by simp [shape]⟩
  · exact ⟨rest ++ '/' :: part.toList, by simp [shape]⟩

theorem exists_toList_eq_cons (nonempty : path ≠ "") : ∃ first more, path.toList = first :: more :=
  List.exists_cons_of_ne_nil (mt String.toList_eq_nil_iff.1 nonempty)

theorem isAbsolute_push_iff (nonempty : path ≠ "") (plain : '/' ∉ part.toList) :
    isAbsolute (push path part) = isAbsolute path := by
  obtain ⟨first, more, shape⟩ := exists_toList_eq_cons nonempty
  rw [push, if_neg (not_isAbsolute plain), Bool.eq_iff_iff, isAbsolute_iff, isAbsolute_iff]
  split <;> simp [shape]

theorem endsWith_push (nonempty : part ≠ "") (plain : '/' ∉ part.toList) :
    endsWith (push path part) "/" = false := by
  rw [← Bool.not_eq_true, endsWith, List.isSuffixOf_iff_suffix]
  intro ending
  have longer : ∃ front, (push path part).toList = front ++ part.toList := by
    rw [push, if_neg (not_isAbsolute plain)]
    split
    · exact ⟨path.toList, by simp⟩
    · exact ⟨path.toList ++ ['/'], by simp⟩
  obtain ⟨front, shape⟩ := longer
  rw [shape] at ending
  have nonnil : part.toList ≠ [] := fun none => nonempty (String.toList_inj.1 none)
  refine plain ((List.suffix_of_suffix_length_le ending (List.suffix_append front part.toList)
    (List.length_pos_iff.2 nonnil)).subset List.mem_cons_self)

theorem utf8ByteSize_push {path part : String} (nonempty : path ≠ "")
    (noSlash : endsWith path "/" = false) (plain : '/' ∉ part.toList) :
    (push path part).utf8ByteSize = path.utf8ByteSize + (part.utf8ByteSize + 1) := by
  have slash : "/".utf8ByteSize = 1 := by decide
  rw [push_eq nonempty noSlash plain, String.utf8ByteSize_append, String.utf8ByteSize_append, slash]
  omega

section Names

variable {names : List String}

theorem parts_foldl_push (path : String) (plain : ∀ name ∈ names, name ≠ "" ∧ '/' ∉ name.toList) :
    parts (names.foldl push path) = parts path ++ names := by
  induction names generalizing path with
  | nil => simp
  | cons name rest inductionHypothesis =>
      rw [List.forall_mem_cons] at plain
      rw [List.foldl_cons, inductionHypothesis _ plain.2, parts_push plain.1.1 plain.1.2,
        List.append_assoc, List.singleton_append]

theorem isAbsolute_foldl_push {path : String} (absolute : isAbsolute path = true)
    (plain : ∀ name ∈ names, '/' ∉ name.toList) : isAbsolute (names.foldl push path) = true := by
  induction names generalizing path with
  | nil => exact absolute
  | cons name rest inductionHypothesis =>
      rw [List.forall_mem_cons] at plain
      exact inductionHypothesis (isAbsolute_push absolute plain.1) plain.2

theorem push_ne_empty {part : String} (path : String) (nonempty : part ≠ "") :
    push path part ≠ "" := by
  rw [push]
  split
  · exact nonempty
  · split <;> simp [nonempty]

theorem isAbsolute_foldl_push_iff {path : String} (nonempty : path ≠ "")
    (plain : ∀ name ∈ names, name ≠ "" ∧ '/' ∉ name.toList) :
    isAbsolute (names.foldl push path) = isAbsolute path := by
  induction names generalizing path with
  | nil => rfl
  | cons name rest inductionHypothesis =>
      rw [List.forall_mem_cons] at plain
      rw [List.foldl_cons, inductionHypothesis (push_ne_empty path plain.1.1) plain.2,
        isAbsolute_push_iff nonempty plain.1.2]

theorem endsWith_foldl_push {path : String} (some : names ≠ [])
    (plain : ∀ name ∈ names, name ≠ "" ∧ '/' ∉ name.toList) :
    endsWith (names.foldl push path) "/" = false := by
  obtain ⟨front, last, rfl⟩ := (List.eq_nil_or_concat names).resolve_left some
  rw [List.concat_eq_append, List.forall_mem_append, List.forall_mem_singleton] at plain
  rw [List.concat_eq_append, List.foldl_append, List.foldl_cons, List.foldl_nil]
  exact endsWith_push plain.2.1 plain.2.2

theorem mem_toList_foldl_push {path : String} {character : Char} (noSlash : character ≠ '/')
    (inside : character ∈ (names.foldl push path).toList) :
    character ∈ path.toList ∨ ∃ name ∈ names, character ∈ name.toList := by
  induction names generalizing path with
  | nil => exact .inl inside
  | cons name rest inductionHypothesis =>
      rcases inductionHypothesis inside with earlier | ⟨later, listed, inside⟩
      · exact (mem_toList_push noSlash earlier).imp_right fun inside =>
          ⟨name, List.mem_cons_self, inside⟩
      · exact .inr ⟨later, List.mem_cons_of_mem name listed, inside⟩

end Names

end Push

section OfLocation

theorem isAbsolute_ofLocation (names : List String) : isAbsolute (ofLocation names) = true := by
  rw [isAbsolute_iff]
  exact ⟨("/".intercalate names).toList, by simp [ofLocation]⟩

theorem parts_intercalate {names : List String} (proper : ∀ name ∈ names, IsName name) :
    parts ("/".intercalate names) = names := by
  induction names with
  | nil => rfl
  | cons name rest inductionHypothesis =>
      rw [List.forall_mem_cons] at proper
      have alone := parts_of_not_mem proper.1.1 proper.1.2.2.2
      cases rest with
      | nil => simpa using alone
      | cons second more =>
          rw [String.intercalate_cons_cons, parts_append_slash, alone, inductionHypothesis proper.2]
          rfl

/-- The path of a location leads there. -/
theorem parts_ofLocation {names : List String} (proper : ∀ name ∈ names, IsName name) :
    parts (ofLocation names) = names := by
  have inner := parts_append_slash "" ("/".intercalate names)
  rw [String.empty_append] at inner
  rw [ofLocation, inner, parts_intercalate proper]
  rfl

section Entry

variable {names : List String} {name : String} (proper : ∀ name ∈ names, IsName name)
  (isName : IsName name)

include isName

theorem isAbsolute_push_ofLocation (names : List String) :
    isAbsolute (push (ofLocation names) name) = true :=
  isAbsolute_push (isAbsolute_ofLocation names) isName.2.2.2

include proper

theorem parts_push_ofLocation : parts (push (ofLocation names) name) = names ++ [name] := by
  rw [parts_push isName.1 isName.2.2.2, parts_ofLocation proper]

theorem locate_push_ofLocation :
    locate [] (parts (push (ofLocation names) name)) = names ++ [name] := by
  rw [parts_push_ofLocation proper isName, locate_append, locate_names proper, List.nil_append,
    locate_cons, follow_name isName, locate_nil]

end Entry

end OfLocation

end AmbientStubs.PathText
