import AmbientStubs.Proofs.Text.Readers

/-!
Tidied text.  Collapsing works piece by piece wherever two pieces do not meet in white space, it
leaves everything but white space alone, and what was tidied once stays as it is.
-/

namespace AmbientStubs.Text

def AllBlank (text : List Char) : Prop :=
  ∀ character ∈ text, isBlank character = true

def Solid (text : List Char) : Prop :=
  ∀ character ∈ text, isBlank character = false

instance (text : List Char) : Decidable (AllBlank text) :=
  decidable_of_iff (text.all isBlank = true) (by rw [AllBlank, List.all_eq_true])

instance (text : List Char) : Decidable (Solid text) :=
  decidable_of_iff (text.all (!isBlank ·) = true) (by simp [Solid])

theorem startsSolid_nil : StartsSolid [] := by
  simp [StartsSolid]

theorem Solid.startsSolid_append {text rest : List Char} (solid : Solid text)
    (nonempty : text ≠ []) : StartsSolid (text ++ rest) := by
  obtain ⟨first, more, rfl⟩ := List.exists_cons_of_ne_nil nonempty
  exact startsSolid_cons.mpr (solid first List.mem_cons_self)

section Collapse

@[simp]
theorem collapseBlanks_nil : collapseBlanks [] = [] := rfl

@[simp]
theorem collapseBlanks_cons_of_solid {character : Char} (solid : isBlank character = false)
    (rest : List Char) : collapseBlanks (character :: rest) = character :: collapseBlanks rest := by
  simp [collapseBlanks, solid]

theorem collapseBlanks_cons_of_blank {character : Char} (blank : isBlank character = true)
    {rest : List Char} (solid : StartsSolid rest) :
    collapseBlanks (character :: rest) = ' ' :: collapseBlanks rest := by
  cases rest with
  | nil => simp [collapseBlanks, blank]
  | cons next more => simp [collapseBlanks, blank, startsSolid_cons.mp solid]

theorem collapseBlanks_cons_cons_of_blank {character next : Char}
    (blank : isBlank character = true) (blankNext : isBlank next = true) (rest : List Char) :
    collapseBlanks (character :: next :: rest) = collapseBlanks (next :: rest) := by
  rw [collapseBlanks, if_pos blank]
  exact if_pos blankNext

theorem length_collapseBlanks_le (text : List Char) :
    (collapseBlanks text).length ≤ text.length := by
  fun_induction collapseBlanks text <;> simp_all
  omega

/-- Two texts collapse apart if the second does not go on with white space. -/
theorem collapseBlanks_append {rest : List Char} (solid : StartsSolid rest) (text : List Char) :
    collapseBlanks (text ++ rest) = collapseBlanks text ++ collapseBlanks rest := by
  induction text with
  | nil => rfl
  | cons character more inductionHypothesis =>
      cases blank : isBlank character with
      | false => simp [blank, inductionHypothesis]
      | true =>
          cases more with
          | nil =>
              rw [List.singleton_append, collapseBlanks_cons_of_blank blank solid,
                collapseBlanks_cons_of_blank blank startsSolid_nil]
              rfl
          | cons next others =>
              cases blankNext : isBlank next with
              | false =>
                  have before : StartsSolid (next :: others) := startsSolid_cons.mpr blankNext
                  have behind : StartsSolid (next :: (others ++ rest)) :=
                    startsSolid_cons.mpr blankNext
                  rw [collapseBlanks_cons_of_blank blank before, List.cons_append, List.cons_append,
                    collapseBlanks_cons_of_blank blank behind, ← List.cons_append,
                    inductionHypothesis, List.cons_append]
              | true =>
                  rw [collapseBlanks_cons_cons_of_blank blank blankNext, List.cons_append,
                    List.cons_append, collapseBlanks_cons_cons_of_blank blank blankNext,
                    ← List.cons_append, inductionHypothesis]

theorem collapseBlanks_append_cons {character : Char} (solid : isBlank character = false)
    (text rest : List Char) :
    collapseBlanks (text ++ character :: rest) =
      collapseBlanks text ++ character :: collapseBlanks rest := by
  rw [collapseBlanks_append (startsSolid_cons.mpr solid), collapseBlanks_cons_of_solid solid]

theorem Solid.collapseBlanks_append {text : List Char} (solid : Solid text) (rest : List Char) :
    collapseBlanks (text ++ rest) = text ++ collapseBlanks rest := by
  induction text with
  | nil => rfl
  | cons character more inductionHypothesis =>
      obtain ⟨solidFirst, solidMore⟩ := List.forall_mem_cons.mp solid
      rw [List.cons_append, collapseBlanks_cons_of_solid solidFirst, inductionHypothesis solidMore,
        List.cons_append]

theorem mem_collapseBlanks {text : List Char} {character : Char}
    (inside : character ∈ collapseBlanks text) : character = ' ' ∨ character ∈ text := by
  fun_induction collapseBlanks text <;> simp_all <;> grind

theorem head?_collapseBlanks (text : List Char) :
    (collapseBlanks text).head? =
      text.head?.map fun character => if isBlank character then ' ' else character := by
  fun_induction collapseBlanks text <;> simp_all

theorem StartsSolid.collapseBlanks {text : List Char} (solid : StartsSolid text) :
    StartsSolid (collapseBlanks text) := by
  intro character first
  rw [head?_collapseBlanks, Option.map_eq_some_iff] at first
  obtain ⟨original, found, rfl⟩ := first
  rw [solid original found, if_neg Bool.false_ne_true]
  exact solid original found

theorem AllBlank.collapseBlanks {text : List Char} (blank : AllBlank text) :
    AllBlank (collapseBlanks text) := by
  intro character inside
  rcases mem_collapseBlanks inside with rfl | inside
  · decide
  · exact blank character inside

theorem IsBlanks.collapseBlanks {text : List Char} (blank : IsBlanks text) :
    IsBlanks (collapseBlanks text) := by
  refine ⟨fun nothing => ?_, AllBlank.collapseBlanks blank.2⟩
  have first := head?_collapseBlanks text
  rw [nothing, List.head?_nil, eq_comm, Option.map_eq_none_iff, List.head?_eq_none_iff] at first
  exact blank.1 first

theorem collapseBlanks_collapseBlanks (text : List Char) :
    collapseBlanks (collapseBlanks text) = collapseBlanks text := by
  fun_induction collapseBlanks text with
  | case1 => rfl
  | case2 character blank next rest blankNext inductionHypothesis => exact inductionHypothesis
  | case3 character blank next rest solidNext inductionHypothesis =>
      have solid : StartsSolid (next :: rest) :=
        startsSolid_cons.mpr (by simpa using solidNext)
      rw [collapseBlanks_cons_of_blank (by decide) solid.collapseBlanks, inductionHypothesis]
  | case4 => decide
  | case5 character rest solid inductionHypothesis =>
      rw [collapseBlanks_cons_of_solid (by simpa using solid), inductionHypothesis]

theorem collapseBlanks_of_append {text rest : List Char}
    (collapsed : collapseBlanks (text ++ rest) = text ++ rest) : collapseBlanks text = text := by
  induction text with
  | nil => rfl
  | cons character more inductionHypothesis =>
      rw [List.cons_append] at collapsed
      cases blank : isBlank character with
      | false =>
          rw [collapseBlanks_cons_of_solid blank] at collapsed ⊢
          rw [inductionHypothesis (List.cons.inj collapsed).2]
      | true =>
          -- Behind another blank the text would have become shorter.
          have alone : StartsSolid (more ++ rest) := by
            intro next first
            obtain ⟨others, shape⟩ := List.head?_eq_some_iff.mp first
            rw [shape] at collapsed
            cases blankNext : isBlank next with
            | false => rfl
            | true =>
                rw [collapseBlanks_cons_cons_of_blank blank blankNext] at collapsed
                have shorter := length_collapseBlanks_le (next :: others)
                rw [collapsed, List.length_cons] at shorter
                omega
          rw [collapseBlanks_cons_of_blank blank alone] at collapsed
          obtain ⟨rfl, same⟩ := List.cons.inj collapsed
          have solid : StartsSolid more := by
            cases more with
            | nil => exact startsSolid_nil
            | cons next others => exact startsSolid_cons.mpr (startsSolid_cons.mp alone)
          rw [collapseBlanks_cons_of_blank blank solid, inductionHypothesis same]

end Collapse

section Trim

theorem trimStart_of_startsSolid {text : List Char} (solid : StartsSolid text) :
    trimStart text = text :=
  @trimStart_append [] text (by simp) solid

theorem reverse_dropWhile_append_cons {belongs : Char → Bool} {character : Char}
    (outside : belongs character = false) (text rest : List Char) :
    ((text ++ character :: rest).reverse.dropWhile belongs).reverse =
      text ++ character :: (rest.reverse.dropWhile belongs).reverse := by
  have stops : (rest.reverse ++ (character :: text.reverse)).dropWhile belongs =
      rest.reverse.dropWhile belongs ++ character :: text.reverse := by
    rw [List.dropWhile_append]
    split
    · next nothing =>
        rw [List.isEmpty_iff.mp nothing, List.dropWhile_cons_of_neg (by simp [outside])]
        rfl
    · rfl
  simp [stops]

theorem trimEnd_append_cons {character : Char} (solid : isBlank character = false)
    (text rest : List Char) :
    trimEnd (text ++ character :: rest) = text ++ character :: trimEnd rest :=
  reverse_dropWhile_append_cons solid text rest

theorem trimEnd_append_of_blank {blanks : List Char} (blank : AllBlank blanks)
    (text : List Char) : trimEnd (text ++ blanks) = trimEnd text := by
  rw [trimEnd, List.reverse_append, List.dropWhile_append_of_pos, trimEnd]
  simpa [AllBlank] using blank

theorem trimEnd_eq_nil_or (text : List Char) :
    trimEnd text = [] ∨
      ∃ front last, isBlank last = false ∧ trimEnd text = front ++ [last] := by
  rw [trimEnd]
  cases dropped : text.reverse.dropWhile isBlank with
  | nil => exact .inl rfl
  | cons last front =>
      refine .inr ⟨front.reverse, last, ?_, by simp⟩
      have first : (text.reverse.dropWhile isBlank).head? = some last := by
        rw [dropped, List.head?_cons]
      exact eq_false_of_head?_dropWhile first

theorem isPrefix_trimEnd (text : List Char) : trimEnd text <+: text := by
  have suffix := List.dropWhile_suffix isBlank (l := text.reverse)
  rwa [← List.reverse_prefix, List.reverse_reverse] at suffix

end Trim

section Tidy

theorem tidy_of_startsSolid {text : List Char} (solid : StartsSolid text) :
    tidy text = collapseBlanks (trimEnd text) := by
  rw [tidy, trim, trimStart_of_startsSolid solid]

/-- Tidying works piece by piece on both sides of a character that is no white space. -/
theorem tidy_append_cons {front : List Char} {character : Char} (solid : isBlank character = false)
    (starts : StartsSolid (front ++ [character])) (rest : List Char) :
    tidy (front ++ character :: rest) =
      collapseBlanks front ++ character :: collapseBlanks (trimEnd rest) := by
  have startsWhole : StartsSolid (front ++ character :: rest) := by
    cases front with
    | nil => exact startsSolid_cons.mpr solid
    | cons first more => exact startsSolid_cons.mpr (startsSolid_cons.mp starts)
  rw [tidy_of_startsSolid startsWhole, trimEnd_append_cons solid, collapseBlanks_append_cons solid]

theorem tidy_eq_nil_or (text : List Char) :
    tidy text = [] ∨ StartsSolid (tidy text) ∧
      ∃ front last, isBlank last = false ∧ tidy text = front ++ [last] := by
  rcases trimEnd_eq_nil_or (trimStart text) with nothing | ⟨front, last, solid, shape⟩
  · exact .inl (by rw [tidy, trim, nothing]; rfl)
  · have starts : StartsSolid (front ++ [last]) := by
      intro character first
      obtain ⟨rest, behind⟩ := isPrefix_trimEnd (trimStart text)
      refine startsSolid_trimStart text character ?_
      rw [← behind, shape, List.head?_append, first]
      rfl
    refine .inr ⟨?_, collapseBlanks front, last, solid, ?_⟩
    · rw [tidy, trim, shape]
      exact starts.collapseBlanks
    · rw [tidy, trim, shape, collapseBlanks_append_cons solid]
      rfl

theorem tidy_append_of_blank {blanks : List Char} (blank : AllBlank blanks) (text : List Char) :
    tidy (tidy text ++ blanks) = tidy text := by
  rcases tidy_eq_nil_or text with nothing | ⟨starts, front, last, solid, shape⟩
  · have dropped : trimStart blanks = [] := by
      simpa using trimStart_append blank startsSolid_nil
    rw [nothing, List.nil_append, tidy, trim, dropped]
    rfl
  · have solidStart : StartsSolid (tidy text ++ blanks) := by
      intro character first
      refine starts character ?_
      rw [shape] at first ⊢
      cases front <;> simpa using first
    have ends : trimEnd (tidy text) = tidy text := by
      rw [shape, trimEnd_append_cons solid]
      rfl
    rw [tidy_of_startsSolid solidStart, trimEnd_append_of_blank blank, ends]
    exact collapseBlanks_collapseBlanks (trim text)

theorem tidy_concat {text front rest : List Char} {character : Char}
    (shape : tidy text = front ++ rest) (solid : isBlank character = false) :
    tidy (front ++ [character]) = front ++ [character] := by
  have whole : collapseBlanks (front ++ rest) = front ++ rest := by
    rw [← shape]
    exact collapseBlanks_collapseBlanks (trim text)
  have collapsed : collapseBlanks front = front := collapseBlanks_of_append whole
  have starts : StartsSolid (front ++ [character]) := by
    cases front with
    | nil => exact startsSolid_cons.mpr solid
    | cons first more =>
        rcases tidy_eq_nil_or text with nothing | ⟨starts, -⟩
        · rw [nothing] at shape
          cases shape
        · rw [shape] at starts
          exact startsSolid_cons.mpr (startsSolid_cons.mp starts)
  rw [tidy_of_startsSolid starts, trimEnd_append_cons solid, collapseBlanks_append_cons solid,
    collapsed]
  rfl

end Tidy

end AmbientStubs.Text
