import AmbientStubs.Access.Line
import AmbientStubs.Proofs.Text.Pieces

/-!
What an access read from a line looks like.  Its path is its base, a way and its member, all
of them identifiers, and the class of a static call is the last segment of the way.
-/

namespace AmbientStubs

open Text

theorem Text.isIdentifier_of_isAsciiAlphanumeric {character : Char}
    (belongs : isAsciiAlphanumeric character = true) : isIdentifier character = true := by
  have ascii : isAscii character = true := by
    have lastLower : 'z'.val.toNat = 122 := rfl
    have lastUpper : 'Z'.val.toNat = 90 := rfl
    have lastDigit : '9'.val.toNat = 57 := rfl
    simp only [isAsciiAlphanumeric, isAsciiLetter, isAsciiLower, isAsciiUpper, isAsciiDigit,
      Bool.or_eq_true, Bool.and_eq_true, decide_eq_true_eq, Char.le_def,
      UInt32.le_iff_toNat_le] at belongs
    rw [isAscii, decide_eq_true_eq, Char.toNat]
    omega
  simp [isIdentifier, isWord, ascii, belongs]

theorem mem_intersperse_of_mem {Element : Type} {separator element : Element}
    {elements : List Element} (membership : element ∈ elements) :
    element ∈ elements.intersperse separator := by
  induction elements with
  | nil => simp at membership
  | cons first rest inductionHypothesis =>
      cases rest with
      | nil => simpa using membership
      | cons second more =>
          rw [List.intersperse_cons_cons]
          rcases List.mem_cons.mp membership with rfl | later
          · exact List.mem_cons_self
          · exact List.mem_cons_of_mem _ (List.mem_cons_of_mem _ (inductionHypothesis later))

theorem Text.mem_of_mem_pieces {separator character : Char} {text piece : List Char}
    (membership : piece ∈ pieces separator text) (inside : character ∈ piece) :
    character ∈ text := by
  rw [← intercalate_pieces separator text, List.intercalate, List.mem_flatten]
  exact ⟨piece, mem_intersperse_of_mem membership, inside⟩

/-- An access whose segments are its base, a way and its member. -/
structure Access.Legible (access : Access) : Prop where
  segments : ∃ way, access.segments = access.base :: (way ++ [access.member])
  identifiers : ∀ segment ∈ access.segments, IsIdentifier segment
  staticCall : access.context = .staticCall → ∃ way className,
    access.className = some className ∧
      access.segments = access.base :: (way ++ [className, access.member])

namespace Chain

theorem isIdentifier_of_isMemberCharacter {character : Char}
    (belongs : isMemberCharacter character = true) : isIdentifier character = true := by
  rw [isMemberCharacter, Bool.or_eq_true, beq_iff_eq] at belongs
  rcases belongs with alphanumeric | rfl
  · exact isIdentifier_of_isAsciiAlphanumeric alphanumeric
  · decide

structure Legible (chain : Chain) : Prop where
  members : chain.members ≠ []
  identifiers : ∀ segment ∈ chain.segments, IsIdentifier (String.ofList segment)

theorem isIdentifier_of_mem_membersAt {text member : List Char}
    (membership : member ∈ membersAt text) : IsIdentifier (String.ofList member) := by
  unfold membersAt at membership
  split at membership
  · next rest =>
      have nonempty : member ≠ [] := by
        simpa using List.all_eq_true.mp List.all_takeWhile member membership
      have piece := (List.takeWhile_sublist _).subset membership
      have plain := not_mem_of_mem_pieces piece
      refine ⟨by simpa using nonempty, ?_⟩
      rw [String.toList_ofList]
      intro character inside
      have taken := mem_of_mem_pieces piece inside
      have belongs := List.all_eq_true.mp List.all_takeWhile character taken
      rw [Bool.or_eq_true, beq_iff_eq] at belongs
      rcases belongs with belongs | rfl
      · exact isIdentifier_of_isMemberCharacter belongs
      · exact absurd inside plain
  · simp at membership

theorem legible_at? {before text : List Char} {chain : Chain}
    (found : at? before text = some chain) : chain.Legible := by
  unfold at? at found
  split at found
  · contradiction
  · next first rest =>
      split at found
      · next starts =>
          split at found
          · contradiction
          · next nonempty =>
              rw [← Option.some.inj found]
              refine ⟨nonempty, ?_⟩
              rw [segments, List.forall_mem_cons]
              refine ⟨⟨by simp, ?_⟩, fun member => isIdentifier_of_mem_membersAt⟩
              rw [String.toList_ofList, List.forall_mem_cons]
              refine ⟨?_, ?_⟩
              · rw [Bool.and_eq_true] at starts
                apply isIdentifier_of_isAsciiAlphanumeric
                simp [isAsciiAlphanumeric, isAsciiLetter, starts.2]
              · intro character inside
                apply isIdentifier_of_isAsciiAlphanumeric
                exact List.all_eq_true.mp List.all_takeWhile character inside
      · contradiction

theorem legible_of_mem_scan {before text : List Char} {skip : Nat} {chain : Chain}
    (membership : chain ∈ scan before skip text) : chain.Legible := by
  induction text generalizing before skip with
  | nil => simp [scan] at membership
  | cons character rest inductionHypothesis =>
      unfold scan at membership
      split at membership
      · exact inductionHypothesis membership
      · split at membership
        · exact inductionHypothesis membership
        · next found =>
            split at membership
            · exact inductionHypothesis membership
            · rcases List.mem_cons.mp membership with rfl | later
              · exact legible_at? found
              · exact inductionHypothesis later

section Access

variable (reserved : List String) (chain : Chain)

theorem base_access : (chain.access reserved).base = String.ofList chain.base := by
  unfold access
  split
  · split <;> rfl
  · rfl

theorem path_access : (chain.access reserved).path = String.ofList chain.path := by
  unfold access
  split
  · split <;> rfl
  · rfl

theorem member_access :
    (chain.access reserved).member = String.ofList (chain.members.getLast?.getD []) := by
  unfold access
  split
  · split <;> rfl
  · rfl

theorem className_access (isStatic : (chain.access reserved).context = .staticCall) :
    ∃ owner, owner? reserved chain = some owner ∧
      (chain.access reserved).className = some (String.ofList owner) := by
  by_cases called : chain.isCall = true
  · cases found : owner? reserved chain with
    | some owner => exact ⟨owner, rfl, by simp [access, called, found]⟩
    | none =>
        simp only [access, called, if_true, found] at isStatic
        split at isStatic <;> contradiction
  · simp [access, called] at isStatic

theorem context_access {className : String}
    (named : (chain.access reserved).className = some className) :
    (chain.access reserved).context = .staticCall := by
  by_cases called : chain.isCall = true
  · cases found : owner? reserved chain with
    | some owner => simp [access, called, found]
    | none => simp [access, called, found] at named
  · simp [access, called] at named

variable {reserved chain}

/-- The owner of the last member stands right before it, and nothing between the base and the
owner is reserved. -/
theorem owner?_eq_some {owner : List Char} (found : owner? reserved chain = some owner) :
    ∃ between member, chain.members = between ++ [owner, member] ∧ isClassName owner = true ∧
      ∀ segment ∈ between, String.ofList segment ∉ reserved := by
  unfold owner? at found
  split at found
  · next member secondLast between reversed =>
      split at found
      · next isOwner =>
          obtain rfl := Option.some.inj found
          rw [Bool.and_eq_true, Bool.not_eq_true', List.any_eq_false] at isOwner
          refine ⟨between.reverse, member, ?_, isOwner.1, ?_⟩
          · rw [← List.reverse_reverse chain.members, reversed]
            simp
          · intro segment inside
            simpa using isOwner.2 segment (List.mem_reverse.mp inside)
      · contradiction
  · contradiction

end Access

theorem segments_access (reserved : List String) {chain : Chain} (legible : chain.Legible) :
    (chain.access reserved).segments = chain.segments.map String.ofList := by
  have joined : (chain.access reserved).path = dotted (chain.segments.map String.ofList) := by
    apply String.toList_inj.mp
    simp [path_access, path]
  rw [Access.segments, joined]
  refine segments_dotted (by simp [segments]) ?_
  intro segment membership
  obtain ⟨characters, listed, rfl⟩ := List.mem_map.mp membership
  exact (legible.identifiers characters listed).not_mem (by decide)

theorem legible_access (reserved : List String) {chain : Chain} (legible : chain.Legible) :
    (chain.access reserved).Legible := by
  have split := segments_access reserved legible
  rw [segments, List.map_cons, ← base_access reserved] at split
  have last : chain.members = chain.members.dropLast ++ [chain.members.getLast?.getD []] := by
    rw [List.getLast?_eq_some_getLast legible.members, Option.getD_some,
      List.dropLast_concat_getLast]
  constructor
  · refine ⟨chain.members.dropLast.map String.ofList, ?_⟩
    rw [split, member_access, last]
    simp
  · rw [segments_access reserved legible]
    intro segment membership
    obtain ⟨characters, listed, rfl⟩ := List.mem_map.mp membership
    exact legible.identifiers characters listed
  · intro isStatic
    obtain ⟨owner, found, named⟩ := className_access reserved chain isStatic
    obtain ⟨between, member, members, -⟩ := owner?_eq_some found
    refine ⟨between.map String.ofList, String.ofList owner, named, ?_⟩
    rw [split, member_access, members]
    simp

end Chain

namespace Access

theorem forall_mem_record {Holds : Access → Prop} {access : Access} {found : List Access}
    (new : Holds access) (before : ∀ other ∈ found, Holds other) :
    ∀ other ∈ record access found, Holds other := by
  induction found with
  | nil => simpa [record] using new
  | cons existing rest inductionHypothesis =>
      rw [List.forall_mem_cons] at before
      rw [record]
      split
      · refine List.forall_mem_cons.mpr ⟨?_, before.2⟩
        split
        · exact new
        · exact before.1
      · exact List.forall_mem_cons.mpr ⟨before.1, inductionHypothesis before.2⟩

/-- What holds of every use on a line holds of every access that is recorded for it. -/
theorem forall_mem_ofLine {Holds : Access → Prop} {reserved : List String}
    {imports : List Import} {line : List Char}
    (offered : ∀ access ∈ occurrences reserved imports line, Holds access) :
    ∀ access ∈ ofLine reserved imports line, Holds access := by
  have recorded : ∀ found, (∀ access ∈ found, Holds access) →
      ∀ access ∈ (occurrences reserved imports line).foldl
        (fun found access => record access found) found, Holds access := by
    generalize occurrences reserved imports line = uses at offered
    induction uses with
    | nil => exact fun found before => before
    | cons access rest inductionHypothesis =>
        rw [List.forall_mem_cons] at offered
        intro found before
        exact inductionHypothesis offered.2 _ (forall_mem_record offered.1 before)
  intro access membership
  exact recorded [] (by simp) access (List.mem_filter.mp membership).1

theorem legible_of_mem_ofLine {reserved : List String} {imports : List Import} {line : List Char}
    {access : Access} (membership : access ∈ ofLine reserved imports line) : access.Legible := by
  refine forall_mem_ofLine ?_ access membership
  intro access offered
  obtain ⟨chain, listed, rfl⟩ := List.mem_map.mp (List.mem_filter.mp offered).1
  exact Chain.legible_access reserved (Chain.legible_of_mem_scan listed)

end Access

end AmbientStubs
