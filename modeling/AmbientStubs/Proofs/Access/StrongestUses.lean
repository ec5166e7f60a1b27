import AmbientStubs.Proofs.Access.Places
import AmbientStubs.Proofs.Access.Recording
import Mathlib.Data.List.Forall2

/-!
The accesses of a line, from its text to what is recorded.  Each place of a chain stands for one
use of an imported name, and what the line leaves behind is the strongest use of each path that no
call covers.
-/

namespace AmbientStubs

open Text

namespace Chain.Place

/-- An opening parenthesis follows, perhaps behind white space. -/
def IsCalled (place : Place) : Prop :=
  ∃ blanks rest, (∀ character ∈ blanks, isBlank character = true) ∧
    place.behind = blanks ++ '(' :: rest

/-- The word `new` stands before, perhaps with white space in between. -/
def FollowsNew (place : Place) : Prop :=
  ∃ previous blanks, (∀ character ∈ blanks, isBlank character = true) ∧
    place.before = previous ++ ("new".toList ++ blanks) ∧
    ∀ last, previous.getLast? = some last →
      isAlphanumeric last = false ∧ last ≠ '_' ∧ last ≠ '$' ∧ last ≠ '.'

/-- The second-last member has the form of a class name, and no segment between it and the base is
reserved. -/
def HasOwner (reserved : List String) (place : Place) (owner : List Char) : Prop :=
  ∃ between member, place.members = between ++ [owner, member] ∧
    IsClassName (String.ofList owner) ∧ ∀ segment ∈ between, String.ofList segment ∉ reserved

/-- The way in which the last member is used, and its class if that is a static call. -/
inductive UsedAs (reserved : List String) (place : Place) : AccessContext → Option String → Prop
  | propertyAccess : ¬place.IsCalled → UsedAs reserved place .propertyAccess none
  | staticCall {owner : List Char} : place.IsCalled → place.HasOwner reserved owner →
      UsedAs reserved place .staticCall (some (String.ofList owner))
  | constructorCall : place.IsCalled → (∀ owner, ¬place.HasOwner reserved owner) →
      place.FollowsNew → UsedAs reserved place .constructorCall none
  | methodCall : place.IsCalled → (∀ owner, ¬place.HasOwner reserved owner) →
      ¬place.FollowsNew → UsedAs reserved place .methodCall none

structure StandsFor (reserved : List String) (place : Place) (access : Access) : Prop where
  base : access.base = String.ofList place.base
  path : access.path = String.ofList place.text
  member : place.members.getLast? = some access.member.toList
  use : place.UsedAs reserved access.context access.className

/-- Whether a place counts: its base is not a member of something else, and an import binds it. -/
def counts (imports : List Import) (place : Place) : Bool :=
  !place.followsDot && imports.any (·.binds (String.ofList place.base))

theorem isCall_iff {place : Place} : place.chain.isCall = true ↔ place.IsCalled := by
  simp only [chain, decide_eq_true_eq]
  constructor
  · intro opens
    obtain ⟨rest, trimmed⟩ := List.head?_eq_some_iff.mp opens
    refine ⟨place.behind.takeWhile isBlank, rest, ?_, ?_⟩
    · exact fun character => List.all_eq_true.mp List.all_takeWhile character
    · rw [← trimmed, trimStart, List.takeWhile_append_dropWhile]
  · rintro ⟨blanks, rest, blank, behind⟩
    rw [behind, trimStart_append blank (startsSolid_cons.mpr (by decide)), List.head?_cons]

/-- The scanner holds the text before a chain in reverse. -/
theorem endsInNew_iff {before : List Char} :
    endsInNew before = true ↔
      ∃ blanks previous, (∀ character ∈ blanks, isBlank character = true) ∧
        before = blanks ++ 'w' :: 'e' :: 'n' :: previous ∧
        ∀ last, previous.head? = some last →
          isAlphanumeric last = false ∧ last ≠ '_' ∧ last ≠ '$' ∧ last ≠ '.' := by
  constructor
  · intro ends
    have blank : ∀ character ∈ before.takeWhile isBlank, isBlank character = true :=
      fun character => List.all_eq_true.mp List.all_takeWhile character
    have split : before.takeWhile isBlank ++ trimStart before = before :=
      List.takeWhile_append_dropWhile
    unfold endsInNew at ends
    split at ends
    · next trimmed =>
        exact ⟨_, [], blank, by rw [← trimmed, split], by simp⟩
    · next last more trimmed =>
        refine ⟨_, last :: more, blank, by rw [← trimmed, split], ?_⟩
        simpa [and_assoc] using ends
    · contradiction
  · rintro ⟨blanks, previous, blank, rfl, boundary⟩
    unfold endsInNew
    rw [trimStart_append blank (startsSolid_cons.mpr (by decide))]
    cases previous with
    | nil => rfl
    | cons last more =>
        obtain ⟨noLetter, noConnector, noDollar, noDot⟩ := boundary last rfl
        simp [noLetter, noConnector, noDollar, noDot]

theorem followsNew_iff {place : Place} : place.chain.followsNew = true ↔ place.FollowsNew := by
  simp only [chain, endsInNew_iff, FollowsNew]
  constructor
  · rintro ⟨blanks, previous, blank, reversed, boundary⟩
    refine ⟨previous.reverse, blanks.reverse, by simpa using blank, ?_, by simpa using boundary⟩
    rw [← List.reverse_reverse place.before, reversed]
    simp
  · rintro ⟨previous, blanks, blank, before, boundary⟩
    exact ⟨blanks.reverse, previous.reverse, by simpa using blank, by simp [before],
      by simpa using boundary⟩

theorem isClassName_iff {name : List Char} :
    isClassName name = true ↔ IsClassName (String.ofList name) := by
  refine ⟨isClassName_ofList, ?_⟩
  rintro ⟨first, rest, split, isUpper, inside⟩
  rw [String.toList_ofList] at split
  simpa [split, isClassName, isUpper] using inside

theorem owner?_eq_some_iff {reserved : List String} {place : Place} {owner : List Char} :
    owner? reserved place.chain = some owner ↔ place.HasOwner reserved owner := by
  constructor
  · intro found
    obtain ⟨between, member, members, named, free⟩ := owner?_eq_some found
    exact ⟨between, member, members, isClassName_iff.mp named, free⟩
  · rintro ⟨between, member, members, named, free⟩
    have reversed : place.chain.members.reverse = member :: owner :: between.reverse := by
      simp [chain, members]
    simpa [owner?, reversed, isClassName_iff.mpr named] using free

theorem Fits.standsFor {place : Place} (fits : place.Fits) (reserved : List String) :
    place.StandsFor reserved (place.chain.access reserved) := by
  refine ⟨base_access reserved place.chain, path_access reserved place.chain, ?_, ?_⟩
  · rw [member_access, String.toList_ofList, chain, List.getLast?_eq_some_getLast fits.members]
    rfl
  · unfold access
    split
    · next called =>
        have isCalled := isCall_iff.mp called
        split
        · next owner found =>
            exact .staticCall isCalled (owner?_eq_some_iff.mp found)
        · next noOwner =>
            have withoutOwner (owner : List Char) : ¬place.HasOwner reserved owner := by
              rw [← owner?_eq_some_iff, noOwner]
              simp
            dsimp only
            split
            · next follows =>
                exact .constructorCall isCalled withoutOwner (followsNew_iff.mp follows)
            · next notFollows =>
                exact .methodCall isCalled withoutOwner (mt followsNew_iff.mpr notFollows)
    · next notCalled => exact .propertyAccess (mt isCall_iff.mpr notCalled)

theorem HasOwner.unique {reserved : List String} {place other : Place} {first second : List Char}
    (hasFirst : place.HasOwner reserved first) (hasSecond : other.HasOwner reserved second)
    (sameMembers : place.members = other.members) : first = second := by
  obtain ⟨between, member, members, -⟩ := hasFirst
  obtain ⟨otherBetween, otherMember, otherMembers, -⟩ := hasSecond
  rw [members, otherMembers] at sameMembers
  exact (List.cons.inj (List.append_inj' sameMembers rfl).2).1

theorem UsedAs.context_mem {reserved : List String} {place : Place} {context : AccessContext}
    {className : Option String} (use : place.UsedAs reserved context className) :
    context ∈ AccessContext.byStrength := by
  cases use <;> decide

theorem UsedAs.className_eq {reserved : List String} {place other : Place}
    {context : AccessContext} {first second : Option String}
    (use : place.UsedAs reserved context first) (otherUse : other.UsedAs reserved context second)
    (sameMembers : place.members = other.members) : first = second := by
  cases use with
  | staticCall called hasOwner =>
      cases otherUse with
      | staticCall otherCalled otherHasOwner => rw [hasOwner.unique otherHasOwner sameMembers]
  | propertyAccess => cases otherUse; rfl
  | constructorCall => cases otherUse; rfl
  | methodCall => cases otherUse; rfl

/-- What a place stands for depends on the path and the way of its use only. -/
theorem StandsFor.eq {reserved : List String} {place other : Place} {first second : Access}
    (fits : place.Fits) (otherFits : other.Fits) (standsFor : place.StandsFor reserved first)
    (otherStandsFor : other.StandsFor reserved second) (samePath : first.path = second.path)
    (sameContext : first.context = second.context) : first = second := by
  have sameText : place.text = other.text := by
    rw [standsFor.path, otherStandsFor.path] at samePath
    exact String.ofList_injective samePath
  obtain ⟨sameBase, sameMembers⟩ := segments_eq_of_text_eq fits otherFits sameText
  have base : first.base = second.base := by
    rw [standsFor.base, otherStandsFor.base, sameBase]
  have member : first.member = second.member := by
    have last := standsFor.member
    rw [sameMembers, otherStandsFor.member, Option.some.injEq, String.toList_inj] at last
    exact last.symm
  have className : first.className = second.className := by
    have use := standsFor.use
    rw [sameContext] at use
    exact use.className_eq otherStandsFor.use sameMembers
  cases first
  cases second
  simp_all

end Chain.Place

namespace Access

section Occurrences

variable (reserved : List String) (imports : List Import) (line : List Char)

/-- The uses of imported names on a line stand at those leftmost places that count. -/
theorem exists_places_of_occurrences :
    ∃ places, (∀ found, Chain.Place.LeftmostFrom line 0 found ↔ found = places) ∧
      List.Forall₂ (Chain.Place.StandsFor reserved) (places.filter (·.counts imports))
        (occurrences reserved imports line) := by
  obtain ⟨places, leftmost, scanned⟩ := Chain.exists_places line
  have offered : occurrences reserved imports line =
      (places.filter (·.counts imports)).map fun place => place.chain.access reserved := by
    rw [occurrences, scanned, List.map_map, List.filter_map, List.filter_filter]
    congr 1
    apply List.filter_congr
    intro place _
    simp only [Function.comp_apply, Chain.base_access, Import.binding?, List.isSome_find?,
      Chain.Place.counts, Chain.Place.chain, Bool.and_comm]
  refine ⟨places, leftmost, ?_⟩
  rw [offered, List.forall₂_map_right_iff, List.forall₂_same]
  intro place listed
  have fits := (((leftmost places).mpr rfl).fits place (List.mem_filter.mp listed).1).2.1
  exact fits.standsFor reserved

variable {reserved imports line}

theorem exists_place_of_mem_occurrences {use : Access}
    (offered : use ∈ occurrences reserved imports line) :
    ∃ place : Chain.Place, place.Fits ∧ place.StandsFor reserved use := by
  obtain ⟨chain, listed, rfl⟩ := List.mem_map.mp (List.mem_filter.mp offered).1
  obtain ⟨place, fits, rfl⟩ := Chain.exists_fits_of_mem_ofLine listed
  exact ⟨place, fits, fits.standsFor reserved⟩

theorem context_mem_of_mem_occurrences :
    ∀ use ∈ occurrences reserved imports line, use.context ∈ AccessContext.byStrength := by
  intro use offered
  obtain ⟨place, -, standsFor⟩ := exists_place_of_mem_occurrences offered
  exact standsFor.use.context_mem

theorem consistent_occurrences : Consistent (occurrences reserved imports line) := by
  intro first offered second otherOffered samePath sameContext
  obtain ⟨place, fits, standsFor⟩ := exists_place_of_mem_occurrences offered
  obtain ⟨other, otherFits, otherStandsFor⟩ := exists_place_of_mem_occurrences otherOffered
  exact standsFor.eq fits otherFits otherStandsFor samePath sameContext

end Occurrences

end Access

/-- What a line adds to a summary.  Its leftmost places are determined, those that count stand for
the uses, and what the uses leave behind comes after the earlier accesses; nothing else changes,
and shuffled uses would only leave shuffled accesses behind. -/
theorem SourceSummary.line_adds_its_strongest_uncovered_uses (reserved : List String)
    (summary : SourceSummary) (line : List Char) :
    ∃ places uses recorded,
      (∀ found, Chain.Place.LeftmostFrom line 0 found ↔ found = places) ∧
      List.Forall₂ (Chain.Place.StandsFor reserved)
        (places.filter (·.counts summary.imports)) uses ∧
      Access.Settled uses recorded ∧
      summary.addAccesses reserved line =
        { summary with accesses := summary.accesses ++ recorded } ∧
      ∀ shuffled : List Access, shuffled.Perm uses → (Access.settle shuffled).Perm recorded := by
  obtain ⟨places, leftmost, standsFor⟩ :=
    Access.exists_places_of_occurrences reserved summary.imports line
  have known := @Access.context_mem_of_mem_occurrences reserved summary.imports line
  have settled := Access.settled_settle known
  refine ⟨places, _, _, leftmost, standsFor, settled, rfl, ?_⟩
  intro shuffled rearranged
  have shuffledKnown : ∀ use ∈ shuffled, use.context ∈ AccessContext.byStrength :=
    fun use listed => known use (rearranged.mem_iff.mp listed)
  exact settled.perm (Access.settled_settle shuffledKnown) known Access.consistent_occurrences
    rearranged

/-- The path that is read on the way to the call is covered, and the call is recorded once. -/
example :
    (Access.ofLine ["enc"] [.wholeModule "lib" "Lib" false]
        "let f = Lib.Box.open, g = Lib.Box; new Lib.Box.open(f, Lib.enc.Box.open());".toList).map
      (fun access => (access.path, access.context)) =
        [("Lib.Box.open", .staticCall), ("Lib.enc.Box.open", .methodCall)] := by
  decide

end AmbientStubs
