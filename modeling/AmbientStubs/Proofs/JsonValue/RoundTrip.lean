import AmbientStubs.JsonValue.Reader
import AmbientStubs.Proofs.JsonValue.Tokens

/-!
A printed value is read back, and what is read from any text is regular.  So a value that was
read, changed and printed is read again as it was changed.
-/

namespace AmbientStubs.JsonValue

open Text

section Members

variable {key : String} {value : JsonValue} {members : List (String × JsonValue)}

theorem setMember_of_fresh (fresh : key ∉ members.map (·.1)) :
    setMember key value members = members ++ [(key, value)] := by
  induction members with
  | nil => rfl
  | cons member rest inductionHypothesis =>
      rw [List.map_cons, List.mem_cons, not_or] at fresh
      rw [setMember, if_neg (Ne.symm fresh.1), inductionHypothesis fresh.2, List.cons_append]

theorem mem_keys_setMember {other : String} :
    other ∈ (setMember key value members).map (·.1) ↔
      other = key ∨ other ∈ members.map (·.1) := by
  induction members with
  | nil => simp [setMember]
  | cons member rest inductionHypothesis =>
      rw [setMember]
      split
      · next same => simp [same]
      · rw [List.map_cons, List.mem_cons, inductionHypothesis, List.map_cons, List.mem_cons]
        exact or_left_comm

theorem nodup_keys_setMember (distinct : (members.map (·.1)).Nodup) :
    ((setMember key value members).map (·.1)).Nodup := by
  induction members with
  | nil => simp [setMember]
  | cons member rest inductionHypothesis =>
      rw [List.map_cons, List.nodup_cons] at distinct
      rw [setMember]
      split
      · rw [List.map_cons, List.nodup_cons]
        exact distinct
      · next different =>
          rw [List.map_cons, List.nodup_cons, mem_keys_setMember, not_or]
          exact ⟨⟨different, distinct.1⟩, inductionHypothesis distinct.2⟩

theorem mem_setMember {member : String × JsonValue}
    (inside : member ∈ setMember key value members) :
    member = (key, value) ∨ member ∈ members := by
  induction members with
  | nil => exact .inl (List.mem_singleton.1 inside)
  | cons first rest inductionHypothesis =>
      rw [setMember] at inside
      split at inside
      · next same =>
          rw [List.mem_cons, same] at inside
          exact inside.imp_right (List.mem_cons_of_mem _)
      · rw [List.mem_cons] at inside
        rcases inside with rfl | later
        · exact .inr List.mem_cons_self
        · exact (inductionHypothesis later).imp_right (List.mem_cons_of_mem _)

end Members

def ReadsBack (value : JsonValue) : Prop :=
  ∀ steps rest, 2 * (tokensOf value).length ≤ steps →
    readValue? steps (tokensOf value ++ rest) = some (value, rest)

section Reading

theorem tokensOf_append_ne_closeBracket (value : JsonValue) (rest more : List Token) :
    tokensOf value ++ rest ≠ .closeBracket :: more := by
  cases value with
  | boolean value => cases value <;> nofun
  | list elements => cases elements <;> nofun
  | object members =>
      cases members with
      | nil => nofun
      | cons member others => nofun
  | _ => nofun

theorem readElements?_comma {steps : Nat} {tokens after : List Token} {value : JsonValue}
    (read : readValue? steps tokens = some (value, .comma :: after))
    (goesOn : ∀ more, after ≠ .closeBracket :: more) :
    readElements? (steps + 1) tokens =
      (readElements? steps after).map fun found => (value :: found.1, found.2) := by
  simp only [readElements?, read, Option.bind_eq_bind, Option.bind_some]
  cases readElements? steps after <;> rfl

theorem readMembers?_comma {steps : Nat} {before : List (String × JsonValue)}
    {tokens after : List Token} {key : String} {value : JsonValue}
    (read : readValue? steps tokens = some (value, .comma :: after))
    (goesOn : ∀ more, after ≠ .closeBrace :: more) :
    readMembers? (steps + 1) before (.text key :: .colon :: tokens) =
      readMembers? steps (setMember key value before) after := by
  simp only [readMembers?, keyOf?, read, Option.bind_eq_bind, Option.bind_some]

theorem readValue?_openBracket {steps : Nat} {tokens : List Token}
    (goesOn : ∀ more, tokens ≠ .closeBracket :: more) :
    readValue? (steps + 1) (.openBracket :: tokens) =
      (readElements? steps tokens).map fun found => (list found.1, found.2) := by
  simp only [readValue?, Option.bind_eq_bind]
  cases readElements? steps tokens <;> rfl

theorem readValue?_openBrace {steps : Nat} {tokens : List Token}
    (goesOn : ∀ more, tokens ≠ .closeBrace :: more) :
    readValue? (steps + 1) (.openBrace :: tokens) =
      (readMembers? steps [] tokens).map fun found => (object found.1, found.2) := by
  simp only [readValue?, Option.bind_eq_bind]
  cases readMembers? steps [] tokens <;> rfl

variable {rest : List Token}

theorem readElements?_elementTokens {first : JsonValue} {others : List JsonValue}
    (readsFirst : ReadsBack first) (readsOthers : ∀ other ∈ others, ReadsBack other) {steps : Nat}
    (enough : 2 * ((tokensOf first).length + (elementTokens others).length) < steps) :
    readElements? steps (tokensOf first ++ (elementTokens others ++ .closeBracket :: rest)) =
      some (first :: others, rest) := by
  induction others generalizing first steps with
  | nil =>
      obtain ⟨steps, rfl⟩ := Nat.exists_eq_add_one_of_ne_zero (Nat.ne_zero_of_lt enough)
      rw [elementTokens, List.length_nil] at enough
      simp [readElements?, elementTokens, readsFirst steps _ (by omega)]
  | cons second others inductionHypothesis =>
      obtain ⟨steps, rfl⟩ := Nat.exists_eq_add_one_of_ne_zero (Nat.ne_zero_of_lt enough)
      rw [List.forall_mem_cons] at readsOthers
      rw [elementTokens, List.length_cons, List.length_append] at enough
      have later := inductionHypothesis readsOthers.1 readsOthers.2
        (show _ < steps by omega)
      have read := readsFirst steps
        (.comma :: (tokensOf second ++ (elementTokens others ++ .closeBracket :: rest))) (by omega)
      rw [elementTokens, List.cons_append, List.append_assoc,
        readElements?_comma read (tokensOf_append_ne_closeBracket second _), later]
      rfl

theorem readMembers?_memberTokens {before others : List (String × JsonValue)} {key : String}
    {value : JsonValue} (readsValue : ReadsBack value)
    (readsOthers : ∀ other ∈ others, ReadsBack other.2)
    (distinct : ((before ++ (key, value) :: others).map (·.1)).Nodup) {steps : Nat}
    (enough : 2 * ((tokensOf value).length + (memberTokens others).length) < steps) :
    readMembers? steps before (.text key :: .colon ::
        (tokensOf value ++ (memberTokens others ++ .closeBrace :: rest))) =
      some (before ++ (key, value) :: others, rest) := by
  have fresh : key ∉ before.map (·.1) := by
    rw [List.map_append, List.map_cons, List.nodup_append] at distinct
    exact fun inside => distinct.2.2 key inside key List.mem_cons_self rfl
  induction others generalizing before key value steps with
  | nil =>
      obtain ⟨steps, rfl⟩ := Nat.exists_eq_add_one_of_ne_zero (Nat.ne_zero_of_lt enough)
      rw [memberTokens, List.length_nil] at enough
      simp [readMembers?, memberTokens, keyOf?, readsValue steps _ (by omega),
        setMember_of_fresh fresh]
  | cons second others inductionHypothesis =>
      obtain ⟨steps, rfl⟩ := Nat.exists_eq_add_one_of_ne_zero (Nat.ne_zero_of_lt enough)
      obtain ⟨secondKey, secondValue⟩ := second
      rw [List.forall_mem_cons] at readsOthers
      rw [memberTokens, List.length_cons, List.length_cons, List.length_cons,
        List.length_append] at enough
      rw [List.append_cons] at distinct
      have freshSecond : secondKey ∉ (before ++ [(key, value)]).map (·.1) := by
        rw [List.map_append, List.map_cons, List.nodup_append] at distinct
        exact fun inside => distinct.2.2 secondKey inside secondKey List.mem_cons_self rfl
      have later := inductionHypothesis readsOthers.1 readsOthers.2 distinct
        (show 2 * ((tokensOf secondValue).length + _) < steps by omega) freshSecond
      have read := readsValue steps (.comma :: .text secondKey :: .colon ::
        (tokensOf secondValue ++ (memberTokens others ++ .closeBrace :: rest))) (by omega)
      rw [memberTokens, List.cons_append, List.cons_append, List.cons_append, List.append_assoc,
        readMembers?_comma read (by simp), setMember_of_fresh fresh, later, List.append_assoc]
      rfl

theorem readsBack_of_single {value : JsonValue} {token : Token} (single : tokensOf value = [token])
    (read : ∀ steps rest, readValue? (steps + 1) (token :: rest) = some (value, rest)) :
    ReadsBack value := by
  intro steps rest enough
  rw [single] at enough ⊢
  obtain ⟨steps, rfl⟩ := Nat.exists_eq_add_one_of_ne_zero (Nat.ne_zero_of_lt enough)
  exact read steps rest

/-- A regular value is read back from its tokens. -/
theorem readsBack_of_regular {value : JsonValue} (regular : value.Regular) : ReadsBack value := by
  induction regular with
  | null => exact readsBack_of_single rfl fun _ _ => rfl
  | boolean value => cases value <;> exact readsBack_of_single rfl fun _ _ => rfl
  | integer _ => exact readsBack_of_single rfl fun _ _ => rfl
  | double _ => exact readsBack_of_single rfl fun _ _ => rfl
  | text _ => exact readsBack_of_single rfl fun _ _ => rfl
  | @list elements _ inductionHypothesis =>
      intro steps rest enough
      cases elements with
      | nil =>
          obtain ⟨steps, rfl⟩ := Nat.exists_eq_add_one_of_ne_zero (Nat.ne_zero_of_lt enough)
          rfl
      | cons first others =>
          rw [List.forall_mem_cons] at inductionHypothesis
          simp only [tokensOf, List.length_cons, List.length_append, List.length_nil] at enough
          obtain ⟨steps, rfl⟩ := Nat.exists_eq_add_one_of_ne_zero (Nat.ne_zero_of_lt enough)
          have read : readElements? steps (tokensOf first ++ (elementTokens others ++
              .closeBracket :: rest)) = some (first :: others, rest) :=
            readElements?_elementTokens inductionHypothesis.1 inductionHypothesis.2 (by omega)
          rw [tokensOf, List.cons_append, List.append_assoc, List.append_assoc,
            List.singleton_append,
            readValue?_openBracket (tokensOf_append_ne_closeBracket first _), read]
          rfl
  | @object members distinct _ inductionHypothesis =>
      intro steps rest enough
      cases members with
      | nil =>
          obtain ⟨steps, rfl⟩ := Nat.exists_eq_add_one_of_ne_zero (Nat.ne_zero_of_lt enough)
          rfl
      | cons member others =>
          obtain ⟨key, value⟩ := member
          rw [List.forall_mem_cons] at inductionHypothesis
          simp only [tokensOf, List.length_cons, List.length_append, List.length_nil] at enough
          obtain ⟨steps, rfl⟩ := Nat.exists_eq_add_one_of_ne_zero (Nat.ne_zero_of_lt enough)
          have readsValue : ReadsBack value := inductionHypothesis.1
          have read : readMembers? steps [] (.text key :: .colon :: (tokensOf value ++
              (memberTokens others ++ .closeBrace :: rest))) = some ((key, value) :: others, rest) :=
            readMembers?_memberTokens readsValue inductionHypothesis.2 distinct (by omega)
          rw [tokensOf, List.cons_append, List.cons_append, List.cons_append, List.append_assoc,
            List.append_assoc, List.singleton_append, readValue?_openBrace (by simp), read]
          rfl

end Reading

section Printing

theorem breakOnto_append (depth : Nat) (rest more : List Char) :
    breakOnto depth rest ++ more = breakOnto depth (rest ++ more) := by
  simp [breakOnto]

theorem keyOnto_append (key : String) (rest more : List Char) :
    keyOnto key rest ++ more = keyOnto key (rest ++ more) := by
  simp [keyOnto]

mutual

theorem printOnto_append (depth : Nat) (value : JsonValue) (rest more : List Char) :
    printOnto depth value rest ++ more = printOnto depth value (rest ++ more) := by
  match value with
  | null => rw [printOnto, printOnto, List.append_assoc]
  | boolean true => rw [printOnto, printOnto, List.append_assoc]
  | boolean false => rw [printOnto, printOnto, List.append_assoc]
  | integer _ => rw [printOnto, printOnto, List.append_assoc]
  | double _ => rw [printOnto, printOnto, List.append_assoc]
  | text _ => rw [printOnto, printOnto, List.append_assoc]
  | list [] => rfl
  | list (first :: others) =>
      simp only [printOnto, List.cons_append, breakOnto_append, printOnto_append depth.succ first,
        elementsOnto_append depth.succ others]
  | object [] => rfl
  | object ((key, value) :: others) =>
      simp only [printOnto, List.cons_append, breakOnto_append, keyOnto_append,
        printOnto_append depth.succ value, membersOnto_append depth.succ others]

theorem elementsOnto_append (depth : Nat) (elements : List JsonValue) (rest more : List Char) :
    elementsOnto depth elements rest ++ more = elementsOnto depth elements (rest ++ more) := by
  match elements with
  | [] => rfl
  | value :: others =>
      simp only [elementsOnto, List.cons_append, breakOnto_append, printOnto_append depth value,
        elementsOnto_append depth others]

theorem membersOnto_append (depth : Nat) (members : List (String × JsonValue))
    (rest more : List Char) :
    membersOnto depth members rest ++ more = membersOnto depth members (rest ++ more) := by
  match members with
  | [] => rfl
  | (key, value) :: others =>
      simp only [membersOnto, List.cons_append, breakOnto_append, keyOnto_append,
        printOnto_append depth value, membersOnto_append depth others]

end

theorem toList_line (value : JsonValue) :
    (value.pretty ++ "\n").toList = printOnto 0 value ['\n'] := by
  rw [String.toList_append, pretty, String.toList_ofList]
  exact printOnto_append 0 value [] ['\n']

/-- A printed value is read back from its line. -/
theorem ofText?_pretty {value : JsonValue} (quotable : value.Quotable) (regular : value.Regular) :
    ofText? (value.pretty ++ "\n") = some value := by
  have lineBreak : Scans ['\n'] (some []) := scans_space (by decide) (by decide) scans_nil
  have scans := printsTokens_of_quotable quotable regular 0 ['\n'] _ ⟨[], .inr rfl⟩ lineBreak
  have scanned := scans _ (Nat.le_refl _)
  have read := readsBack_of_regular regular (2 * (tokensOf value).length + 1) [] (by omega)
  rw [List.append_nil] at read
  rw [Option.map_some, List.append_nil] at scanned
  rw [ofText?, toList_line, Token.ofText?, scanned, Option.bind_eq_bind, Option.bind_some, read]
  rfl

end Printing

section Regularity

/-- The numbers that are read have 64 bits. -/
def Token.IsRegular : Token → Prop
  | .number value => value.Regular
  | _ => True

theorem Token.regular_of_hexInteger? {text rest : List Char} {value : JsonValue}
    (read : hexInteger? text = some (value, rest)) : value.Regular := by
  simp only [hexInteger?, Option.bind_eq_bind, Option.bind_eq_some_iff] at read
  obtain ⟨_, _, digits, _, read⟩ := read
  split at read
  · next small =>
      cases read
      exact .integer ⟨by rw [integerBound]; omega, by rw [integerBound]; omega⟩
  · cases read

theorem Token.regular_of_decimal? {negative : Bool} {text rest : List Char} {value : JsonValue}
    (read : decimal? negative text = some (value, rest)) : value.Regular := by
  simp only [decimal?] at read
  split at read
  · simp only [Option.bind_eq_bind, Option.bind_eq_some_iff] at read
    obtain ⟨number, nearest, read⟩ := read
    cases read
    exact .double (Binary64.canonical_of_nearest? nearest).1
  split at read
  · cases read
  split at read
  · simp only [Option.bind_eq_bind, Option.bind_eq_some_iff] at read
    obtain ⟨number, nearest, read⟩ := read
    cases read
    exact .double (Binary64.canonical_of_nearest? nearest).1
  split at read
  · next inRange =>
      cases read
      refine .integer ?_
      simp only [InRange, integerBound] at inRange ⊢
      cases negative <;> simp at inRange ⊢ <;> omega
  · cases read

theorem Token.isRegular_of_number? {text rest : List Char} {token : Token}
    (read : number? text = some (token, rest)) : token.IsRegular := by
  simp only [number?, Option.map_eq_some_iff] at read
  obtain ⟨⟨value, after⟩, found, same⟩ := read
  cases same
  show value.Regular
  split at found
  · rw [Option.or_eq_some_iff] at found
    rcases found with found | ⟨-, found⟩
    · simp only [nonFinite?, Option.bind_eq_bind, Option.bind_eq_some_iff] at found
      obtain ⟨_, _, found⟩ := found
      cases found
      exact .null
    · split at found
      · cases found
      · exact regular_of_decimal? found
  · split at found
    · cases found
    · exact regular_of_decimal? found
  · split at found
    · exact regular_of_decimal? found
    · exact regular_of_hexInteger? found

theorem Token.isRegular_of_punctuation? {character : Char} {token : Token}
    (mark : punctuation? character = some token) : token.IsRegular := by
  rw [punctuation?.eq_def] at mark
  split at mark <;> cases mark <;> trivial

theorem Token.isRegular_of_token? {character : Char} {text rest : List Char} {token : Token}
    (read : token? character text = some (token, rest)) : token.IsRegular := by
  rw [token?] at read
  split at read
  · next mark =>
      cases read
      exact isRegular_of_punctuation? mark
  split at read
  · simp only [quoted?, Option.bind_eq_bind, Option.bind_eq_some_iff] at read
    obtain ⟨_, _, _, _, read⟩ := read
    cases read
    trivial
  split at read
  · exact isRegular_of_number? read
  · simp only [name?, Option.bind_eq_bind, Option.bind_eq_some_iff] at read
    obtain ⟨_, _, read⟩ := read
    split at read
    · cases read
    · cases read
      trivial

theorem Token.isRegular_of_scan? {steps : Nat} {text : List Char} {tokens : List Token}
    (scanned : scan? steps text = some tokens) : ∀ token ∈ tokens, token.IsRegular := by
  induction steps, text using scan?.induct generalizing tokens with
  | case1 steps =>
      rw [scan?.eq_def] at scanned
      cases scanned
      simp
  | case2 character rest => cases scanned
  | case3 steps rest inductionHypothesis => exact inductionHypothesis scanned
  | case4 steps rest inductionHypothesis =>
      simp only [scan?, Option.bind_eq_bind, Option.bind_eq_some_iff] at scanned
      obtain ⟨after, _, scanned⟩ := scanned
      exact inductionHypothesis after scanned
  | case5 steps character rest noLine noBlock space inductionHypothesis =>
      simp only [scan?, space, if_true] at scanned
      exact inductionHypothesis scanned
  | case6 steps character rest noLine noBlock visible inductionHypothesis =>
      simp only [scan?, visible, Bool.false_eq_true, if_false, Option.bind_eq_bind,
        Option.bind_eq_some_iff] at scanned
      obtain ⟨⟨token, after⟩, read, later, scanned, same⟩ := scanned
      cases same
      exact List.forall_mem_cons.2 ⟨isRegular_of_token? read, inductionHypothesis after scanned⟩

/-- What a number of steps reads from regular tokens is regular, and the rest is some of them. -/
structure ReadsRegular (steps : Nat) : Prop where
  value {tokens rest : List Token} {value : JsonValue}
    (regular : ∀ token ∈ tokens, token.IsRegular)
    (read : readValue? steps tokens = some (value, rest)) : value.Regular ∧ rest ⊆ tokens
  elements {tokens rest : List Token} {elements : List JsonValue}
    (regular : ∀ token ∈ tokens, token.IsRegular)
    (read : readElements? steps tokens = some (elements, rest)) :
    (∀ element ∈ elements, element.Regular) ∧ rest ⊆ tokens
  members {tokens rest : List Token} {before members : List (String × JsonValue)}
    (regular : ∀ token ∈ tokens, token.IsRegular)
    (distinct : (before.map (·.1)).Nodup) (each : ∀ member ∈ before, member.2.Regular)
    (read : readMembers? steps before tokens = some (members, rest)) :
    ((members.map (·.1)).Nodup ∧ ∀ member ∈ members, member.2.Regular) ∧ rest ⊆ tokens

theorem regular_of_namedValue? {name : String} {value : JsonValue}
    (named : namedValue? name = some value) : value.Regular := by
  rw [namedValue?.eq_def] at named
  split at named <;> cases named
  · exact .null
  · exact .boolean true
  · exact .boolean false
  · exact .null
  · exact .null

namespace ReadsRegular

variable {steps : Nat} {tokens rest : List Token} {value : JsonValue} {elements : List JsonValue}
  {before members : List (String × JsonValue)}

theorem value_succ (reads : ReadsRegular steps) (regular : ∀ token ∈ tokens, token.IsRegular)
    (read : readValue? (steps + 1) tokens = some (value, rest)) :
    value.Regular ∧ rest ⊆ tokens := by
  rw [readValue?.eq_def] at read
  dsimp only at read
  split at read
  · cases read
    exact ⟨.text _, List.subset_cons_self _ _⟩
  · cases read
    exact ⟨(List.forall_mem_cons.1 regular).1, List.subset_cons_self _ _⟩
  · simp only [Option.bind_eq_bind, Option.bind_eq_some_iff] at read
    obtain ⟨found, named, same⟩ := read
    cases same
    exact ⟨regular_of_namedValue? named, List.subset_cons_self _ _⟩
  · cases read
    exact ⟨.list (by simp), List.subset_cons_of_subset _ (List.subset_cons_self _ _)⟩
  · simp only [Option.bind_eq_bind, Option.bind_eq_some_iff] at read
    obtain ⟨found, readElements, same⟩ := read
    cases same
    have ⟨each, fewer⟩ := reads.elements (List.forall_mem_cons.1 regular).2 readElements
    exact ⟨.list each, List.subset_cons_of_subset _ fewer⟩
  · cases read
    exact ⟨.object List.nodup_nil (by simp),
      List.subset_cons_of_subset _ (List.subset_cons_self _ _)⟩
  · simp only [Option.bind_eq_bind, Option.bind_eq_some_iff] at read
    obtain ⟨found, readMembers, same⟩ := read
    cases same
    have ⟨⟨distinct, each⟩, fewer⟩ := reads.members (List.forall_mem_cons.1 regular).2
      (by simp) (by simp) readMembers
    exact ⟨.object distinct each, List.subset_cons_of_subset _ fewer⟩
  · cases read

theorem elements_succ (reads : ReadsRegular steps) (regular : ∀ token ∈ tokens, token.IsRegular)
    (read : readElements? (steps + 1) tokens = some (elements, rest)) :
    (∀ element ∈ elements, element.Regular) ∧ rest ⊆ tokens := by
  simp only [readElements?, Option.bind_eq_bind, Option.bind_eq_some_iff] at read
  obtain ⟨⟨value, after⟩, readValue, read⟩ := read
  have ⟨first, fewer⟩ := reads.value regular readValue
  dsimp only at read
  split at read
  · cases read
    exact ⟨by simpa using first, List.subset_of_cons_subset fewer⟩
  · cases read
    exact ⟨by simpa using first,
      List.subset_of_cons_subset (List.subset_of_cons_subset fewer)⟩
  · next following _ =>
      simp only [Option.bind_eq_some_iff] at read
      obtain ⟨⟨others, final⟩, readOthers, same⟩ := read
      cases same
      have remaining : following ⊆ tokens := List.subset_of_cons_subset fewer
      have ⟨each, fewest⟩ := reads.elements
        (fun token inside => regular token (remaining inside)) readOthers
      exact ⟨List.forall_mem_cons.2 ⟨first, each⟩, List.Subset.trans fewest remaining⟩
  · cases read

theorem members_succ (reads : ReadsRegular steps) (regular : ∀ token ∈ tokens, token.IsRegular)
    (distinct : (before.map (·.1)).Nodup) (each : ∀ member ∈ before, member.2.Regular)
    (read : readMembers? (steps + 1) before tokens = some (members, rest)) :
    ((members.map (·.1)).Nodup ∧ ∀ member ∈ members, member.2.Regular) ∧ rest ⊆ tokens := by
  rw [readMembers?.eq_def] at read
  dsimp only at read
  split at read
  · next key following =>
      simp only [Option.bind_eq_bind, Option.bind_eq_some_iff] at read
      obtain ⟨name, _, ⟨value, after⟩, readValue, read⟩ := read
      have inside : following ⊆ key :: .colon :: following :=
        List.subset_cons_of_subset _ (List.subset_cons_self _ _)
      have ⟨first, fewer⟩ := reads.value (fun token held => regular token (inside held)) readValue
      have afterInside : after ⊆ key :: .colon :: following := List.Subset.trans fewer inside
      have stillDistinct : ((setMember name value before).map (·.1)).Nodup :=
        nodup_keys_setMember distinct
      have stillEach : ∀ member ∈ setMember name value before, member.2.Regular := by
        intro member held
        rcases mem_setMember held with rfl | earlier
        · exact first
        · exact each member earlier
      dsimp only at read
      split at read
      · cases read
        exact ⟨⟨stillDistinct, stillEach⟩, List.subset_of_cons_subset afterInside⟩
      · cases read
        exact ⟨⟨stillDistinct, stillEach⟩,
          List.subset_of_cons_subset (List.subset_of_cons_subset afterInside)⟩
      · next more _ =>
          have remaining : more ⊆ key :: .colon :: following :=
            List.subset_of_cons_subset afterInside
          have ⟨both, fewest⟩ := reads.members
            (fun token held => regular token (remaining held)) stillDistinct stillEach read
          exact ⟨both, List.Subset.trans fewest remaining⟩
      · cases read
  · cases read

end ReadsRegular

theorem readsRegular (steps : Nat) : ReadsRegular steps := by
  induction steps with
  | zero => exact ⟨nofun, nofun, nofun⟩
  | succ steps reads => exact ⟨reads.value_succ, reads.elements_succ, reads.members_succ⟩

/-- What is read from a text is regular. -/
theorem regular_of_ofText? {content : String} {value : JsonValue}
    (read : ofText? content = some value) : value.Regular := by
  simp only [ofText?, Option.bind_eq_bind, Option.bind_eq_some_iff] at read
  obtain ⟨tokens, scanned, ⟨found, rest⟩, readValue, same⟩ := read
  have regular := ((readsRegular _).value (Token.isRegular_of_scan? scanned) readValue).1
  cases rest with
  | nil =>
      cases same
      exact regular
  | cons token more => cases same

end Regularity

end AmbientStubs.JsonValue
