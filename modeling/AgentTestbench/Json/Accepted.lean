import AgentTestbench.Json.Strict

/-! # What `parse_json_text` accepts

Exactly the documents of the grammar within the size and the structural limits. What it refuses
is blamed on the limits only when the text is a document that exceeds them.
-/

namespace AgentTestbench

open AssociationList Fallible

/-! ## Failures of the structural check -/

/-- The failures that blame a limit. -/
def LimitMessage (label : Text) (failure : ValueError) : Prop :=
  failure = .value (label ++ text " exceeds the 100000-node limit.") ∨
    failure = .value (label ++ text " exceeds the 32-level nesting limit.")

/-- The failures that blame a string or a number. -/
def ContentMessage (label : Text) (failure : ValueError) : Prop :=
  failure = .unicode (label ++ text " contains invalid Unicode.") ∨
    failure = .value (label ++ text " contains a non-finite number.")

section Failures

variable {label : Text}

theorem ensureLoop_failure {budget : Nat} {stack : List (Json × Nat)} {failure : ValueError}
    (failed : ensureLoop label budget stack = .error failure) :
    LimitMessage label failure ∨
      ContentMessage label failure ∧ ∃ entry ∈ stack, ¬entry.1.Portable := by
  induction budget generalizing stack with
  | zero =>
      cases stack with
      | nil => cases failed
      | cons entry stack =>
          cases failed
          exact .inl (.inl rfl)
  | succ budget induction =>
      cases stack with
      | nil => cases failed
      | cons entry stack =>
          rcases entry with ⟨current, level⟩
          have later : ensureLoop label budget stack = .error failure →
              LimitMessage label failure ∨ ContentMessage label failure ∧
                ∃ entry ∈ (current, level) :: stack, ¬entry.1.Portable := by
            intro failed
            rcases induction failed with limit | ⟨blamed, entry, member, unfit⟩
            · exact .inl limit
            · exact .inr ⟨blamed, entry, List.mem_cons_of_mem _ member, unfit⟩
          cases current with
          | null => exact later failed
          | bool value => exact later failed
          | number value =>
              rw [ensureLoop] at failed
              split_ifs at failed with finite
              · exact later failed
              · cases failed
                exact .inr ⟨.inr rfl, _, List.mem_cons_self, fun fits => finite fits⟩
          | string value =>
              rw [ensureLoop] at failed
              split_ifs at failed with encodable
              · exact later failed
              · cases failed
                exact .inr ⟨.inl rfl, _, List.mem_cons_self, fun fits => encodable fits⟩
          | array items =>
              rw [ensureLoop] at failed
              split_ifs at failed with tooDeep
              · cases failed
                exact .inl (.inr rfl)
              · rcases induction failed with limit | ⟨blamed, entry, member, unfit⟩
                · exact .inl limit
                refine .inr ⟨blamed, ?_⟩
                rcases List.mem_append.mp member with inside | below
                · rcases List.mem_map.mp (List.mem_reverse.mp inside) with ⟨item, listed, rfl⟩
                  refine ⟨_, List.mem_cons_self, fun fits => ?_⟩
                  exact unfit (Json.portable_array_iff.mp fits item listed)
                · exact ⟨entry, List.mem_cons_of_mem _ below, unfit⟩
          | object members =>
              rw [ensureLoop] at failed
              split_ifs at failed with tooDeep keysEncodable
              · cases failed
                exact .inl (.inr rfl)
              · rcases induction failed with limit | ⟨blamed, entry, member, unfit⟩
                · exact .inl limit
                refine .inr ⟨blamed, ?_⟩
                rcases List.mem_append.mp member with inside | below
                · rcases List.mem_map.mp (List.mem_reverse.mp inside) with ⟨item, listed, rfl⟩
                  rcases List.mem_map.mp listed with ⟨pair, paired, rfl⟩
                  refine ⟨_, List.mem_cons_self, fun fits => ?_⟩
                  exact unfit ((Json.portable_object_iff.mp fits).2 pair paired)
                · exact ⟨entry, List.mem_cons_of_mem _ below, unfit⟩
              · cases failed
                refine .inr ⟨.inl rfl, _, List.mem_cons_self, fun fits => ?_⟩
                exact keysEncodable (Json.portable_object_iff.mp fits).1

private theorem depth_item_le {items : List Json} {level : Nat}
    (fits : level + (Json.array items).depth ≤ maxJsonNesting) :
    ∀ item ∈ items, level + 1 + item.depth ≤ maxJsonNesting := by
  intro item listed
  rw [Json.depth] at fits
  have bounded := Json.depthOfItems_le_iff.mp (Nat.le_refl _) item listed
  omega

private theorem depth_member_le {members : List (Text × Json)} {level : Nat}
    (fits : level + (Json.object members).depth ≤ maxJsonNesting) :
    ∀ item ∈ members.map Prod.snd, level + 1 + item.depth ≤ maxJsonNesting := by
  intro item listed
  rcases List.mem_map.mp listed with ⟨member, paired, rfl⟩
  rw [Json.depth] at fits
  have bounded := Json.depthOfMembers_le_iff.mp (Nat.le_refl _) member paired
  omega

/-- No limit is blamed on values within the limits. -/
theorem ensureLoop_failure_of_fits {budget : Nat} {stack : List (Json × Nat)}
    {failure : ValueError} (nodes : stackNodes stack ≤ budget)
    (shallow : ∀ entry ∈ stack, entry.2 + entry.1.depth ≤ maxJsonNesting)
    (failed : ensureLoop label budget stack = .error failure) : ContentMessage label failure := by
  induction budget generalizing stack with
  | zero =>
      cases stack with
      | nil => cases failed
      | cons entry stack =>
          have positive := entry.1.nodes_pos
          simp only [stackNodes, List.map_cons, List.sum_cons] at nodes
          omega
  | succ budget induction =>
      cases stack with
      | nil => cases failed
      | cons entry stack =>
          rcases entry with ⟨current, level⟩
          rw [List.forall_mem_cons] at shallow
          have total : current.nodes + stackNodes stack ≤ budget + 1 := nodes
          have later : ensureLoop label budget stack = .error failure →
              ContentMessage label failure := by
            have positive := current.nodes_pos
            exact induction (by omega) shallow.2
          cases current with
          | null => exact later failed
          | bool value => exact later failed
          | number value =>
              rw [ensureLoop] at failed
              split_ifs at failed
              · exact later failed
              · cases failed
                exact .inr rfl
          | string value =>
              rw [ensureLoop] at failed
              split_ifs at failed
              · exact later failed
              · cases failed
                exact .inl rfl
          | array items =>
              have inside := depth_item_le shallow.1
              rw [ensureLoop] at failed
              split_ifs at failed with tooDeep
              · have fits := shallow.1
                rw [Json.depth] at fits
                omega
              · apply induction ?_ ((forall_pushAll_iff _ _ _).mpr ⟨inside, shallow.2⟩) failed
                rw [Json.nodes, Json.nodesOfItems_eq] at total
                rw [stackNodes_pushAll]
                omega
          | object members =>
              have inside := depth_member_le shallow.1
              rw [ensureLoop] at failed
              split_ifs at failed with tooDeep keysEncodable
              · have fits := shallow.1
                rw [Json.depth] at fits
                omega
              · apply induction ?_ ((forall_pushAll_iff _ _ _).mpr ⟨inside, shallow.2⟩) failed
                rw [Json.nodes, Json.nodesOfMembers_eq] at total
                rw [stackNodes_pushAll, List.map_map, Function.comp_def]
                omega
              · cases failed
                exact .inl rfl

end Failures

/-! ## Accepted texts -/

/-- A text that may be parsed at all. -/
structure Admitted (content : Text) : Prop where
  encodable : content.Encodable
  short : content.utf8.length ≤ maxJsonInputBytes
  unmarked : ¬[byteOrderMark] <+: content

/-- The structural limits. -/
def WithinLimits (value : Json) : Prop :=
  value.depth ≤ maxJsonNesting ∧ value.nodes ≤ maxJsonNodes

section Parse

variable {recursion : Nat} {content : Text} {value : Json}

/-- No object of a written value repeats a key. -/
theorem Written.wellFormed {written : Text} (writes : Written value written) :
    value.WellFormed := by
  have bounded : ∀ levels : Nat, ∀ value written, Written value written → value.depth ≤ levels →
      value.WellFormed := by
    intro levels
    induction levels with
    | zero =>
        intro value written writes shallow
        cases writes with
        | array _ => cases shallow
        | object _ _ => cases shallow
        | _ => trivial
    | succ levels induction =>
        intro value written writes shallow
        cases writes with
        | @array items inside listed =>
            rw [Json.depth, Nat.add_le_add_iff_right, Json.depthOfItems_le_iff] at shallow
            have each : ∀ item ∈ items, ∃ written, Written item written :=
              listed.forall_mem fun _ written inner => ⟨written, inner⟩
            apply Json.wellFormed_array_iff.mpr
            intro item member
            rcases each item member with ⟨inner, writes⟩
            exact induction item inner writes (shallow item member)
        | @object members inside listed distinct =>
            rw [Json.depth, Nat.add_le_add_iff_right, Json.depthOfMembers_le_iff] at shallow
            have each : ∀ member ∈ members, ∃ written, Written member.2 written := by
              refine @Listed.forall_mem _ _
                (fun member : Text × Json => ∃ written, Written member.2 written) ?_ _ _ listed
              intro member written mapped
              cases mapped with
              | mk _ _ _ second => exact ⟨_, second⟩
            refine Json.wellFormed_object_iff.mpr ⟨distinct, ?_⟩
            intro member inMembers
            rcases each member inMembers with ⟨inner, writes⟩
            exact induction member.2 inner writes (shallow member inMembers)
        | _ => trivial
  exact bounded value.depth value written writes (Nat.le_refl _)

theorem Document.wellFormed (document : Document value content) : value.WellFormed := by
  rcases document with ⟨_, _, _, _, _, writes, _⟩
  exact writes.wellFormed

theorem Document.unique {other : Json} (document : Document value content)
    (second : Document other content) : value = other := by
  have read := loads_eq_ok_iff.mpr ⟨document, Nat.le_max_left value.depth other.depth⟩
  rw [loads_eq_ok_iff.mpr ⟨second, Nat.le_max_right value.depth other.depth⟩] at read
  cases read
  rfl

theorem parseJsonText_of_admitted (admitted : Admitted content) :
    parseJsonText recursion content =
      ((loads recursion content).mapError fun _ => strictFailure) >>= fun value =>
        (ensureJsonValue value (text "JSON input")).mapError limitFailure >>= fun _ =>
          .ok value := by
  rw [parseJsonText, require_of_holds admitted.encodable, ok_bind,
    require_of_holds admitted.short, ok_bind, require_of_holds admitted.unmarked, ok_bind]

private theorem admitted_of_parse (parsed : parseJsonText recursion content = .ok value) :
    Admitted content := by
  rcases bind_eq_ok_iff.mp parsed with ⟨_, encodable, parsed⟩
  rcases bind_eq_ok_iff.mp parsed with ⟨_, short, parsed⟩
  rcases bind_eq_ok_iff.mp parsed with ⟨_, unmarked, _⟩
  exact ⟨require_eq_ok_iff.mp encodable, require_eq_ok_iff.mp short,
    require_eq_ok_iff.mp unmarked⟩

/-- An accepted text is a document whose value is within the limits. -/
theorem parseJsonText_eq_ok_iff :
    parseJsonText recursion content = .ok value ↔
      Admitted content ∧ Document value content ∧ value.depth ≤ recursion ∧ WithinLimits value ∧
        value.Portable := by
  constructor
  · intro parsed
    have admitted := admitted_of_parse parsed
    rw [parseJsonText_of_admitted admitted] at parsed
    rcases bind_eq_ok_iff.mp parsed with ⟨read, loaded, parsed⟩
    rcases bind_eq_ok_iff.mp parsed with ⟨_, checked, equal⟩
    cases equal
    rcases loads_eq_ok_iff.mp (mapError_eq_ok_iff.mp loaded) with ⟨document, shallow⟩
    rcases (ensureJsonValue_eq_ok_iff _ _).mp (mapError_eq_ok_iff.mp checked) with
      ⟨nodes, depth, portable⟩
    exact ⟨admitted, document, shallow, ⟨depth, nodes⟩, portable⟩
  · rintro ⟨admitted, document, shallow, ⟨depth, nodes⟩, portable⟩
    have checked : ensureJsonValue value (text "JSON input") = .ok () :=
      (ensureJsonValue_eq_ok_iff _ _).mpr ⟨nodes, depth, portable⟩
    rw [parseJsonText_of_admitted admitted, loads_eq_ok_iff.mpr ⟨document, shallow⟩]
    rw [Except.mapError, ok_bind, checked]
    rfl

theorem limitFailure_of_limit {failure : ValueError}
    (limit : LimitMessage (text "JSON input") failure) :
    limitFailure failure = structuralFailure := by
  rcases limit with rfl | rfl <;> decide

theorem limitFailure_of_content {failure : ValueError}
    (blamed : ContentMessage (text "JSON input") failure) :
    limitFailure failure = strictFailure := by
  rcases blamed with rfl | rfl
  · rfl
  · decide

/-- A document that is refused is refused by the structural check. -/
theorem parseJsonText_of_document (admitted : Admitted content)
    (document : Document value content) (shallow : value.depth ≤ recursion)
    (refused : ¬(WithinLimits value ∧ value.Portable)) :
    ∃ failure, ensureJsonValue value (text "JSON input") = .error failure ∧
      parseJsonText recursion content = .error (limitFailure failure) := by
  rw [parseJsonText_of_admitted admitted, loads_eq_ok_iff.mpr ⟨document, shallow⟩]
  cases checked : ensureJsonValue value (text "JSON input") with
  | ok done =>
      rcases (ensureJsonValue_eq_ok_iff _ _).mp checked with ⟨nodes, depth, portable⟩
      exact absurd ⟨⟨depth, nodes⟩, portable⟩ refused
  | error failure =>
      refine ⟨failure, rfl, ?_⟩
      rw [Except.mapError, ok_bind, checked]
      rfl

end Parse

/-- `parse_json_text` accepts exactly the documents within the limits, each with the one value
it writes; a limit is blamed only on a document that exceeds it. -/
theorem parseJsonText_documents {recursion : Nat} (deep : maxJsonNesting ≤ recursion)
    (content : Text) :
    (∀ value, parseJsonText recursion content = .ok value ↔
      Admitted content ∧ Document value content ∧ WithinLimits value ∧ value.Portable) ∧
      (∀ value other, Document value content → Document other content →
        value = other ∧ value.WellFormed) ∧
      (Admitted content → ∀ value, Document value content → value.depth ≤ recursion →
        (value.Portable → ¬WithinLimits value →
          parseJsonText recursion content = .error structuralFailure) ∧
        (WithinLimits value → ¬value.Portable →
          parseJsonText recursion content = .error strictFailure)) ∧
      (Admitted content → (∀ value, Document value content → recursion < value.depth) →
        parseJsonText recursion content = .error strictFailure) ∧
      ∀ failure, Admitted content → parseJsonText recursion content = .error failure →
        failure = strictFailure ∨ failure = structuralFailure := by
  refine ⟨fun value => ?_, fun value other document second => ?_, ?_, ?_, ?_⟩
  · rw [parseJsonText_eq_ok_iff]
    constructor
    · rintro ⟨admitted, document, _, limits, portable⟩
      exact ⟨admitted, document, limits, portable⟩
    · rintro ⟨admitted, document, limits, portable⟩
      exact ⟨admitted, document, limits.1.trans deep, limits, portable⟩
  · exact ⟨document.unique second, document.wellFormed⟩
  · intro admitted value document shallow
    constructor
    · intro portable outside
      rcases parseJsonText_of_document admitted document shallow (fun both => outside both.1) with
        ⟨failure, checked, parsed⟩
      rcases ensureLoop_failure checked with limit | ⟨_, entry, single, unfit⟩
      · rw [parsed, limitFailure_of_limit limit]
      · rw [List.mem_singleton.mp single] at unfit
        exact absurd portable unfit
    · intro limits unfit
      rcases parseJsonText_of_document admitted document shallow (fun both => unfit both.2) with
        ⟨failure, checked, parsed⟩
      have total : stackNodes [(value, 0)] ≤ maxJsonNodes := limits.2
      have nested : ∀ entry ∈ [(value, 0)], entry.2 + entry.1.depth ≤ maxJsonNesting := by
        rw [List.forall_mem_singleton, Nat.zero_add]
        exact limits.1
      rw [parsed, limitFailure_of_content (ensureLoop_failure_of_fits total nested checked)]
  · intro admitted undocumented
    rw [parseJsonText_of_admitted admitted]
    cases loaded : loads recursion content with
    | ok value =>
        rcases loads_eq_ok_iff.mp loaded with ⟨document, shallow⟩
        exact absurd shallow (Nat.not_le.mpr (undocumented value document))
    | error reason => rfl
  · intro failure admitted failed
    rw [parseJsonText_of_admitted admitted] at failed
    rcases bind_eq_error_iff.mp failed with unread | ⟨value, _, failed⟩
    · rcases mapError_eq_error_iff.mp unread with ⟨_, _, rfl⟩
      exact .inl rfl
    rcases bind_eq_error_iff.mp failed with unfit | ⟨_, _, returned⟩
    · rcases mapError_eq_error_iff.mp unfit with ⟨reason, checked, rfl⟩
      rcases ensureLoop_failure checked with limit | ⟨blamed, _⟩
      · exact .inr (limitFailure_of_limit limit)
      · exact .inl (limitFailure_of_content blamed)
    · cases returned

theorem parseJsonText_documents_escapes :
    let pair := text "[1, \"\\ud83d\\ude00\"] "
    let single := text "[1, \"\\ud83d\"] "
    let lone := Json.array [.number (.integer 1), .string [0xD83D]]
    parseJsonText maxJsonNesting pair =
        .ok (.array [.number (.integer 1), .string [0x1F600]]) ∧
      Document lone single ∧ parseJsonText maxJsonNesting single = .error strictFailure := by
  intro pair single lone
  have read : Document (.array [.number (.integer 1), .string [0x1F600]]) pair :=
    (loads_eq_ok_iff.mp (by decide +kernel : loads 1 pair = .ok _)).1
  have readLone : Document lone single :=
    (loads_eq_ok_iff.mp (by decide +kernel : loads 1 single = .ok _)).1
  have portable : (Json.array [.number (.integer 1), .string [0x1F600]]).Portable :=
    ⟨trivial, rfl, (by decide : Text.Encodable [0x1F600]), trivial⟩
  have refused : ¬lone.Portable := by
    intro portable
    have encodable : Text.Encodable [0xD83D] := Json.portable_array_iff.mp portable
      (.string [0xD83D]) (List.mem_cons_of_mem _ List.mem_cons_self)
    exact absurd encodable (by decide)
  refine ⟨((parseJsonText_documents (Nat.le_refl _) pair).1 _).mpr ⟨?_, read, ?_, portable⟩,
    readLone, ?_⟩
  · exact ⟨by decide, by decide, by decide⟩
  · exact ⟨by decide, by decide⟩
  · exact ((parseJsonText_documents (Nat.le_refl _) single).2.2.1 ⟨by decide, by decide, by decide⟩
      lone readLone (by decide)).2 ⟨by decide, by decide⟩ refused

end AgentTestbench
