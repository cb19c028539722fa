import AgentTestbench.Authoring.Order
import AgentTestbench.Synthetic.Menu

/-! # Synthesis and the order of the rules

Whether a path can be given a value depends on the rules at and below it, and not on which
candidates were taken below: an object that was built there has exactly the members that the
deeper paths demand.
-/

namespace AgentTestbench

open AssociationList Fallible

/-! ## Candidates of a path -/

private theorem Constraint.isFilter_eq_false_of_domain {constraint : Constraint}
    (finite : constraint.domain ≠ none) :
    constraint.kind.isFilter = Bool.false ∧ constraint.kind ≠ .requiredField := by
  cases constraint with
  | requiredField => exact absurd rfl finite
  | type types => exact absurd rfl finite
  | range minimum maximum => exact absurd rfl finite
  | length minimum maximum => exact absurd rfl finite
  | _ =>
      refine ⟨rfl, ?_⟩
      intro equal
      cases equal

private theorem Constraint.eq_requiredField_of_domain {constraint : Constraint}
    (unfiltered : constraint.kind.isFilter = Bool.false) (free : constraint.domain = none) :
    constraint = .requiredField := by
  cases constraint with
  | requiredField => rfl
  | type types => cases unfiltered
  | range minimum maximum => cases unfiltered
  | length minimum maximum => cases unfiltered
  | _ => cases free

/-- Without a finite domain, an object is judged by the number of its members. -/
theorem Constraint.admits_object_of_length {constraint : Constraint}
    {left right : List (Text × Json)} (free : constraint.domain = none)
    (sameLength : left.length = right.length) (admits : constraint.Admits (.object left)) :
    constraint.Admits (.object right) := by
  cases constraint with
  | requiredField => trivial
  | type types => exact admits
  | range minimum maximum =>
      rcases admits with ⟨number, equal, _⟩
      cases equal
  | length minimum maximum =>
      rcases admits with ⟨length, measured, within⟩
      refine ⟨length, ?_, within⟩
      rw [Json.length?, ← sameLength]
      exact measured
  | _ => cases free

section Candidates

variable {rules : List Rule} {observed : Json}

/-- A value that satisfies all rules of a path is offered, up to equality, where the path
has a finite domain. -/
theorem candidateValues_complete (encodable : ∀ rule ∈ rules, rule.constraint.Encodable)
    (admits : ∀ rule ∈ rules, rule.constraint.Admits observed)
    (finite : ∃ rule ∈ rules, rule.constraint.domain ≠ none) :
    ∃ candidates, candidateValues rules = .ok candidates ∧
      ∃ candidate ∈ candidates, observed.Same candidate := by
  rcases finite with ⟨source, inRules, finite⟩
  have sourceKind := Constraint.isFilter_eq_false_of_domain finite
  have inFinite : source ∈ rules.filter fun rule => !rule.kind.isFilter :=
    List.mem_filter.mpr ⟨inRules, by rw [Rule.kind, sourceKind.1]; rfl⟩
  have unfiltered : ∀ rule ∈ rules.filter fun rule => !rule.kind.isFilter,
      rule.kind.isFilter = false := by
    intro rule member
    simpa using (List.mem_filter.mp member).2
  rcases finiteCandidates_complete unfiltered
    (fun rule member => admits rule (List.mem_of_mem_filter member)) with
    ⟨base, offered, _, onlyPresence | found⟩
  · have required := onlyPresence source inFinite
    rw [required] at finite
    exact absurd rfl finite
  · rcases found with ⟨candidate, member, same⟩
    rw [candidateValues, offered, ok_bind]
    by_cases noFilters : (rules.filter fun rule => rule.kind.isFilter) = []
    · rw [if_pos noFilters]
      exact ⟨base, rfl, candidate, member, same⟩
    · have notMenu : ¬((rules.filter fun rule => !rule.kind.isFilter).all fun rule =>
          rule.kind = .requiredField) = true := by
        intro presence
        exact sourceKind.2 (of_decide_eq_true (List.all_eq_true.mp presence source inFinite))
      have kept : candidate ∈ base.filter fun candidate =>
          (rules.filter fun rule => rule.kind.isFilter).all fun rule =>
            (evaluateRule rule (candidateView rule.path candidate)).passed := by
        refine List.mem_filter.mpr ⟨member, List.all_eq_true.mpr fun rule inFilters => ?_⟩
        have inAll := List.mem_of_mem_filter inFilters
        rw [evaluateRule_candidateView (encodable rule inAll)]
        exact (rule.constraint.admits_congr same).mp (admits rule inAll)
      rw [if_neg noFilters, if_neg notMenu]
      refine ⟨_, ?_, candidate, kept, same⟩
      exact bind_eq_ok_iff.mpr ⟨(), require_of_holds (List.ne_nil_of_mem kept), rfl⟩

private theorem filterMenu_perm {left right : List Rule} (perm : left.Perm right) :
    (filterMenu left).Perm (filterMenu right) := by
  have lengths := perm.filterMap fun rule => positiveMinimum? rule.constraint
  have strings := lengths.map repeatedLetter
  have arrays := (lengths.filter fun length => length < maxJsonNodes).map repeatedNull
  rw [filterMenu, filterMenu]
  refine List.Perm.append_right _ (List.Perm.append (List.Perm.append ?_ (strings.cons _))
    (arrays.cons _))
  exact List.Perm.append_left _ (perm.flatMap_right _)

/-- Without a finite domain, a path is offered `null`, or what its filters keep of the menu. -/
theorem candidateValues_of_free (free : ∀ rule ∈ rules, rule.constraint.domain = none) :
    let filters := rules.filter fun rule => rule.kind.isFilter
    let kept := (filterMenu filters).filter fun candidate => filters.all fun rule =>
      (evaluateRule rule (candidateView rule.path candidate)).passed
    candidateValues rules =
      if filters = [] then .ok [.null]
      else if kept = [] then .error (.syntheticGeneration conflictMessage) else .ok kept := by
  have required : ∀ rule ∈ rules.filter fun rule => !rule.kind.isFilter,
      rule.kind = .requiredField := by
    intro rule member
    rcases List.mem_filter.mp member with ⟨inRules, unfiltered⟩
    rw [Bool.not_eq_true'] at unfiltered
    exact congrArg Constraint.kind
      (Constraint.eq_requiredField_of_domain unfiltered (free rule inRules))
  have presence : ((rules.filter fun rule => !rule.kind.isFilter).all fun rule =>
      rule.kind = .requiredField) = true :=
    List.all_eq_true.mpr fun rule member => decide_eq_true (required rule member)
  intro filters kept
  rw [candidateValues, finiteCandidates_of_required required, ok_bind, if_pos presence]
  let narrowed : Except TestbenchError (List Json) := do
    require (kept ≠ []) (.syntheticGeneration conflictMessage)
    .ok kept
  change (if filters = [] then .ok [.null] else narrowed) = _
  by_cases empty : kept = []
  · have failed : narrowed = .error (.syntheticGeneration conflictMessage) :=
      bind_eq_error_iff.mpr (.inl (require_eq_error_iff.mpr ⟨not_not.mpr empty, rfl⟩))
    rw [if_pos empty, failed]
  · have returned : narrowed = .ok kept :=
      bind_eq_ok_iff.mpr ⟨(), require_of_holds empty, rfl⟩
    rw [if_neg empty, returned]

/-- Reordering the rules of a path offers the same candidates, up to equality. -/
theorem candidateValues_perm {left right : List Rule} {candidates : List Json}
    {candidate : Json} (encodable : ∀ rule ∈ left, rule.constraint.Encodable)
    (perm : left.Perm right) (offered : candidateValues left = .ok candidates)
    (member : candidate ∈ candidates) :
    ∃ others, candidateValues right = .ok others ∧ ∃ other ∈ others, candidate.Same other := by
  by_cases finite : ∃ rule ∈ left, rule.constraint.domain ≠ none
  · have admits := candidateValues_sound encodable offered candidate member
    rcases finite with ⟨source, inLeft, finite⟩
    exact candidateValues_complete
      (fun rule inRight => encodable rule (perm.mem_iff.mpr inRight))
      (fun rule inRight => admits rule (perm.mem_iff.mpr inRight))
      ⟨source, perm.mem_iff.mp inLeft, finite⟩
  · push Not at finite
    have filters := perm.filter fun rule => rule.kind.isFilter
    have emptiness : (left.filter fun rule => rule.kind.isFilter) = [] ↔
        (right.filter fun rule => rule.kind.isFilter) = [] :=
      ⟨fun empty => (empty ▸ filters.symm).eq_nil, fun empty => (empty ▸ filters).eq_nil⟩
    rw [candidateValues_of_free finite] at offered
    rw [candidateValues_of_free fun rule inRight => finite rule (perm.mem_iff.mpr inRight)]
    by_cases noFilters : (left.filter fun rule => rule.kind.isFilter) = []
    · rw [if_pos noFilters] at offered
      cases offered
      rw [if_pos (emptiness.mp noFilters)]
      exact ⟨_, rfl, candidate, member, rfl⟩
    · rw [if_neg noFilters] at offered
      rw [if_neg (fun empty => noFilters (emptiness.mpr empty))]
      split_ifs at offered with nothing
      cases offered
      rcases List.mem_filter.mp member with ⟨inMenu, passes⟩
      rw [filters.all_eq] at passes
      have kept : candidate ∈ (filterMenu (right.filter fun rule => rule.kind.isFilter)).filter
          fun candidate => (right.filter fun rule => rule.kind.isFilter).all fun rule =>
            (evaluateRule rule (candidateView rule.path candidate)).passed :=
        List.mem_filter.mpr ⟨(filterMenu_perm filters).mem_iff.mp inMenu, passes⟩
      rw [if_neg (List.ne_nil_of_mem kept)]
      exact ⟨_, rfl, candidate, kept, rfl⟩

end Candidates

/-! ## Feasible paths -/

def rulesAt (policy : Policy) (path : Text) : List Rule :=
  policy.rules.filter fun rule => rule.path = path

/-- The members of an object that only the rules below its path have led to. -/
structure DemandedMembers (policy : Policy) (path : Text) (members : List (Text × Json)) :
    Prop where
  distinct : (keys members).Nodup
  mem_iff : ∀ key, key ∈ keys members ↔
    ∃ rule ∈ policy.rules, path.splitStops ++ [key] <+: rule.path.splitStops

/-- Some candidate of a path satisfies every rule below it. -/
def Selectable (policy : Policy) (path : Text) : Prop :=
  ∃ candidates, candidateValues (rulesAt policy path) = .ok candidates ∧
    ∃ candidate ∈ candidates, ∀ rule ∈ policy.rules, extendsPath path rule.path = true →
      rule.SatisfiedBy (candidateView path candidate)

/-- Whatever object the rules below a path have led to satisfies the rules of the path. -/
def Shapable (policy : Policy) (path : Text) : Prop :=
  (∃ rule ∈ policy.rules, extendsPath path rule.path = true) ∧
    ∀ members, DemandedMembers policy path members →
      ∀ rule ∈ rulesAt policy path, rule.constraint.Admits (.object members)

def Feasible (policy : Policy) (path : Text) : Prop :=
  Selectable policy path ∨ Shapable policy path

section Reordering

variable {policy reordered : Policy} (perm : policy.rules.Perm reordered.rules) {path : Text}

include perm

theorem DemandedMembers.reorder {members : List (Text × Json)}
    (demanded : DemandedMembers reordered path members) : DemandedMembers policy path members where
  distinct := demanded.distinct
  mem_iff := fun key => (demanded.mem_iff key).trans
    (exists_congr fun _ => and_congr_left fun _ => perm.mem_iff.symm)

theorem Selectable.reorder (valid : policy.Valid) (selectable : Selectable policy path) :
    Selectable reordered path := by
  rcases selectable with ⟨candidates, offered, candidate, member, below⟩
  have encodable : ∀ rule ∈ rulesAt policy path, rule.constraint.Encodable :=
    fun rule inGroup => (valid.rules rule (List.mem_of_mem_filter inGroup)).constraint.encodable
  rcases candidateValues_perm encodable (perm.filter _) offered member with
    ⟨others, otherOffered, other, inOthers, same⟩
  refine ⟨others, otherOffered, other, inOthers, fun rule inRules extension => ?_⟩
  rw [← rule.satisfiedBy_congr (candidateView_same same path)]
  exact below rule (perm.mem_iff.mpr inRules) extension

theorem Shapable.reorder (shapable : Shapable policy path) : Shapable reordered path := by
  rcases shapable with ⟨⟨child, member, extension⟩, admits⟩
  refine ⟨⟨child, perm.mem_iff.mp member, extension⟩, ?_⟩
  intro members demanded rule inGroup
  exact admits members (demanded.reorder perm) rule ((perm.filter _).mem_iff.mpr inGroup)

theorem Feasible.reorder (valid : policy.Valid) (feasible : Feasible policy path) :
    Feasible reordered path :=
  feasible.imp (Selectable.reorder perm valid) (Shapable.reorder perm)

end Reordering

theorem DemandedMembers.length_eq {policy : Policy} {path : Text}
    {left right : List (Text × Json)} (leftDemanded : DemandedMembers policy path left)
    (rightDemanded : DemandedMembers policy path right) : left.length = right.length := by
  have sameKeys : (keys left).Perm (keys right) := by
    rw [List.perm_ext_iff_of_nodup leftDemanded.distinct rightDemanded.distinct]
    intro key
    rw [leftDemanded.mem_iff, rightDemanded.mem_iff]
  rw [← List.length_map Prod.fst, sameKeys.length_eq, List.length_map]

/-! ## What has been built -/

/-- Outside the values that were placed for rules, there are only the objects on the way
to them. -/
def Shaped (constructed : List Rule) (members : List (Text × Json)) : Prop :=
  ∀ segments value, (∀ rule ∈ constructed, ¬rule.path.splitStops <+: segments) →
    (Json.object members).resolve segments = some value →
    (segments = [] ∨ ∃ rule ∈ constructed, segments <+: rule.path.splitStops) ∧
      ∃ inner, value = .object inner ∧ (keys inner).Nodup

private theorem shaped_nil : Shaped [] [] := by
  intro segments value _ resolved
  cases segments with
  | nil =>
      cases resolved
      exact ⟨.inl rfl, [], rfl, List.nodup_nil⟩
  | cons segment rest => cases resolved

section Shaped

variable {constructed added : List Rule} {members : List (Text × Json)}
  (shaped : Shaped constructed members)

include shaped

theorem Shaped.extend : Shaped (constructed ++ added) members := by
  intro segments value outside resolved
  have shape := shaped segments value
    (fun rule member => outside rule (List.mem_append_left _ member)) resolved
  refine ⟨shape.1.imp_right fun leads => ?_, shape.2⟩
  rcases leads with ⟨rule, member, above⟩
  exact ⟨rule, List.mem_append_left _ member, above⟩

theorem Shaped.assign {path : Text} {value : Json} {result : List (Text × Json)}
    (nonempty : added ≠ []) (atPath : ∀ rule ∈ added, rule.path = path)
    (assigned : assignSegments value path.splitStops members = .ok result) :
    Shaped (constructed ++ added) result := by
  intro segments found outside resolved
  rw [List.forall_mem_append] at outside
  rcases List.exists_mem_of_ne_nil _ nonempty with ⟨source, inAdded⟩
  have notBelow : ¬path.splitStops <+: segments := by
    rw [← atPath source inAdded]
    exact outside.2 source inAdded
  by_cases above : segments <+: path.splitStops
  · rcases above with ⟨rest, split⟩
    have restNonempty : rest ≠ [] := by
      intro empty
      rw [empty, List.append_nil] at split
      exact notBelow (split ▸ List.prefix_refl _)
    rcases List.exists_cons_of_ne_nil restNonempty with ⟨segment, others, rfl⟩
    rw [← split] at assigned
    rcases Json.resolve_assignSegments_container assigned with
      ⟨existing, child, container, object⟩
    have distinct : (keys existing).Nodup := by
      cases before : (Json.object members).resolve segments with
      | none =>
          rw [before] at container
          cases container
          exact List.nodup_nil
      | some old =>
          rcases (shaped segments old outside.1 before).2 with ⟨inner, equal, innerDistinct⟩
          rw [before, equal] at container
          cases container
          exact innerDistinct
    refine ⟨.inr ⟨source, List.mem_append_right _ inAdded, ?_⟩, _,
      Option.some.inj (resolved.symm.trans object), keys_insert_nodup distinct child⟩
    rw [atPath source inAdded, ← split]
    exact List.prefix_append _ _
  · rw [Json.resolve_assignSegments_of_diverge assigned above notBelow] at resolved
    have shape := shaped segments found outside.1 resolved
    refine ⟨shape.1.imp_right fun leads => ?_, shape.2⟩
    rcases leads with ⟨rule, member, leads⟩
    exact ⟨rule, List.mem_append_left _ member, leads⟩

end Shaped

/-! ## One round -/

section Rounds

variable {policy : Policy} {state : SyntheticState} {entry : Text × List Rule}
  (inGroups : entry ∈ group Rule.path policy.rules)
  (built : Built policy entry.1.splitStops.length state)
  (shaped : Shaped state.constructedRules state.passingResponse)
  (fresh : ∀ rule ∈ state.constructedRules, rule.path ≠ entry.1)
  (complete : ∀ rule ∈ policy.rules, extendsPath entry.1 rule.path = true →
    rule ∈ state.constructedRules)

include inGroups in
theorem entry_eq_rulesAt : entry.2 = rulesAt policy entry.1 :=
  (mem_group_iff.mp (show (entry.1, entry.2) ∈ _ from inGroups)).1

include built fresh in
/-- Nothing has been placed at or above the path of a round. -/
theorem not_prefix_of_fresh :
    ∀ rule ∈ state.constructedRules, ¬rule.path.splitStops <+: entry.1.splitStops := by
  intro rule member above
  have equal := above.eq_of_length_le (built.deep rule member)
  exact fresh rule member (Text.splitStops_injective equal)

include built complete in
/-- Below a path with deeper rules an object has been built. -/
theorem exists_getField_of_extended
    (extended : ∃ rule ∈ policy.rules, extendsPath entry.1 rule.path = true) :
    ∃ value, getField (.object state.passingResponse) entry.1 = some value := by
  rcases extended with ⟨rule, declared, extension⟩
  rcases built.satisfied rule (complete rule declared extension) with ⟨observed, found, _⟩
  rcases extendsPath_iff.mp extension with ⟨rest, _, split⟩
  rw [getField, split, Json.resolve_append, Option.bind_eq_some_iff] at found
  rcases found with ⟨value, above, _⟩
  exact ⟨value, above⟩

include built shaped fresh complete in
/-- What has been built at the path of a round is demanded by the deeper rules. -/
theorem demanded_of_getField {value : Json}
    (found : getField (.object state.passingResponse) entry.1 = some value) :
    (∃ rule ∈ policy.rules, extendsPath entry.1 rule.path = true) ∧
      ∃ inner, value = .object inner ∧ DemandedMembers policy entry.1 inner := by
  have outside := not_prefix_of_fresh built fresh
  have shape := shaped _ value outside found
  rcases shape with ⟨leads, inner, rfl, distinct⟩
  have keyFound : ∀ key, key ∈ keys inner ↔
      ∃ child, (Json.object state.passingResponse).resolve (entry.1.splitStops ++ [key]) =
        some child := by
    intro key
    have resolved : (Json.object state.passingResponse).resolve entry.1.splitStops =
        some (.object inner) := found
    rw [Json.resolve_append, resolved, ← lookup_isSome_iff_mem_keys, Option.isSome_iff_exists]
    exact exists_congr fun child => by
      rw [Option.bind_some, Json.resolve_cons, Json.member?_object]
      simp
  constructor
  · rcases leads with empty | ⟨rule, member, above⟩
    · exact absurd empty (Text.splitStops_ne_nil _)
    · rcases above with ⟨rest, split⟩
      refine ⟨rule, built.declared rule member, extendsPath_iff.mpr ⟨rest, ?_, split.symm⟩⟩
      intro nothing
      rw [nothing, List.append_nil] at split
      exact fresh rule member (Text.splitStops_injective split.symm)
  · refine ⟨inner, rfl, distinct, fun key => ?_⟩
    rw [keyFound]
    constructor
    · intro resolved
      rcases resolved with ⟨child, resolved⟩
      by_cases placed : ∃ rule ∈ state.constructedRules,
          rule.path.splitStops <+: entry.1.splitStops ++ [key]
      · rcases placed with ⟨rule, member, above⟩
        rcases List.prefix_concat_iff.mp above with equal | shorter
        · exact ⟨rule, built.declared rule member, equal ▸ List.prefix_refl _⟩
        · exact absurd shorter (outside rule member)
      · push Not at placed
        rcases (shaped _ child placed resolved).1 with empty | ⟨rule, member, above⟩
        · exact absurd empty (by simp)
        · exact ⟨rule, built.declared rule member, above⟩
    · intro demanded
      rcases demanded with ⟨rule, declared, rest, split⟩
      have extension : extendsPath entry.1 rule.path = true :=
        extendsPath_iff.mpr ⟨[key] ++ rest, by simp, by rw [← split, List.append_assoc]⟩
      rcases built.satisfied rule (complete rule declared extension) with ⟨observed, below, _⟩
      rw [getField, ← split, Json.resolve_append, Option.bind_eq_some_iff] at below
      rcases below with ⟨child, resolved, _⟩
      exact ⟨child, resolved⟩

include inGroups shaped in
theorem shaped_of_buildPath {next : SyntheticState} (ran : buildPath state entry = .ok next) :
    Shaped next.constructedRules next.passingResponse := by
  rcases mem_group_of_entry inGroups with ⟨nonempty, atPath⟩
  have step := buildPath_step state entry
  rw [ran] at step
  cases step with
  | kept passes => exact shaped.extend
  | assigned offered chosen below placed =>
      exact shaped.assign nonempty (fun rule member => (atPath rule member).2)
        (assignPath_eq_ok_iff.mp placed)

variable (valid : policy.Valid)

include inGroups built shaped fresh complete valid

/-- A round that returns shows its path to be feasible. Where it keeps an object that a
finite domain lists, the domain offers that object to every other order of the rules. -/
theorem feasible_of_buildPath {next : SyntheticState}
    (ran : buildPath state entry = .ok next) : Feasible policy entry.1 := by
  rcases mem_group_of_entry inGroups with ⟨nonempty, atPath⟩
  have grouping := entry_eq_rulesAt inGroups
  have encodable : ∀ rule ∈ policy.rules, rule.constraint.Encodable :=
    fun rule member => (valid.rules rule member).constraint.encodable
  have decides : ∀ rule ∈ policy.rules, ∀ view : Json,
      (evaluateRule rule view).passed = true ↔ rule.SatisfiedBy view :=
    fun rule member => evaluateRule_passed_iff (encodable rule member)
  have step := buildPath_step state entry
  rw [ran] at step
  cases step with
  | kept passes =>
      have satisfied : ∀ rule ∈ entry.2, rule.SatisfiedBy (.object state.passingResponse) :=
        fun rule member => (decides rule (atPath rule member).1 _).mp (passes rule member)
      rcases List.exists_mem_of_ne_nil _ nonempty with ⟨first, inEntry⟩
      rcases satisfied first inEntry with ⟨observed, found, _⟩
      rw [(atPath first inEntry).2] at found
      have admits : ∀ rule ∈ entry.2, rule.constraint.Admits observed := by
        intro rule member
        rcases satisfied rule member with ⟨other, otherFound, admitted⟩
        rw [(atPath rule member).2, found] at otherFound
        exact Option.some.inj otherFound ▸ admitted
      by_cases finite : ∃ rule ∈ entry.2, rule.constraint.domain ≠ none
      · left
        rcases candidateValues_complete
          (fun rule member => encodable rule (atPath rule member).1) admits finite with
          ⟨candidates, offered, candidate, member, same⟩
        refine ⟨candidates, grouping ▸ offered, candidate, member,
          fun rule declared extension => ?_⟩
        rw [← rule.satisfiedBy_congr (candidateView_same same entry.1)]
        rcases built.satisfied rule (complete rule declared extension) with ⟨value, below, admitted⟩
        rcases extendsPath_iff.mp extension with ⟨rest, _, split⟩
        rw [getField, split, Json.resolve_append, ← getField, found] at below
        refine ⟨value, ?_, admitted⟩
        rw [getField_candidateView_extends observed split]
        exact below
      · right
        push Not at finite
        rcases demanded_of_getField built shaped fresh complete found with
          ⟨extended, inner, rfl, demanded⟩
        refine ⟨extended, fun members otherDemanded rule member => ?_⟩
        rw [← grouping] at member
        exact Constraint.admits_object_of_length (finite rule member)
          (demanded.length_eq otherDemanded) (admits rule member)
  | @assigned candidates value result work offered chosen below placed =>
      left
      refine ⟨candidates, grouping ▸ offered, value, chosen, fun rule declared extension => ?_⟩
      exact (decides rule declared _).mp (below rule (complete rule declared extension) extension)

omit valid in
/-- A round on a feasible path fails at most at the work limit. -/
theorem Round.eq_workLimit_of_feasible {failure : TestbenchError}
    (round : Round policy state entry (.error failure)) (feasible : Feasible policy entry.1) :
    failure = workLimitError := by
  have grouping := entry_eq_rulesAt inGroups
  have notShapable : (¬∀ rule ∈ entry.2, rule.SatisfiedBy (.object state.passingResponse)) →
      ¬Shapable policy entry.1 := by
    intro unsatisfied shapable
    rcases exists_getField_of_extended built complete shapable.1 with ⟨value, found⟩
    rcases (demanded_of_getField built shaped fresh complete found).2 with
      ⟨inner, rfl, demanded⟩
    apply unsatisfied
    intro rule member
    refine ⟨.object inner, ?_, shapable.2 inner demanded rule (grouping ▸ member)⟩
    rw [((mem_group_of_entry inGroups).2 rule member).2]
    exact found
  cases round with
  | workLimit => rfl
  | conflict unsatisfied failed =>
      rcases feasible.resolve_right (notShapable unsatisfied) with ⟨candidates, offered, _⟩
      rw [← grouping, failed] at offered
      cases offered
  | unverified unsatisfied offered missed =>
      rcases feasible.resolve_right (notShapable unsatisfied) with
        ⟨candidates, others, candidate, member, below⟩
      rw [← grouping, offered] at others
      cases others
      rcases missed candidate member with ⟨rule, constructed, extension, fails⟩
      exact absurd (below rule (built.declared rule constructed) extension) fails

end Rounds

/-! ## All rounds -/

section Runs

variable {policy : Policy} (valid : policy.Valid) {state : SyntheticState}

include valid

/-- The loop returns with every path feasible, stops at the work limit, or stops over an
infeasible path. Deeper paths come first, so every round has all rules below its path. -/
theorem buildPaths_feasible {level : Nat} {entries : List (Text × List Rule)}
    (grouped : ∀ entry ∈ entries, entry ∈ group Rule.path policy.rules)
    (ordered : entries.Pairwise fun left right =>
      right.1.splitStops.length ≤ left.1.splitStops.length)
    (distinct : (keys entries).Nodup) (built : Built policy level state)
    (shaped : Shaped state.constructedRules state.passingResponse)
    (shallow : ∀ entry ∈ entries, entry.1.splitStops.length ≤ level)
    (fresh : ∀ entry ∈ entries, ∀ rule ∈ state.constructedRules, rule.path ≠ entry.1)
    (covered : ∀ rule ∈ policy.rules, rule ∈ state.constructedRules ∨ rule.path ∈ keys entries) :
    (∃ final, entries.foldlM buildPath state = .ok final ∧
      ∀ entry ∈ entries, Feasible policy entry.1) ∨
    ∃ failure, entries.foldlM buildPath state = .error failure ∧
      (failure = workLimitError ∨ ∃ entry ∈ entries, ¬Feasible policy entry.1) := by
  induction entries generalizing level state with
  | nil => exact .inl ⟨state, rfl, List.forall_mem_nil _⟩
  | cons entry entries induction =>
      rw [List.forall_mem_cons] at grouped shallow fresh
      rw [List.pairwise_cons] at ordered
      rw [keys, List.map_cons, List.nodup_cons] at distinct
      rw [List.foldlM_cons]
      have here := built.mono shallow.1
      have atPath := mem_group_of_entry grouped.1
      have complete : ∀ rule ∈ policy.rules, extendsPath entry.1 rule.path = true →
          rule ∈ state.constructedRules := by
        intro rule declared extension
        rcases extendsPath_iff.mp extension with ⟨rest, restNonempty, split⟩
        have longer : entry.1.splitStops.length < rule.path.splitStops.length := by
          have positive := List.length_pos_of_ne_nil restNonempty
          rw [split, List.length_append]
          omega
        rcases covered rule declared with constructed | later
        · exact constructed
        · rcases List.mem_map.mp later with ⟨other, inEntries, equal⟩
          rcases List.mem_cons.mp inEntries with rfl | inRest
          · rw [equal] at longer
            exact absurd longer (Nat.lt_irrefl _)
          · have shallower := ordered.1 other inRest
            rw [equal] at shallower
            omega
      have round := buildPath_round valid grouped.1 here fresh.1
      cases ran : buildPath state entry with
      | error failure =>
          rw [ran] at round
          refine .inr ⟨failure, rfl, ?_⟩
          by_cases feasible : Feasible policy entry.1
          · exact .inl (round.eq_workLimit_of_feasible grouped.1 here shaped fresh.1 complete
              feasible)
          · exact .inr ⟨entry, List.mem_cons_self, feasible⟩
      | ok next =>
          have feasible := feasible_of_buildPath grouped.1 here shaped fresh.1 complete valid ran
          have nextShaped := shaped_of_buildPath grouped.1 shaped ran
          rw [ran] at round
          cases round with
          | extended nextBuilt nextRules =>
              have nextFresh : ∀ other ∈ entries, ∀ rule ∈ next.constructedRules,
                  rule.path ≠ other.1 := by
                intro other inEntries
                rw [nextRules, List.forall_mem_append]
                refine ⟨fresh.2 other inEntries, fun rule member equal => ?_⟩
                rw [(atPath.2 rule member).2] at equal
                exact distinct.1 (equal ▸ List.mem_map_of_mem inEntries)
              have nextCovered : ∀ rule ∈ policy.rules,
                  rule ∈ next.constructedRules ∨ rule.path ∈ keys entries := by
                intro rule declared
                rw [nextRules, List.mem_append]
                rcases covered rule declared with constructed | later
                · exact .inl (.inl constructed)
                · rcases List.mem_cons.mp later with here | inRest
                  · left
                    right
                    rw [entry_eq_rulesAt grouped.1]
                    exact List.mem_filter.mpr ⟨declared, decide_eq_true here⟩
                  · exact .inr inRest
              rcases induction grouped.2 ordered.2 distinct.2 nextBuilt nextShaped ordered.1
                nextFresh nextCovered with returned | stopped
              · rcases returned with ⟨final, finalRan, rest⟩
                exact .inl ⟨final, finalRan, List.forall_mem_cons.mpr ⟨feasible, rest⟩⟩
              · rcases stopped with ⟨failure, failed, reason⟩
                refine .inr ⟨failure, failed, reason.imp_right fun infeasible => ?_⟩
                rcases infeasible with ⟨other, inRest, infeasible⟩
                exact ⟨other, List.mem_cons_of_mem _ inRest, infeasible⟩

private theorem orderedPaths_feasible :
    (∃ final, (orderedPaths (group Rule.path policy.rules)).foldlM buildPath {} = .ok final ∧
      ∀ rule ∈ policy.rules, Feasible policy rule.path) ∨
    ∃ failure, (orderedPaths (group Rule.path policy.rules)).foldlM buildPath {} =
        .error failure ∧
      (failure = workLimitError ∨ ∃ rule ∈ policy.rules, ¬Feasible policy rule.path) := by
  let entries := orderedPaths (group Rule.path policy.rules)
  have perm : entries.Perm (group Rule.path policy.rules) := orderedPaths_perm _
  have grouped : ∀ entry ∈ entries, entry ∈ group Rule.path policy.rules :=
    fun entry member => perm.mem_iff.mp member
  have covered : ∀ rule ∈ policy.rules, rule.path ∈ keys entries := by
    intro rule member
    rw [(perm.map Prod.fst).mem_iff]
    exact mem_keys_group.mpr ⟨rule, member, rfl⟩
  rcases buildPaths_feasible valid grouped (orderedPaths_pairwise _)
    ((perm.map Prod.fst).nodup_iff.mpr (group_keys_nodup _ _))
    (built_initial policy (entries.map fun entry => entry.1.splitStops.length).sum) shaped_nil
    (fun entry member => List.single_le_sum (by simp) _ (List.mem_map_of_mem member))
    (fun _ _ => List.forall_mem_nil _) (fun rule member => .inr (covered rule member)) with
    returned | stopped
  · rcases returned with ⟨final, ran, feasible⟩
    refine .inl ⟨final, ran, fun rule member => ?_⟩
    rcases List.mem_map.mp (covered rule member) with ⟨entry, inEntries, equal⟩
    exact equal ▸ feasible entry inEntries
  · rcases stopped with ⟨failure, failed, reason⟩
    refine .inr ⟨failure, failed, reason.imp_right fun infeasible => ?_⟩
    rcases infeasible with ⟨entry, inEntries, infeasible⟩
    rcases mem_group_of_entry (grouped entry inEntries) with ⟨nonempty, atPath⟩
    rcases List.exists_mem_of_ne_nil _ nonempty with ⟨rule, member⟩
    exact ⟨rule, (atPath rule member).1, (atPath rule member).2 ▸ infeasible⟩

end Runs

/-- Synthesis returns, stops at one of its two limits, or has met an infeasible path. -/
theorem generateSyntheticCases_feasible {input : PolicyInput} {policy : Policy}
    (validated : validatePolicy input = .ok policy) :
    (∃ bundle, generateSyntheticCases input = .ok bundle ∧
      ∀ rule ∈ policy.rules, Feasible policy rule.path) ∨
    ∃ failure, generateSyntheticCases input = .error failure ∧
      (failure ∈ [workLimitError, .syntheticGeneration structuralLimitMessage] ∨
        ∃ rule ∈ policy.rules, ¬Feasible policy rule.path) := by
  have valid := valid_of_validatePolicy validated
  rcases orderedPaths_feasible valid with returned | stopped
  · rcases returned with ⟨state, ran, feasible⟩
    rcases orderedPaths_run valid (List.append_nil _).symm with built | failed
    · rcases built with ⟨final, reached, finalRan, built, rules⟩
      cases ran.symm.trans finalRan
      have satisfied : ∀ rule ∈ policy.rules,
          rule.SatisfiedBy (.object state.passingResponse) := by
        intro rule member
        apply built.satisfied
        rw [rules]
        exact mem_orderedPaths member
      rcases generateSyntheticCases_of_built validated ran satisfied with
        ⟨deleted, _, atLimit | finished⟩
      · exact .inr ⟨_, atLimit.2, .inl (by simp)⟩
      · exact .inl ⟨_, finished.2.2.2.2, feasible⟩
    · rcases failed with ⟨failure, _, _, failed, _⟩
      cases ran.symm.trans failed
  · rcases stopped with ⟨failure, failed, reason⟩
    refine .inr ⟨failure, ?_, reason.imp_left fun atLimit => by simp [atLimit]⟩
    rw [generateSyntheticCases, validated, ok_bind, failed]
    rfl

/-- Short of the two limits, synthesis succeeds exactly when every path is feasible. -/
theorem generateSyntheticCases_isOk_iff {input : PolicyInput} {policy : Policy}
    (validated : validatePolicy input = .ok policy)
    (unlimited : ∀ limit ∈ [workLimitError, .syntheticGeneration structuralLimitMessage],
      generateSyntheticCases input ≠ .error limit) :
    (∃ bundle, generateSyntheticCases input = .ok bundle) ↔
      ∀ rule ∈ policy.rules, Feasible policy rule.path := by
  rcases generateSyntheticCases_feasible validated with returned | stopped
  · rcases returned with ⟨bundle, ran, feasible⟩
    exact iff_of_true ⟨bundle, ran⟩ feasible
  · rcases stopped with ⟨failure, failed, atLimit | infeasible⟩
    · exact absurd failed (unlimited failure atLimit)
    · apply iff_of_false
      · intro returned
        rcases returned with ⟨bundle, ran⟩
        cases ran.symm.trans failed
      · intro feasible
        rcases infeasible with ⟨rule, member, infeasible⟩
        exact infeasible (feasible rule member)

/-- Whether synthesis succeeds does not depend on the order of the rules, unless one of the
orders stops at the work limit or the structural limits. -/
theorem generateSyntheticCases_order_independent {input : PolicyInput} {policy : Policy}
    {rules : List Rule} (validated : validatePolicy input = .ok policy)
    (perm : rules.Perm policy.rules) :
    validatePolicy (.object (policy.withRules rules).toObject) = .ok (policy.withRules rules) ∧
    ∀ reordered, validatePolicy reordered = .ok (policy.withRules rules) →
      (∀ limit ∈ [workLimitError, .syntheticGeneration structuralLimitMessage],
        generateSyntheticCases input ≠ .error limit ∧
          generateSyntheticCases reordered ≠ .error limit) →
      ((∃ bundle, generateSyntheticCases input = .ok bundle) ↔
        ∃ bundle, generateSyntheticCases reordered = .ok bundle) := by
  have valid := valid_of_validatePolicy validated
  refine ⟨(valid.withRules perm).validate_toObject, ?_⟩
  intro reordered reorderedValidated unlimited
  rw [generateSyntheticCases_isOk_iff validated fun limit listed => (unlimited limit listed).1,
    generateSyntheticCases_isOk_iff reorderedValidated
      fun limit listed => (unlimited limit listed).2]
  constructor
  · intro feasible rule member
    exact (feasible rule (perm.mem_iff.mp member)).reorder perm.symm valid
  · intro feasible rule member
    exact (feasible rule (perm.mem_iff.mpr member)).reorder perm (valid.withRules perm)

def choicePolicy : Policy :=
  ⟨text "choice", [⟨text "wide", text "a", .oneOf [.null,
      .object [(text "b", .number (.integer 1)), (text "c", .null)],
      .object [(text "b", .number (.integer 1))]]⟩,
    ⟨text "narrow", text "a", .oneOf [.object [(text "b", .number (.integer 1))],
      .object [(text "c", .null), (text "b", .number (.integer 1))]]⟩,
    ⟨text "inner", text "a.b", .equals (.number (.integer 1))⟩], .version1_0⟩

theorem generateSyntheticCases_order_independent_choice :
    let reversed := choicePolicy.withRules choicePolicy.rules.reverse
    (∃ bundle, generateSyntheticCases (.object choicePolicy.toObject) = .ok bundle) ↔
      ∃ bundle, generateSyntheticCases (.object reversed.toObject) = .ok bundle := by
  have independent := generateSyntheticCases_order_independent
    (show validatePolicy (.object choicePolicy.toObject) = .ok choicePolicy by decide +kernel)
    (List.reverse_perm choicePolicy.rules)
  exact independent.2 _ independent.1 (by decide +kernel)

end AgentTestbench
