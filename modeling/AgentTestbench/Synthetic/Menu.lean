import AgentTestbench.Semantics
import AgentTestbench.Synthetic.Complete

/-! # Completeness of the menu

On a path with only type, range and length rules, the fixed menu holds a satisfying value
whenever one exists that is not a non-empty object or an over-long array.
-/

namespace AgentTestbench

open AssociationList Fallible

/-! ## Bounds -/

namespace Bound

theorem le_integer_iff (bound : Bound) (value : Int) :
    bound.toNumber.le (.integer value) = true ↔ bound.ceil ≤ value := by
  have positive : (0 : Int) < binary64Unit := by exact_mod_cast binary64Unit_pos
  cases bound with
  | integer bound => exact decide_eq_true_iff
  | float bound =>
      rw [toNumber, Number.le, decide_eq_true_iff, ceil, neg_le,
        Int.le_ediv_iff_mul_le positive, Int.neg_mul, Int.neg_le_neg_iff]

theorem integer_le_iff (bound : Bound) (value : Int) :
    (Number.integer value).le bound.toNumber = true ↔ value ≤ bound.floor := by
  have positive : (0 : Int) < binary64Unit := by exact_mod_cast binary64Unit_pos
  cases bound with
  | integer bound => exact decide_eq_true_iff
  | float bound =>
      rw [toNumber, Number.le, decide_eq_true_iff, floor, Int.le_ediv_iff_mul_le positive]

theorem le_iff_exact (left right : Bound) :
    left.toNumber.le right.toNumber = true ↔ left.toNumber.exact ≤ right.toNumber.exact :=
  Number.le_iff_exact left.toNumber_isFinite right.toNumber_isFinite

/-- Bounds around any number, even a non-finite one, are in order. -/
theorem le_of_around {lower upper : Bound} {number : Number}
    (below : lower.toNumber.le number = true) (above : number.le upper.toNumber = true) :
    lower.toNumber.le upper.toNumber = true := by
  by_cases finite : number.isFinite = true
  · rw [Number.le_iff_exact lower.toNumber_isFinite finite] at below
    rw [Number.le_iff_exact finite upper.toNumber_isFinite] at above
    exact (le_iff_exact lower upper).mpr (below.trans above)
  · cases number with
    | integer value => exact absurd rfl finite
    | float value =>
        cases value with
        | finite value => exact absurd rfl finite
        | nan => cases lower <;> cases below
        | infinite negative =>
            cases negative with
            | true => cases lower <;> cases below
            | false => cases upper <;> cases above

end Bound

theorem exists_greatest {Item Rank : Type} [DecidableEq Item] [LinearOrder Rank]
    (rank : Item → Rank) {items : List Item} (nonempty : items ≠ []) :
    ∃ greatest ∈ items, ∀ item ∈ items, rank item ≤ rank greatest := by
  rcases items.toFinset.exists_max_image rank (List.toFinset_nonempty_iff _ |>.mpr nonempty) with
    ⟨greatest, member, above⟩
  exact ⟨greatest, List.mem_toFinset.mp member,
    fun item inItems => above item (List.mem_toFinset.mpr inItems)⟩

/-! ## What filters look at -/

namespace Constraint

def lower? : Constraint → Option Bound
  | .range minimum _ => minimum
  | _ => none

def upper? : Constraint → Option Bound
  | .range _ maximum => maximum
  | _ => none

def shortest? : Constraint → Option Nat
  | .length minimum _ => minimum
  | _ => none

variable {constraint : Constraint}

theorem admits_number {observed candidate : Number} (isFilter : constraint.kind.isFilter = true)
    (admits : constraint.Admits (.number observed))
    (types : ∀ types, typeMatches (.number observed) types = true →
      typeMatches (.number candidate) types = true)
    (lower : ∀ bound ∈ constraint.lower?, bound.toNumber.le candidate = true)
    (upper : ∀ bound ∈ constraint.upper?, candidate.le bound.toNumber = true) :
    constraint.Admits (.number candidate) := by
  cases constraint with
  | type names => exact types names admits
  | range minimum maximum =>
      refine ⟨candidate, rfl, ?_⟩
      rw [withinRange, Bool.and_eq_true]
      constructor
      · cases minimum with
        | none => rfl
        | some bound => exact lower bound rfl
      · cases maximum with
        | none => rfl
        | some bound => exact upper bound rfl
  | length minimum maximum =>
      rcases admits with ⟨length, measured, _⟩
      cases measured
  | _ => cases isFilter

/-- The bounds of a constraint that admits a number are around it. -/
theorem around_of_admits {observed : Number} (admits : constraint.Admits (.number observed)) :
    (∀ bound ∈ constraint.lower?, bound.toNumber.le observed = true) ∧
      ∀ bound ∈ constraint.upper?, observed.le bound.toNumber = true := by
  cases constraint with
  | range minimum maximum =>
      rcases admits with ⟨number, equal, within⟩
      cases equal
      rw [withinRange, Bool.and_eq_true] at within
      constructor
      · intro bound declared
        cases declared
        exact within.1
      · intro bound declared
        cases declared
        exact within.2
  | _ =>
      constructor
      all_goals
        intro bound declared
        cases declared

theorem admits_sized {observed candidate : Json} {size length : Nat}
    (isFilter : constraint.kind.isFilter = true) (admits : constraint.Admits observed)
    (sameType : candidate.jsonTypeName = observed.jsonTypeName)
    (observedLength : observed.length? = some size)
    (candidateLength : candidate.length? = some length) (short : length ≤ size)
    (long : ∀ minimum ∈ constraint.shortest?, minimum ≤ length) : constraint.Admits candidate := by
  cases constraint with
  | type names =>
      have seen : typeMatches observed names = true := admits
      change typeMatches candidate names = true
      rw [typeMatches, sameType]
      exact seen
  | range minimum maximum =>
      rcases admits with ⟨number, rfl, _⟩
      cases observedLength
  | length minimum maximum =>
      rcases admits with ⟨measured, equal, within⟩
      cases observedLength.symm.trans equal
      rw [withinLength, Bool.and_eq_true] at within
      refine ⟨length, candidateLength, ?_⟩
      rw [withinLength, Bool.and_eq_true]
      constructor
      · cases minimum with
        | none => rfl
        | some bound => exact decide_eq_true (long bound rfl)
      · cases maximum with
        | none => rfl
        | some bound => exact decide_eq_true (short.trans (of_decide_eq_true within.2))
  | _ => cases isFilter

private theorem shortest_le {observed : Json} {size minimum : Nat}
    (admits : constraint.Admits observed)
    (observedLength : observed.length? = some size) (declared : constraint.shortest? = some minimum) :
    minimum ≤ size := by
  cases constraint with
  | length least greatest =>
      rcases admits with ⟨measured, equal, within⟩
      cases observedLength.symm.trans equal
      cases declared
      rw [withinLength, Bool.and_eq_true] at within
      exact of_decide_eq_true within.1
  | _ => cases declared

end Constraint

/-! ## The menu -/

section Menu

variable {rules : List Rule}

theorem mem_filterMenu_of_range {rule : Rule} {minimum maximum : Option Bound} {value : Json}
    (member : rule ∈ rules) (range : rule.constraint = .range minimum maximum)
    (offered : value ∈ rangeMenu minimum maximum) : value ∈ filterMenu rules := by
  have inRanges : value ∈ rules.flatMap fun rule =>
      match rule.constraint with
      | .range minimum maximum => rangeMenu minimum maximum
      | _ => [] := by
    refine List.mem_flatMap.mpr ⟨rule, member, ?_⟩
    rw [range]
    exact offered
  rw [filterMenu]
  exact List.mem_append_left _ (List.mem_append_left _ (List.mem_append_left _
    (List.mem_append_right _ inRanges)))

theorem mem_filterMenu_of_lower {rule : Rule} {bound : Bound} (member : rule ∈ rules)
    (declared : rule.constraint.lower? = some bound) :
    Json.number (.integer bound.ceil) ∈ filterMenu rules ∧
      Json.number bound.toNumber ∈ filterMenu rules := by
  cases shape : rule.constraint with
  | range minimum maximum =>
      rw [shape] at declared
      cases declared
      constructor <;> apply mem_filterMenu_of_range member shape <;> simp [rangeMenu]
  | _ =>
      rw [shape] at declared
      cases declared

theorem mem_filterMenu_of_upper {rule : Rule} {bound : Bound} (member : rule ∈ rules)
    (declared : rule.constraint.upper? = some bound) :
    Json.number (.integer bound.floor) ∈ filterMenu rules ∧
      Json.number bound.toNumber ∈ filterMenu rules := by
  cases shape : rule.constraint with
  | range minimum maximum =>
      rw [shape] at declared
      cases declared
      constructor <;> apply mem_filterMenu_of_range member shape <;> simp [rangeMenu]
  | _ =>
      rw [shape] at declared
      cases declared

/-- Among the declared bounds there is a tightest one, unless there is none. -/
theorem exists_tightest {Rank : Type} [LinearOrder Rank] (rank : Bound → Rank)
    (declared : Constraint → Option Bound) :
    (∀ rule ∈ rules, declared rule.constraint = none) ∨
      ∃ tightest, (∃ rule ∈ rules, declared rule.constraint = some tightest) ∧
        ∀ rule ∈ rules, ∀ bound ∈ declared rule.constraint, rank bound ≤ rank tightest := by
  by_cases empty : (rules.filterMap fun rule => declared rule.constraint) = []
  · exact .inl (List.filterMap_eq_nil_iff.mp empty)
  · rcases exists_greatest rank empty with ⟨tightest, member, above⟩
    refine .inr ⟨tightest, List.mem_filterMap.mp member, fun rule inRules bound found => ?_⟩
    exact above bound (List.mem_filterMap.mpr ⟨rule, inRules, found⟩)

/-- The longest required length is in the menu, and no sized value is shorter. -/
theorem exists_required_length {observed : Json} {size : Nat}
    (admits : ∀ rule ∈ rules, rule.constraint.Admits observed)
    (measured : observed.length? = some size) :
    ∃ length ≤ size, (∀ rule ∈ rules, ∀ minimum ∈ rule.constraint.shortest?, minimum ≤ length) ∧
      (length = 0 ∨ length ∈ rules.filterMap fun rule => positiveMinimum? rule.constraint) := by
  have positive : ∀ {constraint : Constraint} {minimum : Nat},
      positiveMinimum? constraint = some minimum ↔
        constraint.shortest? = some minimum ∧ minimum ≠ 0 := by
    intro constraint minimum
    cases constraint with
    | length least greatest =>
        cases least with
        | none => simp [positiveMinimum?, Constraint.shortest?]
        | some least =>
            rw [positiveMinimum?, Constraint.shortest?, Option.some.injEq]
            split_ifs with zero
            · simp only [false_iff]
              intro both
              exact both.2 (both.1 ▸ zero)
            · rw [Option.some.injEq]
              exact ⟨fun equal => ⟨equal, equal ▸ zero⟩, And.left⟩
    | _ => simp [positiveMinimum?, Constraint.shortest?]
  by_cases empty : (rules.filterMap fun rule => positiveMinimum? rule.constraint) = []
  · refine ⟨0, Nat.zero_le _, fun rule member minimum declared => ?_, .inl rfl⟩
    by_contra above
    have listed := positive.mpr ⟨declared, Nat.ne_of_gt (Nat.lt_of_not_le above)⟩
    rw [List.filterMap_eq_nil_iff.mp empty rule member] at listed
    cases listed
  · rcases exists_greatest id empty with ⟨length, listed, above⟩
    rcases List.mem_filterMap.mp listed with ⟨source, inRules, found⟩
    refine ⟨length, Constraint.shortest_le (admits source inRules) measured (positive.mp found).1,
      fun rule member minimum declared => ?_, .inr listed⟩
    rcases Nat.eq_zero_or_pos minimum with zero | pos
    · rw [zero]
      exact Nat.zero_le _
    · exact above minimum (List.mem_filterMap.mpr
        ⟨rule, member, positive.mpr ⟨declared, Nat.ne_of_gt pos⟩⟩)

variable (filters : ∀ rule ∈ rules, rule.kind.isFilter = true)

include filters

/-- An integer inside all ranges: a rounded bound of the menu is inside them too. -/
theorem exists_integer_in_filterMenu {observed : Int}
    (admits : ∀ rule ∈ rules, rule.constraint.Admits (.number (.integer observed))) :
    ∃ candidate ∈ filterMenu rules, ∀ rule ∈ rules, rule.constraint.Admits candidate := by
  have fits : ∀ value : Int,
      (∀ rule ∈ rules, ∀ bound ∈ rule.constraint.lower?, bound.ceil ≤ value) →
      (∀ rule ∈ rules, ∀ bound ∈ rule.constraint.upper?, value ≤ bound.floor) →
      ∀ rule ∈ rules, rule.constraint.Admits (.number (.integer value)) := by
    intro value lower upper rule member
    apply Constraint.admits_number (filters rule member) (admits rule member)
    · -- All integers have the same type.
      exact fun types matched => matched
    · exact fun bound declared => (bound.le_integer_iff value).mpr
        (lower rule member bound declared)
    · exact fun bound declared => (bound.integer_le_iff value).mpr
        (upper rule member bound declared)
  have lower : ∀ rule ∈ rules, ∀ bound ∈ rule.constraint.lower?, bound.ceil ≤ observed :=
    fun rule member bound declared => (bound.le_integer_iff observed).mp
      ((Constraint.around_of_admits (admits rule member)).1 bound declared)
  have upper : ∀ rule ∈ rules, ∀ bound ∈ rule.constraint.upper?, observed ≤ bound.floor :=
    fun rule member bound declared => (bound.integer_le_iff observed).mp
      ((Constraint.around_of_admits (admits rule member)).2 bound declared)
  rcases exists_tightest Bound.ceil Constraint.lower? with noLower | tightest
  · rcases exists_tightest (fun bound => -bound.floor) Constraint.upper? with
      noUpper | tightest
    · refine ⟨.number (.integer 0), by simp [filterMenu], fits 0 ?_ ?_⟩
      · intro rule member bound declared
        rw [noLower rule member] at declared
        cases declared
      · intro rule member bound declared
        rw [noUpper rule member] at declared
        cases declared
    · rcases tightest with ⟨bound, ⟨source, inRules, declared⟩, least⟩
      refine ⟨_, (mem_filterMenu_of_upper inRules declared).1, fits bound.floor ?_ ?_⟩
      · intro rule member other found
        rw [noLower rule member] at found
        cases found
      · intro rule member other found
        exact Int.neg_le_neg_iff.mp (least rule member other found)
  · rcases tightest with ⟨bound, ⟨source, inRules, declared⟩, greatest⟩
    refine ⟨_, (mem_filterMenu_of_lower inRules declared).1, fits bound.ceil greatest ?_⟩
    intro rule member other found
    exact (lower source inRules bound declared).trans (upper rule member other found)

/-- A float inside all ranges: a literal bound of the menu is inside them too. -/
theorem exists_float_in_filterMenu {observed : Double}
    (admits : ∀ rule ∈ rules, rule.constraint.Admits (.number (.float observed))) :
    ∃ candidate ∈ filterMenu rules, ∀ rule ∈ rules, rule.constraint.Admits candidate := by
  have types : ∀ (candidate : Number) types,
      typeMatches (.number (.float observed)) types = true →
        typeMatches (.number candidate) types = true := by
    intro candidate types matched
    rw [typeMatches_iff] at matched ⊢
    rcases matched with ⟨name, listed, rfl⟩
    refine ⟨.number, listed, ?_⟩
    cases candidate with
    | integer value => exact .inr rfl
    | float value => rfl
  have around := fun rule member => Constraint.around_of_admits (admits rule member)
  rcases exists_tightest (fun bound => bound.toNumber.exact) Constraint.lower? with
    noLower | tightest
  · rcases exists_tightest (fun bound => -bound.toNumber.exact) Constraint.upper? with
      noUpper | tightest
    · refine ⟨.number (.integer 0), by simp [filterMenu], fun rule member => ?_⟩
      apply Constraint.admits_number (filters rule member) (admits rule member) (types _)
      · rw [noLower rule member]
        exact nofun
      · rw [noUpper rule member]
        exact nofun
    · rcases tightest with ⟨bound, ⟨source, inRules, declared⟩, least⟩
      refine ⟨_, (mem_filterMenu_of_upper inRules declared).2, fun rule member => ?_⟩
      apply Constraint.admits_number (filters rule member) (admits rule member) (types _)
      · rw [noLower rule member]
        exact nofun
      · intro other found
        exact (bound.le_iff_exact other).mpr (neg_le_neg_iff.mp (least rule member other found))
  · rcases tightest with ⟨bound, ⟨source, inRules, declared⟩, greatest⟩
    refine ⟨_, (mem_filterMenu_of_lower inRules declared).2, fun rule member => ?_⟩
    apply Constraint.admits_number (filters rule member) (admits rule member) (types _)
    · intro other found
      exact (other.le_iff_exact bound).mpr (greatest rule member other found)
    · intro other found
      exact Bound.le_of_around ((around source inRules).1 bound declared)
        ((around rule member).2 other found)

private theorem exists_string_in_filterMenu {observed : Text}
    (admits : ∀ rule ∈ rules, rule.constraint.Admits (.string observed)) :
    ∃ candidate ∈ filterMenu rules, ∀ rule ∈ rules, rule.constraint.Admits candidate := by
  rcases exists_required_length admits rfl with ⟨length, short, long, listed⟩
  refine ⟨repeatedLetter length, ?_, fun rule member => ?_⟩
  · rcases listed with rfl | listed
    · simp [filterMenu, repeatedLetter]
    · have offered := List.mem_map_of_mem (f := repeatedLetter) listed
      simp only [filterMenu, List.mem_append, List.mem_cons]
      tauto
  · exact Constraint.admits_sized (filters rule member) (admits rule member) rfl rfl
      (congrArg some List.length_replicate) short (long rule member)

private theorem exists_array_in_filterMenu {observed : List Json}
    (bounded : observed.length < maxJsonNodes)
    (admits : ∀ rule ∈ rules, rule.constraint.Admits (.array observed)) :
    ∃ candidate ∈ filterMenu rules, ∀ rule ∈ rules, rule.constraint.Admits candidate := by
  rcases exists_required_length admits rfl with ⟨length, short, long, listed⟩
  refine ⟨repeatedNull length, ?_, fun rule member => ?_⟩
  · rcases listed with rfl | listed
    · simp [filterMenu, repeatedNull]
    · have kept : length ∈ (rules.filterMap fun rule => positiveMinimum? rule.constraint).filter
          fun length => length < maxJsonNodes :=
        List.mem_filter.mpr ⟨listed, decide_eq_true (Nat.lt_of_le_of_lt short bounded)⟩
      have offered := List.mem_map_of_mem (f := repeatedNull) kept
      simp only [filterMenu, List.mem_append, List.mem_cons]
      tauto
  · exact Constraint.admits_sized (filters rule member) (admits rule member) rfl rfl
      (congrArg some List.length_replicate) short (long rule member)

/-- The values the menu stands for: all but non-empty objects and over-long arrays. -/
def Json.IsLeaf : Json → Prop
  | .object members => members = []
  | .array items => items.length < maxJsonNodes
  | _ => True

private theorem filterMenu_complete {observed : Json} (leaf : observed.IsLeaf)
    (admits : ∀ rule ∈ rules, rule.constraint.Admits observed) :
    ∃ candidate ∈ filterMenu rules, ∀ rule ∈ rules, rule.constraint.Admits candidate := by
  cases observed with
  | null => exact ⟨.null, by simp [filterMenu], admits⟩
  | bool value =>
      refine ⟨.bool false, by simp [filterMenu], fun rule member => ?_⟩
      have admitted := admits rule member
      have isFilter := filters rule member
      revert admitted isFilter
      rw [Rule.kind]
      cases rule.constraint with
      | type types => exact fun matched _ => matched
      | range minimum maximum =>
          intro admitted _
          rcases admitted with ⟨number, equal, _⟩
          cases equal
      | length minimum maximum =>
          intro admitted _
          rcases admitted with ⟨length, measured, _⟩
          cases measured
      | _ =>
          intro _ isFilter
          cases isFilter
  | number number =>
      cases number with
      | integer value => exact exists_integer_in_filterMenu filters admits
      | float value => exact exists_float_in_filterMenu filters admits
  | string content => exact exists_string_in_filterMenu filters admits
  | array items => exact exists_array_in_filterMenu filters leaf admits
  | object members =>
      have empty : members = [] := leaf
      rw [empty] at admits
      exact ⟨.object [], by simp [filterMenu], admits⟩

end Menu

/-! ## Candidates -/

theorem finiteCandidates_of_required {rules : List Rule}
    (required : ∀ rule ∈ rules, rule.kind = .requiredField) :
    finiteCandidates rules = .ok [.null] := by
  have shape : ∀ rule ∈ rules, rule.constraint = .requiredField :=
    fun rule member => Constraint.eq_requiredField (required rule member)
  have noFixed : (rules.filterMap fun rule => rule.constraint.fixedValue?) = [] := by
    rw [List.filterMap_eq_nil_iff]
    intro rule member
    rw [shape rule member]
    rfl
  have noGroups : (rules.filterMap fun rule => rule.constraint.allowedGroup?) = [] := by
    rw [List.filterMap_eq_nil_iff]
    intro rule member
    rw [shape rule member]
    rfl
  rw [finiteCandidates, noFixed, noGroups]

/-- Where presence is all that is required beside the filters, candidates are what the
filters keep of the menu. -/
theorem candidateValues_eq_error_of_filters {rules : List Rule} {failure : TestbenchError}
    (filtered : (rules.filter fun rule => rule.kind.isFilter) ≠ [])
    (required : ∀ rule ∈ rules, rule.kind.isFilter = false → rule.kind = .requiredField)
    (failed : candidateValues rules = .error failure) :
    failure = .syntheticGeneration conflictMessage ∧
      ∀ candidate ∈ filterMenu (rules.filter fun rule => rule.kind.isFilter),
        ¬∀ rule ∈ rules.filter fun rule => rule.kind.isFilter,
          (evaluateRule rule (candidateView rule.path candidate)).passed = true := by
  have finite : ∀ rule ∈ rules.filter fun rule => !rule.kind.isFilter,
      rule.kind = .requiredField := by
    intro rule member
    rw [List.mem_filter, Bool.not_eq_true'] at member
    exact required rule member.1 member.2
  have onlyPresence : ((rules.filter fun rule => !rule.kind.isFilter).all fun rule =>
      rule.kind = .requiredField) = true :=
    List.all_eq_true.mpr fun rule member => decide_eq_true (finite rule member)
  rw [candidateValues, finiteCandidates_of_required finite, ok_bind, if_neg filtered,
    if_pos onlyPresence] at failed
  rcases bind_eq_error_iff.mp failed with conflict | ⟨_, _, returned⟩
  · rcases require_eq_error_iff.mp conflict with ⟨nothing, equal⟩
    rw [not_not, List.filter_eq_nil_iff] at nothing
    refine ⟨equal.symm, fun candidate offered passes => nothing candidate offered ?_⟩
    exact List.all_eq_true.mpr passes
  · cases returned

/-- The menu of a path is complete for leaf values, so a conflict is reported only where
no leaf value satisfies the path's rules. -/
theorem filterMenu_complete_on_leaves {path : Text} {rules : List Rule} (nonempty : rules ≠ [])
    (filters : ∀ rule ∈ rules, rule.kind.isFilter = true) (valid : ∀ rule ∈ rules, rule.Valid)
    (onPath : ∀ rule ∈ rules, rule.path = path) :
    (∀ value : Json, value.IsLeaf →
      (∀ rule ∈ rules, (evaluateRule rule (candidateView path value)).passed = true) →
      ∃ candidate ∈ filterMenu rules, ∀ rule ∈ rules,
        (evaluateRule rule (candidateView path candidate)).passed = true) ∧
    ∀ all failure, (all.filter fun rule => rule.kind.isFilter) = rules →
      (∀ rule ∈ all, rule.kind.isFilter = false → rule.kind = .requiredField) →
      candidateValues all = .error failure →
      failure = .syntheticGeneration conflictMessage ∧ ∀ value : Json, value.IsLeaf →
        ¬∀ rule ∈ rules, (evaluateRule rule (candidateView path value)).passed = true := by
  have passes : ∀ value : Json,
      (∀ rule ∈ rules, (evaluateRule rule (candidateView path value)).passed = true) ↔
        ∀ rule ∈ rules, rule.constraint.Admits value := by
    intro value
    refine forall₂_congr fun rule member => ?_
    rw [← onPath rule member]
    exact evaluateRule_candidateView (valid rule member).constraint.encodable value
  have complete : ∀ value : Json, value.IsLeaf →
      (∀ rule ∈ rules, (evaluateRule rule (candidateView path value)).passed = true) →
      ∃ candidate ∈ filterMenu rules, ∀ rule ∈ rules,
        (evaluateRule rule (candidateView path candidate)).passed = true := by
    intro value leaf satisfied
    rcases filterMenu_complete filters leaf ((passes value).mp satisfied) with
      ⟨candidate, offered, admits⟩
    exact ⟨candidate, offered, (passes candidate).mpr admits⟩
  refine ⟨complete, fun all failure filtered required failed => ?_⟩
  rcases candidateValues_eq_error_of_filters (filtered ▸ nonempty) required failed with
    ⟨conflict, vacant⟩
  rw [filtered] at vacant
  refine ⟨conflict, fun value leaf satisfied => ?_⟩
  rcases complete value leaf satisfied with ⟨candidate, offered, accepted⟩
  apply vacant candidate offered
  intro rule member
  rw [onPath rule member]
  exact accepted rule member

theorem filterMenu_complete_on_leaves_level :
    let rules : List Rule := [⟨text "kind", text "level", .type [.integer]⟩,
      ⟨text "bounds", text "level", .range (some (.integer 1)) (some (.integer 3))⟩]
    (∀ value : Json, value.IsLeaf →
      (∀ rule ∈ rules, (evaluateRule rule (candidateView (text "level") value)).passed = true) →
      ∃ candidate ∈ filterMenu rules, ∀ rule ∈ rules,
        (evaluateRule rule (candidateView (text "level") candidate)).passed = true) ∧
    ∀ all failure, (all.filter fun rule => rule.kind.isFilter) = rules →
      (∀ rule ∈ all, rule.kind.isFilter = false → rule.kind = .requiredField) →
      candidateValues all = .error failure →
      failure = .syntheticGeneration conflictMessage ∧ ∀ value : Json, value.IsLeaf →
        ¬∀ rule ∈ rules,
          (evaluateRule rule (candidateView (text "level") value)).passed = true := by
  have valid := valid_of_validatePolicy
    (show validatePolicy (.object levelPolicy.toObject) = .ok levelPolicy by decide +kernel)
  exact filterMenu_complete_on_leaves (by simp) (by decide) valid.rules (by decide)

end AgentTestbench
