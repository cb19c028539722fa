import Mathlib

/-! # Greedy covers

A greedy cover takes, as long as something is uncovered, the first position that holds
most of it. The choices are the same when only the chosen positions are offered.
-/

namespace GreedyCover

variable {Position Element : Type} [DecidableEq Element]

/-! ## The first maximum -/

section FirstMaximum

variable {Item Other Value : Type} [LinearOrder Value] {value : Item → Value}

theorem argmax_map (choice : Other → Item) (items : List Other) :
    (items.map choice).argmax value = (items.argmax (value ∘ choice)).map choice := by
  induction items with
  | nil => rfl
  | cons item items induction =>
      rw [List.map_cons, List.argmax_cons, List.argmax_cons, induction]
      cases items.argmax (value ∘ choice) with
      | none => rfl
      | some best =>
          rw [Option.map_some]
          simp only [Function.comp_apply]
          split_ifs <;> rfl

/-- The first maximum of a list is the first maximum of each part it is in. -/
theorem argmax_of_sublist {part items : List Item} {best : Item}
    (sublist : part.Sublist items) (distinct : items.Nodup)
    (maximal : items.argmax value = some best) (inPart : best ∈ part) :
    part.argmax value = some best := by
  induction sublist with
  | slnil => exact maximal
  | @cons part items item sublist induction =>
      rw [List.nodup_cons] at distinct
      have inItems : best ∈ items := sublist.subset inPart
      have different : item ≠ best := fun equal => distinct.1 (equal ▸ inItems)
      apply induction distinct.2 _ inPart
      rw [List.argmax_cons] at maximal
      cases later : items.argmax value with
      | none =>
          rw [List.argmax_eq_none] at later
          rw [later] at inItems
          cases inItems
      | some other =>
          simp only [later] at maximal
          split_ifs at maximal with above
          · exact maximal
          · exact absurd (Option.some.inj maximal) different
  | @cons_cons part items item sublist induction =>
      rw [List.nodup_cons] at distinct
      rw [List.argmax_cons] at maximal ⊢
      cases later : items.argmax value with
      | none =>
          rw [List.argmax_eq_none] at later
          subst later
          rw [List.sublist_nil.mp sublist]
          exact maximal
      | some other =>
          simp only [later] at maximal
          split_ifs at maximal with above
          · have equal := Option.some.inj maximal
            subst equal
            have inRest : other ∈ part := by
              rcases List.mem_cons.mp inPart with rfl | inRest
              · exact absurd above (lt_irrefl _)
              · exact inRest
            rw [induction distinct.2 later inRest]
            exact if_pos above
          · -- The head stays the first maximum: nothing later in the part beats it.
            cases inside : part.argmax value with
            | none => exact maximal
            | some candidate =>
                have member := sublist.subset (List.argmax_mem inside)
                have below := List.le_of_mem_argmax member later
                exact (if_neg (not_lt.mpr (below.trans (not_lt.mp above)))).trans maximal

end FirstMaximum

/-! ## The loop -/

section Loop

variable (held : Position → Finset Element) (positions : List Position)

/-- How much of what is uncovered a position holds. -/
def gain (uncovered : Finset Element) (position : Position) : Nat :=
  (held position ∩ uncovered).card

def choose? (uncovered : Finset Element) : Option Position :=
  positions.argmax (gain held uncovered)

/-- The loop, for at most a number of rounds. -/
def loop [DecidableEq Position] : Nat → Finset Element → Finset Position → Option (Finset Position)
  | 0, uncovered, retained => if uncovered = ∅ then some retained else none
  | rounds + 1, uncovered, retained =>
      if uncovered = ∅ then some retained
      else (choose? held positions uncovered).bind fun chosen =>
        loop rounds (uncovered \ held chosen) (insert chosen retained)

def Coverable (uncovered : Finset Element) : Prop :=
  ∀ element ∈ uncovered, ∃ position ∈ positions, element ∈ held position

end Loop

section Run

variable {held : Position → Finset Element} {positions : List Position}
  {uncovered : Finset Element} {retained result : Finset Position} {rounds more : Nat}

theorem choose?_mem {chosen : Position} (choice : choose? held positions uncovered = some chosen) :
    chosen ∈ positions :=
  List.argmax_mem choice

theorem Coverable.sdiff (coverable : Coverable held positions uncovered)
    (dropped : Finset Element) : Coverable held positions (uncovered \ dropped) :=
  fun element member => coverable element (Finset.mem_sdiff.mp member).1

/-- As long as something is uncovered, the choice covers some of it. -/
theorem Coverable.choice (coverable : Coverable held positions uncovered)
    (nonempty : uncovered ≠ ∅) :
    ∃ chosen, choose? held positions uncovered = some chosen ∧
      (uncovered \ held chosen).card < uncovered.card := by
  rcases Finset.nonempty_iff_ne_empty.mpr nonempty with ⟨element, member⟩
  rcases coverable element member with ⟨position, offered, holds⟩
  cases choice : choose? held positions uncovered with
  | none =>
      rw [choose?, List.argmax_eq_none] at choice
      rw [choice] at offered
      cases offered
  | some chosen =>
      refine ⟨chosen, rfl, ?_⟩
      have positive : 0 < gain held uncovered position :=
        Finset.card_pos.mpr ⟨element, Finset.mem_inter.mpr ⟨holds, member⟩⟩
      have best : gain held uncovered position ≤ gain held uncovered chosen :=
        List.le_of_mem_argmax offered choice
      have split := Finset.card_sdiff_add_card_inter uncovered (held chosen)
      rw [Finset.inter_comm] at split
      rw [gain, gain] at *
      omega

variable [DecidableEq Position]

@[simp] theorem loop_empty (rounds : Nat) :
    loop held positions rounds ∅ retained = some retained := by
  cases rounds <;> exact if_pos rfl

theorem loop_succ (nonempty : uncovered ≠ ∅) :
    loop held positions (rounds + 1) uncovered retained =
      (choose? held positions uncovered).bind fun chosen =>
        loop held positions rounds (uncovered \ held chosen) (insert chosen retained) :=
  if_neg nonempty

/-- The loop ends: one round for each uncovered element is enough. -/
theorem loop_returns (coverable : Coverable held positions uncovered)
    (enough : uncovered.card ≤ rounds) :
    (loop held positions rounds uncovered retained).isSome := by
  induction rounds generalizing uncovered retained with
  | zero =>
      rw [Finset.card_eq_zero.mp (Nat.le_zero.mp enough), loop_empty]
      rfl
  | succ rounds induction =>
      by_cases empty : uncovered = ∅
      · rw [empty, loop_empty]
        rfl
      · rcases coverable.choice empty with ⟨chosen, choice, fewer⟩
        rw [loop_succ empty, choice, Option.bind_some]
        exact induction (coverable.sdiff (held chosen)) (by omega)

/-- Rounds that are left over change nothing. -/
theorem loop_more (ran : loop held positions rounds uncovered retained = some result)
    (enough : rounds ≤ more) : loop held positions more uncovered retained = some result := by
  induction rounds generalizing uncovered retained more with
  | zero =>
      rw [loop] at ran
      split_ifs at ran with empty
      rw [empty, loop_empty]
      exact ran
  | succ rounds induction =>
      by_cases empty : uncovered = ∅
      · subst empty
        rw [loop_empty] at ran ⊢
        exact ran
      · rcases Nat.exists_eq_add_of_le' enough with ⟨extra, rfl⟩
        rw [← Nat.add_assoc, loop_succ empty]
        rw [loop_succ empty] at ran
        rcases Option.bind_eq_some_iff.mp ran with ⟨chosen, choice, ran⟩
        rw [choice, Option.bind_some]
        exact induction ran (Nat.le_add_left _ _)

/-- What the loop retains: what was retained before, and positions that cover the rest. -/
structure Extends (held : Position → Finset Element) (positions : List Position)
    (uncovered : Finset Element) (retained result : Finset Position) : Prop where
  kept : retained ⊆ result
  offered : result ⊆ retained ∪ positions.toFinset
  covered : uncovered ⊆ result.biUnion held

theorem loop_extends (ran : loop held positions rounds uncovered retained = some result) :
    Extends held positions uncovered retained result := by
  have done : Extends held positions ∅ retained retained :=
    ⟨Finset.Subset.refl _, Finset.subset_union_left, Finset.empty_subset _⟩
  induction rounds generalizing uncovered retained with
  | zero =>
      rw [loop] at ran
      split_ifs at ran with empty
      cases ran
      exact empty ▸ done
  | succ rounds induction =>
      by_cases empty : uncovered = ∅
      · subst empty
        rw [loop_empty] at ran
        cases ran
        exact done
      · rw [loop_succ empty] at ran
        rcases Option.bind_eq_some_iff.mp ran with ⟨chosen, choice, ran⟩
        have rest := induction ran
          ⟨Finset.Subset.refl _, Finset.subset_union_left, Finset.empty_subset _⟩
        have inPositions := List.mem_toFinset.mpr (choose?_mem choice)
        have inResult := rest.kept (Finset.mem_insert_self chosen retained)
        refine ⟨(Finset.subset_insert _ _).trans rest.kept, ?_, ?_⟩
        · apply rest.offered.trans
          apply Finset.union_subset _ Finset.subset_union_right
          apply Finset.insert_subset _ Finset.subset_union_left
          exact Finset.mem_union_right _ inPositions
        · intro element member
          by_cases holds : element ∈ held chosen
          · exact Finset.mem_biUnion.mpr ⟨chosen, inResult, holds⟩
          · exact rest.covered (Finset.mem_sdiff.mpr ⟨member, holds⟩)

/-- Offering only positions among which are all the chosen ones changes no choice. -/
theorem loop_of_sublist {part : List Position} (sublist : part.Sublist positions)
    (distinct : positions.Nodup)
    (ran : loop held positions rounds uncovered retained = some result)
    (chosen : ∀ position ∈ result, position ∈ part) :
    loop held part rounds uncovered retained = some result := by
  induction rounds generalizing uncovered retained with
  | zero => exact ran
  | succ rounds induction =>
      by_cases empty : uncovered = ∅
      · subst empty
        rw [loop_empty] at ran ⊢
        exact ran
      · rw [loop_succ empty] at ran ⊢
        rcases Option.bind_eq_some_iff.mp ran with ⟨first, choice, ran⟩
        have inPart := chosen first ((loop_extends ran).kept (Finset.mem_insert_self _ _))
        have same : choose? held part uncovered = some first :=
          argmax_of_sublist sublist distinct choice inPart
        rw [same, Option.bind_some]
        exact induction ran

/-- Renaming the positions renames the choices. -/
theorem loop_map {Name : Type} [DecidableEq Name] (rename : Name → Position)
    (names : List Name) (retained : Finset Name) :
    loop held (names.map rename) rounds uncovered (retained.image rename) =
      (loop (held ∘ rename) names rounds uncovered retained).map (Finset.image rename) := by
  induction rounds generalizing uncovered retained with
  | zero =>
      rw [loop, loop]
      split_ifs <;> rfl
  | succ rounds induction =>
      by_cases empty : uncovered = ∅
      · rw [empty, loop_empty, loop_empty, Option.map_some]
      · have same : choose? held (names.map rename) uncovered =
            (choose? (held ∘ rename) names uncovered).map rename :=
          argmax_map rename names
        rw [loop_succ empty, loop_succ empty, same]
        cases choose? (held ∘ rename) names uncovered with
        | none => rfl
        | some chosen =>
            rw [Option.map_some, Option.bind_some, Option.bind_some, ← Finset.image_insert]
            exact induction (insert chosen retained)

end Run

/-! ## Covers of a list of sets -/

section Sets

variable (sets : List (Finset Element)) (seeds : Finset Nat)

/-- The set at an index; past the end, nothing. -/
def setAt (index : Nat) : Finset Element :=
  sets.getD index ∅

/-- What all the sets hold and the sets at the seeds do not. -/
def uncoveredBy : Finset Element :=
  sets.foldr (· ∪ ·) ∅ \ seeds.biUnion (setAt sets)

omit [DecidableEq Element] in
theorem mem_setAt {index : Nat} {element : Element} :
    element ∈ setAt sets index ↔ ∃ set, sets[index]? = some set ∧ element ∈ set := by
  rw [setAt, List.getD_eq_getElem?_getD]
  cases sets[index]? <;> simp

theorem mem_foldr_union {element : Element} :
    element ∈ sets.foldr (· ∪ ·) ∅ ↔ ∃ index, element ∈ setAt sets index := by
  have listed : element ∈ sets.foldr (· ∪ ·) ∅ ↔ ∃ set ∈ sets, element ∈ set := by
    induction sets with
    | nil => simp
    | cons set sets induction => simp [induction]
  simp only [listed, List.mem_iff_getElem?, mem_setAt]
  constructor
  · intro found
    rcases found with ⟨set, ⟨index, indexed⟩, member⟩
    exact ⟨index, set, indexed, member⟩
  · intro found
    rcases found with ⟨index, set, indexed, member⟩
    exact ⟨set, ⟨index, indexed⟩, member⟩

omit [DecidableEq Element] in
theorem lt_of_mem_setAt {index : Nat} {element : Element} (member : element ∈ setAt sets index) :
    index < sets.length := by
  rcases (mem_setAt sets).mp member with ⟨set, found, _⟩
  exact (List.getElem?_eq_some_iff.mp found).1

theorem coverable_uncoveredBy :
    Coverable (setAt sets) (List.range sets.length) (uncoveredBy sets seeds) := by
  intro element member
  rcases (mem_foldr_union sets).mp (Finset.mem_sdiff.mp member).1 with ⟨index, holds⟩
  exact ⟨index, List.mem_range.mpr (lt_of_mem_setAt sets holds), holds⟩

/-- The seeds and the indices that the loop adds to them. -/
def cover : Finset Nat :=
  (loop (setAt sets) (List.range sets.length) (uncoveredBy sets seeds).card
    (uncoveredBy sets seeds) seeds).get
    (loop_returns (coverable_uncoveredBy sets seeds) (Nat.le_refl _))

theorem loop_eq_cover {rounds : Nat} (enough : (uncoveredBy sets seeds).card ≤ rounds) :
    loop (setAt sets) (List.range sets.length) rounds (uncoveredBy sets seeds) seeds =
      some (cover sets seeds) :=
  loop_more (Option.some_get _).symm enough

theorem cover_extends :
    Extends (setAt sets) (List.range sets.length) (uncoveredBy sets seeds) seeds
      (cover sets seeds) :=
  loop_extends (loop_eq_cover sets seeds (Nat.le_refl _))

theorem lt_of_mem_cover (inside : ∀ index ∈ seeds, index < sets.length) {index : Nat}
    (member : index ∈ cover sets seeds) : index < sets.length := by
  rcases Finset.mem_union.mp ((cover_extends sets seeds).offered member) with seed | offered
  · exact inside index seed
  · exact List.mem_range.mp (List.mem_toFinset.mp offered)

/-- Everything that some set holds, a covering set holds. -/
theorem cover_covers : sets.foldr (· ∪ ·) ∅ ⊆ (cover sets seeds).biUnion (setAt sets) := by
  intro element member
  have extension := cover_extends sets seeds
  by_cases seeded : element ∈ seeds.biUnion (setAt sets)
  · exact Finset.biUnion_subset_biUnion_of_subset_left _ extension.kept seeded
  · exact extension.covered (Finset.mem_sdiff.mpr ⟨member, seeded⟩)

end Sets

/-! ## Retained items -/

section Retained

variable {Item Other : Type} {retained : Finset Nat}

def retainedIndices (retained : Finset Nat) (count : Nat) : List Nat :=
  (List.range count).filter (· ∈ retained)

/-- The items at the retained indices, in their order. -/
def retain (retained : Finset Nat) (items : List Item) : List Item :=
  (items.zipIdx.filter fun entry => entry.2 ∈ retained).map Prod.fst

/-- The indices of the marked items. -/
def indicesOf (mark : Item → Bool) (items : List Item) : Finset Nat :=
  ((items.zipIdx.filter fun entry => mark entry.1).map Prod.snd).toFinset

theorem mem_retainedIndices {count index : Nat} :
    index ∈ retainedIndices retained count ↔ index < count ∧ index ∈ retained := by
  rw [retainedIndices, List.mem_filter, List.mem_range, decide_eq_true_iff]

theorem nodup_retainedIndices (count : Nat) : (retainedIndices retained count).Nodup :=
  List.nodup_range.filter _

theorem retain_sublist (retained : Finset Nat) (items : List Item) :
    (retain retained items).Sublist items := by
  have sublist := (List.filter_sublist (p := fun entry : Item × Nat => entry.2 ∈ retained)
    (l := items.zipIdx)).map Prod.fst
  rwa [List.zipIdx_map_fst] at sublist

theorem retain_map (transform : Item → Other) (items : List Item) :
    retain retained (items.map transform) = (retain retained items).map transform := by
  rw [retain, retain, List.zipIdx_map, List.filter_map, List.map_map, List.map_map]
  rfl

theorem retainedIndices_eq (items : List Item) :
    retainedIndices retained items.length =
      (items.zipIdx.filter fun entry => entry.2 ∈ retained).map Prod.snd := by
  have indices : List.range items.length = items.zipIdx.map Prod.snd := by
    rw [List.zipIdx_map_snd, List.range_eq_range']
  rw [retainedIndices, indices, List.filter_map]
  rfl

theorem length_retain (items : List Item) :
    (retain retained items).length = (retainedIndices retained items.length).length := by
  rw [retainedIndices_eq, retain, List.length_map, List.length_map]

/-- Where a retained item comes from. -/
theorem getElem?_retain (items : List Item) (index : Nat) :
    (retain retained items)[index]? =
      (retainedIndices retained items.length)[index]?.bind fun origin => items[origin]? := by
  rw [retainedIndices_eq, retain, List.getElem?_map, List.getElem?_map]
  cases found : (items.zipIdx.filter fun entry => entry.2 ∈ retained)[index]? with
  | none => rfl
  | some entry =>
      have member := List.mem_of_mem_filter (List.mem_of_getElem? found)
      exact (List.mem_zipIdx_iff_getElem?.mp member).symm

theorem mem_retain {items : List Item} {index : Nat} {item : Item}
    (found : items[index]? = some item) (kept : index ∈ retained) :
    item ∈ retain retained items := by
  apply List.mem_map.mpr
  refine ⟨(item, index), List.mem_filter.mpr ⟨?_, decide_eq_true kept⟩, rfl⟩
  exact List.mk_mem_zipIdx_iff_getElem?.mpr found

/-- Retaining every index drops nothing. -/
theorem retain_range (items : List Item) :
    retain (Finset.range items.length) items = items := by
  have all : (items.zipIdx.filter fun entry => entry.2 ∈ Finset.range items.length) =
      items.zipIdx := by
    apply List.filter_eq_self.mpr
    intro entry member
    have found := List.mem_zipIdx_iff_getElem?.mp member
    exact decide_eq_true (Finset.mem_range.mpr (List.getElem?_eq_some_iff.mp found).1)
  rw [retain, all, List.zipIdx_map_fst]

theorem mem_indicesOf {mark : Item → Bool} {items : List Item} {index : Nat} :
    index ∈ indicesOf mark items ↔ ∃ item, items[index]? = some item ∧ mark item = true := by
  simp only [indicesOf, List.mem_toFinset, List.mem_map, List.mem_filter,
    List.mem_zipIdx_iff_getElem?]
  constructor
  · intro listed
    rcases listed with ⟨entry, ⟨found, marked⟩, rfl⟩
    exact ⟨entry.1, found, marked⟩
  · intro marked
    rcases marked with ⟨item, found, marked⟩
    exact ⟨(item, index), ⟨found, marked⟩, rfl⟩

theorem lt_of_mem_indicesOf {mark : Item → Bool} {items : List Item} {index : Nat}
    (member : index ∈ indicesOf mark items) : index < items.length := by
  rcases mem_indicesOf.mp member with ⟨item, found, _⟩
  exact (List.getElem?_eq_some_iff.mp found).1

end Retained

/-! ## Covers of the retained sets -/

section Again

variable {sets : List (Finset Element)} {seeds retained : Finset Nat}

/-- The index that a retained index had before; past the end, the end. -/
def originOf (retained : Finset Nat) (count index : Nat) : Nat :=
  (retainedIndices retained count).getD index count

theorem originOf_mem {count index : Nat} (inside : index < (retainedIndices retained count).length) :
    originOf retained count index ∈ retained := by
  rw [originOf, List.getD_eq_getElem _ _ inside]
  exact (mem_retainedIndices.mp (List.getElem_mem inside)).2

theorem originOf_injective {count left right : Nat}
    (leftInside : left < (retainedIndices retained count).length)
    (rightInside : right < (retainedIndices retained count).length)
    (equal : originOf retained count left = originOf retained count right) : left = right := by
  rw [originOf, originOf, List.getD_eq_getElem _ _ leftInside,
    List.getD_eq_getElem _ _ rightInside] at equal
  exact (List.Nodup.getElem_inj_iff (nodup_retainedIndices count)).mp equal

theorem exists_originOf {count origin : Nat} (inside : origin < count) (kept : origin ∈ retained) :
    ∃ index, (retainedIndices retained count)[index]? = some origin ∧
      originOf retained count index = origin := by
  rcases List.mem_iff_getElem?.mp (mem_retainedIndices.mpr ⟨inside, kept⟩) with ⟨index, found⟩
  refine ⟨index, found, ?_⟩
  rw [originOf, List.getD_eq_getElem?_getD, found, Option.getD_some]

theorem map_originOf (retained : Finset Nat) (count : Nat) :
    (List.range (retainedIndices retained count).length).map (originOf retained count) =
      retainedIndices retained count := by
  apply List.ext_getElem
  · rw [List.length_map, List.length_range]
  · intro index _ inside
    rw [List.getElem_map, List.getElem_range, originOf, List.getD_eq_getElem _ _ inside]

omit [DecidableEq Element] in
theorem setAt_retain (retained : Finset Nat) (sets : List (Finset Element)) :
    setAt (retain retained sets) = setAt sets ∘ originOf retained sets.length := by
  funext index
  rw [Function.comp_apply, setAt, setAt, originOf, List.getD_eq_getElem?_getD,
    List.getD_eq_getElem?_getD, List.getD_eq_getElem?_getD, getElem?_retain]
  cases (retainedIndices retained sets.length)[index]? with
  | none => rw [Option.bind_none, Option.getD_none, Option.getD_none, List.getElem?_length,
      Option.getD_none]
  | some origin => rw [Option.bind_some, Option.getD_some]

/-- The retained sets hold all the elements. -/
theorem foldr_retain_cover (inside : ∀ index ∈ seeds, index < sets.length) :
    (retain (cover sets seeds) sets).foldr (· ∪ ·) ∅ = sets.foldr (· ∪ ·) ∅ := by
  ext element
  rw [mem_foldr_union, setAt_retain]
  constructor
  · intro found
    rcases found with ⟨index, holds⟩
    exact (mem_foldr_union sets).mpr ⟨_, holds⟩
  · intro listed
    rcases Finset.mem_biUnion.mp (cover_covers sets seeds listed) with ⟨origin, kept, holds⟩
    rcases exists_originOf (lt_of_mem_cover sets seeds inside kept) kept with ⟨index, _, equal⟩
    exact ⟨index, by rwa [Function.comp_apply, equal]⟩

/-- From the same seeds, the retained sets are all retained again: each choice on them
is the choice on all the sets. -/
theorem cover_retain {inner : Finset Nat} (inside : ∀ index ∈ seeds, index < sets.length)
    (innerInside : ∀ index ∈ inner, index < (retain (cover sets seeds) sets).length)
    (named : inner.image (originOf (cover sets seeds) sets.length) = seeds) :
    cover (retain (cover sets seeds) sets) inner =
      Finset.range (retain (cover sets seeds) sets).length := by
  let retained := cover sets seeds
  let indices := retainedIndices retained sets.length
  let target := uncoveredBy sets seeds
  have chosen : ∀ index ∈ retained, index ∈ indices := fun index member =>
    mem_retainedIndices.mpr ⟨lt_of_mem_cover sets seeds inside member, member⟩
  have part : loop (setAt sets) indices target.card target seeds = some retained :=
    loop_of_sublist List.filter_sublist List.nodup_range
      (loop_eq_cover sets seeds (Nat.le_refl _)) chosen
  have renamed : loop (setAt sets)
      ((List.range indices.length).map (originOf retained sets.length)) target.card target
      (inner.image (originOf retained sets.length)) = _ :=
    loop_map _ (List.range indices.length) inner
  have seeded : seeds.biUnion (setAt sets) =
      inner.biUnion (setAt sets ∘ originOf retained sets.length) := by
    conv_lhs => rw [← named, Finset.image_biUnion]
    rfl
  have uncovered : uncoveredBy (retain retained sets) inner = target := by
    rw [uncoveredBy, foldr_retain_cover inside, setAt_retain, ← seeded]
    rfl
  have again := loop_eq_cover (retain (cover sets seeds) sets) inner (Nat.le_refl _)
  rw [uncovered, setAt_retain, length_retain] at again
  rw [map_originOf, named, part, again, Option.map_some, Option.some.injEq] at renamed
  ext index
  rw [Finset.mem_range]
  constructor
  · exact fun member => lt_of_mem_cover _ inner innerInside member
  · intro small
    rw [length_retain] at small
    have kept := (Finset.ext_iff.mp renamed _).mp (originOf_mem small)
    rcases Finset.mem_image.mp kept with ⟨other, member, equal⟩
    have otherSmall := lt_of_mem_cover _ inner innerInside member
    rw [length_retain] at otherSmall
    rwa [← originOf_injective otherSmall small equal]

end Again

/-! ## Selections -/

section Selection

variable {Item : Type} (elements : Item → Finset Element) (mark : Item → Bool)
  (items : List Item)

/-- The indices that are retained: the marked ones, and what the loop adds. -/
def selected : Finset Nat :=
  cover (items.map elements) (indicesOf mark items)

/-- The marked items, and items that cover what the marked ones do not. -/
def select : List Item :=
  retain (selected elements mark items) items

theorem select_sublist : (select elements mark items).Sublist items :=
  retain_sublist _ items

variable {elements mark items}

theorem mem_select_of_marked {item : Item} (member : item ∈ items) (marked : mark item = true) :
    item ∈ select elements mark items := by
  rcases List.mem_iff_getElem?.mp member with ⟨index, found⟩
  apply mem_retain found
  exact (cover_extends _ _).kept (mem_indicesOf.mpr ⟨item, found, marked⟩)

/-- Each element of an item is an element of a selected item. -/
theorem exists_select_of_mem {item : Item} {element : Element} (member : item ∈ items)
    (holds : element ∈ elements item) :
    ∃ other ∈ select elements mark items, element ∈ elements other := by
  rcases List.mem_iff_getElem?.mp member with ⟨index, found⟩
  have listed : element ∈ (items.map elements).foldr (· ∪ ·) ∅ := by
    rw [mem_foldr_union]
    refine ⟨index, (mem_setAt _).mpr ⟨elements item, ?_, holds⟩⟩
    rw [List.getElem?_map, found, Option.map_some]
  rcases Finset.mem_biUnion.mp (cover_covers _ (indicesOf mark items) listed) with
    ⟨origin, kept, inside⟩
  rcases (mem_setAt _).mp inside with ⟨set, setFound, inSet⟩
  rw [List.getElem?_map] at setFound
  rcases Option.map_eq_some_iff.mp setFound with ⟨other, otherFound, rfl⟩
  exact ⟨other, mem_retain otherFound kept, inSet⟩

/-- The marked items among the selected ones are the marked items. -/
theorem image_indicesOf_select :
    (indicesOf mark (select elements mark items)).image
      (originOf (selected elements mark items) items.length) = indicesOf mark items := by
  ext origin
  rw [Finset.mem_image]
  constructor
  · intro named
    rcases named with ⟨index, marked, rfl⟩
    rcases mem_indicesOf.mp marked with ⟨item, found, marked⟩
    rw [select, getElem?_retain] at found
    rcases Option.bind_eq_some_iff.mp found with ⟨origin, indexFound, found⟩
    rw [originOf, List.getD_eq_getElem?_getD, indexFound, Option.getD_some, mem_indicesOf]
    exact ⟨item, found, marked⟩
  · intro marked
    have kept : origin ∈ selected elements mark items := (cover_extends _ _).kept marked
    rcases mem_indicesOf.mp marked with ⟨item, found, marked⟩
    rcases exists_originOf (List.getElem?_eq_some_iff.mp found).1 kept with
      ⟨index, indexFound, equal⟩
    refine ⟨index, mem_indicesOf.mpr ⟨item, ?_, marked⟩, equal⟩
    rw [select, getElem?_retain, indexFound, Option.bind_some, found]

/-- Selecting from a selection selects everything. -/
theorem select_select :
    select elements mark (select elements mark items) = select elements mark items := by
  have all : selected elements mark (select elements mark items) =
      Finset.range (select elements mark items).length := by
    have sets : (select elements mark items).map elements =
        retain (selected elements mark items) (items.map elements) := (retain_map _ _).symm
    have length : (select elements mark items).length =
        (retain (selected elements mark items) (items.map elements)).length := by
      rw [← sets, List.length_map]
    rw [selected, sets, length]
    apply cover_retain
    · intro index member
      rw [List.length_map]
      exact lt_of_mem_indicesOf member
    · intro index member
      rw [← selected, ← length]
      exact lt_of_mem_indicesOf member
    · rw [← selected, List.length_map]
      exact image_indicesOf_select
  conv_lhs => rw [select, all]
  exact retain_range _

end Selection

end GreedyCover
