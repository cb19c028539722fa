import Mathlib

/-! # Orders of a list

All orders of a list in the sequence of `itertools.permutations`, and adjacent swaps,
which connect any two of them.
-/

namespace Orders

variable {Item : Type u} {Other : Type v}

/-- Each item in turn, with the others in their order. -/
def picks : List Item → List (Item × List Item)
  | [] => []
  | item :: rest => (item, rest) :: (picks rest).map fun pick => (pick.1, item :: pick.2)

def permutationsOf : Nat → List Item → List (List Item)
  | 0, _ => [[]]
  | count + 1, items =>
      (picks items).flatMap fun pick =>
        (permutationsOf count pick.2).map fun order => pick.1 :: order

/-- `itertools.permutations`. -/
def permutations (items : List Item) : List (List Item) :=
  permutationsOf items.length items

example : permutations [1, 2, 3] =
    [[1, 2, 3], [1, 3, 2], [2, 1, 3], [2, 3, 1], [3, 1, 2], [3, 2, 1]] := rfl

theorem perm_of_mem_picks {items : List Item} {pick : Item × List Item}
    (member : pick ∈ picks items) : (pick.1 :: pick.2).Perm items := by
  induction items generalizing pick with
  | nil => cases member
  | cons item rest induction =>
      rcases List.mem_cons.mp member with rfl | later
      · exact .refl _
      · rcases List.mem_map.mp later with ⟨inner, inRest, rfl⟩
        exact (List.Perm.swap _ _ _).trans ((induction inRest).cons item)

theorem picks_map_fst (items : List Item) : (picks items).map Prod.fst = items := by
  induction items with
  | nil => rfl
  | cons item rest induction =>
      rw [picks, List.map_cons, List.map_map]
      exact congrArg _ induction

theorem length_picks (items : List Item) : (picks items).length = items.length := by
  rw [← List.length_map Prod.fst, picks_map_fst]

theorem mem_permutationsOf_iff {count : Nat} {items order : List Item}
    (counted : items.length = count) :
    order ∈ permutationsOf count items ↔ order.Perm items := by
  induction count generalizing items order with
  | zero =>
      rw [List.length_eq_zero_iff] at counted
      rw [counted, List.perm_nil, permutationsOf, List.mem_singleton]
  | succ count induction =>
      rw [permutationsOf, List.mem_flatMap]
      constructor
      · intro picked
        rcases picked with ⟨pick, member, extended⟩
        have perm := perm_of_mem_picks member
        have rest : pick.2.length = count := by
          have lengths := perm.length_eq
          rw [List.length_cons] at lengths
          omega
        rcases List.mem_map.mp extended with ⟨tail, inTails, rfl⟩
        exact (((induction rest).mp inTails).cons pick.1).trans perm
      · intro perm
        cases order with
        | nil =>
            rw [List.nil_perm] at perm
            rw [perm] at counted
            cases counted
        | cons first tail =>
            have inItems : first ∈ (picks items).map Prod.fst := by
              rw [picks_map_fst]
              exact perm.subset List.mem_cons_self
            rcases List.mem_map.mp inItems with ⟨pick, member, rfl⟩
            have picked := perm_of_mem_picks member
            have rest : pick.2.length = count := by
              have lengths := picked.length_eq
              rw [List.length_cons] at lengths
              omega
            have tails : tail.Perm pick.2 := (perm.trans picked.symm).cons_inv
            exact ⟨pick, member, List.mem_map_of_mem ((induction rest).mpr tails)⟩

theorem mem_permutations_iff {items order : List Item} :
    order ∈ permutations items ↔ order.Perm items :=
  mem_permutationsOf_iff rfl

theorem length_permutationsOf {count : Nat} {items : List Item}
    (counted : items.length = count) :
    (permutationsOf count items).length = count.factorial := by
  induction count generalizing items with
  | zero => rfl
  | succ count induction =>
      have each : ∀ pick ∈ picks items,
          ((permutationsOf count pick.2).map fun order => pick.1 :: order).length =
            count.factorial := by
        intro pick member
        have lengths := (perm_of_mem_picks member).length_eq
        rw [List.length_cons] at lengths
        rw [List.length_map, induction (by omega)]
      rw [permutationsOf, List.length_flatMap, List.map_congr_left each, List.map_const',
        List.sum_replicate, length_picks, counted, smul_eq_mul, Nat.factorial_succ]

theorem length_permutations (items : List Item) :
    (permutations items).length = items.length.factorial :=
  length_permutationsOf rfl

theorem nodup_permutationsOf {count : Nat} {items : List Item} (counted : items.length = count)
    (distinct : items.Nodup) : (permutationsOf count items).Nodup := by
  induction count generalizing items with
  | zero => exact List.nodup_singleton _
  | succ count induction =>
      rw [permutationsOf, List.nodup_flatMap]
      constructor
      · intro pick member
        have perm := perm_of_mem_picks member
        have lengths := perm.length_eq
        rw [List.length_cons] at lengths
        have rest : pick.2.Nodup := (List.nodup_cons.mp (perm.nodup_iff.mpr distinct)).2
        exact (induction (by omega) rest).map (List.cons_injective)
      · have firsts : ((picks items).map Prod.fst).Nodup := by rwa [picks_map_fst]
        rw [List.Nodup, List.pairwise_map] at firsts
        apply firsts.imp
        intro left right different order inLeft inRight
        rcases List.mem_map.mp inLeft with ⟨_, _, rfl⟩
        rcases List.mem_map.mp inRight with ⟨_, _, equal⟩
        exact different (List.cons.inj equal).1.symm

theorem nodup_permutations {items : List Item} (distinct : items.Nodup) :
    (permutations items).Nodup :=
  nodup_permutationsOf rfl distinct

theorem picks_map (transform : Item → Other) (items : List Item) :
    picks (items.map transform) =
      (picks items).map fun pick => (transform pick.1, pick.2.map transform) := by
  induction items with
  | nil => rfl
  | cons item rest induction =>
      rw [List.map_cons, picks, induction, picks, List.map_cons, List.map_map, List.map_map]
      rfl

theorem permutationsOf_map (transform : Item → Other) (count : Nat) (items : List Item) :
    permutationsOf count (items.map transform) =
      (permutationsOf count items).map fun order => order.map transform := by
  induction count generalizing items with
  | zero => rfl
  | succ count induction =>
      rw [permutationsOf, permutationsOf, picks_map, List.flatMap_map, List.map_flatMap]
      congr 1
      funext pick
      rw [induction, List.map_map, List.map_map]
      rfl

theorem permutations_map (transform : Item → Other) (items : List Item) :
    permutations (items.map transform) =
      (permutations items).map fun order => order.map transform := by
  rw [permutations, List.length_map, permutationsOf_map]
  rfl

/-! ## Adjacent swaps -/

/-- Exchange the items at `index` and `index + 1`. -/
def swapAt : Nat → List Item → List Item
  | 0, first :: second :: rest => second :: first :: rest
  | index + 1, first :: rest => first :: swapAt index rest
  | _, items => items

theorem swapAt_perm (index : Nat) (items : List Item) : (swapAt index items).Perm items := by
  induction items generalizing index with
  | nil => cases index <;> exact .refl _
  | cons first rest induction =>
      cases index with
      | zero =>
          cases rest with
          | nil => exact .refl _
          | cons second rest => exact .swap _ _ _
      | succ index => exact (induction index).cons first

theorem swapAt_map (transform : Item → Other) (index : Nat) (items : List Item) :
    swapAt index (items.map transform) = (swapAt index items).map transform := by
  induction items generalizing index with
  | nil => cases index <;> rfl
  | cons first rest induction =>
      cases index with
      | zero => cases rest <;> rfl
      | succ index => exact congrArg (List.cons (transform first)) (induction index)

def AdjacentSwap (left right : List Item) : Prop :=
  ∃ index, index + 1 < left.length ∧ right = swapAt index left

theorem AdjacentSwap.cons {left right : List Item} (swapped : AdjacentSwap left right)
    (first : Item) : AdjacentSwap (first :: left) (first :: right) := by
  rcases swapped with ⟨index, within, rfl⟩
  exact ⟨index + 1, Nat.succ_lt_succ within, rfl⟩

/-- Adjacent swaps connect any two orders of a list. -/
theorem connected_of_perm {left right : List Item} (perm : left.Perm right) :
    Relation.ReflTransGen AdjacentSwap left right := by
  induction perm with
  | nil => exact .refl
  | cons first _ induction =>
      have lifted : ∀ left right : List Item, AdjacentSwap left right →
          AdjacentSwap (first :: left) (first :: right) :=
        fun _ _ swapped => swapped.cons first
      exact Relation.ReflTransGen.lift (List.cons first) lifted _ _ induction
  | swap first second rest =>
      exact .single ⟨0, by simp, rfl⟩
  | trans _ _ before after => exact before.trans after

/-- What no adjacent swap changes is the same for all orders. -/
theorem eq_of_swaps {Value : Type w} {items : List Item} {value : List Item → Value}
    (stable : ∀ order : List Item, order.Perm items → ∀ index, index + 1 < order.length →
      value (swapAt index order) = value order)
    {left right : List Item} (leftPerm : left.Perm items) (rightPerm : right.Perm items) :
    value left = value right := by
  have connected := connected_of_perm (leftPerm.trans rightPerm.symm)
  have both : value left = value right ∧ right.Perm items := by
    induction connected with
    | refl => exact ⟨rfl, leftPerm⟩
    | tail _ swapped induction =>
        rename_i middle last walked
        rcases swapped with ⟨index, within, rfl⟩
        have middlePerm := (swapAt_perm index middle).symm.trans rightPerm
        have before := induction middlePerm
        exact ⟨before.1.trans (stable middle middlePerm index within).symm, rightPerm⟩
  exact both.1

theorem swapAt_length (front : List Item) (first second : Item) (rest : List Item) :
    swapAt front.length (front ++ first :: second :: rest) =
      front ++ second :: first :: rest := by
  induction front with
  | nil => rfl
  | cons item front induction => exact congrArg (List.cons item) induction

theorem adjacentSwap_iff {left right : List Item} :
    AdjacentSwap left right ↔ ∃ front first second rest,
      left = front ++ first :: second :: rest ∧ right = front ++ second :: first :: rest := by
  constructor
  · intro swapped
    rcases swapped with ⟨index, within, rfl⟩
    have parts : ∃ front first second rest,
        left = front ++ first :: second :: rest ∧ front.length = index := by
      refine ⟨left.take index, left[index], left[index + 1], left.drop (index + 2), ?_, ?_⟩
      · rw [List.getElem_cons_drop, List.getElem_cons_drop, List.take_append_drop]
      · rw [List.length_take]
        omega
    rcases parts with ⟨front, first, second, rest, rfl, rfl⟩
    exact ⟨front, first, second, rest, rfl, swapAt_length front first second rest⟩
  · intro decomposed
    rcases decomposed with ⟨front, first, second, rest, rfl, rfl⟩
    refine ⟨front.length, ?_, (swapAt_length front first second rest).symm⟩
    rw [List.length_append, List.length_cons, List.length_cons]
    omega

/-! ## Discordant pairs -/

/-- The pairs of items of a list, each in its order there. -/
def pairs : List Item → List (Item × Item)
  | [] => []
  | first :: rest => (rest.map fun second => (first, second)) ++ pairs rest

theorem mem_pairs_cons_iff {left right first : Item} {rest : List Item} :
    (left, right) ∈ pairs (first :: rest) ↔
      left = first ∧ right ∈ rest ∨ (left, right) ∈ pairs rest := by
  rw [pairs, List.mem_append, List.mem_map]
  apply or_congr_left
  constructor
  · intro found
    rcases found with ⟨second, member, equal⟩
    rcases Prod.mk.inj equal with ⟨rfl, rfl⟩
    exact ⟨rfl, member⟩
  · intro found
    exact ⟨right, found.2, found.1 ▸ rfl⟩

theorem mem_of_mem_pairs {left right : Item} {items : List Item}
    (before : (left, right) ∈ pairs items) : left ∈ items ∧ right ∈ items := by
  induction items with
  | nil => cases before
  | cons first rest induction =>
      rcases mem_pairs_cons_iff.mp before with ⟨rfl, later⟩ | later
      · exact ⟨List.mem_cons_self, List.mem_cons_of_mem _ later⟩
      · exact (induction later).imp (List.mem_cons_of_mem _) (List.mem_cons_of_mem _)

theorem mem_pairs_append (front : List Item) {item later : Item} {back : List Item}
    (member : later ∈ back) : (item, later) ∈ pairs (front ++ item :: back) := by
  induction front with
  | nil => exact mem_pairs_cons_iff.mpr (.inl ⟨rfl, member⟩)
  | cons first front induction => exact mem_pairs_cons_iff.mpr (.inr induction)

theorem pairs_asymm {left right : Item} {items : List Item} (distinct : items.Nodup)
    (before : (left, right) ∈ pairs items) : (right, left) ∉ pairs items := by
  induction items with
  | nil => cases before
  | cons first rest induction =>
      rcases List.nodup_cons.mp distinct with ⟨fresh, restDistinct⟩
      rw [mem_pairs_cons_iff]
      rcases mem_pairs_cons_iff.mp before with ⟨rfl, later⟩ | later
      · intro either
        rcases either with ⟨rfl, _⟩ | after
        · exact fresh later
        · exact fresh (mem_of_mem_pairs after).2
      · intro either
        rcases either with ⟨rfl, _⟩ | after
        · exact fresh (mem_of_mem_pairs later).2
        · exact induction restDistinct later after

theorem pairs_total {left right : Item} {items : List Item} (different : left ≠ right)
    (leftMember : left ∈ items) (rightMember : right ∈ items) :
    (left, right) ∈ pairs items ∨ (right, left) ∈ pairs items := by
  induction items with
  | nil => cases leftMember
  | cons first rest induction =>
      rw [mem_pairs_cons_iff, mem_pairs_cons_iff]
      rcases List.mem_cons.mp leftMember with rfl | leftLater
      · exact .inl (.inl ⟨rfl, (List.mem_cons.mp rightMember).resolve_left (Ne.symm different)⟩)
      · rcases List.mem_cons.mp rightMember with rfl | rightLater
        · exact .inr (.inl ⟨rfl, leftLater⟩)
        · exact (induction leftLater rightLater).imp .inr .inr

/-- A swap of neighbours turns their pair round and keeps every other pair. -/
theorem pairs_swap (front : List Item) (first second : Item) (rest : List Item) :
    ∃ others, (pairs (front ++ first :: second :: rest)).Perm ((first, second) :: others) ∧
      (pairs (front ++ second :: first :: rest)).Perm ((second, first) :: others) := by
  induction front with
  | nil =>
      refine ⟨(rest.map fun item => (first, item)) ++
        ((rest.map fun item => (second, item)) ++ pairs rest), .refl _, ?_⟩
      apply List.Perm.cons
      exact List.perm_append_comm_assoc _ _ _
  | cons item front induction =>
      rcases induction with ⟨others, before, after⟩
      let ahead := (front ++ first :: second :: rest).map fun later => (item, later)
      have swapped : (front ++ second :: first :: rest).Perm (front ++ first :: second :: rest) :=
        (List.Perm.swap first second rest).append_left front
      refine ⟨ahead ++ others, ?_, ?_⟩
      · exact (before.append_left ahead).trans List.perm_middle
      · exact ((swapped.map _).append after).trans List.perm_middle

variable [DecidableEq Item]

/-- The number of pairs that the two orders of a list arrange differently. -/
def discordance (left right : List Item) : Nat :=
  (pairs left).countP fun pair => pair.swap ∈ pairs right

theorem discordance_self {items : List Item} (distinct : items.Nodup) :
    discordance items items = 0 := by
  rw [discordance, List.countP_eq_zero]
  intro pair before turned
  exact pairs_asymm distinct before (of_decide_eq_true turned)

/-- A swap of neighbours that stand the other way round in `right` settles one pair. -/
theorem discordance_swap (front rest : List Item) {right : List Item} {first second : Item}
    (distinct : right.Nodup) (turned : (second, first) ∈ pairs right) :
    discordance (front ++ first :: second :: rest) right =
      discordance (front ++ second :: first :: rest) right + 1 := by
  rcases pairs_swap front first second rest with ⟨others, before, after⟩
  have kept := pairs_asymm distinct turned
  rw [discordance, discordance, before.countP_eq, after.countP_eq, List.countP_cons_of_pos,
    List.countP_cons_of_neg]
  · simpa using kept
  · simpa using turned

theorem AdjacentSwap.discordance_le {left middle right : List Item}
    (swapped : AdjacentSwap left middle) (perm : left.Perm right) (distinct : right.Nodup) :
    discordance left right ≤ discordance middle right + 1 := by
  rcases adjacentSwap_iff.mp swapped with ⟨front, first, second, rest, rfl, rfl⟩
  have leftDistinct := perm.nodup_iff.mpr distinct
  have different : first ≠ second := by
    intro equal
    have repeated := (List.nodup_append.mp leftDistinct).2.1
    exact (List.nodup_cons.mp repeated).1 (equal ▸ List.mem_cons_self)
  have firstMember : first ∈ right := perm.subset (by simp)
  have secondMember : second ∈ right := perm.subset (by simp)
  rcases pairs_total different firstMember secondMember with kept | turned
  · rw [discordance_swap front rest distinct kept]
    omega
  · exact (discordance_swap front rest distinct turned).le

/-- A path of adjacent swaps makes at least one swap for each discordant pair. -/
theorem discordance_lt_length {path : List (List Item)} {left right : List Item}
    (chain : path.IsChain AdjacentSwap) (starts : path.head? = some left)
    (ends : path.getLast? = some right) (distinct : right.Nodup) :
    left.Perm right ∧ discordance left right < path.length := by
  induction path generalizing left with
  | nil => cases starts
  | cons order path induction =>
      have first : order = left := Option.some.inj starts
      cases path with
      | nil =>
          have last : order = right := Option.some.inj ends
          rw [← first, last, discordance_self distinct]
          exact ⟨.refl _, Nat.zero_lt_one⟩
      | cons middle path =>
          rw [first] at chain
          rcases List.isChain_cons_cons.mp chain with ⟨swapped, chain⟩
          rw [List.getLast?_cons_cons] at ends
          rcases induction chain rfl ends with ⟨middlePerm, within⟩
          have perm : left.Perm right := by
            rcases swapped with ⟨index, _, rfl⟩
            exact (swapAt_perm index left).symm.trans middlePerm
          have step := swapped.discordance_le perm distinct
          rw [List.length_cons]
          exact ⟨perm, by omega⟩

end Orders
