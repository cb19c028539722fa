import AgentTestbench.Precedence.Variance

/-! # Adjacent swap paths

`_adjacent_swap_path` sorts a copy of the left order in place. The invariant: the part
already placed agrees with the right order, and every swap so far settled one pair that
the two orders arrange differently.
-/

namespace AgentTestbench

open Orders

/-- The state of the loops: what the swaps so far have made of the left order. -/
structure Descends (leftOrder rightOrder : IdOrder) (state : IdOrder × List IdOrder) :
    Prop where
  starts : state.2.head? = some leftOrder
  current : state.2.getLast? = some state.1
  chain : state.2.IsChain AdjacentSwap
  orders : ∀ order ∈ state.2, order.Perm leftOrder
  settled : state.2.length + discordance state.1 rightOrder =
    discordance leftOrder rightOrder + 1

private theorem descends_start (leftOrder rightOrder : IdOrder) :
    Descends leftOrder rightOrder (leftOrder, [leftOrder]) where
  starts := rfl
  current := rfl
  chain := List.isChain_singleton _
  orders := by
    intro order member
    rw [List.mem_singleton.mp member]
  settled := Nat.add_comm _ _

theorem Descends.perm {leftOrder rightOrder : IdOrder} {state : IdOrder × List IdOrder}
    (descends : Descends leftOrder rightOrder state) : state.1.Perm leftOrder :=
  descends.orders _ (List.mem_of_getLast? descends.current)

/-- One swap of the inner loop. -/
theorem Descends.swap {leftOrder rightOrder front rest : IdOrder} {first second : Text}
    {path : List IdOrder}
    (descends : Descends leftOrder rightOrder (front ++ first :: second :: rest, path))
    (distinct : rightOrder.Nodup) (turned : (second, first) ∈ pairs rightOrder) :
    Descends leftOrder rightOrder (front ++ second :: first :: rest,
      path ++ [front ++ second :: first :: rest]) where
  starts := by
    rw [List.head?_append, descends.starts]
    rfl
  current := List.getLast?_concat ..
  chain := by
    apply List.IsChain.append descends.chain (List.isChain_singleton _)
    intro last isLast next isNext
    have lastEqual := Option.some.inj (descends.current.symm.trans isLast)
    have nextEqual := Option.some.inj isNext
    rw [← lastEqual, ← nextEqual]
    exact adjacentSwap_iff.mpr ⟨front, first, second, rest, rfl, rfl⟩
  orders := by
    intro order member
    rcases List.mem_append.mp member with earlier | last
    · exact descends.orders order earlier
    · rw [List.mem_singleton.mp last]
      exact ((List.Perm.swap first second rest).append_left front).trans descends.perm
  settled := by
    have settled := descends.settled
    have step := discordance_swap front rest distinct turned
    rw [List.length_append, List.length_singleton]
    dsimp only at settled ⊢
    omega

/-- The inner loop puts an item after the items already placed. -/
theorem Descends.moveDown {leftOrder rightOrder front before after : IdOrder} {item : Text}
    {path : List IdOrder}
    (descends : Descends leftOrder rightOrder (front ++ (before ++ item :: after), path))
    (distinct : rightOrder.Nodup)
    (ahead : ∀ other ∈ before, (item, other) ∈ pairs rightOrder) :
    ∃ longer, moveDown front.length (front.length + before.length)
        (front ++ (before ++ item :: after), path) =
        (front ++ item :: (before ++ after), longer) ∧
      Descends leftOrder rightOrder (front ++ item :: (before ++ after), longer) := by
  induction before using List.reverseRecOn generalizing after path with
  | nil =>
      refine ⟨path, ?_, descends⟩
      cases front with
      | nil => rfl
      | cons first front => exact if_neg (Nat.lt_irrefl _)
  | append_singleton before other induction =>
      have regroup : front ++ (before ++ [other] ++ item :: after) =
          (front ++ before) ++ other :: item :: after := by simp
      have counted : front.length + before.length = (front ++ before).length :=
        List.length_append.symm
      rw [regroup] at descends ⊢
      have swapped := descends.swap distinct (ahead other (by simp))
      rw [List.append_assoc] at swapped
      rcases induction swapped fun earlier member =>
        ahead earlier (List.mem_append_left _ member) with ⟨longer, moved, kept⟩
      have tail : before ++ other :: after = before ++ [other] ++ after := by simp
      rw [tail] at moved kept
      refine ⟨longer, ?_, kept⟩
      rw [List.length_append, List.length_singleton, ← Nat.add_assoc, AgentTestbench.moveDown,
        if_pos (by omega), counted, swapAt_length, ← counted, List.append_assoc]
      exact moved

/-- The outer loop, from a state where `front` is placed and `back` is not. -/
theorem Descends.run {leftOrder rightOrder front back rest : IdOrder} {path : List IdOrder}
    (descends : Descends leftOrder rightOrder (front ++ rest, path))
    (distinct : rightOrder.Nodup) (parts : rightOrder = front ++ back)
    (perm : rest.Perm back) :
    ∃ longer, (back.zipIdx front.length).foldl (fun state entry =>
        AgentTestbench.moveDown entry.2 (state.1.idxOf entry.1) state) (front ++ rest, path) =
        (rightOrder, longer) ∧
      Descends leftOrder rightOrder (rightOrder, longer) := by
  induction back generalizing front rest path with
  | nil =>
      rw [List.perm_nil.mp perm] at descends ⊢
      rw [parts] at descends ⊢
      exact ⟨path, rfl, descends⟩
  | cons item back induction =>
      rcases List.eq_append_cons_of_mem (perm.mem_iff.mpr List.mem_cons_self) with
        ⟨before, after, rfl, fresh⟩
      have remaining : (before ++ after).Perm back :=
        (List.perm_middle.symm.trans perm).cons_inv
      have ahead : ∀ other ∈ before, (item, other) ∈ pairs rightOrder := by
        intro other member
        rw [parts]
        exact mem_pairs_append front (remaining.subset (List.mem_append_left _ member))
      have unplaced : item ∉ front := by
        rw [parts] at distinct
        exact fun placed => List.disjoint_of_nodup_append distinct placed List.mem_cons_self
      have found : (front ++ (before ++ item :: after)).idxOf item =
          front.length + before.length := by
        rw [List.idxOf_append_of_notMem unplaced, List.idxOf_append_of_notMem fresh,
          List.idxOf_cons_self]
        rfl
      rcases descends.moveDown distinct ahead with ⟨longer, moved, kept⟩
      have regroup : ∀ others : IdOrder, front ++ item :: others = (front ++ [item]) ++ others :=
        fun others => by simp
      rw [List.zipIdx_cons, List.foldl_cons]
      dsimp only
      rw [found, moved]
      rw [regroup] at kept ⊢
      have counted : front.length + 1 = (front ++ [item]).length := by simp
      rw [counted]
      exact induction kept (parts.trans (regroup back)) remaining

/-- The path runs from one order to the other by adjacent swaps through orders of the same
rules, and no path does so with fewer swaps. -/
theorem adjacentSwapPath_shortest {ids leftOrder rightOrder : IdOrder} (distinct : ids.Nodup)
    (leftPerm : leftOrder.Perm ids) (rightPerm : rightOrder.Perm ids) :
    (adjacentSwapPath leftOrder rightOrder).head? = some leftOrder ∧
    (adjacentSwapPath leftOrder rightOrder).getLast? = some rightOrder ∧
    (∀ order ∈ adjacentSwapPath leftOrder rightOrder, order.Perm leftOrder) ∧
    (adjacentSwapPath leftOrder rightOrder).IsChain AdjacentSwap ∧
    (adjacentSwapPath leftOrder rightOrder).length = discordance leftOrder rightOrder + 1 ∧
    ∀ path : List IdOrder, path.head? = some leftOrder → path.getLast? = some rightOrder →
      path.IsChain AdjacentSwap →
      (adjacentSwapPath leftOrder rightOrder).length ≤ path.length := by
  have rightDistinct := rightPerm.nodup_iff.mpr distinct
  have start : Descends leftOrder rightOrder ([] ++ leftOrder, [leftOrder]) :=
    descends_start leftOrder rightOrder
  rcases start.run rightDistinct rfl (leftPerm.trans rightPerm.symm) with
    ⟨path, ran, descends⟩
  have equal : adjacentSwapPath leftOrder rightOrder = path := congrArg Prod.snd ran
  have length : path.length = discordance leftOrder rightOrder + 1 := by
    have settled := descends.settled
    rwa [discordance_self rightDistinct] at settled
  rw [equal]
  refine ⟨descends.starts, descends.current, descends.orders, descends.chain, length, ?_⟩
  intro other starts ends chain
  rw [length]
  exact (discordance_lt_length chain starts ends rightDistinct).2

theorem adjacentSwapPath_shortest_reversal :
    let leftOrder := [text "first", text "second", text "third"]
    let rightOrder := [text "third", text "second", text "first"]
    (adjacentSwapPath leftOrder rightOrder).head? = some leftOrder ∧
    (adjacentSwapPath leftOrder rightOrder).getLast? = some rightOrder ∧
    (∀ order ∈ adjacentSwapPath leftOrder rightOrder, order.Perm leftOrder) ∧
    (adjacentSwapPath leftOrder rightOrder).IsChain AdjacentSwap ∧
    (adjacentSwapPath leftOrder rightOrder).length = discordance leftOrder rightOrder + 1 ∧
    ∀ path : List IdOrder, path.head? = some leftOrder → path.getLast? = some rightOrder →
      path.IsChain AdjacentSwap →
      (adjacentSwapPath leftOrder rightOrder).length ≤ path.length :=
  adjacentSwapPath_shortest
    (show [text "first", text "second", text "third"].Nodup by decide) (.refl _)
    (List.reverse_perm [text "first", text "second", text "third"])

end AgentTestbench
