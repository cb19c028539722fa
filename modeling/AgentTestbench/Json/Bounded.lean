import AgentTestbench.Workflow

/-! # Values of a bounded size

Bounds on nodes, depth and bytes that add up over arrays and objects. A report with a bounded
number of rows is an artifact by its bounds alone.
-/

namespace AgentTestbench

open AssociationList Fallible

namespace Json

/-- A portable value of at most the given size. -/
structure Bounded (value : Json) (nodes depth size : Nat) : Prop where
  nodes : value.nodes ≤ nodes
  depth : value.depth ≤ depth
  size : value.canonicalSize ≤ size
  portable : value.Portable
  encodable : value.Encodable

theorem Bounded.mono {value : Json} {nodes depth size moreNodes deeper larger : Nat}
    (bounded : value.Bounded nodes depth size) (nodesLe : nodes ≤ moreNodes)
    (depthLe : depth ≤ deeper) (sizeLe : size ≤ larger) :
    value.Bounded moreNodes deeper larger :=
  ⟨bounded.nodes.trans nodesLe, bounded.depth.trans depthLe, bounded.size.trans sizeLe,
    bounded.portable, bounded.encodable⟩

theorem bounded_bool (value : Bool) : (Json.bool value).Bounded 1 0 5 :=
  ⟨le_rfl, le_rfl, by cases value <;> decide, trivial, trivial⟩

theorem bounded_string {content : Text} (encodable : content.Encodable) :
    (Json.string content).Bounded 1 0 (6 * content.length + 2) :=
  ⟨le_rfl, le_rfl, utf8Size_quote_le content, encodable, trivial⟩

theorem bounded_array {items : List Json} {nodes depth size limit : Nat}
    (each : ∀ item ∈ items, item.Bounded nodes depth size) (few : items.length ≤ limit) :
    (Json.array items).Bounded (limit * nodes + 1) (depth + 1) (limit * (size + 1) + 2) where
  nodes := by
    have total := List.sum_le_card_nsmul (items.map Json.nodes) nodes
      (List.forall_mem_map.mpr fun item member => (each item member).nodes)
    have scaled := Nat.mul_le_mul_right nodes few
    rw [List.length_map, smul_eq_mul] at total
    rw [Json.nodes, nodesOfItems_eq]
    omega
  depth := by
    rw [Json.depth]
    exact Nat.succ_le_succ (depthOfItems_le_iff.mpr fun item member => (each item member).depth)
  size := by
    have total := List.sum_le_card_nsmul (items.map fun item => item.canonicalSize + 1) (size + 1)
      (List.forall_mem_map.mpr fun item member => Nat.succ_le_succ (each item member).size)
    have scaled := Nat.mul_le_mul_right (size + 1) few
    rw [List.length_map, smul_eq_mul] at total
    rw [canonicalSize_array]
    split_ifs <;> omega
  portable := portable_array_iff.mpr fun item member => (each item member).portable
  encodable := encodable_array_iff.mpr fun item member => (each item member).encodable

theorem bounded_object_nil : (Json.object []).Bounded 1 1 2 where
  nodes := le_rfl
  depth := le_rfl
  size := le_rfl
  portable := by
    refine portable_object_iff.mpr ⟨?_, ?_⟩ <;> (intro _ vacant; cases vacant)
  encodable := encodable_object_iff.mpr fun _ vacant => by cases vacant

theorem bounded_object_cons {key : Text} {value : Json} {members : List (Text × Json)}
    {nodes depth size restNodes restDepth restSize keyBytes : Nat}
    (first : value.Bounded nodes depth size) (keyEncodable : key.Encodable)
    (keyBound : keySize key ≤ keyBytes)
    (rest : (Json.object members).Bounded restNodes restDepth restSize) :
    (Json.object ((key, value) :: members)).Bounded (nodes + restNodes)
      (max (depth + 1) restDepth) (keyBytes + size + 1 + restSize) where
  nodes := by
    have both := Nat.add_le_add first.nodes rest.nodes
    rw [Json.nodes] at both
    rw [Json.nodes, nodesOfMembers]
    omega
  depth := by
    have below := rest.depth
    have inner := first.depth
    rw [Json.depth] at below
    rw [Json.depth, depthOfMembers]
    omega
  size := by
    have bytes := rest.size
    have inner := first.size
    rw [canonicalSize_object] at bytes
    rw [canonicalSize_object, List.map_cons, List.sum_cons, if_neg (List.cons_ne_nil _ _)]
    dsimp only
    split_ifs at bytes <;> omega
  portable := by
    rw [portable_object_iff]
    have others := portable_object_iff.mp rest.portable
    exact ⟨List.forall_mem_cons.mpr ⟨keyEncodable, others.1⟩,
      List.forall_mem_cons.mpr ⟨first.portable, others.2⟩⟩
  encodable := by
    rw [encodable_object_iff]
    exact List.forall_mem_cons.mpr ⟨first.encodable, encodable_object_iff.mp rest.encodable⟩

end Json

theorem boundedArtifact_of_bounded {value : Json} {nodes depth size : Nat}
    (bounded : value.Bounded nodes depth size) (fewNodes : nodes ≤ maxJsonNodes)
    (shallow : depth ≤ maxJsonNesting)
    (small : size + nodes * Json.indentedCost depth ≤ maxJsonInputBytes) :
    boundedArtifact value = .ok () := by
  apply boundedArtifact_of_size (bounded.nodes.trans fewNodes) bounded.depth shallow
    bounded.portable bounded.encodable
  exact (Nat.add_le_add bounded.size (Nat.mul_le_mul_right _ bounded.nodes)).trans small

end AgentTestbench
