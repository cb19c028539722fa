import AgentTestbench.Foundation.RoundRobin
import AgentTestbench.Suite.Report
import AgentTestbench.Workflow

/-! # Shards

`shard_suite` takes every `count`-th case of a suite. The shards of one count are a
partition of the suite, and so are the rows they evaluate to.
-/

namespace AgentTestbench

open AssociationList Fallible RoundRobin

def partitionFailure : TestbenchError :=
  .workflowInput (text
    "Partition requires integer index and count; each shard must be nonempty.")

def shardSuite (suite partition : Json) : Except TestbenchError Suite := do
  let fixtures ← validateSuite suite
  boundedArtifact partition
  match partition with
  | .object members => do
      require (HasExactKeys members [text "index", text "count"]) partitionFailure
      match field members (text "index"), field members (text "count") with
      | .number (.integer index), .number (.integer count) => do
          require (1 ≤ count ∧ count ≤ fixtures.cases.length ∧ 0 ≤ index ∧ index < count)
            partitionFailure
          let sharded : Suite :=
            { fixtures with cases := stride count.toNat index.toNat fixtures.cases }
          boundedArtifact sharded.toJson
          .ok sharded
      | _, _ => .error partitionFailure
  | _ => .error partitionFailure

/-- `{"index": index, "count": count}`, with its members in either order. -/
def DescribesPartition (partition : Json) (index count : Nat) : Prop :=
  ∃ members, partition = .object members ∧
    HasExactKeys members [text "index", text "count"] ∧
    field members (text "index") = countJson index ∧
    field members (text "count") = countJson count

/-- A shard of a suite. -/
def Suite.shard (suite : Suite) (index count : Nat) : Suite :=
  { suite with cases := stride count index suite.cases }

theorem shardSuite_eq_ok_iff {raw partition : Json} {suite shard : Suite} {index count : Nat}
    (suiteValidated : validateSuite raw = .ok suite)
    (described : DescribesPartition partition index count) :
    shardSuite raw partition = .ok shard ↔
      boundedArtifact partition = .ok () ∧ (index < count ∧ count ≤ suite.cases.length) ∧
        boundedArtifact (suite.shard index count).toJson = .ok () ∧
        shard = suite.shard index count := by
  rcases described with ⟨members, rfl, exactKeys, indexField, countField⟩
  have bounds : (1 ≤ (count : Int) ∧ (count : Int) ≤ suite.cases.length ∧ 0 ≤ (index : Int) ∧
      (index : Int) < count) ↔ index < count ∧ count ≤ suite.cases.length := by omega
  rw [shardSuite, suiteValidated, ok_bind, bind_eq_ok_iff]
  simp only [indexField, countField, countJson, bind_eq_ok_iff, require_eq_ok_iff, bounds]
  constructor
  · intro returned
    rcases returned with ⟨_, bounded, _, _, _, inside, rest⟩
    exact ⟨bounded, inside, bounded_return_eq_ok_iff.mp (bind_eq_ok_iff.mpr rest)⟩
  · intro returned
    rcases returned with ⟨bounded, inside, rest⟩
    exact ⟨(), bounded, (), exactKeys, (), inside,
      bind_eq_ok_iff.mp (bounded_return_eq_ok_iff.mpr rest)⟩

section Shards

variable {suite : Suite}

theorem Suite.Valid.shard (suiteValid : suite.Valid) {index count : Nat}
    (inside : index < count ∧ count ≤ suite.cases.length) : (suite.shard index count).Valid := by
  apply suiteValid.of_sublist (stride_sublist count index suite.cases)
  apply stride_ne_nil <;> omega

private theorem shards_cases {count : Nat} (positive : 0 < count) :
    interleave ((List.range count).map fun index => (suite.shard index count).cases) =
      suite.cases :=
  interleave_strides positive suite.cases

theorem shards_rows (policy : Policy) {count : Nat} (positive : 0 < count) :
    interleave ((List.range count).map fun index =>
      (suiteReport policy (suite.shard index count)).cases) = (suiteReport policy suite).cases := by
  have rows : ∀ index, (suiteReport policy (suite.shard index count)).cases =
      stride count index (suiteReport policy suite).cases :=
    fun index => (stride_map count index _ suite.cases).symm
  simp only [rows]
  exact interleave_strides positive _

private theorem shards_matchExpectations (policy : Policy) {count : Nat} (positive : 0 < count) :
    (suiteReport policy suite).matchesExpectations = true ↔
      ∀ index < count, (suiteReport policy (suite.shard index count)).matchesExpectations =
        true := by
  have whole : (suiteReport policy suite).matchesExpectations =
      (suiteReport policy suite).cases.all CaseReport.matchesExpectation := rfl
  rw [whole, ← shards_rows policy positive, List.all_eq_true]
  simp only [mem_interleave_iff, List.mem_map, List.mem_range, exists_exists_and_eq_and]
  constructor
  · intro each index inside
    exact List.all_eq_true.mpr fun row member => each row ⟨index, inside, member⟩
  · intro each row listed
    rcases listed with ⟨index, inside, member⟩
    exact List.all_eq_true.mp (each index inside) row member

end Shards

/-- The shards of a suite are an exact partition of its cases and of their rows. -/
theorem shardSuite_partition {raw : Json} {suite : Suite} {count : Nat}
    {partitions : Nat → Json} {shards : Nat → Suite}
    (suiteValidated : validateSuite raw = .ok suite) (positive : 1 ≤ count)
    (described : ∀ index < count, DescribesPartition (partitions index) index count)
    (sharded : ∀ index < count, shardSuite raw (partitions index) = .ok (shards index)) :
    (∀ index < count, (shards index).cases ≠ [] ∧
      (shards index).suiteVersion = suite.suiteVersion ∧
      validateSuite (shards index).toJson = .ok (shards index)) ∧
    interleave ((List.range count).map fun index => (shards index).cases) = suite.cases ∧
    ∀ input policy, validatePolicy input = .ok policy →
      ∃ (report : SuiteReport) (reports : Nat → SuiteReport),
        evaluateSuite input raw = .ok report ∧
        (∀ index < count, evaluateSuite input (shards index).toJson = .ok (reports index)) ∧
        report.cases = interleave ((List.range count).map fun index =>
          (reports index).cases) ∧
        (report.matchesExpectations = true ↔
          ∀ index < count, (reports index).matchesExpectations = true) := by
  have suiteValid := valid_of_validateSuite suiteValidated
  have parts : ∀ index < count, shards index = suite.shard index count ∧
      (shards index).Valid := by
    intro index inside
    have returned := (shardSuite_eq_ok_iff suiteValidated (described index inside)).mp
      (sharded index inside)
    rw [returned.2.2.2]
    exact ⟨rfl, suiteValid.shard returned.2.1⟩
  have casesEqual : (List.range count).map (fun index => (shards index).cases) =
      (List.range count).map fun index => (suite.shard index count).cases := by
    apply List.map_congr_left
    intro index member
    rw [(parts index (List.mem_range.mp member)).1]
  refine ⟨?_, casesEqual ▸ shards_cases positive, ?_⟩
  · intro index inside
    have part := parts index inside
    exact ⟨part.2.nonempty, part.1 ▸ rfl, part.2.validate_toJson⟩
  · intro input policy validated
    refine ⟨suiteReport policy suite, fun index => suiteReport policy (suite.shard index count),
      evaluateSuite_eq validated suiteValidated, ?_, (shards_rows policy positive).symm,
      shards_matchExpectations policy positive⟩
    intro index inside
    have part := parts index inside
    have evaluated := evaluateSuite_eq validated part.2.validate_toJson
    rwa [part.1] at evaluated ⊢

def trioSuite : Suite :=
  ⟨.version1_0, [⟨text "a", [(text "flag", .bool true)], true, none⟩,
    ⟨text "b", [], false, none⟩, ⟨text "c", [(text "flag", .null)], true, none⟩]⟩

def halfPartition (index : Nat) : Json :=
  .object [(text "count", countJson 2), (text "index", countJson index)]

theorem shardSuite_partition_trio :
    (∀ index < 2, (trioSuite.shard index 2).cases ≠ [] ∧
      (trioSuite.shard index 2).suiteVersion = trioSuite.suiteVersion ∧
      validateSuite (trioSuite.shard index 2).toJson = .ok (trioSuite.shard index 2)) ∧
    interleave ((List.range 2).map fun index => (trioSuite.shard index 2).cases) =
      trioSuite.cases ∧
    ∃ (report : SuiteReport) (reports : Nat → SuiteReport),
      evaluateSuite (.object presencePolicy.toObject) trioSuite.toJson = .ok report ∧
      (∀ index < 2, evaluateSuite (.object presencePolicy.toObject)
        (trioSuite.shard index 2).toJson = .ok (reports index)) ∧
      report.cases = interleave ((List.range 2).map fun index => (reports index).cases) ∧
      (report.matchesExpectations = true ↔
        ∀ index < 2, (reports index).matchesExpectations = true) := by
  have described : ∀ index < 2, DescribesPartition (halfPartition index) index 2 := by
    intro index _
    have both : HasExactKeys [(text "count", countJson 2), (text "index", countJson index)]
        [text "index", text "count"] := by
      change (∀ key ∈ [text "count", text "index"], key ∈ [text "index", text "count"]) ∧
        ∀ key ∈ [text "index", text "count"], key ∈ [text "count", text "index"]
      decide
    exact ⟨_, rfl, both, rfl, rfl⟩
  have halves := shardSuite_partition
    (show validateSuite trioSuite.toJson = .ok trioSuite by decide +kernel) (by decide) described
    (show ∀ index < 2, shardSuite trioSuite.toJson (halfPartition index) =
      .ok (trioSuite.shard index 2) by decide +kernel)
  exact ⟨halves.1, halves.2.1, halves.2.2 (.object presencePolicy.toObject) presencePolicy
    (show validatePolicy _ = .ok _ by decide +kernel)⟩

end AgentTestbench
