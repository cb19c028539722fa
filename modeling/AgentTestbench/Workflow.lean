import AgentTestbench.Json.Narrower
import AgentTestbench.Suite.Revalidate

/-! # Bounded artifacts -/

namespace AgentTestbench

open Fallible

def artifactFailure : TestbenchError :=
  .workflowInput (text "Workflow artifact exceeds strict JSON limits.")

/-- `bounded_artifact`, which returns its argument. -/
def boundedArtifact (value : Json) : Except TestbenchError Unit := do
  (ensureJsonValue value (text "Workflow artifact")).mapError fun _ => artifactFailure
  let written ← (stableJson value).mapError fun _ => artifactFailure
  require (Text.utf8Size written ≤ maxJsonInputBytes) artifactFailure

theorem boundedArtifact_eq_ok_iff {value : Json} {done : Unit} :
    boundedArtifact value = .ok done ↔
      (value.nodes ≤ maxJsonNodes ∧ value.depth ≤ maxJsonNesting ∧ value.Portable) ∧
        ∃ written, stableJson value = .ok written ∧ Text.utf8Size written ≤ maxJsonInputBytes := by
  simp only [boundedArtifact, bind_eq_ok_iff, mapError_eq_ok_iff, require_eq_ok_iff,
    ensureJsonValue_eq_ok_iff, exists_const]

/-- Every artifact that is refused is refused with the same error. -/
theorem boundedArtifact_eq_error {value : Json} {failure : TestbenchError}
    (failed : boundedArtifact value = .error failure) : failure = artifactFailure := by
  rcases bind_eq_error_iff.mp failed with structural | ⟨_, _, failed⟩
  · exact (mapError_eq_error_iff.mp structural).elim fun _ raised => raised.2.symm
  · rcases bind_eq_error_iff.mp failed with unwritten | ⟨_, _, large⟩
    · exact (mapError_eq_error_iff.mp unwritten).elim fun _ raised => raised.2.symm
    · exact (require_eq_error_iff.mp large).2.symm

/-- What a function that ends in `return bounded_artifact(...)` returns. -/
theorem bounded_return_eq_ok_iff {Result : Type} {value : Json} {result other : Result} :
    (boundedArtifact value >>= fun _ => Except.ok result) = .ok other ↔
      boundedArtifact value = .ok () ∧ other = result := by
  rw [bind_eq_ok_iff]
  constructor
  · intro returned
    rcases returned with ⟨_, bounded, equal⟩
    exact ⟨bounded, (Except.ok.inj equal).symm⟩
  · intro returned
    exact ⟨(), returned.1, congrArg _ returned.2.symm⟩

/-- A bounded artifact can be written, and so can every part of it. -/
theorem boundedArtifact_encodable {value : Json} {done : Unit}
    (bounded : boundedArtifact value = .ok done) : value.Encodable := by
  rcases (boundedArtifact_eq_ok_iff.mp bounded).2 with ⟨_, stable, _⟩
  rcases map_eq_ok_iff.mp stable with ⟨_, dumped, _⟩
  exact (dumps_eq_ok_iff.mp dumped).1

/-- The layout that is measured is longer than the canonical text, so a bounded artifact is
within the limits of every document. -/
theorem boundedArtifact_fitsLimits {value : Json} {done : Unit}
    (bounded : boundedArtifact value = .ok done) : value.FitsLimits maxJsonInputBytes := by
  rcases boundedArtifact_eq_ok_iff.mp bounded with ⟨⟨nodes, depth, portable⟩, _, stable, size⟩
  have encodable := boundedArtifact_encodable bounded
  refine ⟨nodes, depth, portable, encodable, ?_⟩
  rcases map_eq_ok_iff.mp stable with ⟨_, dumped, rfl⟩
  rcases dumps_eq_ok_iff.mp dumped with ⟨_, rfl⟩
  have longer := value.normalize.canonicalSize_le_indentedSize 0
  rw [Json.canonicalSize_normalize, Json.indentedSize] at longer
  rw [Text.utf8Size_append] at size
  omega

/-- A value that is small enough for any layout is a bounded artifact. -/
theorem boundedArtifact_of_size {value : Json} {bound : Nat} (nodes : value.nodes ≤ maxJsonNodes)
    (depth : value.depth ≤ bound) (shallow : bound ≤ maxJsonNesting) (portable : value.Portable)
    (encodable : value.Encodable)
    (size : value.canonicalSize + value.nodes * Json.indentedCost bound ≤ maxJsonInputBytes) :
    boundedArtifact value = .ok () := by
  have structural : ensureJsonValue value (text "Workflow artifact") = .ok () :=
    (ensureJsonValue_eq_ok_iff value _).mpr ⟨nodes, depth.trans shallow, portable⟩
  have stable : stableJson value =
      .ok ((value.normalize.pieces indented 0).flatMap pieceText ++ [lineFeed]) := by
    rw [stableJson, dumps_eq_ok_iff.mpr ⟨encodable, rfl⟩]
    rfl
  rw [boundedArtifact, structural, stable]
  exact require_of_holds ((Json.stableJson_size depth stable).trans size)

/-- A value written in no more bytes than a bounded artifact is one. -/
theorem boundedArtifact_of_narrower {inner outer : Json} (narrower : inner.Narrower outer)
    (bounded : boundedArtifact outer = .ok ()) : boundedArtifact inner = .ok () := by
  rw [boundedArtifact_eq_ok_iff] at bounded ⊢
  rcases bounded with ⟨⟨nodes, depth, portable⟩, written, stable, size⟩
  rcases map_eq_ok_iff.mp stable with ⟨_, dumped, rfl⟩
  rcases dumps_eq_ok_iff.mp dumped with ⟨encodable, rfl⟩
  refine ⟨⟨narrower.nodes.trans nodes, narrower.depth.trans depth, narrower.portable portable⟩,
    (inner.normalize.pieces indented 0).flatMap pieceText ++ [lineFeed], ?_, ?_⟩
  · rw [stableJson, dumps_eq_ok_iff.mpr ⟨narrower.encodable encodable, rfl⟩]
    rfl
  · have fewer := narrower.written 0
    rw [Text.utf8Size_append] at size ⊢
    exact (Nat.add_le_add_right fewer _).trans size

/-! ## Exported suites -/

/-- What `bounded_artifact(validate_suite(suite))` accepts. -/
structure Suite.Exportable (suite : Suite) : Prop where
  valid : suite.Valid
  bounded : boundedArtifact suite.toJson = .ok ()

private theorem Suite.narrower_of_sublist {suite : Suite} {caseList : List SuiteCase}
    (sublist : caseList.Sublist suite.cases) :
    (Suite.toJson { suite with cases := caseList }).Narrower suite.toJson := by
  apply Json.narrower_object
  exact .cons ⟨rfl, Json.Narrower.refl _⟩
    (.cons ⟨rfl, Json.narrower_array_of_sublist (sublist.map _)⟩ .nil)

/-- Some of the cases of an exportable suite, in order, make an exportable suite. -/
theorem Suite.Exportable.of_sublist {suite : Suite} (exportable : suite.Exportable)
    {caseList : List SuiteCase} (sublist : caseList.Sublist suite.cases)
    (nonempty : caseList ≠ []) :
    Suite.Exportable { suite with cases := caseList } where
  valid := exportable.valid.of_sublist sublist nonempty
  bounded := boundedArtifact_of_narrower (Suite.narrower_of_sublist sublist) exportable.bounded

end AgentTestbench
