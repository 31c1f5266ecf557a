import PhysicalAiStudio.Strings.NestedJson

/-! What a runtime session is identified by.

The document of a session holds the recipes of the robot and of the action source, the rate
and the cameras. Its identity is the digest of a canonical text of all but the cameras.
-/

set_option autoImplicit false

namespace PhysicalAiStudio.Runtime

open Strings Strings.Json

/-- The `init_args` of a document that `build_runtime_config` assembled. -/
structure RuntimeDocument where
  robot : Nested
  cameras : List (Text × Nested)
  fps : Number
  /-- Absent without a leader. -/
  actionSource : Option Nested
  robot_formed : WellFormed robot
  actionSource_formed : WellFormed (actionSource.getD .null)
  fps_shown : fps.Shown

namespace RuntimeDocument

def identity (document : RuntimeDocument) : Nested :=
  .object [("robot".toList, document.robot), ("action_source".toList, document.actionSource.getD .null),
    ("fps".toList, .number document.fps)]

/-- `runtime_identity_digest`, for the hash function it is given. -/
def runtimeIdentityDigest (sha256 : Text → Text) (document : RuntimeDocument) : Text :=
  sha256 (canonical document.identity)

def runtimeCameraKeys (document : RuntimeDocument) : List Text :=
  (document.cameras.map Prod.fst).insertionSort (· ≤ ·)

structure SameRig (document other : RuntimeDocument) : Prop where
  robot : Alike document.robot other.robot
  actionSource : Alike (document.actionSource.getD .null) (other.actionSource.getD .null)
  fps : document.fps = other.fps

theorem keys_nodup : ["robot".toList, "action_source".toList, "fps".toList].Nodup := by decide

theorem wellFormed_identity (document : RuntimeDocument) : WellFormed document.identity := by
  rw [identity, WellFormed]
  refine ⟨keys_nodup, wellFormedMembers_of fun member known => ?_⟩
  rw [List.mem_cons, List.mem_cons, List.mem_singleton] at known
  obtain rfl | rfl | rfl := known
  · exact document.robot_formed
  · exact document.actionSource_formed
  · rw [WellFormed]
    exact document.fps_shown

theorem alikeMembers_three {first second third : Text} (keys : [first, second, third].Nodup) (a b c a' b' c' : Nested) :
    AlikeMembers [(first, a), (second, b), (third, c)] [(first, a'), (second, b'), (third, c')] ↔
      Alike a a' ∧ Alike b b' ∧ Alike c c' := by
  have apart : first ≠ second ∧ first ≠ third ∧ second ≠ third := by simpa [and_assoc] using keys
  simp [AlikeMembers, apart, apart.1.symm, apart.2.1.symm, apart.2.2.symm]

theorem alike_identity (document other : RuntimeDocument) :
    Alike document.identity other.identity ↔ SameRig document other := by
  rw [identity, identity, Alike, alikeMembers_three keys_nodup, Alike]
  constructor
  · rintro ⟨-, robot, source, fps⟩
    exact ⟨robot, source, fps⟩
  · intro same
    exact ⟨rfl, same.robot, same.actionSource, same.fps⟩

/-- The text that the digest is taken of is the same exactly for the same rig. -/
theorem canonical_identity_iff (document other : RuntimeDocument) :
    canonical document.identity = canonical other.identity ↔ SameRig document other := by
  rw [canonical_eq_iff document.wellFormed_identity other.wellFormed_identity, alike_identity]

end RuntimeDocument

end PhysicalAiStudio.Runtime
