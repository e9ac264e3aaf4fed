import ZeroStack.Abi

/-! Robust Snap certificates: an effect that is protected in every world of a fiber (S0), or a decision tree whose
leaves share the worlds out and select a protected effect each (S1). -/

open Wire

namespace Zero.RobustSnap

def robustSnapModelVersion : String := "zerostack.robust_snap.finite"
def maxWorlds : ℕ := 32
def maxEffects : ℕ := 64
def maxLeaves : ℕ := 64
def maxEvidenceDepth : ℕ := 16
def maxAssumptions : ℕ := 32
def maxAssumptionBytes : ℕ := 512
def certificateDomain : List UInt8 := utf8Bytes "zerostack.robust_snap.certificate" ++ [0]

inductive SnapLevel where
  | unknown
  | s0
  | s1
  deriving DecidableEq

structure ProtectedEffect where
  effectDigest : Sha256Digest
  effectClass : EffectClass
  deriving DecidableEq

structure WorldFiberDescriptor where
  modelVersion : String
  assemblyManifestDigest : Sha256Digest
  sourceImageDigest : Sha256Digest
  taskFingerprint : Sha256Digest
  assumptions : List String
  worlds : List Sha256Digest
  deriving DecidableEq

structure ProtectedEffectSet where
  worldId : Sha256Digest
  effects : List ProtectedEffect
  deriving DecidableEq

structure EvidenceObservation where
  evidenceId : Sha256Digest
  outcomeDigest : Sha256Digest
  deriving DecidableEq

structure EvidenceLeaf where
  path : List EvidenceObservation
  admittedWorlds : List Sha256Digest
  selectedEffect : ProtectedEffect
  deriving DecidableEq

structure EvidenceDecisionTree where
  evidenceSchemaDigest : Sha256Digest
  leaves : List EvidenceLeaf
  deriving DecidableEq

structure RobustSnapCertificate where
  modelVersion : String
  fiber : WorldFiberDescriptor
  protectedEffects : List ProtectedEffectSet
  firstTurnSelectable : List ProtectedEffect
  expressibleAndVerifiable : List ProtectedEffect
  snapLevel : SnapLevel
  selectedEffect : Option ProtectedEffect
  evidenceTree : Option EvidenceDecisionTree
  certificateDigest : Sha256Digest
  deriving DecidableEq

inductive RobustSnapError where
  | unsupportedModelVersion
  | unknownCannotPass
  | emptyWorldFiber
  | boundExceeded (field : String)
  | nonCanonicalOrder (field : String)
  | invalidAssumption
  | protectedWorldSetMismatch
  | missingProtectedEffectSet
  | emptyCommonProtectedEffectSet
  | selectedEffectRequiredAtS0
  | selectedEffectNotCommon
  | evidenceTreeForbiddenAtS0
  | evidenceTreeRequiredAtS1
  | globalSelectionForbiddenAtS1
  | emptyDecisionTree
  | emptyEvidencePath
  | emptyEvidenceLeaf
  | leafWorldOutsideFiber
  | worldAppearsInMultipleLeaves
  | evidenceTreeDropsWorld
  | leafEffectNotProtected
  | certificateDigestMismatch (expected actual : Sha256Digest)
  deriving DecidableEq

def RobustSnapError.code : RobustSnapError → String
  | .unsupportedModelVersion => "UnsupportedModelVersion"
  | .unknownCannotPass => "UnknownCannotPass"
  | .emptyWorldFiber => "EmptyWorldFiber"
  | .boundExceeded _ => "BoundExceeded"
  | .nonCanonicalOrder _ => "NonCanonicalOrder"
  | .invalidAssumption => "InvalidAssumption"
  | .protectedWorldSetMismatch => "ProtectedWorldSetMismatch"
  | .missingProtectedEffectSet => "MissingProtectedEffectSet"
  | .emptyCommonProtectedEffectSet => "EmptyCommonProtectedEffectSet"
  | .selectedEffectRequiredAtS0 => "SelectedEffectRequiredAtS0"
  | .selectedEffectNotCommon => "SelectedEffectNotCommon"
  | .evidenceTreeForbiddenAtS0 => "EvidenceTreeForbiddenAtS0"
  | .evidenceTreeRequiredAtS1 => "EvidenceTreeRequiredAtS1"
  | .globalSelectionForbiddenAtS1 => "GlobalSelectionForbiddenAtS1"
  | .emptyDecisionTree => "EmptyDecisionTree"
  | .emptyEvidencePath => "EmptyEvidencePath"
  | .emptyEvidenceLeaf => "EmptyEvidenceLeaf"
  | .leafWorldOutsideFiber => "LeafWorldOutsideFiber"
  | .worldAppearsInMultipleLeaves => "WorldAppearsInMultipleLeaves"
  | .evidenceTreeDropsWorld => "EvidenceTreeDropsWorld"
  | .leafEffectNotProtected => "LeafEffectNotProtected"
  | .certificateDigestMismatch _ _ => "CertificateDigestMismatch"

def RobustSnapError.display (e : RobustSnapError) : String := s!"Robust Snap verification failed: {e.code}"

/-! The derived orders: field by field, lists from the front. -/

def compareDigests (a b : Sha256Digest) : Ordering := compare a.toNat b.toNat

def classRank : EffectClass → ℕ
  | .readOnly => 0
  | .reversibleMutation => 1
  | .approvalRequiredMutation => 2
  | .irreversible => 3

def ProtectedEffect.compare (a b : ProtectedEffect) : Ordering :=
  (compareDigests a.effectDigest b.effectDigest).then (Ord.compare (classRank a.effectClass) (classRank b.effectClass))

def EvidenceObservation.compare (a b : EvidenceObservation) : Ordering :=
  (compareDigests a.evidenceId b.evidenceId).then (compareDigests a.outcomeDigest b.outcomeDigest)

def EvidenceLeaf.compare (a b : EvidenceLeaf) : Ordering :=
  ((List.compareLex EvidenceObservation.compare a.path b.path).then
    (List.compareLex compareDigests a.admittedWorlds b.admittedWorlds)).then
      (a.selectedEffect.compare b.selectedEffect)

def strictlyOrdered {α : Type} (cmp : α → α → Ordering) : List α → Bool
  | a :: b :: rest => cmp a b = .lt && strictlyOrdered cmp (b :: rest)
  | [_] => true
  | [] => true

def requireStrictOrder {α : Type} (cmp : α → α → Ordering) (field : String) (values : List α) :
    Except RobustSnapError Unit :=
  if strictlyOrdered cmp values then .ok () else .error (.nonCanonicalOrder field)

def validateFiber (fiber : WorldFiberDescriptor) : Except RobustSnapError Unit := do
  if fiber.worlds = [] then throw .emptyWorldFiber
  if maxWorlds < fiber.worlds.length then throw (.boundExceeded "fiber.worlds")
  requireStrictOrder compareDigests "fiber.worlds" fiber.worlds
  if fiber.assumptions = [] ∨ maxAssumptions < fiber.assumptions.length then throw (.boundExceeded "fiber.assumptions")
  requireStrictOrder compare "fiber.assumptions" fiber.assumptions
  if fiber.assumptions.any fun assumption => assumption = "" || maxAssumptionBytes < assumption.utf8ByteSize then
    throw .invalidAssumption

def validateEffectVector (field : String) (effects : List ProtectedEffect) : Except RobustSnapError Unit :=
  if maxEffects < effects.length then .error (.boundExceeded field)
  else requireStrictOrder ProtectedEffect.compare field effects

def validateProtectedSets (fiber : WorldFiberDescriptor) (sets : List ProtectedEffectSet) :
    Except RobustSnapError Unit := do
  if sets.length ≠ fiber.worlds.length then throw .protectedWorldSetMismatch
  let setWorlds := sets.map (·.worldId)
  requireStrictOrder compareDigests "protected_effects" setWorlds
  if setWorlds ≠ fiber.worlds then throw .protectedWorldSetMismatch
  for set in sets do
    validateEffectVector "protected_effects.effects" set.effects

namespace RobustSnapCertificate

variable (c : RobustSnapCertificate)

def effectsFor (world : Sha256Digest) : Except RobustSnapError (List ProtectedEffect) :=
  match c.protectedEffects.find? (·.worldId = world) with
  | some set => .ok set.effects
  | none => .error .missingProtectedEffectSet

def intersectWorlds (c : RobustSnapCertificate) :
    List Sha256Digest → List ProtectedEffect → Except RobustSnapError (List ProtectedEffect)
  | [], common => .ok common
  | world :: rest, common => do
    let effects ← c.effectsFor world
    c.intersectWorlds rest (common.filter (· ∈ effects))

def commonForWorlds : List Sha256Digest → Except RobustSnapError (List ProtectedEffect)
  | [] => .error .emptyWorldFiber
  | first :: rest => do
    let effects ← c.effectsFor first
    c.intersectWorlds rest effects

def commonS0Effects : Except RobustSnapError (List ProtectedEffect) := do
  let common ← c.commonForWorlds c.fiber.worlds
  return (common.filter (· ∈ c.firstTurnSelectable)).filter (· ∈ c.expressibleAndVerifiable)

def validateS0 : Except RobustSnapError Unit := do
  if c.evidenceTree.isSome then throw .evidenceTreeForbiddenAtS0
  match c.selectedEffect with
  | none => throw .selectedEffectRequiredAtS0
  | some selected =>
    let common ← c.commonS0Effects
    if common = [] then throw .emptyCommonProtectedEffectSet
    if selected ∉ common then throw .selectedEffectNotCommon

def validateLeaf (covered : List Sha256Digest) (leaf : EvidenceLeaf) : Except RobustSnapError (List Sha256Digest) := do
  if leaf.path = [] then throw .emptyEvidencePath
  if maxEvidenceDepth < leaf.path.length then throw (.boundExceeded "evidence_leaf.path")
  if leaf.admittedWorlds = [] then throw .emptyEvidenceLeaf
  requireStrictOrder compareDigests "evidence_leaf.admitted_worlds" leaf.admittedWorlds
  if leaf.admittedWorlds.any (· ∉ c.fiber.worlds) then throw .leafWorldOutsideFiber
  if leaf.admittedWorlds.any (· ∈ covered) then throw .worldAppearsInMultipleLeaves
  let common ← c.commonForWorlds leaf.admittedWorlds
  if leaf.selectedEffect ∉ common.filter (· ∈ c.expressibleAndVerifiable) then throw .leafEffectNotProtected
  return covered ++ leaf.admittedWorlds

def validateLeaves (c : RobustSnapCertificate) :
    List EvidenceLeaf → List Sha256Digest → Except RobustSnapError (List Sha256Digest)
  | [], covered => .ok covered
  | leaf :: rest, covered => do
    let covered ← c.validateLeaf covered leaf
    c.validateLeaves rest covered

def validateS1 : Except RobustSnapError Unit := do
  if c.selectedEffect.isSome then throw .globalSelectionForbiddenAtS1
  match c.evidenceTree with
  | none => throw .evidenceTreeRequiredAtS1
  | some tree =>
    if tree.leaves = [] then throw .emptyDecisionTree
    if maxLeaves < tree.leaves.length then throw (.boundExceeded "evidence_tree.leaves")
    requireStrictOrder EvidenceLeaf.compare "evidence_tree.leaves" tree.leaves
    let covered ← c.validateLeaves tree.leaves []
    if c.fiber.worlds.any (· ∉ covered) || covered.any (· ∉ c.fiber.worlds) then throw .evidenceTreeDropsWorld

def validateSemantics : Except RobustSnapError Unit := do
  if c.modelVersion ≠ robustSnapModelVersion ∨ c.fiber.modelVersion ≠ robustSnapModelVersion then
    throw .unsupportedModelVersion
  validateFiber c.fiber
  validateEffectVector "first_turn_selectable" c.firstTurnSelectable
  validateEffectVector "expressible_and_verifiable" c.expressibleAndVerifiable
  validateProtectedSets c.fiber c.protectedEffects
  match c.snapLevel with
  | .unknown => throw .unknownCannotPass
  | .s0 => c.validateS0
  | .s1 => c.validateS1

end RobustSnapCertificate

def classText : EffectClass → String
  | .readOnly => "read_only"
  | .reversibleMutation => "reversible_mutation"
  | .approvalRequiredMutation => "approval_required_mutation"
  | .irreversible => "irreversible"

def SnapLevel.text : SnapLevel → String
  | .unknown => "unknown"
  | .s0 => "s0"
  | .s1 => "s1"

def ProtectedEffect.json (e : ProtectedEffect) : Json :=
  .obj [("effect_class", .text (classText e.effectClass)), ("effect_digest", e.effectDigest.json)]

def effectsJson (effects : List ProtectedEffect) : Json := .arr (effects.map ProtectedEffect.json)

def worldsJson (worlds : List Sha256Digest) : Json := .arr (worlds.map Sha256Digest.json)

def WorldFiberDescriptor.json (f : WorldFiberDescriptor) : Json :=
  .obj [("assembly_manifest_digest", f.assemblyManifestDigest.json), ("assumptions", .arr (f.assumptions.map .text)),
    ("model_version", .text f.modelVersion), ("source_image_digest", f.sourceImageDigest.json),
    ("task_fingerprint", f.taskFingerprint.json), ("worlds", worldsJson f.worlds)]

def ProtectedEffectSet.json (s : ProtectedEffectSet) : Json :=
  .obj [("effects", effectsJson s.effects), ("world_id", s.worldId.json)]

def EvidenceObservation.json (o : EvidenceObservation) : Json :=
  .obj [("evidence_id", o.evidenceId.json), ("outcome_digest", o.outcomeDigest.json)]

def EvidenceLeaf.json (l : EvidenceLeaf) : Json :=
  .obj [("admitted_worlds", worldsJson l.admittedWorlds), ("path", .arr (l.path.map EvidenceObservation.json)),
    ("selected_effect", l.selectedEffect.json)]

def EvidenceDecisionTree.json (t : EvidenceDecisionTree) : Json :=
  .obj [("evidence_schema_digest", t.evidenceSchemaDigest.json), ("leaves", .arr (t.leaves.map EvidenceLeaf.json))]

namespace RobustSnapCertificate

def body (c : RobustSnapCertificate) : Json :=
  .obj [("evidence_tree", .option EvidenceDecisionTree.json c.evidenceTree),
    ("expressible_and_verifiable", effectsJson c.expressibleAndVerifiable), ("fiber", c.fiber.json),
    ("first_turn_selectable", effectsJson c.firstTurnSelectable), ("model_version", .text c.modelVersion),
    ("protected_effects", .arr (c.protectedEffects.map ProtectedEffectSet.json)),
    ("selected_effect", .option ProtectedEffect.json c.selectedEffect), ("snap_level", .text c.snapLevel.text)]

section Digests
variable (sha256 : List UInt8 → Sha256Digest)

def computeDigest (c : RobustSnapCertificate) : Sha256Digest := sha256 (certificateDomain ++ c.body.canonical)

def validate (c : RobustSnapCertificate) : Except RobustSnapError Unit := do
  c.validateSemantics
  if c.computeDigest sha256 ≠ c.certificateDigest then
    .error (.certificateDigestMismatch c.certificateDigest (c.computeDigest sha256))
  else .ok ()

end Digests

theorem digest_of_validate {sha256 : List UInt8 → Sha256Digest} {c : RobustSnapCertificate}
    (h : c.validate sha256 = .ok ()) : c.computeDigest sha256 = c.certificateDigest := by
  obtain ⟨-, -, h⟩ := bind_eq_ok.mp h
  obtain ⟨hdigest, -⟩ := guard_eq_ok.mp h
  exact not_not.mp hdigest

end RobustSnapCertificate
end Zero.RobustSnap
