import Srui.Protocol.SnapshotFraming

/-!
The client's staging of a snapshot that comes in several envelopes, and that it is the
machine of the server's library.

`Int` is signed on the client, so the operation limit and what is compared with it are
integers here.
-/

namespace Srui.Client.SnapshotAssemblers

open SemanticTree.Wire Protocol

inductive SnapshotAssemblyError where
  | partsExceedLimit (announced maxParts : Nat)
  | notASnapshotPart (partIndex baseRevision newRevision snapshotRevision : Nat)
  | emptyPart (partIndex : Nat)
  | operationLimitExceeded (partIndex : Nat) (maxOperations staged : Int)
  | alreadyComplete
deriving DecidableEq, Repr

structure SnapshotAssembler where
  snapshotRevision : Nat
  expectedParts : Nat
  receivedParts : Nat := 0
  maxOperations : Int
  priority : Nat := 0
  operations : List WireOperation := []

def SnapshotAssembler.init (snapshotRevision announcedParts maxParts : Nat)
    (maxOperations : Int) : Except SnapshotAssemblyError SnapshotAssembler :=
  let expected := max announcedParts 1
  let bound := max maxParts 1
  if expected ≤ bound then
    .ok {
      snapshotRevision := snapshotRevision
      expectedParts := expected
      maxOperations := maxOperations }
  else .error (.partsExceedLimit expected bound)

def accept (assembler : SnapshotAssembler) (part : WireTransaction) :
    SnapshotAssembler × Except SnapshotAssemblyError (Option WireTransaction) :=
  if assembler.receivedParts < assembler.expectedParts then
    let index := assembler.receivedParts
    if part.baseRevision = 0 ∧ part.newRevision = assembler.snapshotRevision then
      if 1 < assembler.expectedParts ∧ part.operations.isEmpty then
        (assembler, .error (.emptyPart index))
      else
        let staged : Int := assembler.operations.length + part.operations.length
        if staged ≤ assembler.maxOperations then
          let assembler :=
            { assembler with
              receivedParts := assembler.receivedParts + 1
              priority := if index = 0 then part.priority else assembler.priority }
          if assembler.expectedParts = 1 then (assembler, .ok (some part))
          else
            let assembler :=
              { assembler with operations := assembler.operations ++ part.operations }
            if assembler.receivedParts = assembler.expectedParts then
              let snapshot : WireTransaction := {
                baseRevision := 0
                newRevision := assembler.snapshotRevision
                operations := assembler.operations
                priority := assembler.priority }
              ({ assembler with operations := [] }, .ok (some snapshot))
            else (assembler, .ok none)
        else
          (assembler, .error (.operationLimitExceeded index assembler.maxOperations staged))
    else
      (assembler, .error (.notASnapshotPart index part.baseRevision part.newRevision
        assembler.snapshotRevision))
  else (assembler, .error .alreadyComplete)

def acceptAll (assembler : SnapshotAssembler) :
    List WireTransaction → List (Except SnapshotAssemblyError (Option WireTransaction))
  | [] => []
  | part :: rest => (accept assembler part).2 :: acceptAll (accept assembler part).1 rest

/-! ### The same machine -/

def mirroredError : SnapshotFraming.SnapshotAssemblyError → SnapshotAssemblyError
  | .partsExceedLimit announced maxParts => .partsExceedLimit announced maxParts
  | .notASnapshotPart partIndex baseRevision newRevision snapshotRevision =>
    .notASnapshotPart partIndex baseRevision newRevision snapshotRevision
  | .emptyPart partIndex => .emptyPart partIndex
  | .operationLimitExceeded partIndex maxOperations staged =>
    .operationLimitExceeded partIndex maxOperations staged
  | .alreadyComplete => .alreadyComplete

def mirrored (assembler : SnapshotFraming.SnapshotAssembler) : SnapshotAssembler where
  snapshotRevision := assembler.snapshotRevision
  expectedParts := assembler.expectedParts
  receivedParts := assembler.receivedParts
  maxOperations := assembler.maxOperations
  priority := assembler.priority
  operations := assembler.operations

theorem init_mirrored (snapshotRevision announcedParts maxParts maxOperations : Nat) :
    SnapshotAssembler.init snapshotRevision announcedParts maxParts maxOperations =
      ((SnapshotFraming.SnapshotAssembler.new snapshotRevision announcedParts maxParts
        maxOperations).map mirrored).mapError mirroredError := by
  unfold SnapshotAssembler.init SnapshotFraming.SnapshotAssembler.new
  unfold SnapshotFraming.effectiveParts
  rcases Nat.lt_or_ge (max maxParts 1) (max announcedParts 1) with hover | hfits
  · simp only [if_neg (Nat.not_le.mpr hover), gt_iff_lt, if_pos hover]
    rfl
  · simp only [if_pos hfits, gt_iff_lt, if_neg (Nat.not_lt.mpr hfits)]
    rfl

theorem accept_mirrored (assembler : SnapshotFraming.SnapshotAssembler) (part : WireTransaction) :
    accept (mirrored assembler) part =
      (mirrored (SnapshotFraming.accept assembler part).1,
        (SnapshotFraming.accept assembler part).2.mapError mirroredError) := by
  unfold accept SnapshotFraming.accept
  rcases Nat.lt_or_ge assembler.receivedParts assembler.expectedParts with hopen | hcomplete
  swap
  · simp only [mirrored, Nat.not_lt.mpr hcomplete, ge_iff_le, hcomplete, if_true, if_false]
    rfl
  simp only [mirrored, hopen, ge_iff_le, Nat.not_le.mpr hopen, if_true, if_false]
  rcases Classical.em (part.baseRevision = 0 ∧ part.newRevision = assembler.snapshotRevision) with
    hpart | hforeign
  swap
  · simp only [hforeign, not_and_or.mp hforeign, if_true, if_false]
    rfl
  have hours : ¬(part.baseRevision ≠ 0 ∨ part.newRevision ≠ assembler.snapshotRevision) :=
    fun h => not_and_or.mpr h hpart
  simp only [eq_true hpart, hours, List.isEmpty_iff, gt_iff_lt, if_true, if_false]
  rcases Classical.em (1 < assembler.expectedParts ∧ part.operations = []) with hempty | hfilled
  · simp only [eq_true hempty, if_true]
    rfl
  simp only [hfilled, if_false]
  rcases Nat.lt_or_ge assembler.maxOperations
    (assembler.operations.length + part.operations.length) with hover | hfits
  · have hrefused : ¬(assembler.operations.length + part.operations.length : Int) ≤
        assembler.maxOperations := by omega
    simp only [hrefused, hover, if_true, if_false]
    rfl
  have hstaged : (assembler.operations.length + part.operations.length : Int) ≤
      assembler.maxOperations := by omega
  simp only [hstaged, Nat.not_lt.mpr hfits, if_true, if_false]
  rcases Classical.em (assembler.expectedParts = 1) with hsingle | hsplit
  · simp only [eq_true hsingle, if_true]
    rfl
  simp only [hsplit, if_false]
  rcases Nat.lt_or_eq_of_le (Nat.succ_le_of_lt hopen) with hmore | hlast
  · -- The client asks whether this was the last envelope, the server whether one is missing.
    simp only [Nat.ne_of_lt hmore, hmore, if_true, if_false]
    rfl
  · simp only [eq_true hlast, Nat.not_lt.mpr hlast.ge, if_true, if_false]
    rfl

theorem acceptAll_mirrored (assembler : SnapshotFraming.SnapshotAssembler)
    (parts : List WireTransaction) :
    acceptAll (mirrored assembler) parts =
      (SnapshotFraming.acceptAll assembler parts).map (Except.mapError mirroredError) := by
  induction parts generalizing assembler with
  | nil => rfl
  | cons part rest ih =>
    rw [acceptAll, SnapshotFraming.acceptAll, List.map_cons, accept_mirrored, ih]

/-- Announced alike, both assemblers are refused for the same reason, or they answer every
sequence of envelopes alike: also after an error, and after the last envelope. -/
theorem assemblers_agree (snapshotRevision announcedParts maxParts maxOperations : Nat) :
    (∃ e, SnapshotFraming.SnapshotAssembler.new snapshotRevision announcedParts maxParts
          maxOperations = .error e ∧
        SnapshotAssembler.init snapshotRevision announcedParts maxParts maxOperations =
          .error (mirroredError e)) ∨
      ∃ server client,
        SnapshotFraming.SnapshotAssembler.new snapshotRevision announcedParts maxParts
          maxOperations = .ok server ∧
        SnapshotAssembler.init snapshotRevision announcedParts maxParts maxOperations =
          .ok client ∧
        ∀ parts, acceptAll client parts =
          (SnapshotFraming.acceptAll server parts).map (Except.mapError mirroredError) := by
  rw [init_mirrored]
  rcases SnapshotFraming.SnapshotAssembler.new snapshotRevision announcedParts maxParts
    maxOperations with e | server
  · exact Or.inl ⟨e, rfl, rfl⟩
  · exact Or.inr ⟨server, mirrored server, rfl, rfl, acceptAll_mirrored server⟩

end Srui.Client.SnapshotAssemblers
