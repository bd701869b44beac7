/-
What forming the value of a document fails with: a scalar that its kind cannot be read from, or
nodes that stand for nothing, and never a fault of this library. `load_fails` is the whole way from
the bytes of a document to its value.
-/
import CharmDepot.Yaml.Document
import CharmDepot.Proofs.Value.Foreign
import CharmDepot.Proofs.Yaml.Nodes

namespace CharmDepot.Yaml

open Outcome Fault

-- ============================================================= scalars

theorem realOfSixtieths_fails (groups : List Float) :
    (realOfSixtieths groups).Fails IsForeign := by
  unfold realOfSixtieths
  refine .bind ?_ fun _ => .ok _
  generalize ((0.0, 1) : Float × Int) = start
  induction groups.reverse generalizing start with
  | nil => exact .ok _
  | cons g gs ih =>
    rw [List.foldlM_cons]
    refine .bind ?_ ih
    split
    split
    · exact .ok _
    · exact .error rfl

theorem integerScalar_fails (s : String) : (integerScalar s).Fails IsForeign := by
  have hread (base : Nat) (cs : List Char) :
      (Value.ofInteger (Number.integerOfText base (String.ofList cs))).Fails IsForeign :=
    Value.ofInteger_fails _
  unfold integerScalar
  dsimp only
  split
  · apply Fails.throw_bind
    rfl
  · split
    · apply Fails.throw_bind
      rfl
    · split
      · exact .ok _
      · exact (hread _ _).bind fun _ => .ok _
      · exact (hread _ _).bind fun _ => .ok _
      · exact (hread _ _).bind fun _ => .ok _
      · split
        · exact (Fails.mapM (hread 10) _).bind fun _ => .ok _
        · exact (hread _ _).bind fun _ => .ok _

theorem realScalar_fails (mark : Nat) (s : String) : (realScalar mark s).Fails IsForeign := by
  unfold realScalar
  dsimp only
  split
  · apply Fails.throw_bind
    rfl
  · split
    · exact .ok _
    · split
      · exact .ok _
      · split
        · refine (Fails.mapM (fun cs => ?_) _).bind fun groups => ?_
          · split
            · exact .ok _
            · exact .error rfl
          · exact (realOfSixtieths_fails groups).bind fun _ => .ok _
        · refine Fails.bind ?_ fun _ => .ok _
          split
          · exact .ok _
          · exact .error rfl

theorem timestampScalar_fails (s : String) : (timestampScalar s).Fails IsForeign := by
  unfold timestampScalar
  dsimp only
  split
  · exact .error rfl
  · split
    · exact .error rfl
    · split
      · exact .ok _
      · split
        · exact .error rfl
        · exact .ok _

theorem boolScalar_fails (s : String) : (boolScalar s).Fails IsForeign := by
  unfold boolScalar
  dsimp only
  split
  · exact .ok _
  · split
    · exact .ok _
    · exact .error rfl

theorem binaryScalar_fails (s : String) : (binaryScalar s).Fails IsForeign := by
  unfold binaryScalar
  split
  · exact .ok _
  · exact .error rfl

theorem scalarValue_fails (mark : Nat) (tag : Tag) (s : String) :
    (scalarValue mark tag s).Fails IsForeign := by
  unfold scalarValue
  split
  · exact .ok _
  · exact (boolScalar_fails s).map
  · exact (integerScalar_fails s).map
  · exact realScalar_fails mark s
  · exact (binaryScalar_fails s).map
  · exact timestampScalar_fails s
  · exact .ok _
  · exact .error rfl

-- ============================================================== merges

namespace Graph

theorem entriesAfter_fails {step : NodeId → Rewiring Unit}
    (hstep : ∀ id, StepFails IsForeign (step id)) (id : NodeId) :
    StepFails IsForeign (entriesAfter step id) := by
  unfold entriesAfter
  refine stepFails_get.bind fun g => ?_
  split
  · exact stepFails_throw rfl
  · exact (hstep id).bind fun _ => stepFails_get.bind fun _ => stepFails_pure _

theorem contribution_fails {merge : NodeId → Rewiring Unit}
    (hmerge : ∀ id, StepFails IsForeign (merge id)) (id : NodeId) :
    StepFails IsForeign (contribution merge id) := by
  unfold contribution
  refine stepFails_get.bind fun g => ?_
  split
  · exact entriesAfter_fails hmerge id
  · exact (stepFails_mapM (entriesAfter_fails hmerge) _).bind fun _ => stepFails_pure _
  · exact stepFails_throw rfl

theorem mergeEntries_fails {merge : NodeId → Rewiring Unit}
    (hmerge : ∀ id, StepFails IsForeign (merge id)) (id : NodeId)
    (kept merged rest : List (NodeId × NodeId)) :
    StepFails IsForeign (mergeEntries merge id kept merged rest) := by
  induction rest generalizing kept merged with
  | nil =>
    unfold mergeEntries
    split
    · exact stepFails_pure _
    · exact stepFails_modify _
  | cons e rest ih =>
    unfold mergeEntries
    refine stepFails_get.bind fun g => ?_
    split
    · refine (stepFails_modify _).bind fun _ => (contribution_fails hmerge _).bind fun more => ?_
      refine stepFails_get.bind fun g => ?_
      dsimp only
      split
      · exact stepFails_set _
      · exact ih _ _
    · exact (stepFails_modify _).bind fun _ => ih _ _
    · exact ih _ _

theorem merge_fails (levels : Nat) (id : NodeId) : StepFails IsForeign (merge levels id) := by
  induction levels generalizing id with
  | zero =>
    unfold merge
    exact stepFails_throw rfl
  | succ levels ih =>
    unfold merge
    exact stepFails_get.bind fun _ => mergeEntries_fails ih _ _ _ _

end Graph

-- =============================================================== cells

namespace Making

theorem refuse_fails {α : Type} : StepFails IsForeign (refuse : Making α) := stepFails_throw rfl

theorem cell?_fails (p : Place) : StepFails IsForeign (cell? p) :=
  stepFails_get.bind fun _ => stepFails_pure _

theorem start_fails (id : NodeId) (empty : Cell) : StepFails IsForeign (start id empty) :=
  (stepFails_modify _).bind fun _ => stepFails_modify _

theorem scalarText_fails (g : Graph) (levels : Nat) (id : NodeId) :
    (scalarText g levels id).Fails IsForeign := by
  induction levels generalizing id with
  | zero =>
    unfold scalarText
    exact .error rfl
  | succ levels ih =>
    unfold scalarText
    split
    · exact .ok _
    · exact .error rfl
    · split
      · exact ih _
      · exact .error rfl

theorem scalarOf_fails (g : Graph) (id : NodeId) : (scalarOf g id).Fails IsForeign := by
  unfold scalarOf
  refine (scalarText_fails g _ id).bind fun text => ?_
  split
  · exact .error rfl
  · exact scalarValue_fails _ _ _

theorem make_fails (id : NodeId) : StepFails IsForeign (make id) := by
  unfold make
  refine (cell?_fails id).bind fun c? => ?_
  split
  · exact stepFails_pure _
  · refine stepFails_get.bind fun w => ?_
    cases w.graph.tag id with
    | seq | omap | pairs | map | set => exact start_fails _ _
    | merge | default | other => exact refuse_fails
    | _ =>
      refine stepFails_get.bind fun w => ?_
      exact (stepFails_lift (scalarOf_fails _ _)).bind fun _ => stepFails_modify _

theorem makeKey_fails (id : NodeId) : StepFails IsForeign (makeKey id) := by
  unfold makeKey
  refine (make_fails id).bind fun _ => (cell?_fails id).bind fun c? => ?_
  split
  · exact stepFails_pure _
  · exact refuse_fails

theorem merge_fails (id : NodeId) : StepFails IsForeign (merge id) :=
  fun w => (Graph.merge_fails nodeLevels id w.graph).map

theorem makeEntries_fails (id : NodeId) : StepFails IsForeign (makeEntries id) := by
  unfold makeEntries
  refine stepFails_get.bind fun w => ?_
  split
  · exact refuse_fails
  · refine (merge_fails id).bind fun _ => stepFails_get.bind fun w => ?_
    refine (stepFails_mapM (fun e => ?_) _).bind fun _ => stepFails_pure _
    exact (makeKey_fails e.1).bind fun _ => (make_fails e.2).bind fun _ => stepFails_pure _

theorem makePair_fails (id : NodeId) : StepFails IsForeign (makePair id) := by
  unfold makePair
  refine stepFails_get.bind fun w => ?_
  cases w.graph.entries? id with
  | none => exact refuse_fails
  | some entries =>
    obtain ⟨entries⟩ := entries
    match entries with
    | [] => exact refuse_fails
    | [(k, v)] =>
      exact (make_fails k).bind fun _ => (make_fails v).bind fun _ => stepFails_modifyGet _
    | _ :: _ :: _ => exact refuse_fails

theorem finish_fails (id : NodeId) : StepFails IsForeign (finish id) := by
  unfold finish
  refine stepFails_get.bind fun w => ?_
  split
  · exact (makeEntries_fails id).bind fun _ => stepFails_modify _
  · exact (makeEntries_fails id).bind fun _ => stepFails_modify _
  · refine StepFails.bind (stepFails_get.bind fun _ => stepFails_pure _) fun c => ?_
    split
    · split
      · exact (stepFails_forM make_fails _).bind fun _ => stepFails_modify _
      · exact (stepFails_mapM makePair_fails _).bind fun _ => stepFails_modify _
    · exact refuse_fails

theorem finishAll_fails (fuel position : Nat) : StepFails IsForeign (finishAll fuel position) := by
  induction fuel generalizing position with
  | zero =>
    unfold finishAll
    exact stepFails_pure _
  | succ fuel ih =>
    unfold finishAll
    refine stepFails_get.bind fun w => ?_
    split
    · exact stepFails_pure _
    · exact (finish_fails _).bind fun _ => ih _

end Making

-- =========================================================== documents

theorem Graph.value_fails (g : Graph) (root : NodeId) : (g.value root).Fails IsForeign := by
  unfold Graph.value Graph.cells
  refine Fails.map (Fails.map ?_)
  exact (Making.make_fails root).bind (fun _ => Making.finishAll_fails _ _) _

theorem load_fails (source : Source) : (load source).Fails IsForeign := by
  unfold load
  split
  · exact .error rfl
  · refine (Graph.read_fails _).bind fun p => ?_
    split
    · exact .ok _
    · exact Graph.value_fails _ _

theorem readMapping_fails (what : String) (source : Source) :
    (readMapping what source).Fails IsForeign := by
  unfold readMapping
  refine (load_fails source).bind fun v => ?_
  split
  · exact .ok _
  · exact .ok _
  · exact .error rfl

end CharmDepot.Yaml
