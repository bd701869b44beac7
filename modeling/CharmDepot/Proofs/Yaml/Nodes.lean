/-
What reading the nodes of a document fails with: a text that does not fit, or a tag that is no text,
and never a fault of this library. The readers of nodes call each other with a smaller bound, so
what they fail with is one statement about all of them (`Reading`), by induction on the bound.
-/
import CharmDepot.Yaml.Node.Parser
import CharmDepot.Proofs.Fails

namespace CharmDepot.Yaml

open Outcome Fault

namespace ReadNode

-- ============================================================== tokens

theorem refuse_fails {α : Type} : StepFails IsForeign (refuse : ReadNode α) := stepFails_throw rfl

theorem peek_fails : StepFails IsForeign peek := by
  intro r
  show Fails IsForeign (peek r)
  unfold peek
  split
  · exact .ok _
  · unfold fetch
    split
    split
    · exact .error rfl
    · split
      · exact .ok _
      · exact .error rfl

theorem advance_fails : StepFails IsForeign advance := stepFails_modify _

theorem nextIn_fails (ts : List Token) : StepFails IsForeign (nextIn ts) :=
  peek_fails.bind fun _ => stepFails_pure _

theorem add_fails (tag : Tag) (content : Content) : StepFails IsForeign (add tag content) :=
  stepFails_modifyGet _

theorem fill_fails (id : NodeId) (content : Content) : StepFails IsForeign (fill id content) :=
  stepFails_modify _

theorem addAbsent_fails : StepFails IsForeign addAbsent := add_fails _ _

-- ======================================================== properties

theorem fullTag_fails (handle : String) (suffix : Bytes) :
    StepFails IsForeign (fullTag handle suffix) := by
  unfold fullTag
  split
  · exact stepFails_pure _
  · refine stepFails_get.bind fun r => ?_
    split
    · exact stepFails_pure _
    · exact refuse_fails

theorem readAnchor_fails (p : Properties) : StepFails IsForeign (readAnchor p) := by
  unfold readAnchor
  refine peek_fails.bind fun t => ?_
  split
  · exact advance_fails.bind fun _ => stepFails_pure _
  · exact stepFails_pure _

theorem readTag_fails (p : Properties) : StepFails IsForeign (readTag p) := by
  unfold readTag
  refine peek_fails.bind fun t => ?_
  split
  · exact advance_fails.bind fun _ => (fullTag_fails _ _).bind fun _ => stepFails_pure _
  · exact stepFails_pure _

theorem readProperties_fails : StepFails IsForeign readProperties := by
  unfold readProperties
  refine (readAnchor_fails _).bind fun p => (readTag_fails p).bind fun p => ?_
  split
  · exact readAnchor_fails p
  · exact stepFails_pure p

theorem tagOfName_fails (name : Bytes) : StepFails IsForeign (tagOfName name) := by
  unfold tagOfName
  split
  · exact stepFails_pure _
  · exact stepFails_throw rfl

theorem scalarTag_fails (p : Properties) (isPlain : Bool) (text : String) :
    StepFails IsForeign (scalarTag p isPlain text) := by
  unfold scalarTag
  split
  · exact stepFails_pure _
  · split
    · exact stepFails_pure _
    · exact tagOfName_fails _

theorem tagOr_fails (p : Properties) (standard : Tag) :
    StepFails IsForeign (tagOr p standard) := by
  unfold tagOr
  split
  · exact stepFails_pure _
  · split
    · exact stepFails_pure _
    · exact tagOfName_fails _

theorem checkAnchor_fails (p : Properties) : StepFails IsForeign (checkAnchor p) := by
  unfold checkAnchor
  split
  · exact stepFails_pure _
  · refine stepFails_get.bind fun r => ?_
    split
    · exact refuse_fails
    · exact stepFails_pure _

theorem addNamed_fails (p : Properties) (tag : Tag) (content : Content) :
    StepFails IsForeign (addNamed p tag content) := by
  unfold addNamed
  refine (add_fails tag content).bind fun id => ?_
  split
  · exact stepFails_pure _
  · exact (stepFails_modify _).bind fun _ => stepFails_pure _

theorem addEmpty_fails (p : Properties) : StepFails IsForeign (addEmpty p) :=
  (tagOr_fails _ _).bind fun _ => addNamed_fails _ _ _

-- =============================================================== nodes

theorem readSequence_fails (p : Properties) {readItems : ReadNode (Array NodeId)}
    (h : StepFails IsForeign readItems) : StepFails IsForeign (readSequence p readItems) := by
  unfold readSequence
  refine (tagOr_fails _ _).bind fun tag => (addNamed_fails _ _ _).bind fun id => ?_
  exact h.bind fun _ => (fill_fails _ _).bind fun _ => stepFails_pure _

theorem readMapping_fails (p : Properties) {readEntries : ReadNode (Array (NodeId × NodeId))}
    (h : StepFails IsForeign readEntries) : StepFails IsForeign (readMapping p readEntries) := by
  unfold readMapping
  refine (tagOr_fails _ _).bind fun tag => (addNamed_fails _ _ _).bind fun id => ?_
  exact h.bind fun _ => (fill_fails _ _).bind fun _ => stepFails_pure _

theorem readUnless_fails (ends : List Token) {read : ReadNode NodeId}
    (h : StepFails IsForeign read) : StepFails IsForeign (readUnless ends read) := by
  unfold readUnless
  refine (nextIn_fails ends).bind fun isNext => ?_
  split
  · exact addAbsent_fails
  · exact h

theorem readValue_fails (ends : List Token) {read : ReadNode NodeId}
    (h : StepFails IsForeign read) : StepFails IsForeign (readValue ends read) := by
  unfold readValue
  refine peek_fails.bind fun t => ?_
  split
  · exact advance_fails.bind fun _ => readUnless_fails ends h
  · exact addAbsent_fails

theorem readComma_fails (first : Bool) : StepFails IsForeign (readComma first) := by
  unfold readComma
  split
  · exact stepFails_pure _
  · refine peek_fails.bind fun t => ?_
    split
    · exact advance_fails
    · exact refuse_fails

/-- No reader of nodes fails with a fault of this library, within a bound. -/
structure Reading (fuel : Nat) : Prop where
  node : ∀ block indentless, StepFails IsForeign (readNode fuel block indentless)
  blockItems : ∀ items, StepFails IsForeign (readBlockItems fuel items)
  indentlessItems : ∀ items, StepFails IsForeign (readIndentlessItems fuel items)
  blockEntries : ∀ entries, StepFails IsForeign (readBlockEntries fuel entries)
  flowItems : ∀ first items, StepFails IsForeign (readFlowItems fuel first items)
  flowEntries : ∀ first entries, StepFails IsForeign (readFlowEntries fuel first entries)

theorem Reading.zero : Reading 0 where
  node block indentless := by
    unfold readNode
    exact refuse_fails
  blockItems items := by
    unfold readBlockItems
    exact refuse_fails
  indentlessItems items := by
    unfold readIndentlessItems
    exact refuse_fails
  blockEntries entries := by
    unfold readBlockEntries
    exact refuse_fails
  flowItems first items := by
    unfold readFlowItems
    exact refuse_fails
  flowEntries first entries := by
    unfold readFlowEntries
    exact refuse_fails

theorem Reading.succ {fuel : Nat} (h : Reading fuel) : Reading (fuel + 1) where
  node block indentless := by
    unfold readNode
    refine peek_fails.bind fun t => ?_
    split
    · refine advance_fails.bind fun _ => stepFails_get.bind fun r => ?_
      split
      · exact stepFails_pure _
      · exact refuse_fails
    · refine readProperties_fails.bind fun p => peek_fails.bind fun t => ?_
      refine (checkAnchor_fails p).bind fun _ => ?_
      split
      · refine advance_fails.bind fun _ => (scalarTag_fails _ _ _).bind fun tag => ?_
        exact addNamed_fails _ _ _
      · exact advance_fails.bind fun _ => readSequence_fails p (h.flowItems _ _)
      · exact advance_fails.bind fun _ => readMapping_fails p (h.flowEntries _ _)
      · exact advance_fails.bind fun _ => readSequence_fails p (h.blockItems _)
      · exact advance_fails.bind fun _ => readMapping_fails p (h.blockEntries _)
      · split
        · exact readSequence_fails p (h.indentlessItems _)
        · split
          · exact addEmpty_fails p
          · exact refuse_fails
  blockItems items := by
    unfold readBlockItems
    refine peek_fails.bind fun t => ?_
    split
    · refine advance_fails.bind fun _ => ?_
      exact (readUnless_fails _ (h.node _ _)).bind fun _ => h.blockItems _
    · exact advance_fails.bind fun _ => stepFails_pure _
    · exact refuse_fails
  indentlessItems items := by
    unfold readIndentlessItems
    refine peek_fails.bind fun t => ?_
    split
    · refine advance_fails.bind fun _ => ?_
      exact (readUnless_fails _ (h.node _ _)).bind fun _ => h.indentlessItems _
    · exact stepFails_pure _
  blockEntries entries := by
    unfold readBlockEntries
    refine peek_fails.bind fun t => ?_
    split
    · refine advance_fails.bind fun _ => (readUnless_fails _ (h.node _ _)).bind fun k => ?_
      exact (readValue_fails _ (h.node _ _)).bind fun _ => h.blockEntries _
    · exact advance_fails.bind fun _ => stepFails_pure _
    · exact refuse_fails
  flowItems first items := by
    unfold readFlowItems
    refine peek_fails.bind fun t => ?_
    split
    · exact advance_fails.bind fun _ => stepFails_pure _
    · refine (readComma_fails first).bind fun _ => peek_fails.bind fun t => ?_
      split
      · exact advance_fails.bind fun _ => stepFails_pure _
      · refine advance_fails.bind fun _ => (add_fails _ _).bind fun id => ?_
        -- a pair among the items, behind its key
        have hrest (k : NodeId) : StepFails IsForeign (do
            let v ← readValue [.flowEntry, .flowSequenceEnd] (readNode fuel false false)
            fill id (.mapping #[(k, v)])
            readFlowItems fuel false (items.push id)) :=
          (readValue_fails _ (h.node _ _)).bind fun _ => (fill_fails _ _).bind fun _ =>
            h.flowItems _ _
        refine (nextIn_fails _).bind fun isNext => ?_
        split
        · exact advance_fails.bind fun _ => addAbsent_fails.bind hrest
        · exact (h.node _ _).bind hrest
      · exact (h.node _ _).bind fun _ => h.flowItems _ _
  flowEntries first entries := by
    unfold readFlowEntries
    refine peek_fails.bind fun t => ?_
    split
    · exact advance_fails.bind fun _ => stepFails_pure _
    · refine (readComma_fails first).bind fun _ => peek_fails.bind fun t => ?_
      split
      · exact advance_fails.bind fun _ => stepFails_pure _
      · refine advance_fails.bind fun _ => (readUnless_fails _ (h.node _ _)).bind fun k => ?_
        exact (readValue_fails _ (h.node _ _)).bind fun _ => h.flowEntries _ _
      · refine (h.node _ _).bind fun _ => addAbsent_fails.bind fun _ => h.flowEntries _ _

theorem reading (fuel : Nat) : Reading fuel := by
  induction fuel with
  | zero => exact .zero
  | succ fuel ih => exact ih.succ

-- ========================================================= documents

theorem readDirectives_fails (fuel : Nat) (versionSeen : Bool) :
    StepFails IsForeign (readDirectives fuel versionSeen) := by
  induction fuel generalizing versionSeen with
  | zero =>
    unfold readDirectives
    exact refuse_fails
  | succ fuel ih =>
    unfold readDirectives
    refine peek_fails.bind fun t => ?_
    split
    · split
      · exact refuse_fails
      · exact advance_fails.bind fun _ => ih _
    · refine stepFails_get.bind fun r => ?_
      split
      · exact refuse_fails
      · exact (stepFails_modify _).bind fun _ => advance_fails.bind fun _ => ih _
    · exact stepFails_pure _

theorem skipDocumentEnds_fails (fuel : Nat) : StepFails IsForeign (skipDocumentEnds fuel) := by
  induction fuel with
  | zero =>
    unfold skipDocumentEnds
    exact refuse_fails
  | succ fuel ih =>
    unfold skipDocumentEnds
    refine peek_fails.bind fun t => ?_
    split
    · exact advance_fails.bind fun _ => ih
    · exact stepFails_pure _

/-- What comes after the outermost node of a document: nothing may be left. -/
def endDocument (fuel : Nat) (n : NodeId) : ReadNode (Option NodeId) := do
  skipDocumentEnds fuel
  match ← peek with
  | .streamEnd => pure (some n)
  | _ => refuse

theorem endDocument_fails (fuel : Nat) (n : NodeId) : StepFails IsForeign (endDocument fuel n) := by
  refine (skipDocumentEnds_fails fuel).bind fun _ => peek_fails.bind fun t => ?_
  split
  · exact stepFails_pure _
  · exact refuse_fails

theorem readDocument_fails (fuel : Nat) : StepFails IsForeign (readDocument fuel) := by
  have hend := endDocument_fails fuel
  unfold readDocument
  refine peek_fails.bind fun t => ?_
  split
  · exact stepFails_pure _
  · dsimp only
    split
    · refine (readDirectives_fails fuel false).bind fun _ => (stepFails_modify _).bind fun _ => ?_
      refine peek_fails.bind fun t => ?_
      split
      · refine advance_fails.bind fun _ => peek_fails.bind fun t => ?_
        split
        · exact addAbsent_fails.bind hend
        · exact ((reading fuel).node _ _).bind hend
      · exact refuse_fails.bind hend
    · exact (stepFails_modify _).bind fun _ => ((reading fuel).node _ _).bind hend

end ReadNode

theorem Graph.read_fails (cs : List Char) : (Graph.read cs).Fails IsForeign :=
  (ReadNode.readDocument_fails _ _).map

end CharmDepot.Yaml
