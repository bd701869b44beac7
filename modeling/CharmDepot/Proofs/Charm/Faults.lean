/-
What reading a charm fails with: either the charm is invalid, or the fault is that of a value and
none of this library (`IsForeignOr`). Files are looked at without a fault of this library.
-/
import CharmDepot.Charm.Basic
import CharmDepot.Proofs.Yaml.Values

namespace CharmDepot

open Outcome Fault

/-- A fault of a kind, or one that is none of this library's own. -/
def Fault.IsForeignOr (k : Kind) (f : Fault) : Prop :=
  f.kind? = none ∨ f.kind? = some k

theorem Outcome.Fails.foreignOr {α : Type} {o : Outcome α} (h : o.Fails IsForeign) (k : Kind) :
    o.Fails (IsForeignOr k) :=
  h.mono fun _ hf => .inl hf

-- =============================================================== files

namespace FileTree

theorem locate_fails (t : FileTree) (followLast : Bool) (p : FilePath) :
    (t.locate followLast p).Fails IsForeign := by
  unfold locate
  split
  · exact .error rfl
  · split
    · exact .error rfl
    · split
      · exact .error rfl
      · split
        · exact .ok _
        · exact .error rfl

theorem probe_fails (t : FileTree) (p : FilePath) : (t.probe p).Fails IsForeign := by
  unfold probe
  split
  · split
    · exact .error rfl
    · exact .ok _
  · exact .ok _

theorem fileContent_fails (t : FileTree) (p : FilePath) : (t.fileContent p).Fails IsForeign := by
  unfold fileContent
  refine (locate_fails t true p).bind fun place => ?_
  split
  · exact .ok _
  · exact .error rfl
  · exact .error rfl

end FileTree

-- ============================================================== charms

theorem Metadata.decodeRevision_fails (v : Value) :
    (Metadata.decodeRevision v).Fails (IsForeignOr .invalidCharm) := by
  unfold Metadata.decodeRevision
  split
  · exact .ok _
  · exact .ok _
  · exact ((Value.shown_fails _).foreignOr _).bind fun _ => .error (.inr rfl)

theorem Metadata.decode_fails (v : Value) :
    (Metadata.decode v).Fails (IsForeignOr .invalidCharm) := by
  unfold Metadata.decode
  refine ((Value.fields_fails v).foreignOr _).bind fun entries => ?_
  dsimp only
  split
  · apply Fails.throw_bind
    exact .inr rfl
  · refine ((Value.mapping_fails _).foreignOr _).bind fun requires => ?_
    refine ((Value.mapping_fails _).foreignOr _).bind fun provides => ?_
    refine ((Value.mapping_fails _).foreignOr _).bind fun peers => ?_
    exact (Metadata.decodeRevision_fails _).bind fun _ => .ok _

theorem Metadata.read_fails (source : Yaml.Source) :
    (Metadata.read source).Fails (IsForeignOr .invalidCharm) := by
  unfold Metadata.read
  split
  · exact Metadata.decode_fails _
  · rename_i f hf
    split
    · exact .error (.inr rfl)
    · exact .error (.inr rfl)
    · exact .error (.inl (Yaml.readMapping_fails _ _ f hf))

namespace Charm

theorem revisionOf_fails (m : Metadata) (p : FilePath) (content? : Option Bytes) :
    (revisionOf m p content?).Fails (IsForeignOr .invalidCharm) := by
  unfold revisionOf readRevision
  split
  · split
    · exact .ok _
    · exact .error (.inr rfl)
  · exact .ok _

theorem configOf_fails (p : FilePath) (content? : Option Bytes) :
    (configOf p content?).Fails (IsForeignOr .invalidCharm) := by
  unfold configOf readConfig
  split
  · split
    · exact .ok _
    · rename_i f hf
      split
      · exact .error (.inr rfl)
      · exact .error (.inr rfl)
      · exact .error (.inl (Yaml.readMapping_fails _ _ f hf))
  · exact .ok _

theorem ofBlob_fails (p : FilePath) (content : Blob) :
    (ofBlob p content).Fails (IsForeignOr .invalidCharm) := by
  unfold ofBlob
  split
  · exact .error (.inr rfl)
  · split
    · exact .error (.inr rfl)
    · refine (Metadata.read_fails _).bind fun m => ?_
      refine (revisionOf_fails m p _).bind fun _ => ?_
      exact (configOf_fails p _).bind fun _ => .ok _

/-- An archived charm that cannot be read is no valid charm, unless the fault is that of a value. -/
theorem readArchive_fails (t : FileTree) (p : FilePath) :
    (readArchive t p).Fails (IsForeignOr .invalidCharm) := by
  unfold readArchive
  split
  · exact ofBlob_fails p _
  · rename_i f hf
    split
    · exact .error (.inr rfl)
    · exact .error (.inl (FileTree.fileContent_fails t p f hf))

theorem readDirectory_fails (t : FileTree) (p : FilePath) :
    (readDirectory t p).Fails (Fault.IsForeignOr .invalidCharm) := by
  unfold readDirectory
  have hoptional (q : FilePath) :
      (readOptional t q).Fails (Fault.IsForeignOr .invalidCharm) := by
    unfold readOptional
    refine ((FileTree.probe_fails t q).foreignOr _).bind fun found? => ?_
    split
    · exact ((FileTree.fileContent_fails t q).foreignOr _).map
    · exact .ok _
  have hmetadata : (readMetadata t p).Fails (Fault.IsForeignOr .invalidCharm) := by
    unfold readMetadata
    split
    · exact Metadata.read_fails _
    · rename_i f hf
      split
      · exact .error (.inr rfl)
      · exact .error (.inl (FileTree.fileContent_fails t _ f hf))
  refine hmetadata.bind fun m => (hoptional _).bind fun revision? => ?_
  refine (revisionOf_fails m p revision?).bind fun revision => ?_
  refine (hoptional _).bind fun config? => ?_
  exact (configOf_fails p config?).bind fun _ => .ok _

/-- What cannot be read as a charm is no valid charm, unless the fault is that of a value or of the
system. -/
theorem read_fails (t : FileTree) (p : FilePath) :
    (read t p).Fails (Fault.IsForeignOr .invalidCharm) := by
  unfold read
  split
  · exact readDirectory_fails t p
  · exact readArchive_fails t p

end Charm

end CharmDepot
