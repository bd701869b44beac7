/-
What the parts of a lookup fail with.

A fault can be the store's word about a charm (`Fault.isVerdict`): the record of the charm has
errors, or is of another revision. Requests, downloads, digests and archives fail in other ways, so
such a fault shows that nothing was fetched (`fetch_fails`).
-/
import CharmDepot.Proofs.Charm.Faults
import CharmDepot.Proofs.Store.Download

namespace CharmDepot

open Outcome Fault

-- ============================================================= verdicts

/-- Whether a fault is the store's word about a charm: it has the charm at another revision, or
there are errors in its record. -/
def Fault.isVerdict (f : Fault) : Bool :=
  match f.kind? with
  | some .revisionConflict | some .packageNotFound | some .error => true
  | _ => false

/-- A fault that is no word of the store about a charm. -/
def Fault.IsNoVerdict (f : Fault) : Prop :=
  f.isVerdict = false

theorem Fault.IsForeign.isNoVerdict {f : Fault} (h : f.IsForeign) : f.IsNoVerdict := by
  unfold IsNoVerdict isVerdict
  rw [h]

theorem Fault.IsForeignOr.isNoVerdict {f : Fault} (h : f.IsForeignOr .invalidCharm) :
    f.IsNoVerdict := by
  rcases h with h | h
  · exact IsForeign.isNoVerdict h
  · unfold IsNoVerdict isVerdict
    rw [h]

theorem Outcome.Fails.isNoVerdict {α : Type} {o : Outcome α} (h : o.Fails IsForeign) :
    o.Fails IsNoVerdict :=
  h.mono fun _ => IsForeign.isNoVerdict

-- ======================================================= single changes

namespace Edit

variable {α : Type} {p q : FilePath}

theorem look_fails {P : Fault → Prop} {f : FileTree → Outcome α} (h : ∀ t, (f t).Fails P) :
    RunFails P (look f) := by
  intro t e t' hrun
  exact h t e (runs_look_iff.1 hrun).1.symm

theorem putFile_fails (p : FilePath) (content : Blob) :
    RunFails IsForeign (putFile p content) := by
  unfold putFile
  refine (look_fails fun t => t.locate_fails true p).bind fun place => ?_
  split
  · exact runFails_modify _
  · exact runFails_modify _
  · exact runFails_throw rfl

theorem replace_fails (source target : FilePath) :
    RunFails IsForeign (replace source target) := by
  unfold replace
  refine (look_fails fun t => t.locate_fails false source).bind fun place => ?_
  split
  · exact runFails_throw rfl
  · refine (look_fails fun t => t.locate_fails false target).bind fun place => ?_
    split
    · exact runFails_throw rfl
    · exact runFails_modify _
    · exact runFails_modify _

theorem dropFile_fails (p : FilePath) : RunFails IsForeign (dropFile p) := by
  unfold dropFile
  refine (look_fails fun t => t.locate_fails false p).bind fun place => ?_
  split
  · exact runFails_throw rfl
  · exact runFails_throw rfl
  · exact runFails_modify _

end Edit

namespace Act

variable {α : Type} {P : Fault → Prop}

theorem edit_fails {e : Edit α} (h : RunFails P e) : RunFails P (edit e) := by
  intro w f w' hrun
  obtain ⟨t', hrun, -⟩ := runs_edit_iff.1 hrun
  exact h _ _ _ hrun

theorem look_fails {f : FileTree → Outcome α} (h : ∀ t, (f t).Fails P) : RunFails P (look f) := by
  intro w e w' hrun
  exact h _ e (runs_look_iff.1 hrun).1.symm

theorem notify_fails (severity : Severity) (text : String) : RunFails P (notify severity text) :=
  runFails_modify _

theorem notifyOf_fails (severity : Severity) (words : String) (v : Value) :
    RunFails P (notifyOf severity words v) := by
  unfold notifyOf
  split
  · exact notify_fails _ _
  · exact runFails_pure _

end Act

-- ============================================================ requests

namespace Store

variable {s : Store}

theorem authorization_fails (s : Store) : s.authorization.Fails IsForeign := by
  unfold authorization
  split
  · exact (Value.written_fails _).map
  · exact .ok _

theorem exchange_fails (s : Store) (r : Request) : RunFails IsForeign (s.exchange r) := by
  have haddress : (s.address r).Fails IsForeign := by
    unfold address
    dsimp only
    split
    · exact .ok _
    · exact .error rfl
  unfold exchange
  refine (runFails_ofOutcome s.authorization_fails).bind fun _ => ?_
  refine (runFails_ofOutcome haddress).bind fun _ => ?_
  exact runFails_get.bind fun _ => (runFails_set _).bind fun _ => runFails_pure _

theorem pageOf?_fails (s : Store) (reply : Reply) : (s.pageOf? reply).Fails IsForeign := by
  unfold pageOf?
  split
  · split
    · unfold visitPage?
      split
      · exact .ok _
      · exact .ok _
      · exact .ok _
      · rename_i f _ hf
        exact .error (Json.ofValue_fails _ f hf)
    · exact .ok _
  · exact .ok _

theorem settle_fails (reply : Reply) : RunFails IsNoVerdict (settle reply) := by
  unfold settle
  split
  · exact runFails_pure _
  · refine (Act.notify_fails _ _).bind fun _ => runFails_throw rfl
  · exact runFails_throw rfl
  · exact runFails_throw rfl
  · refine runFails_throw ?_
    split
    · rfl
    · rfl
  · exact runFails_throw rfl

theorem request_fails (s : Store) (r : Request) : RunFails IsNoVerdict (s.request r) := by
  have hexchange := (s.exchange_fails r).mono fun _ => IsForeign.isNoVerdict
  unfold request
  refine hexchange.bind fun first => ?_
  refine (runFails_ofOutcome (s.pageOf?_fails first).isNoVerdict).bind fun page? => ?_
  split
  · exact settle_fails first
  · refine (Act.notifyOf_fails _ _ _).bind fun _ => (runFails_modify _).bind fun _ => ?_
    exact hexchange.bind fun second => settle_fails second

-- ============================================================ fetching

theorem digestOf_fails (t : FileTree) (p : FilePath) : (digestOf t p).Fails IsForeign :=
  (t.fileContent_fails p).map

theorem checkDigest_fails (t : FileTree) (p : FilePath) (digest : Value) :
    (checkDigest t p digest).Fails IsNoVerdict := by
  unfold checkDigest
  refine (digestOf_fails t p).isNoVerdict.bind fun found => ?_
  split
  · exact .ok _
  · exact .error rfl

theorem save_fails (p : FilePath) (b : Body) : RunFails IsNoVerdict (save p b) := by
  have hput (content : Blob) := Act.edit_fails
    ((Edit.putFile_fails p content).mono fun _ => IsForeign.isNoVerdict)
  unfold save
  split
  · exact hput _
  · exact (hput _).bind fun _ => runFails_throw rfl

theorem path_fails (i : Identity) : i.path.Fails IsForeign := by
  unfold Identity.path
  split
  · exact .ok _
  · exact .error rfl

theorem download_fails (s : Store) (cache : FilePath) (i : Identity) (p : FilePath) :
    RunFails IsNoVerdict (s.download cache i p) := by
  have hedit {e : Edit Unit} (h : RunFails IsForeign e) : RunFails IsNoVerdict (Act.edit e) :=
    Act.edit_fails (h.mono fun _ => IsForeign.isNoVerdict)
  unfold download
  refine (Act.notify_fails _ _).bind fun _ => ?_
  refine (runFails_ofOutcome (path_fails i).isNoVerdict).bind fun path => ?_
  refine (s.request_fails _).bind fun b => runFails_get.bind fun w => ?_
  refine (hedit (Edit.putFile_fails _ _)).bind fun _ => ?_
  refine RunFails.tryCatch (P := IsNoVerdict) ?_ fun f hf => ?_
  · exact (save_fails _ b).bind fun _ => hedit (Edit.replace_fails _ _)
  · exact (hedit (Edit.dropFile_fails _)).bind fun _ => runFails_throw hf

theorem ensureCached_fails (s : Store) (cache : FilePath) (i : Identity) (p : FilePath)
    (digest : Value) : RunFails IsNoVerdict (s.ensureCached cache i p digest) := by
  unfold ensureCached
  refine runFails_get.bind fun w => ?_
  split
  · exact Act.notify_fails _ _
  · rename_i f hf
    split
    · exact s.download_fails cache i p
    · exact runFails_throw (checkDigest_fails _ _ _ f hf)

/-- What goes wrong once the store has told about a charm is not what the store told. -/
theorem fetch_fails (s : Store) (cache : FilePath) (i : Identity) (digest : Value) :
    RunFails IsNoVerdict (s.fetch cache i digest) := by
  unfold fetch
  refine (s.ensureCached_fails cache i _ digest).bind fun _ => ?_
  refine (Act.look_fails fun t => checkDigest_fails t _ digest).bind fun _ => ?_
  exact Act.look_fails fun t => (Charm.readArchive_fails t _).mono fun _ =>
    IsForeignOr.isNoVerdict

end Store

end CharmDepot
