/-
What reading a bundle fails with.

Decoding reports most of what is wrong with a document as one fault, that of an invalid bundle. Two
faults get past it: a number of units that is infinite, and a directive or the id of a machine that
is nested too deep to be written as text. `Deployment.Bounded` says that decoding meets neither; it
is about what decoding gets to, in its order, since a document that is refused for an earlier reason
is refused for that one. A third fault gets past the readers of files: a text about the bundle that
is no text.

`Deployment.read_fails_iff` is about documents, and `Bundle.read_fails_iff` about whatever a bundle
is read from.
-/
import CharmDepot.Proofs.Bundle.Archive
import CharmDepot.Proofs.Charm.Faults
import CharmDepot.Repository.Disk

namespace CharmDepot

open Outcome Fault

-- ============================================================== faults

/-- A fault that says that a bundle is invalid. -/
def Fault.IsInvalidBundle (f : Fault) : Prop :=
  f.kind? = some .invalidBundle

/-- A fault that is reported as a reason why the data of a bundle are not read. -/
def Fault.IsReason (f : Fault) : Prop :=
  (match f with
    | document | value _ | unsuitable | unsupported => true
    | _ => false) = true

theorem Fault.IsReason.cases {f : Fault} (h : f.IsReason) :
    f = .document ∨ (∃ v, f = .value v) ∨ f = .unsuitable ∨ f = .unsupported := by
  cases f with
  | document => exact .inl rfl
  | value v => exact .inr (.inl ⟨v, rfl⟩)
  | unsuitable => exact .inr (.inr (.inl rfl))
  | unsupported => exact .inr (.inr (.inr rfl))
  | _ => cases h

theorem Fault.IsReason.isForeign {f : Fault} (h : f.IsReason) : f.IsForeign := by
  rcases h.cases with rfl | ⟨_, rfl⟩ | rfl | rfl
  · rfl
  · rfl
  · rfl
  · rfl

namespace Value

/-- An infinite number. -/
def IsInfinite (v : Value) : Prop :=
  ∃ x, v = .float x ∧ Number.magnitude x = .infinite

theorem ofInteger_fails_reason (n : Except Number.IntegerFault Int) :
    (ofInteger n).Fails IsReason := by
  unfold ofInteger
  split
  · exact .ok _
  · exact .error rfl

/-- Only an infinite number is refused as an integer for a reason that is not reported. -/
theorem integer_fails_iff (v : Value) : v.integer.Fails IsReason ↔ ¬ v.IsInfinite := by
  have hother (h : v.integer.Fails IsReason) (hv : ∀ x, v ≠ .float x) :
      v.integer.Fails IsReason ↔ ¬ v.IsInfinite :=
    iff_of_true h fun ⟨x, hx, _⟩ => hv x hx
  cases v with
  | float x =>
    have hinfinite : (Value.float x).IsInfinite ↔ Number.magnitude x = .infinite :=
      ⟨fun ⟨y, hy, h⟩ => Value.float.inj hy ▸ h, fun h => ⟨x, rfl, h⟩⟩
    unfold integer
    rw [hinfinite]
    dsimp only
    cases hx : Number.magnitude x with
    | nan => exact iff_of_true (.error rfl) nofun
    | infinite => exact iff_of_false (fun h => by cases h _ rfl) (not_not_intro rfl)
    | finite m => exact iff_of_true (.ok _) nofun
  | bool b => exact hother (.ok _) nofun
  | int n => exact hother (.ok _) nofun
  | text s => exact hother (ofInteger_fails_reason _) nofun
  | bytes bs => exact hother (ofInteger_fails_reason _) nofun
  | _ => exact hother (.error rfl) nofun

theorem written_fails_iff (v : Value) : v.written.Fails IsReason ↔ v.written ≠ .error .tooDeep := by
  constructor
  · intro h hdeep
    cases h _ hdeep
  · intro h f hf
    rcases (written_fails_unread v f hf).cases with ⟨_, rfl⟩ | rfl
    · rfl
    · exact absurd hf h

theorem fields_fails_reason (v : Value) : v.fields.Fails IsReason := by
  unfold fields
  split
  · split
    · exact .ok _
    · exact .error rfl
  · exact .ok _

theorem integer_fails (v : Value) : v.integer.Fails IsForeign := by
  unfold integer
  split
  case h_3 => split <;> first | exact .ok _ | exact .error rfl
  case h_5 => exact ofInteger_fails _
  case h_6 => exact ofInteger_fails _
  all_goals first | exact .ok _ | exact .error rfl

theorem itemsOrNone_fails_reason (v : Value) : v.itemsOrNone.Fails IsReason := by
  unfold itemsOrNone
  split
  · split
    · exact .ok _
    · exact .error rfl
  · exact .ok _

theorem itemsOrNone_fails (v : Value) : v.itemsOrNone.Fails IsForeign :=
  (itemsOrNone_fails_reason v).mono fun _ => IsReason.isForeign

theorem mapping_fails_reason (v : Value) : v.mapping.Fails IsReason := by
  have hpair (v : Value) : v.pair.Fails IsReason := by
    unfold pair
    split
    · exact .error rfl
    · split
      · exact .ok _
      · exact .error rfl
    · exact .error rfl
  unfold mapping
  split
  · split
    · exact .ok _
    · split
      · exact .error rfl
      · exact (Fails.mapM hpair _).map
  · exact .ok _

/-- The items of a text are texts. -/
theorem mem_items_text {s : String} {items : List Value} {v : Value}
    (hitems : (Value.text s).itemsOrNone = .ok items) (hv : v ∈ items) : ∃ c, v = .text c := by
  unfold itemsOrNone at hitems
  split at hitems
  · obtain rfl := Except.ok.inj hitems
    obtain ⟨c, -, rfl⟩ := List.mem_map.1 hv
    exact ⟨_, rfl⟩
  · obtain rfl := Except.ok.inj hitems
    cases hv

/-- The entries of a mapping are its fields. -/
theorem fields_map (entries : List (Value × Value)) : (Value.map entries).fields = .ok entries := by
  unfold fields
  cases entries with
  | nil => rfl
  | cons _ _ => rfl

end Value

-- ============================================================ services

namespace Service

/-- The number of units of a service, and its directives, as its fields have them. -/
def unitsIn (entries : List (Value × Value)) : Value :=
  (Value.field "num_units" entries).orElse (.int 0)

/-- Of the fields of a service, the number of units is not infinite, and every directive that is
reached can be written. -/
structure Bounded (entries : List (Value × Value)) : Prop where
  units : ¬ (unitsIn entries).IsInfinite
  placements : ∀ n items, (unitsIn entries).integer = .ok n →
    ((Value.field "to" entries).orElse (.list [])).itemsOrNone = .ok items →
    ∀ v, Reached Value.written items v → v.written ≠ .error .tooDeep

theorem decodePlacements_fails_iff (raw : Value) :
    (decodePlacements raw).Fails IsReason ↔
      ∀ items, (raw.orElse (.list [])).itemsOrNone = .ok items →
        ∀ v, Reached Value.written items v → v.written ≠ .error .tooDeep := by
  unfold decodePlacements
  split
  · -- a text is one directive; its characters, which are its items, are texts as well
    rename_i s htext
    refine iff_of_true (.ok _) fun items hitems v hreached => ?_
    rw [htext] at hitems
    obtain ⟨c, hc⟩ := Value.mem_items_text hitems hreached.mem
    rw [hc]
    exact nofun
  · simp only [Fails.bind_iff, Value.itemsOrNone_fails_reason, Fails.mapM_iff,
      Value.written_fails_iff, true_and]

theorem decode_fails_iff (raw : Value) :
    (decode raw).Fails IsReason ↔ ∀ entries, raw.fields = .ok entries → Bounded entries := by
  have hrest (entries : List (Value × Value)) (n : Int) (placements : List String) :
      (do
        let options ← (Value.field "options" entries).mapping
        let annotations ← (Value.field "annotations" entries).mapping
        pure (⟨textField "charm" entries, n, placements, options, annotations,
          textField "constraints" entries⟩ : Service) : Outcome Service).Fails IsReason :=
    (Value.mapping_fails_reason _).bind fun _ => (Value.mapping_fails_reason _).bind fun _ => .ok _
  unfold decode
  rw [Fails.bind_iff]
  refine (and_iff_right (Value.fields_fails_reason raw)).trans (forall₂_congr fun entries _ => ?_)
  rw [Fails.bind_iff]
  refine Iff.trans (and_congr (Value.integer_fails_iff _) Iff.rfl) ?_
  constructor
  · intro ⟨hunits, hdirectives⟩
    refine ⟨hunits, fun n items hn hitems => ?_⟩
    exact (decodePlacements_fails_iff _).1 (Fails.bind_iff.1 (hdirectives n hn)).1 items hitems
  · intro ⟨hunits, hplacements⟩
    refine ⟨hunits, fun n hn => Fails.bind ?_ fun directives => hrest entries n directives⟩
    exact (decodePlacements_fails_iff _).2 fun items => hplacements n items hn

end Service

-- ========================================================= deployments

namespace Deployment

/-- Of the contents of a bundle, every service that is reached has fields as `Service.Bounded` says,
and the id of every machine that is reached can be written. -/
structure Bounded (entries : List (Value × Value)) : Prop where
  services : ∀ named, (Value.field "services" entries).fields = .ok named →
    ∀ e, Reached decodeService named e →
      ∀ fields, e.2.fields = .ok fields → Service.Bounded fields
  machines : ∀ named services placed, (Value.field "services" entries).fields = .ok named →
    named.mapM decodeService = .ok services →
    (Value.field "machines" entries).fields = .ok placed →
    ∀ e, Reached decodeMachine placed e → e.1.written ≠ .error .tooDeep

theorem decodeMachine_fails_iff (e : Value × Value) :
    (decodeMachine e).Fails IsReason ↔ e.1.written ≠ .error .tooDeep := by
  have hmachine : (Machine.decode e.2).Fails IsReason :=
    (Value.fields_fails_reason _).bind fun _ => (Value.mapping_fails_reason _).bind fun _ => .ok _
  unfold decodeMachine
  rw [Fails.bind_iff, Value.written_fails_iff]
  exact and_iff_left fun _ _ => hmachine.bind fun _ => .ok _

theorem decodeRelation_fails (v : Value) : (decodeRelation v).Fails IsReason := by
  unfold decodeRelation
  split
  · exact .ok _
  · split
    · exact .ok _
    · exact .error rfl

theorem decode_fails_iff (entries : List (Value × Value)) :
    (decode (.map entries)).Fails IsReason ↔ Bounded entries := by
  have hrest (services : List (Value × Service)) (machines : List (String × Machine)) :
      (do
        let relations ← (← (Value.field "relations" entries).itemsOrNone).mapM decodeRelation
        pure ({
          services
          machines := machines.foldl (fun ms e => insertMachine e.1 e.2 ms) []
          series := textField "series" entries
          relations } : Deployment) : Outcome Deployment).Fails IsReason :=
    (Value.itemsOrNone_fails_reason _).bind fun _ =>
      (Fails.mapM decodeRelation_fails _).bind fun _ => .ok _
  have hservice (e : Value × Value) : (decodeService e).Fails IsReason ↔
      ∀ fields, e.2.fields = .ok fields → Service.Bounded fields :=
    Fails.map_iff.trans (Service.decode_fails_iff e.2)
  unfold decode
  rw [Value.fields_map, Outcome.ok_bind, Fails.bind_iff]
  refine (and_iff_right (Value.fields_fails_reason _)).trans ?_
  constructor
  · intro h
    refine ⟨fun named hnamed e he => ?_,
      fun named services placed hnamed hservices hplaced e he => ?_⟩
    · exact (hservice e).1 (Fails.mapM_iff.1 (Fails.bind_iff.1 (h named hnamed)).1 e he)
    · have hmachines := (Fails.bind_iff.1 (h named hnamed)).2 services hservices
      have hplacing := (Fails.bind_iff.1 hmachines).2 placed hplaced
      exact (decodeMachine_fails_iff e).1 (Fails.mapM_iff.1 (Fails.bind_iff.1 hplacing).1 e he)
  · intro h named hnamed
    refine Fails.bind_iff.2 ⟨Fails.mapM_iff.2 fun e he => ?_, fun services hservices => ?_⟩
    · exact (hservice e).2 (h.services named hnamed e he)
    refine Fails.bind_iff.2 ⟨Value.fields_fails_reason _, fun placed hplaced => ?_⟩
    refine Fails.bind_iff.2 ⟨Fails.mapM_iff.2 fun e he => ?_, fun machines _ => hrest _ _⟩
    exact (decodeMachine_fails_iff e).2
      (h.machines named services placed hnamed hservices hplaced e he)

/-- Decoding fails with no fault of this library. -/
theorem decode_fails (raw : Value) : (decode raw).Fails IsForeign := by
  have hservice (e : Value × Value) : (decodeService e).Fails IsForeign := by
    unfold decodeService Service.decode
    refine Fails.map ((Value.fields_fails _).bind fun entries => ?_)
    refine (Value.integer_fails _).bind fun units => ?_
    refine Fails.bind ?_ fun placements => ?_
    · unfold Service.decodePlacements
      split
      · exact .ok _
      · exact (Value.itemsOrNone_fails _).bind fun _ => .mapM Value.written_fails _
    · exact (Value.mapping_fails _).bind fun _ => (Value.mapping_fails _).bind fun _ => .ok _
  have hmachine (e : Value × Value) : (decodeMachine e).Fails IsForeign := by
    unfold decodeMachine Machine.decode
    refine (Value.written_fails _).bind fun id => Fails.bind ?_ fun m => .ok _
    exact (Value.fields_fails _).bind fun _ => (Value.mapping_fails _).bind fun _ => .ok _
  unfold decode
  refine (Value.fields_fails raw).bind fun entries => ?_
  refine (Value.fields_fails _).bind fun named => ?_
  refine (Fails.mapM hservice named).bind fun services => ?_
  refine (Value.fields_fails _).bind fun placed => ?_
  refine (Fails.mapM hmachine placed).bind fun machines => ?_
  refine (Value.itemsOrNone_fails _).bind fun related => Fails.bind ?_ fun relations => .ok _
  exact (Fails.mapM decodeRelation_fails related).mono fun _ => IsReason.isForeign

/-- A document whose data are read, or refused for a reason that is reported: it is loaded or is not
for such a reason, and what it holds is bounded. -/
structure Readable (source : Yaml.Source) : Prop where
  loads : (Yaml.load source).Fails IsReason
  bounded : ∀ entries, Yaml.readMapping "bundle data" source = .ok entries → Bounded entries

/-- Reading the data of a bundle fails only with the fault of an invalid bundle exactly for readable
documents. -/
theorem read_fails_iff (source : Yaml.Source) :
    (read source).Fails IsInvalidBundle ↔ Readable source := by
  have hmapping : (Yaml.readMapping "bundle data" source).Fails IsReason
      ↔ (Yaml.load source).Fails IsReason := by
    unfold Yaml.readMapping
    rw [Fails.bind_iff]
    refine and_iff_left fun v _ => ?_
    split
    · exact .ok _
    · exact .ok _
    · exact .error rfl
  have hreasons : Fails IsReason (do
      let entries ← Yaml.readMapping "bundle data" source
      decode (.map entries)) ↔ Readable source := by
    rw [Fails.bind_iff]
    simp only [hmapping, decode_fails_iff]
    exact ⟨fun h => ⟨h.1, h.2⟩, fun h => ⟨h.loads, h.bounded⟩⟩
  have hforeign : Fails IsForeign (do
      let entries ← Yaml.readMapping "bundle data" source
      decode (.map entries)) :=
    (Yaml.readMapping_fails _ _).bind fun _ => decode_fails _
  rw [← hreasons]
  unfold read
  change _ ↔ Fails IsReason ((Yaml.readMapping "bundle data" source).bind _)
  change Fails IsForeign ((Yaml.readMapping "bundle data" source).bind _) at hforeign
  split
  · rename_i b hb
    rw [hb]
    exact iff_of_true (.ok _) (.ok _)
  · rename_i f hf
    rw [hf] at hforeign ⊢
    have hkind : f.kind? = none := hforeign f rfl
    split
    · exact iff_of_true (.error rfl) (.error rfl)
    · exact iff_of_true (.error rfl) (.error rfl)
    · exact iff_of_true (.error rfl) (.error rfl)
    · exact iff_of_true (.error rfl) (.error rfl)
    · rename_i hdocument hvalue hunsuitable hunsupported
      refine iff_of_false (fun h => ?_) (fun h => ?_)
      · cases hkind.symm.trans (h f rfl)
      · rcases (h f rfl).cases with rfl | ⟨v, rfl⟩ | rfl | rfl
        · exact hdocument rfl
        · exact hvalue v rfl
        · exact hunsuitable rfl
        · exact hunsupported rfl

end Deployment

-- ============================================================= bundles

namespace Bundle

variable {t : FileTree} {p : FilePath}

theorem textOf_fails_iff (content : Bytes) (f : String → Bundle) :
    Fails IsInvalidBundle (do pure (f (← textOf content)))
      ↔ (Text.ofUtf8? content).isSome = true := by
  unfold textOf
  cases Text.ofUtf8? content with
  | none => exact iff_of_false (fun h => by cases h _ rfl) nofun
  | some s => exact iff_of_true (.ok (f s)) rfl

/-- What a bundle is read from: the content of `bundle.yaml`, if reading gets to it, and that of
`README.md`, if it is there. An archive has to have both before either of them is read. -/
def parts? (t : FileTree) (p : FilePath) : Option (Bytes × Option Bytes) :=
  if t.isDirectory p then
    (t.fileContent (p.child "bundle.yaml")).toOption.map fun raw =>
      (raw.bytes, (t.fileContent (p.child "README.md")).toOption.map Blob.bytes)
  else do
    let entries ← (← (t.fileContent p).toOption).entries?
    let raw ← lastContent? "bundle.yaml" entries
    let text ← lastContent? "README.md" entries
    pure (raw, some text)

/-- The parts of a bundle, as far as reading gets to them, are read or refused for a reason that is
reported: the data are, and the text about the bundle is text. -/
structure Readable (raw : Bytes) (readme? : Option Bytes) : Prop where
  data : Deployment.Readable (.bytes raw)
  readme : ∀ data text, Deployment.read (.bytes raw) = .ok data → readme? = some text →
    (Text.ofUtf8? text).isSome = true

theorem readPart_of_error {what : Unreadable} {f : Fault}
    (hp : (p.names.any fun n => n.toList.contains '\x00') = false)
    (h : t.fileContent p = .error f) : readPart t p what = .error (.unreadable what f) := by
  unfold readPart
  rw [h]
  exact if_pos (FileTree.isSystem_of_fileContent hp h)

theorem readDirectory_fails_iff (hp : (p.names.any fun n => n.toList.contains '\x00') = false) :
    (readDirectory t p).Fails IsInvalidBundle ↔
      ∀ raw, t.fileContent (p.child "bundle.yaml") = .ok raw →
        Readable raw.bytes ((t.fileContent (p.child "README.md")).toOption.map Blob.bytes) := by
  have hchild (name : String) (hname : '\x00' ∉ name.toList) :
      ((p.child name).names.any fun n => n.toList.contains '\x00') = false :=
    FilePath.noNull_below hp (List.forall_mem_singleton.2 hname)
  have hyaml := hchild "bundle.yaml" (by decide)
  have hmd := hchild "README.md" (by decide)
  unfold readDirectory
  cases hraw : t.fileContent (p.child "bundle.yaml") with
  | error f =>
    rw [readPart_of_error hyaml hraw]
    exact iff_of_true (.error rfl) nofun
  | ok raw =>
    have hpart : readPart t (p.child "bundle.yaml") .bundleFile = .ok raw.bytes :=
      readPart_eq_ok_iff.2 ⟨raw, hraw, rfl⟩
    rw [hpart, Outcome.ok_bind, Fails.bind_iff, Deployment.read_fails_iff]
    cases habout : t.fileContent (p.child "README.md") with
    | error f =>
      rw [readPart_of_error hmd habout]
      constructor
      · intro ⟨hdata, _⟩ raw' hraw'
        obtain rfl := Except.ok.inj hraw'
        exact ⟨hdata, nofun⟩
      · intro h
        exact ⟨(h raw rfl).data, fun data _ => .error rfl⟩
    | ok about =>
      have hpart : readPart t (p.child "README.md") .readme = .ok about.bytes :=
        readPart_eq_ok_iff.2 ⟨about, habout, rfl⟩
      rw [hpart]
      constructor
      · intro ⟨hdata, hreadme⟩ raw' hraw'
        obtain rfl := Except.ok.inj hraw'
        refine ⟨hdata, fun data text hread htext => ?_⟩
        obtain rfl := Option.some.inj htext
        exact (textOf_fails_iff _ _).1 (hreadme data hread)
      · intro h
        obtain ⟨hdata, hreadme⟩ := h raw rfl
        exact ⟨hdata, fun data hread => (textOf_fails_iff _ _).2 (hreadme data _ hread rfl)⟩

theorem ofBlob_fails_iff (content : Blob) :
    (ofBlob p content).Fails IsInvalidBundle ↔
      ∀ entries raw text, content.entries? = some entries →
        lastContent? "bundle.yaml" entries = some raw →
        lastContent? "README.md" entries = some text → Readable raw (some text) := by
  unfold ofBlob
  split
  · rename_i hentries
    refine iff_of_true (.error rfl) fun _ _ _ h => ?_
    cases hentries.symm.trans h
  · rename_i entries hentries
    split
    · rename_i hraw
      refine iff_of_true (.error rfl) fun _ _ _ h hraw' => ?_
      obtain rfl := Option.some.inj (hentries.symm.trans h)
      cases hraw.symm.trans hraw'
    · rename_i htext
      refine iff_of_true (.error rfl) fun _ _ _ h _ htext' => ?_
      obtain rfl := Option.some.inj (hentries.symm.trans h)
      cases htext.symm.trans htext'
    · rename_i raw text hraw htext
      rw [Fails.bind_iff, Deployment.read_fails_iff]
      constructor
      · intro ⟨hdata, hreadme⟩ entries' raw' text' hentries' hraw' htext'
        obtain rfl := Option.some.inj (hentries.symm.trans hentries')
        obtain rfl := Option.some.inj (hraw.symm.trans hraw')
        obtain rfl := Option.some.inj (htext.symm.trans htext')
        refine ⟨hdata, fun data about hread habout => ?_⟩
        obtain rfl := Option.some.inj habout
        exact (textOf_fails_iff _ _).1 (hreadme data hread)
      · intro h
        obtain ⟨hdata, hreadme⟩ := h entries raw text hentries hraw htext
        exact ⟨hdata, fun data hread => (textOf_fails_iff _ _).2 (hreadme data _ hread rfl)⟩

theorem noNull_of_isPresent (h : t.isPresent p = true) :
    (p.names.any fun n => n.toList.contains '\x00') = false := by
  obtain ⟨_, _, hplace⟩ := FileTree.isPresent_iff.1 h
  exact (FileTree.locate_eq_ok_iff.1 hplace).1.noNull

theorem read_fails_iff (h : t.isPresent p = true) :
    (read t p).Fails IsInvalidBundle ↔
      ∀ raw readme?, parts? t p = some (raw, readme?) → Readable raw readme? := by
  have hp := noNull_of_isPresent h
  unfold read parts?
  split
  · rw [readDirectory_fails_iff hp]
    cases t.fileContent (p.child "bundle.yaml") <;> simp [Except.toOption]
  · unfold readArchive
    cases hcontent : t.fileContent p with
    | error f =>
      dsimp only
      rw [if_pos (FileTree.isSystem_of_fileContent hp hcontent)]
      exact iff_of_true (.error rfl) nofun
    | ok content =>
      simp only [Except.toOption, Option.bind_eq_bind, Option.bind_some]
      rw [ofBlob_fails_iff]
      constructor
      · intro h raw readme? hparts
        obtain ⟨entries, hentries, hparts⟩ := Option.bind_eq_some_iff.1 hparts
        obtain ⟨raw', hraw, hparts⟩ := Option.bind_eq_some_iff.1 hparts
        obtain ⟨text, htext, hparts⟩ := Option.bind_eq_some_iff.1 hparts
        obtain ⟨rfl, rfl⟩ := Prod.mk.inj (Option.some.inj hparts)
        exact h entries raw' text hentries hraw htext
      · intro h entries raw text hentries hraw htext
        refine h raw (some text) (Option.bind_eq_some_iff.2 ⟨entries, hentries, ?_⟩)
        exact Option.bind_eq_some_iff.2 ⟨raw, hraw, Option.bind_eq_some_iff.2 ⟨text, htext, rfl⟩⟩

end Bundle

-- ======================================================== repositories

/-- Where a repository has the bundle of an identity: the first of two paths that leads to
anything. -/
def DiskRepository.Keeps (r : DiskRepository) (t : FileTree) (i : Identity) (p : FilePath) : Prop :=
  t.isPresent p = true
    ∧ (p = r.path.child "bundle" / i.name
      ∨ t.probe (r.path.child "bundle" / i.name) = .ok none
        ∧ p = r.path.child "bundle" / (i.name ++ bundleSuffix))

theorem DiskRepository.bundle_of_keeps {r : DiskRepository} {t : FileTree} {i : Identity}
    {p : FilePath} (hrefusal : r.refusal? t i = none) (h : r.Keeps t i p) :
    r.bundle t i = Bundle.read t p := by
  obtain ⟨hpresent, hplace⟩ := h
  obtain ⟨e, hprobe⟩ := FileTree.probe_of_isPresent hpresent
  unfold bundle
  rw [hrefusal]
  dsimp only
  obtain rfl | ⟨hnone, rfl⟩ := hplace
  · rw [hprobe]
    rfl
  · rw [hnone, hprobe]
    rfl

namespace Bundle

/-- Which documents, which bundles, and which bundles of a repository fail with nothing else than
the fault of an invalid bundle. -/
theorem reading_fails_iff (source : Yaml.Source) (t : FileTree) (p : FilePath) :
    ((Deployment.read source).Fails IsInvalidBundle ↔ Deployment.Readable source)
      ∧ (t.isPresent p = true →
        ((read t p).Fails IsInvalidBundle ↔
            ∀ raw readme?, parts? t p = some (raw, readme?) → Readable raw readme?)
        ∧ ∀ r i, DiskRepository.refusal? r t i = none → r.Keeps t i p →
            ((r.bundle t i).Fails IsInvalidBundle ↔
              ∀ raw readme?, parts? t p = some (raw, readme?) → Readable raw readme?)) := by
  refine ⟨Deployment.read_fails_iff source, fun hp => ⟨read_fails_iff hp, fun r i hrefusal h => ?_⟩⟩
  rw [DiskRepository.bundle_of_keeps hrefusal h]
  exact read_fails_iff hp

/-- A repository with a bundle of no services, and a text about it that is no text. -/
def latinTree : FileTree where
  entries := [(["r"], .dir), (["r", "bundle"], .dir), (["r", "bundle", "w"], .dir),
    (["r", "bundle", "w", "bundle.yaml"], .file (.plain (Text.utf8 "services: \x7b\x7d\n"))),
    (["r", "bundle", "w", "README.md"], .file (.plain [0xFF]))]

/-- The bundle in the repository. -/
def latinUrl : Url := ⟨localSchema, "", "bundle", "w", .unset⟩

theorem directory_latinTree :
    latinTree.directory ⟨0, ["r", "bundle", "w"]⟩ = .ok ["r", "bundle", "w"] :=
  FileTree.directory_of_descends (by decide) rfl

theorem fileContent_latinTree :
    latinTree.fileContent (FilePath.child ⟨0, ["r", "bundle", "w"]⟩ "bundle.yaml")
        = .ok (.plain (Text.utf8 "services: \x7b\x7d\n"))
      ∧ latinTree.fileContent (FilePath.child ⟨0, ["r", "bundle", "w"]⟩ "README.md")
        = .ok (.plain [0xFF]) := by
  constructor
  · exact FileTree.fileContent_child directory_latinTree (by decide) rfl
  · exact FileTree.fileContent_child directory_latinTree (by decide) rfl

/-- A text about a bundle that is no text fails with another fault, at a path and in a
repository. -/
theorem reading_fails_latin :
    ¬ (read latinTree ⟨0, ["r", "bundle", "w"]⟩).Fails IsInvalidBundle
      ∧ ¬ (DiskRepository.bundle ⟨⟨0, ["r"]⟩, .text ""⟩ latinTree latinUrl).Fails
        IsInvalidBundle := by
  obtain ⟨hyaml, hmd⟩ := fileContent_latinTree
  have hpresent : latinTree.isPresent ⟨0, ["r", "bundle", "w"]⟩ = true :=
    FileTree.isPresent_iff.2 ⟨_, _, FileTree.directory_eq_ok_iff.1 directory_latinTree⟩
  have hparts : parts? latinTree ⟨0, ["r", "bundle", "w"]⟩
      = some (Text.utf8 "services: \x7b\x7d\n", some [0xFF]) := by
    unfold parts?
    rw [if_pos (FileTree.isDirectory_iff.2 ⟨_, directory_latinTree⟩), hyaml, hmd]
    rfl
  have hdata : (Deployment.read (.bytes (Text.utf8 "services: \x7b\x7d\n"))).toOption.isSome := by
    decide +kernel
  -- the data are read, so reading gets to the text
  have hunreadable : ¬ ∀ raw readme?,
      parts? latinTree ⟨0, ["r", "bundle", "w"]⟩ = some (raw, readme?) → Readable raw readme? := by
    intro h
    cases hread : Deployment.read (.bytes (Text.utf8 "services: \x7b\x7d\n")) with
    | error f =>
      rw [hread] at hdata
      cases hdata
    | ok data => exact absurd ((h _ _ hparts).readme data _ hread rfl) (by decide +kernel)
  obtain ⟨hread, hbundle⟩ :=
    (reading_fails_iff (.bytes []) latinTree ⟨0, ["r", "bundle", "w"]⟩).2 hpresent
  refine ⟨fun h => hunreadable (hread.1 h), fun h => hunreadable ((hbundle _ _ ?_ ?_).1 h)⟩
  · have hroot : latinTree.locate true ⟨0, ["r"]⟩ = .ok (.found ["r"] .dir) :=
      FileTree.directory_eq_ok_iff.1 (FileTree.directory_of_descends (by decide) rfl)
    unfold DiskRepository.refusal? FileTree.probe FileTree.find?
    rw [hroot]
    rfl
  · exact ⟨hpresent, .inl (by decide)⟩

end Bundle

end CharmDepot
