/-
Decoding as a normal form.

A bundle is written back as a record of the fields that it is read from (`Deployment.toValue`): the
directives of a service as a list of texts, its units as an integer, options and annotations as
mappings, machines under the texts of their ids, relations as lists. The bundles that are read from
what they are written back as are the normal ones (`Deployment.IsNormal`): a text field that is
absent is empty text, and no two machines have the same id. Whatever is decoded is normal, so that
decoding it once more changes nothing (`Deployment.decode_normalises`).

# Machines that come together

The keys of machines are written as texts, and different keys can be written alike. Such machines
come together: the first of them gives the place and the last the machine. They do so as entries of
a mapping do whose keys are the ids (`Deployment.textEntries_gathered`), and what is known of
mappings is known of the machines: no id occurs twice, and a list in which none does is left as it
is.
-/
import CharmDepot.Proofs.Bundle.Arrangement
import CharmDepot.Proofs.Value.Sound

namespace CharmDepot

open Outcome

-- ============================================================== records

namespace Value

variable {v : Value} {fields : List (String × Value)}

/-- A record of named fields. -/
def record (fields : List (String × Value)) : Value :=
  .map (textEntries fields)

theorem fields_record (fields : List (String × Value)) :
    (record fields).fields = .ok (textEntries fields) :=
  fields_map _

theorem field_textEntries (key : String) (fields : List (String × Value)) :
    field key (textEntries fields) = (fields.lookup key).getD null := by
  have hlookup : lookup? key (textEntries fields) = fields.lookup key := by
    induction fields with
    | nil => rfl
    | cons f fields ih =>
      rw [textEntries_cons, lookup?, ih, List.lookup_cons]
      by_cases hkey : key = f.1
      · rw [if_pos ((same_text_iff ..).2 (by rw [hkey])), beq_iff_eq.2 hkey]
      · rw [if_neg fun hsame => hkey (text.inj ((same_text_iff ..).1 hsame)).symm,
          beq_eq_false_iff_ne.2 hkey]
  rw [field, hlookup]

/-- A record whose fields have different names is sound if their values are. -/
theorem isSound_record_iff (hnames : (fields.map Prod.fst).Nodup) :
    (record fields).IsSound ↔ ∀ f ∈ fields, f.2.IsSound := by
  unfold record
  rw [isSound_map_iff, and_iff_right (isMapping_textEntries hnames)]
  refine List.forall_mem_map.trans (forall₂_congr fun f _ => ?_)
  exact and_iff_right (isSound_text f.1)

/-- The values that a text field keeps: what counts as true, and empty text. -/
def IsSettled (v : Value) : Prop :=
  v.truthy = true ∨ v = .text ""

theorem isSettled_orElse (v : Value) : (v.orElse (.text "")).IsSettled := by
  unfold orElse
  split
  · rename_i htrue
    exact .inl htrue
  · exact .inr rfl

theorem IsSettled.orElse (h : v.IsSettled) : v.orElse (.text "") = v := by
  unfold Value.orElse
  rcases h with htrue | rfl
  · rw [if_pos htrue]
  · rfl

/-- A mapping stands for itself. -/
theorem mapping_map (entries : List (Value × Value)) :
    (Value.map entries).mapping = .ok entries := by
  unfold mapping
  cases entries with
  | nil => rfl
  | cons _ _ => rfl

/-- A list has its items. -/
theorem itemsOrNone_list (items : List Value) : (Value.list items).itemsOrNone = .ok items := by
  unfold itemsOrNone
  cases items with
  | nil => rfl
  | cons _ _ => rfl

theorem orElse_list (items : List Value) : (Value.list items).orElse (.list []) = .list items := by
  cases items with
  | nil => rfl
  | cons _ _ => rfl

theorem integer_orElse_int (n : Int) : ((Value.int n).orElse (.int 0)).integer = .ok n := by
  by_cases hzero : n = 0
  · rw [hzero]
    rfl
  · have htrue : (Value.int n).truthy = true := by simp [truthy, hzero]
    rw [orElse, if_pos htrue]
    rfl

end Value

open Value

theorem isSettled_textField (key : String) (entries : List (Value × Value)) :
    (textField key entries).IsSettled :=
  isSettled_orElse _

theorem textField_textEntries {key : String} {fields : List (String × Value)} {v : Value}
    (hfield : fields.lookup key = some v) (h : v.IsSettled) :
    textField key (textEntries fields) = v := by
  rw [textField, field_textEntries, hfield, Option.getD_some, h.orElse]

theorem isSound_textField {entries : List (Value × Value)} (h : (Value.map entries).IsSound)
    (key : String) : (textField key entries).IsSound :=
  (h.field key).orElse (isSound_text "")

-- ============================================================= machines

namespace Machine

variable {m : Machine} {raw : Value}

/-- The fields that a machine is read from. -/
def backFields (m : Machine) : List (String × Value) :=
  [("constraints", m.constraints), ("annotations", .map m.annotations)]

/-- A machine as the record that it is read from. -/
def toValue (m : Machine) : Value :=
  record m.backFields

/-- Decoding leaves this machine as it is. -/
def IsNormal (m : Machine) : Prop :=
  m.constraints.IsSettled

theorem decode_eq_ok_iff :
    decode raw = .ok m ↔ ∃ entries, raw.fields = .ok entries
      ∧ (field "annotations" entries).mapping = .ok m.annotations
      ∧ textField "constraints" entries = m.constraints := by
  unfold decode
  constructor
  · intro h
    obtain ⟨entries, hentries, h⟩ := bind_eq_ok.1 h
    obtain ⟨annotations, hannotations, h⟩ := bind_eq_ok.1 h
    obtain rfl := Except.ok.inj h
    exact ⟨entries, hentries, hannotations, rfl⟩
  · intro h
    obtain ⟨entries, hentries, hannotations, hconstraints⟩ := h
    rw [hentries, ok_bind, hannotations, ok_bind, hconstraints]
    rfl

theorem isNormal_of_decode (h : decode raw = .ok m) : m.IsNormal := by
  obtain ⟨entries, -, -, hconstraints⟩ := decode_eq_ok_iff.1 h
  unfold IsNormal
  rw [← hconstraints]
  exact isSettled_textField _ _

theorem decode_toValue (h : m.IsNormal) : decode m.toValue = .ok m := by
  refine decode_eq_ok_iff.2 ⟨_, fields_record _, ?_, textField_textEntries rfl h⟩
  rw [field_textEntries]
  exact mapping_map _

theorem isSound_toValue_iff :
    m.toValue.IsSound ↔ m.constraints.IsSound ∧ (Value.map m.annotations).IsSound := by
  unfold toValue
  rw [isSound_record_iff (by simp [backFields])]
  simp [backFields]

theorem isSound_of_decode (hraw : raw.IsSound) (h : decode raw = .ok m) : m.toValue.IsSound := by
  obtain ⟨entries, hentries, hannotations, hconstraints⟩ := decode_eq_ok_iff.1 h
  have hfields := hraw.fields hentries
  rw [isSound_toValue_iff, ← hconstraints]
  exact ⟨isSound_textField hfields _, (hfields.field _).mapping hannotations⟩

end Machine

-- ============================================================= services

namespace Service

variable {s : Service} {raw : Value}

/-- The fields that a service is read from. -/
def backFields (s : Service) : List (String × Value) :=
  [("charm", s.charm), ("num_units", .int s.units), ("to", .list (s.placements.map .text)),
    ("options", .map s.options), ("annotations", .map s.annotations),
    ("constraints", s.constraints)]

/-- A service as the record that it is read from. -/
def toValue (s : Service) : Value :=
  record s.backFields

/-- Decoding leaves this service as it is. -/
structure IsNormal (s : Service) : Prop where
  charm : s.charm.IsSettled
  constraints : s.constraints.IsSettled

theorem decode_eq_ok_iff :
    decode raw = .ok s ↔ ∃ entries, raw.fields = .ok entries
      ∧ (unitsIn entries).integer = .ok s.units
      ∧ decodePlacements (field "to" entries) = .ok s.placements
      ∧ (field "options" entries).mapping = .ok s.options
      ∧ (field "annotations" entries).mapping = .ok s.annotations
      ∧ textField "charm" entries = s.charm ∧ textField "constraints" entries = s.constraints := by
  unfold decode
  constructor
  · intro h
    obtain ⟨entries, hentries, h⟩ := bind_eq_ok.1 h
    obtain ⟨units, hunits, h⟩ := bind_eq_ok.1 h
    obtain ⟨placements, hplacements, h⟩ := bind_eq_ok.1 h
    obtain ⟨options, hoptions, h⟩ := bind_eq_ok.1 h
    obtain ⟨annotations, hannotations, h⟩ := bind_eq_ok.1 h
    obtain rfl := Except.ok.inj h
    exact ⟨entries, hentries, hunits, hplacements, hoptions, hannotations, rfl, rfl⟩
  · intro h
    obtain ⟨entries, hentries, hunits, hplacements, hoptions, hannotations, hcharm, hconstraints⟩ :=
      h
    rw [hentries, ok_bind, ← unitsIn, hunits, ok_bind, hplacements, ok_bind, hoptions, ok_bind,
      hannotations, ok_bind, hcharm, hconstraints]
    rfl

theorem isNormal_of_decode (h : decode raw = .ok s) : s.IsNormal := by
  obtain ⟨entries, -, -, -, -, -, hcharm, hconstraints⟩ := decode_eq_ok_iff.1 h
  constructor
  · rw [← hcharm]
    exact isSettled_textField _ _
  · rw [← hconstraints]
    exact isSettled_textField _ _

/-- A list of texts is read as these directives. -/
theorem decodePlacements_texts (placements : List String) :
    decodePlacements (.list (placements.map .text)) = .ok placements := by
  unfold decodePlacements
  rw [orElse_list]
  show (do
    let items ← (Value.list (placements.map .text)).itemsOrNone
    items.mapM written) = _
  rw [itemsOrNone_list, ok_bind]
  exact mapM_map_eq_ok fun _ _ => rfl

theorem decode_toValue (h : s.IsNormal) : decode s.toValue = .ok s := by
  refine decode_eq_ok_iff.2 ⟨_, fields_record _, ?_, ?_, ?_, ?_, textField_textEntries rfl h.charm,
    textField_textEntries rfl h.constraints⟩
  · rw [unitsIn, field_textEntries]
    exact integer_orElse_int _
  · rw [field_textEntries]
    exact decodePlacements_texts _
  · rw [field_textEntries]
    exact mapping_map _
  · rw [field_textEntries]
    exact mapping_map _

theorem isSound_toValue_iff :
    s.toValue.IsSound ↔ s.charm.IsSound ∧ (Value.map s.options).IsSound
      ∧ (Value.map s.annotations).IsSound ∧ s.constraints.IsSound := by
  have hunits : (Value.int s.units).IsSound := .plain rfl
  have hplacements : (Value.list (s.placements.map .text)).IsSound :=
    isSound_list_iff.2 (List.forall_mem_map.2 fun p _ => isSound_text p)
  unfold toValue
  rw [isSound_record_iff (by simp [backFields])]
  simp [backFields, hunits, hplacements]

theorem isSound_of_decode (hraw : raw.IsSound) (h : decode raw = .ok s) : s.toValue.IsSound := by
  obtain ⟨entries, hentries, -, -, hoptions, hannotations, hcharm, hconstraints⟩ :=
    decode_eq_ok_iff.1 h
  have hfields := hraw.fields hentries
  rw [isSound_toValue_iff, ← hcharm, ← hconstraints]
  exact ⟨isSound_textField hfields _, (hfields.field _).mapping hoptions,
    (hfields.field _).mapping hannotations, isSound_textField hfields _⟩

end Service

namespace Deployment

variable {b : Deployment} {raw : Value}

-- ==================================================== machines together

/-- A machine is put into a list as an entry is into a mapping with its id for a key. -/
theorem textEntries_insertMachine (id : String) (m : Machine) (ms : List (String × Machine)) :
    textEntries (insertMachine id m ms) = insertEntry (.text id) m (textEntries ms) := by
  induction ms with
  | nil => rfl
  | cons e rest ih =>
    rw [textEntries_cons, insertMachine, insertEntry]
    by_cases hid : e.1 = id
    · rw [if_pos hid, if_pos ((text_same_iff ..).2 (by rw [hid])), textEntries_cons, hid]
    · rw [if_neg hid, if_neg fun hsame => hid (text.inj ((text_same_iff ..).1 hsame)),
        textEntries_cons, ih]

/-- The machines of a list, with those of one id brought together. -/
def gathered (ms : List (String × Machine)) : List (String × Machine) :=
  ms.foldl (fun made e => insertMachine e.1 e.2 made) []

theorem textEntries_gathered (ms : List (String × Machine)) :
    textEntries (gathered ms) = mappingOf (textEntries ms) := by
  have hmore (made : List (String × Machine)) :
      textEntries (ms.foldl (fun made e => insertMachine e.1 e.2 made) made)
        = (textEntries ms).foldl (fun made e => insertEntry e.1 e.2 made) (textEntries made) := by
    induction ms generalizing made with
    | nil => rfl
    | cons e rest ih =>
      rw [List.foldl_cons, ih, textEntries_insertMachine]
      rfl
  exact hmore []

theorem nodup_gathered (ms : List (String × Machine)) : ((gathered ms).map Prod.fst).Nodup := by
  rw [← keysDiffer_texts_iff, ← keys_textEntries, textEntries_gathered]
  exact keysDiffer_mappingOf _

theorem gathered_of_nodup {ms : List (String × Machine)} (h : (ms.map Prod.fst).Nodup) :
    gathered ms = ms := by
  apply textEntries_injective
  rw [textEntries_gathered, mappingOf_eq_self]
  rw [keys_textEntries]
  exact keysDiffer_texts_iff.2 h

/-- What holds of all machines holds of those that are left. -/
theorem forall_mem_gathered {P : Machine → Prop} {ms : List (String × Machine)}
    (h : ∀ e ∈ ms, P e.2) : ∀ e ∈ gathered ms, P e.2 := by
  intro e he
  have hentry : (.text e.1, e.2) ∈ mappingOf (textEntries ms) := by
    rw [← textEntries_gathered]
    exact List.mem_map_of_mem he
  exact (forall_mem_mappingOf (P := fun _ => True)
    (List.forall_mem_map.2 fun e he => ⟨trivial, h e he⟩) _ hentry).2

-- ============================================================== bundles

/-- The records of the services, under their names. -/
def serviceRecords (b : Deployment) : List (Value × Value) :=
  b.services.map fun e => (e.1, e.2.toValue)

/-- The records of the machines, under their ids. -/
def machineRecords (b : Deployment) : List (String × Value) :=
  b.machines.map fun e => (e.1, e.2.toValue)

/-- The fields that a bundle is read from. -/
def backFields (b : Deployment) : List (String × Value) :=
  [("services", .map b.serviceRecords), ("machines", record b.machineRecords),
    ("series", b.series), ("relations", .list (b.relations.map .list))]

/-- The contents of a bundle as the record that they are read from. -/
def toValue (b : Deployment) : Value :=
  record b.backFields

/-- Decoding leaves this bundle as it is. -/
structure IsNormal (b : Deployment) : Prop where
  services : ∀ e ∈ b.services, e.2.IsNormal
  machines : ∀ e ∈ b.machines, e.2.IsNormal
  ids : (b.machines.map Prod.fst).Nodup
  series : b.series.IsSettled

theorem decode_eq_ok_iff :
    decode raw = .ok b ↔ ∃ entries named placed machines related, raw.fields = .ok entries
      ∧ (field "services" entries).fields = .ok named
      ∧ named.mapM decodeService = .ok b.services
      ∧ (field "machines" entries).fields = .ok placed
      ∧ placed.mapM decodeMachine = .ok machines ∧ gathered machines = b.machines
      ∧ (field "relations" entries).itemsOrNone = .ok related
      ∧ related.mapM decodeRelation = .ok b.relations
      ∧ textField "series" entries = b.series := by
  unfold decode
  constructor
  · intro h
    obtain ⟨entries, hentries, h⟩ := bind_eq_ok.1 h
    obtain ⟨named, hnamed, h⟩ := bind_eq_ok.1 h
    obtain ⟨services, hservices, h⟩ := bind_eq_ok.1 h
    obtain ⟨placed, hplaced, h⟩ := bind_eq_ok.1 h
    obtain ⟨machines, hmachines, h⟩ := bind_eq_ok.1 h
    obtain ⟨related, hrelated, h⟩ := bind_eq_ok.1 h
    obtain ⟨relations, hrelations, h⟩ := bind_eq_ok.1 h
    obtain rfl := Except.ok.inj h
    exact ⟨entries, named, placed, machines, related, hentries, hnamed, hservices, hplaced,
      hmachines, rfl, hrelated, hrelations, rfl⟩
  · intro h
    obtain ⟨entries, named, placed, machines, related, hentries, hnamed, hservices, hplaced,
      hmachines, hgathered, hrelated, hrelations, hseries⟩ := h
    rw [hentries, ok_bind, hnamed, ok_bind, hservices, ok_bind, hplaced, ok_bind, hmachines,
      ok_bind, hrelated, ok_bind, hrelations, ok_bind, ← gathered, hgathered, hseries]
    rfl

theorem decode_of_decodeService {e : Value × Value} {e' : Value × Service}
    (h : decodeService e = .ok e') : Service.decode e.2 = .ok e'.2 := by
  obtain ⟨s, hs, rfl⟩ := map_eq_ok.1 h
  exact hs

theorem decodeMachine_eq_ok_iff {e : Value × Value} {e' : String × Machine} :
    decodeMachine e = .ok e' ↔ e.1.written = .ok e'.1 ∧ Machine.decode e.2 = .ok e'.2 := by
  unfold decodeMachine
  constructor
  · intro h
    obtain ⟨id, hid, h⟩ := bind_eq_ok.1 h
    obtain ⟨m, hm, h⟩ := bind_eq_ok.1 h
    obtain rfl := Except.ok.inj h
    exact ⟨hid, hm⟩
  · intro h
    rw [h.1, ok_bind, h.2]
    rfl

/-- Whatever is decoded is normal. -/
theorem isNormal_of_decode (h : decode raw = .ok b) : b.IsNormal := by
  obtain ⟨entries, named, placed, machines, related, -, -, hservices, -, hmachines, hgathered, -, -,
    hseries⟩ := decode_eq_ok_iff.1 h
  refine ⟨fun e he => ?_, ?_, ?_, ?_⟩
  · obtain ⟨e', -, hdecode⟩ := exists_mem_left_of_forall₂ (mapM_eq_ok_iff.1 hservices) he
    exact Service.isNormal_of_decode (decode_of_decodeService hdecode)
  · rw [← hgathered]
    refine forall_mem_gathered fun e he => ?_
    obtain ⟨e', -, hdecode⟩ := exists_mem_left_of_forall₂ (mapM_eq_ok_iff.1 hmachines) he
    exact Machine.isNormal_of_decode (decodeMachine_eq_ok_iff.1 hdecode).2
  · rw [← hgathered]
    exact nodup_gathered machines
  · rw [← hseries]
    exact isSettled_textField _ _

/-- What is normal is decoded from what it is written back as. -/
theorem decode_toValue (h : b.IsNormal) : decode b.toValue = .ok b := by
  refine decode_eq_ok_iff.2 ⟨textEntries b.backFields, b.serviceRecords,
    textEntries b.machineRecords, b.machines, b.relations.map .list, fields_record _, ?_, ?_, ?_,
    ?_, gathered_of_nodup h.ids, ?_, ?_, textField_textEntries rfl h.series⟩
  · rw [field_textEntries]
    exact fields_map _
  · refine mapM_map_eq_ok fun e he => ?_
    rw [decodeService, Service.decode_toValue (h.services e he)]
    rfl
  · rw [field_textEntries]
    exact fields_record _
  · rw [textEntries, machineRecords, List.map_map]
    refine mapM_map_eq_ok fun e he => decodeMachine_eq_ok_iff.2 ⟨rfl, ?_⟩
    exact Machine.decode_toValue (h.machines e he)
  · rw [field_textEntries]
    exact itemsOrNone_list _
  · exact mapM_map_eq_ok fun _ _ => rfl

-- ======================================================= sound documents

theorem isSound_relation {v : Value} {items : List Value} (hv : v.IsSound)
    (h : decodeRelation v = .ok items) : (Value.list items).IsSound := by
  rw [isSound_list_iff]
  unfold decodeRelation at h
  split at h
  · obtain rfl := Except.ok.inj h
    simpa using hv
  · split at h
    · rename_i found hfound
      obtain rfl := Except.ok.inj h
      exact hv.items? hfound
    · cases h

/-- What a bundle is written back as is sound if its services are a mapping and its parts are
sound. -/
theorem isSound_toValue_iff (hids : (b.machines.map Prod.fst).Nodup) :
    b.toValue.IsSound ↔ IsMapping b.services
      ∧ (∀ e ∈ b.services, e.1.IsSound ∧ e.2.toValue.IsSound)
      ∧ (∀ e ∈ b.machines, e.2.toValue.IsSound) ∧ b.series.IsSound
      ∧ ∀ r ∈ b.relations, (Value.list r).IsSound := by
  have hkeys : b.serviceRecords.map Prod.fst = b.services.map Prod.fst := by simp [serviceRecords]
  have hids' : (b.machineRecords.map Prod.fst).Nodup := by
    rw [machineRecords, List.map_map]
    exact hids
  have hservices : (Value.map b.serviceRecords).IsSound ↔
      IsMapping b.services ∧ ∀ e ∈ b.services, e.1.IsSound ∧ e.2.toValue.IsSound := by
    rw [isSound_map_iff]
    refine and_congr ⟨fun h => h.of_keys hkeys.symm, fun h => h.of_keys hkeys⟩ ?_
    exact List.forall_mem_map
  have hmachines : (record b.machineRecords).IsSound ↔
      ∀ e ∈ b.machines, e.2.toValue.IsSound :=
    (isSound_record_iff hids').trans List.forall_mem_map
  have hrelations : (Value.list (b.relations.map .list)).IsSound ↔
      ∀ r ∈ b.relations, (Value.list r).IsSound := by
    rw [isSound_list_iff, List.forall_mem_map]
  unfold toValue
  rw [isSound_record_iff (by simp [backFields])]
  simp only [backFields, List.forall_mem_cons, List.not_mem_nil, false_implies, implies_true,
    and_true, hservices, hmachines, hrelations, and_assoc]

/-- If a document is sound, then what its bundle is written back as is sound as well. -/
theorem isSound_of_decode (hraw : raw.IsSound) (h : decode raw = .ok b) : b.toValue.IsSound := by
  have hids := (isNormal_of_decode h).ids
  obtain ⟨entries, named, placed, machines, related, hentries, hnamed, hservices, hplaced,
    hmachines, hgathered, hrelated, hrelations, hseries⟩ := decode_eq_ok_iff.1 h
  have hfields := hraw.fields hentries
  have hnamedSound := isSound_map_iff.1 ((hfields.field _).fields hnamed)
  have hplacedSound := isSound_map_iff.1 ((hfields.field _).fields hplaced)
  have hrelatedSound := (hfields.field _).itemsOrNone hrelated
  refine (isSound_toValue_iff hids).2 ⟨?_, fun e he => ?_, ?_, ?_, fun r hr => ?_⟩
  · exact hnamedSound.1.of_keys (names_of_decodeService hservices)
  · obtain ⟨e', he', hdecode⟩ := exists_mem_left_of_forall₂ (mapM_eq_ok_iff.1 hservices) he
    obtain ⟨s, hs, rfl⟩ := map_eq_ok.1 hdecode
    exact ⟨(hnamedSound.2 e' he').1, Service.isSound_of_decode (hnamedSound.2 e' he').2 hs⟩
  · rw [← hgathered]
    refine forall_mem_gathered (P := fun m => m.toValue.IsSound) fun e he => ?_
    obtain ⟨e', he', hdecode⟩ := exists_mem_left_of_forall₂ (mapM_eq_ok_iff.1 hmachines) he
    exact Machine.isSound_of_decode (hplacedSound.2 e' he').2 (decodeMachine_eq_ok_iff.1 hdecode).2
  · rw [← hseries]
    exact isSound_textField hfields _
  · obtain ⟨v, hv, hdecode⟩ := exists_mem_left_of_forall₂ (mapM_eq_ok_iff.1 hrelations) hr
    exact isSound_relation (hrelatedSound v hv) hdecode

/-- The options and annotations of a bundle that can be written back are mappings. -/
theorem mappings_of_isSound (hids : (b.machines.map Prod.fst).Nodup) (h : b.toValue.IsSound) :
    (∀ e ∈ b.services, IsMapping e.2.options ∧ IsMapping e.2.annotations)
      ∧ ∀ e ∈ b.machines, IsMapping e.2.annotations := by
  obtain ⟨-, hservices, hmachines, -, -⟩ := (isSound_toValue_iff hids).1 h
  constructor
  · intro e he
    obtain ⟨-, hoptions, hannotations, -⟩ := Service.isSound_toValue_iff.1 (hservices e he).2
    exact ⟨(isSound_map_iff.1 hoptions).1, (isSound_map_iff.1 hannotations).1⟩
  · intro e he
    exact (isSound_map_iff.1 (Machine.isSound_toValue_iff.1 (hmachines e he)).2).1

/-- **Decoding is a normalisation.** Whatever a document is decoded to, written back and decoded
again it is the same, with its services and machines in the same order, and no two of its machines
have the same id; if the document is sound, then so is what is written back, and all options and
annotations in it are mappings. The bundles that are read from what they are written back as are the
normal ones and no others. -/
theorem decode_normalises :
    (∀ raw b, decode raw = .ok b →
        decode b.toValue = .ok b ∧ (b.machines.map Prod.fst).Nodup
        ∧ (raw.IsSound → b.toValue.IsSound ∧ IsMapping b.services
          ∧ (∀ e ∈ b.services, IsMapping e.2.options ∧ IsMapping e.2.annotations)
          ∧ ∀ e ∈ b.machines, IsMapping e.2.annotations))
      ∧ ∀ b, decode b.toValue = .ok b ↔ b.IsNormal := by
  refine ⟨fun raw b h => ?_, fun b => ⟨isNormal_of_decode, decode_toValue⟩⟩
  have hnormal := isNormal_of_decode h
  refine ⟨decode_toValue hnormal, hnormal.ids, fun hraw => ?_⟩
  have hback := isSound_of_decode hraw h
  exact ⟨hback, ((isSound_toValue_iff hnormal.ids).1 hback).1,
    mappings_of_isSound hnormal.ids hback⟩

/-- The fields of a service whose units are a truth value, whose directive stands alone, and whose
options are a list of two pairs under one key. -/
def looseService : List (String × Value) :=
  [("num_units", .bool true), ("to", .text "new"),
    ("options", .list [.list [.text "k", .null], .tuple [.text "k", .text "v"]])]

/-- Two machines whose keys are written alike, with another one between them. -/
def looseMachines : List (Value × Value) :=
  [(.null, .null), (.text "0", .null), (.text "None", record [("constraints", .text "mem=1")])]

/-- A document with such a service and such machines, and with an endpoint that stands alone. -/
def looseFields : List (String × Value) :=
  [("services", record [("a", record looseService)]), ("machines", .map looseMachines),
    ("relations", .list [.text "a:b"])]

/-- What that document is decoded to. -/
def tight : Deployment where
  services := [(.text "a", ⟨.text "", 1, ["new"], [(.text "k", .text "v")], [], .text ""⟩)]
  machines := [("None", ⟨.text "mem=1", []⟩), ("0", ⟨.text "", []⟩)]
  series := .text ""
  relations := [[.text "a:b"]]

theorem decode_looseFields : decode (record looseFields) = .ok tight := by
  have hservice : Service.decode (record looseService)
      = .ok ⟨.text "", 1, ["new"], [(.text "k", .text "v")], [], .text ""⟩ := by
    refine Service.decode_eq_ok_iff.2 ⟨_, fields_record _, ?_, ?_, ?_, ?_, ?_, ?_⟩
    · rw [Service.unitsIn, field_textEntries]
      rfl
    · rw [field_textEntries]
      rfl
    · rw [field_textEntries]
      show Except.ok (mappingOf [(Value.text "k", Value.null), (.text "k", .text "v")]) = _
      simp [mappingOf, insertEntry, same]
    · rw [field_textEntries]
      rfl
    · rw [textField, field_textEntries]
      rfl
    · rw [textField, field_textEntries]
      rfl
  have hmachine : Machine.decode (record [("constraints", .text "mem=1")])
      = .ok ⟨.text "mem=1", []⟩ := by
    refine Machine.decode_eq_ok_iff.2 ⟨_, fields_record _, ?_, ?_⟩
    · rw [field_textEntries]
      rfl
    · rw [textField, field_textEntries]
      rfl
  refine decode_eq_ok_iff.2 ⟨textEntries looseFields, [(.text "a", record looseService)],
    looseMachines, [("None", ⟨.text "", []⟩), ("0", ⟨.text "", []⟩), ("None", ⟨.text "mem=1", []⟩)],
    [.text "a:b"], fields_record _, ?_, ?_, ?_, ?_, rfl, ?_, rfl, ?_⟩
  · rw [field_textEntries]
    rfl
  · exact mapM_eq_ok_iff.2 (.cons (map_eq_ok.2 ⟨_, hservice, rfl⟩) .nil)
  · rw [field_textEntries]
    rfl
  · exact mapM_eq_ok_iff.2
      (.cons rfl (.cons rfl (.cons (decodeMachine_eq_ok_iff.2 ⟨rfl, hmachine⟩) .nil)))
  · rw [field_textEntries]
    rfl
  · rw [textField, field_textEntries]
    rfl

/-- The document is sound. -/
theorem isSound_looseFields : (record looseFields).IsSound := by
  have hnull : Value.null.IsSound := .plain rfl
  have hunits : (Value.bool true).IsSound := .plain rfl
  have hpairs : (Value.list [.list [.text "k", .null], .tuple [.text "k", .text "v"]]).IsSound := by
    refine isSound_list_iff.2 ?_
    simp only [List.forall_mem_cons, List.not_mem_nil, false_implies, implies_true, and_true]
    refine ⟨isSound_list_iff.2 ?_, .tuple ?_⟩
    · simp [isSound_text, hnull]
    · simp only [List.forall_mem_cons, List.not_mem_nil, false_implies, implies_true, and_true]
      exact ⟨isSound_text _, isSound_text _⟩
  have hservice : (record looseService).IsSound := by
    rw [isSound_record_iff (by simp [looseService])]
    simp [looseService, isSound_text, hunits, hpairs]
  have hmachine : (record [("constraints", .text "mem=1")]).IsSound := by
    rw [isSound_record_iff (by simp)]
    simp [isSound_text]
  have hmachines : (Value.map looseMachines).IsSound := by
    refine isSound_map_iff.2 ⟨⟨?_, ?_⟩, ?_⟩
    · simp [looseMachines, isKey]
    · simp [looseMachines, KeysDiffer, same]
    · simp [looseMachines, isSound_text, hnull, hmachine]
  have hservices : (record [("a", record looseService)]).IsSound := by
    rw [isSound_record_iff (by simp)]
    simpa using hservice
  have hrelations : (Value.list [.text "a:b"]).IsSound := by
    rw [isSound_list_iff]
    simp [isSound_text]
  rw [isSound_record_iff (by simp [looseFields])]
  simp [looseFields, hservices, hmachines, hrelations]

/-- Of two machines whose keys are written alike one is left, where the first stood, and that is so
for good. -/
theorem decode_normalises_loose :
    decode (record looseFields) = .ok tight ∧ (record looseFields).IsSound
      ∧ decode tight.toValue = .ok tight ∧ tight.toValue.IsSound
      ∧ ∀ e ∈ tight.services, IsMapping e.2.options ∧ IsMapping e.2.annotations := by
  obtain ⟨hagain, -, hsound⟩ := decode_normalises.1 _ _ decode_looseFields
  obtain ⟨hback, -, hservices, -⟩ := hsound isSound_looseFields
  exact ⟨decode_looseFields, isSound_looseFields, hagain, hback, hservices⟩

end Deployment

end CharmDepot
