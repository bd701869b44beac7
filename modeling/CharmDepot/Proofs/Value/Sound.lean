/-
Sound values.

A value is sound if it is one that a document can hold: its mappings are mappings, its sets have
items that can be keys and differ, and every mark in a knot stands for a collection of the knot.
Whatever is read off a sound value is sound again: the collection that it is opened to, its items,
the values of its fields, and the mapping that a list of pairs stands for.

A collection of a knot is opened by putting the others in place of their marks. That leaves the keys
of its mappings as they are, because no key holds a mark (`SoundAmong.fill_of_isKey`).
-/
import CharmDepot.Proofs.Runs
import CharmDepot.Proofs.Value.Mapping
import CharmDepot.Proofs.Value.Written
import CharmDepot.Value.Convert

namespace CharmDepot.Value

open Outcome

variable {v w : Value} {marks : List Nat} {cells : List (Nat × Value)}
variable {entries : List (Value × Value)} {items : List Value}

-- ================================================================ marks

theorem areKeys_iff : areKeys items = true ↔ ∀ v ∈ items, v.isKey = true := by
  induction items with
  | nil => simp [areKeys]
  | cons v items ih => simp [areKeys, ih]

theorem fillItems_eq_map (cells : List (Nat × Value)) (items : List Value) :
    fillItems cells items = items.map (fill cells) := by
  induction items with
  | nil => rw [fillItems, List.map_nil]
  | cons v items ih => rw [fillItems, ih, List.map_cons]

theorem fillEntries_eq_map (cells : List (Nat × Value)) (entries : List (Value × Value)) :
    fillEntries cells entries = entries.map fun e => (fill cells e.1, fill cells e.2) := by
  induction entries with
  | nil => rw [fillEntries, List.map_nil]
  | cons e entries ih => rw [fillEntries, ih, List.map_cons]

theorem fill_of_plain (h : v.isCollection = false) (cells : List (Nat × Value)) :
    fill cells v = v := by
  cases v with
  | list | tuple | map | set | knot | again => cases h
  | _ => rw [fill] <;> exact nofun

-- ========================================================= sound values

/-- The values that can stand in a knot with these marks. -/
inductive SoundAmong : List Nat → Value → Prop
  | plain {marks : List Nat} {v : Value} (h : v.isCollection = false) : SoundAmong marks v
  | list {marks : List Nat} {items : List Value} (h : ∀ v ∈ items, SoundAmong marks v) :
    SoundAmong marks (.list items)
  | tuple {marks : List Nat} {items : List Value} (h : ∀ v ∈ items, SoundAmong marks v) :
    SoundAmong marks (.tuple items)
  | set {marks : List Nat} {items : List Value} (hset : IsMapping (items.map fun v => (v, ())))
    (h : ∀ v ∈ items, SoundAmong marks v) : SoundAmong marks (.set items)
  | map {marks : List Nat} {entries : List (Value × Value)} (hmap : IsMapping entries)
    (hkeys : ∀ e ∈ entries, SoundAmong marks e.1)
    (hvalues : ∀ e ∈ entries, SoundAmong marks e.2) : SoundAmong marks (.map entries)
  | knot {marks : List Nat} {cells : List (Nat × Value)} {m : Nat}
    (hmark : m ∈ cells.map Prod.fst)
    (h : ∀ c ∈ cells, SoundAmong (cells.map Prod.fst) c.2) : SoundAmong marks (.knot cells m)
  | again {marks : List Nat} {m : Nat} (h : m ∈ marks) : SoundAmong marks (.again m)

/-- The values that a document can hold. -/
def IsSound (v : Value) : Prop :=
  SoundAmong [] v

/-- No key holds a mark. -/
theorem SoundAmong.fill_of_isKey (h : SoundAmong marks v) (hkey : v.isKey = true)
    (cells : List (Nat × Value)) : fill cells v = v := by
  induction h with
  | plain h => exact fill_of_plain h cells
  | list | set | map | knot | again => cases hkey
  | @tuple marks items _ ih =>
    have hitems := areKeys_iff.1 hkey
    rw [fill, fillItems_eq_map, List.map_congr_left fun v hv => ih v hv (hitems v hv), List.map_id']

/-- A value of a knot, with the collections of the knot in place of their marks. -/
theorem SoundAmong.fill (h : SoundAmong marks v) (hmarks : marks = cells.map Prod.fst)
    (hcells : ∀ c ∈ cells, SoundAmong (cells.map Prod.fst) c.2) : (fill cells v).IsSound := by
  induction h with
  | plain h =>
    rw [fill_of_plain h]
    exact .plain h
  | list _ ih =>
    rw [Value.fill, fillItems_eq_map]
    exact .list (List.forall_mem_map.2 fun v hv => ih v hv hmarks)
  | tuple _ ih =>
    rw [Value.fill, fillItems_eq_map]
    exact .tuple (List.forall_mem_map.2 fun v hv => ih v hv hmarks)
  | @set marks items hset h ih =>
    have hkeys (v : Value) (hv : v ∈ items) : v.isKey = true :=
      hset.keys (v, ()) (List.mem_map_of_mem hv)
    have hsame : items.map (Value.fill cells) = items := by
      rw [List.map_congr_left fun v hv => (h v hv).fill_of_isKey (hkeys v hv) cells, List.map_id']
    rw [Value.fill, fillItems_eq_map, hsame]
    refine .set hset fun v hv => ?_
    rw [← (h v hv).fill_of_isKey (hkeys v hv) cells]
    exact ih v hv hmarks
  | @map marks entries hmap hkeys _ ihkeys ihvalues =>
    rw [Value.fill, fillEntries_eq_map]
    refine .map (hmap.of_keys ?_) (List.forall_mem_map.2 fun e he => ihkeys e he hmarks)
      (List.forall_mem_map.2 fun e he => ihvalues e he hmarks)
    rw [List.map_map]
    exact List.map_congr_left fun e he => (hkeys e he).fill_of_isKey (hmap.keys e he) cells
  | knot hmark h => exact .knot hmark h
  | again h =>
    rw [hmarks] at h
    exact .knot h hcells

theorem IsSound.opened (h : v.IsSound) : v.opened.IsSound := by
  cases h with
  | @knot _ cells m hmark hcells =>
    cases hfound : cells.lookup m with
    | none =>
      rw [Value.opened, hfound]
      exact .plain rfl
    | some w =>
      rw [Value.opened, hfound]
      obtain ⟨front, back, hcell, -⟩ := List.lookup_eq_some_iff.1 hfound
      have hmem : (m, w) ∈ cells := by simp [hcell]
      exact (hcells (m, w) hmem).fill rfl hcells
  | plain hplain =>
    cases v with
    | knot => cases hplain
    | _ => exact .plain hplain
  | list h => exact .list h
  | tuple h => exact .tuple h
  | set hset h => exact .set hset h
  | map hmap hkeys hvalues => exact .map hmap hkeys hvalues
  | again h => cases h

-- ============================================================ readings

theorem isSound_text (s : String) : (text s).IsSound := .plain rfl

theorem isSound_list_iff : (list items).IsSound ↔ ∀ v ∈ items, v.IsSound := by
  constructor
  · intro h
    cases h with
    | plain h => cases h
    | list h => exact h
  · exact .list

theorem isSound_map_iff :
    (map entries).IsSound ↔ IsMapping entries ∧ ∀ e ∈ entries, e.1.IsSound ∧ e.2.IsSound := by
  constructor
  · intro h
    cases h with
    | plain h => cases h
    | map hmap hkeys hvalues => exact ⟨hmap, fun e he => ⟨hkeys e he, hvalues e he⟩⟩
  · intro h
    exact .map h.1 (fun e he => (h.2 e he).1) fun e he => (h.2 e he).2

theorem isSound_map_nil : (map []).IsSound := isSound_map_iff.2 ⟨.nil, by simp⟩

/-- The items of a sound value are sound. -/
theorem IsSound.items? (h : v.IsSound) (hitems : v.items? = some items) :
    ∀ x ∈ items, x.IsSound := by
  have hopened := h.opened
  unfold Value.items? at hitems
  split at hitems
  · obtain rfl := Option.some.inj hitems
    exact List.forall_mem_map.2 fun _ _ => .plain rfl
  · obtain rfl := Option.some.inj hitems
    exact List.forall_mem_map.2 fun _ _ => .plain rfl
  · rename_i found hfound
    obtain rfl := Option.some.inj hitems
    rw [hfound] at hopened
    exact isSound_list_iff.1 hopened
  · rename_i found hfound
    obtain rfl := Option.some.inj hitems
    rw [hfound] at hopened
    cases hopened with
    | plain h => cases h
    | tuple h => exact h
  · rename_i found hfound
    obtain rfl := Option.some.inj hitems
    rw [hfound] at hopened
    cases hopened with
    | plain h => cases h
    | set _ h => exact h
  · rename_i found hfound
    obtain rfl := Option.some.inj hitems
    rw [hfound] at hopened
    exact List.forall_mem_map.2 fun e he => ((isSound_map_iff.1 hopened).2 e he).1
  · cases hitems

theorem IsSound.itemsOrNone (h : v.IsSound) (hitems : v.itemsOrNone = .ok items) :
    ∀ x ∈ items, x.IsSound := by
  unfold Value.itemsOrNone at hitems
  split at hitems
  · split at hitems
    · rename_i found hfound
      obtain rfl := Except.ok.inj hitems
      exact h.items? hfound
    · cases hitems
  · obtain rfl := Except.ok.inj hitems
    simp

theorem IsSound.orElse (hv : v.IsSound) (hw : w.IsSound) : (v.orElse w).IsSound := by
  unfold Value.orElse
  split
  · exact hv
  · exact hw

/-- The fields of a sound value are a mapping to sound values. -/
theorem IsSound.fields (h : v.IsSound) (hfields : v.fields = .ok entries) :
    (map entries).IsSound := by
  have hopened := h.opened
  unfold Value.fields at hfields
  split at hfields
  · split at hfields
    · rename_i found hfound
      obtain rfl := Except.ok.inj hfields
      rw [hfound] at hopened
      exact hopened
    · cases hfields
  · obtain rfl := Except.ok.inj hfields
    exact isSound_map_nil

/-- The value of a field is one of the values of the record, or null. -/
theorem field_cases (key : String) (entries : List (Value × Value)) :
    (∃ e ∈ entries, field key entries = e.2) ∨ field key entries = null := by
  induction entries with
  | nil => exact .inr rfl
  | cons e rest ih =>
    by_cases hkey : e.1.same (text key) = true
    · refine .inl ⟨e, List.mem_cons_self, ?_⟩
      rw [field, lookup?, if_pos hkey, Option.getD_some]
    · have hrest : field key (e :: rest) = field key rest := by
        rw [field, lookup?, if_neg hkey, field]
      rw [hrest]
      exact ih.imp_left fun ⟨e', he', hvalue⟩ => ⟨e', List.mem_cons_of_mem _ he', hvalue⟩

theorem IsSound.field (h : (map entries).IsSound) (key : String) :
    (Value.field key entries).IsSound := by
  rcases field_cases key entries with ⟨e, he, hvalue⟩ | hnone
  · rw [hvalue]
    exact ((isSound_map_iff.1 h).2 e he).2
  · rw [hnone]
    exact .plain rfl

/-- A sound pair is an entry under a key. -/
theorem IsSound.pair {e : Value × Value} (h : v.IsSound) (hpair : v.pair = .ok e) :
    e.1.isKey = true ∧ e.1.IsSound ∧ e.2.IsSound := by
  unfold Value.pair at hpair
  split at hpair
  · cases hpair
  · rename_i key value hitems
    split at hpair
    · rename_i hkey
      obtain rfl := Except.ok.inj hpair
      have hall := h.items? hitems
      exact ⟨hkey, hall key (by simp), hall value (by simp)⟩
    · cases hpair
  · cases hpair

/-- What a sound value stands for as a mapping is one, to sound values. -/
theorem IsSound.mapping (h : v.IsSound) (hmapping : v.mapping = .ok entries) :
    (map entries).IsSound := by
  have hopened := h.opened
  unfold Value.mapping at hmapping
  split at hmapping
  · split at hmapping
    · rename_i found hfound
      obtain rfl := Except.ok.inj hmapping
      rw [hfound] at hopened
      exact hopened
    · split at hmapping
      · cases hmapping
      · rename_i items hitems
        obtain ⟨pairs, hpairs, rfl⟩ := map_eq_ok.1 hmapping
        have hsound (e : Value × Value) (he : e ∈ pairs) :
            e.1.isKey = true ∧ e.1.IsSound ∧ e.2.IsSound := by
          obtain ⟨item, hitem, hpair⟩ := exists_mem_left_of_forall₂ (mapM_eq_ok_iff.1 hpairs) he
          exact (h.items? hitems item hitem).pair hpair
        exact isSound_map_iff.2 ⟨.of_entries fun e he => (hsound e he).1,
          forall_mem_mappingOf fun e he => (hsound e he).2⟩
  · obtain rfl := Except.ok.inj hmapping
    exact isSound_map_nil

end CharmDepot.Value
