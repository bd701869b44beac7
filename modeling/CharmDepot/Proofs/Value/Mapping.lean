/-
The entries of a mapping.

A list of entries is a mapping if its keys can be keys and no two of them are equal (`IsMapping`).
Putting an entry into one keeps it so, which is why whatever is built up entry by entry is a mapping
(`IsMapping.of_entries`). Entries that are a mapping already are built up to themselves
(`mappingOf_eq_self`).
-/
import CharmDepot.Value.Basic
import Mathlib.Data.List.Basic
import Mathlib.Data.List.Pairwise

namespace CharmDepot.Value

variable {α : Type} {entries : List (Value × α)} {k : Value}

-- ================================================================ keys

/-- No two of these keys are equal. -/
def KeysDiffer (keys : List Value) : Prop :=
  keys.Pairwise fun k k' => k'.same k = false

/-- An entry that is put into a mapping brings its key only if no equal one is there. -/
theorem keys_insertEntry (k : Value) (v : α) (entries : List (Value × α)) :
    (insertEntry k v entries).map Prod.fst
      = entries.map Prod.fst ++ if entries.any fun e => k.same e.1 then [] else [k] := by
  induction entries with
  | nil => rfl
  | cons e rest ih =>
    unfold insertEntry
    split
    · rename_i hsame
      rw [List.any_cons, hsame, Bool.true_or, if_pos rfl, List.append_nil]
      rfl
    · rename_i hother
      rw [List.map_cons, ih, List.any_cons, eq_false_of_ne_true hother, Bool.false_or]
      rfl

theorem keysDiffer_insertEntry (k : Value) (v : α) (h : KeysDiffer (entries.map Prod.fst)) :
    KeysDiffer ((insertEntry k v entries).map Prod.fst) := by
  rw [keys_insertEntry]
  split
  · rwa [List.append_nil]
  · rename_i hnew
    refine List.pairwise_append.2 ⟨h, List.pairwise_singleton .., ?_⟩
    intro k' hk' last hlast
    obtain rfl := List.mem_singleton.1 hlast
    obtain ⟨e, he, rfl⟩ := List.mem_map.1 hk'
    exact eq_false_of_ne_true fun hsame => hnew (List.any_eq_true.2 ⟨e, he, hsame⟩)

/-- No two keys of a mapping that is made of entries are equal. -/
theorem keysDiffer_mappingOf (entries : List (Value × α)) :
    KeysDiffer ((mappingOf entries).map Prod.fst) :=
  List.foldlRecOn entries (fun made e => insertEntry e.1 e.2 made)
    (motive := fun made : List (Value × α) => KeysDiffer (made.map Prod.fst))
    List.Pairwise.nil fun _ h e _ => keysDiffer_insertEntry e.1 e.2 h

/-- Texts are equal keys only if they are the same. -/
theorem keysDiffer_texts_iff {names : List String} :
    KeysDiffer (names.map text) ↔ names.Nodup := by
  unfold KeysDiffer
  rw [List.pairwise_map]
  refine List.Pairwise.iff fun name other => ?_
  rw [← Bool.not_eq_true, same_text_iff, text.injEq, ne_comm]

/-- An entry under a new key goes to the end. -/
theorem insertEntry_of_new (v : α) (h : ∀ e ∈ entries, k.same e.1 = false) :
    insertEntry k v entries = entries ++ [(k, v)] := by
  induction entries with
  | nil => rfl
  | cons e rest ih =>
    rw [List.forall_mem_cons] at h
    rw [insertEntry, h.1, if_neg Bool.false_ne_true, ih h.2, List.cons_append]

/-- Entries whose keys differ make themselves. -/
theorem mappingOf_eq_self (h : KeysDiffer (entries.map Prod.fst)) : mappingOf entries = entries := by
  have hmore (made : List (Value × α)) (hall : KeysDiffer ((made ++ entries).map Prod.fst)) :
      entries.foldl (fun made e => insertEntry e.1 e.2 made) made = made ++ entries := by
    clear h
    induction entries generalizing made with
    | nil => rw [List.foldl_nil, List.append_nil]
    | cons e rest ih =>
      have hnew : ∀ e' ∈ made, e.1.same e'.1 = false := by
        rw [List.map_append] at hall
        intro e' he'
        exact (List.pairwise_append.1 hall).2.2 e'.1 (List.mem_map_of_mem he') e.1 (by simp)
      have hsplit : made ++ e :: rest = (made ++ [(e.1, e.2)]) ++ rest := by simp
      rw [List.foldl_cons, insertEntry_of_new e.2 hnew, hsplit]
      rw [hsplit] at hall
      exact ih _ hall
  exact hmore [] h

-- ============================================================= entries

/-- An entry of a mapping with one more put into it is that one, perhaps under a key that was there,
or one of the others. -/
theorem mem_insertEntry {v : α} {e : Value × α} (he : e ∈ insertEntry k v entries) :
    e ∈ entries ∨ e.2 = v ∧ (e.1 = k ∨ ∃ e' ∈ entries, e'.1 = e.1) := by
  induction entries with
  | nil =>
    obtain rfl := List.mem_singleton.1 he
    exact .inr ⟨rfl, .inl rfl⟩
  | cons first rest ih =>
    unfold insertEntry at he
    split at he
    · rcases List.mem_cons.1 he with rfl | he
      · exact .inr ⟨rfl, .inr ⟨first, List.mem_cons_self, rfl⟩⟩
      · exact .inl (List.mem_cons_of_mem _ he)
    · rcases List.mem_cons.1 he with rfl | he
      · exact .inl List.mem_cons_self
      · rcases ih he with he | ⟨hv, hk | ⟨e', he', hk⟩⟩
        · exact .inl (List.mem_cons_of_mem _ he)
        · exact .inr ⟨hv, .inl hk⟩
        · exact .inr ⟨hv, .inr ⟨e', List.mem_cons_of_mem _ he', hk⟩⟩

/-- What holds of keys and of values that entries are made of holds of the keys and the values of
the mapping that they make. -/
theorem forall_mem_mappingOf {P : Value → Prop} {Q : α → Prop}
    (h : ∀ e ∈ entries, P e.1 ∧ Q e.2) : ∀ e ∈ mappingOf entries, P e.1 ∧ Q e.2 := by
  refine List.foldlRecOn entries (fun made e => insertEntry e.1 e.2 made)
    (motive := fun made : List (Value × α) => ∀ e ∈ made, P e.1 ∧ Q e.2) (by simp) ?_
  intro made hmade added hadded e he
  rcases mem_insertEntry he with he | ⟨hv, hk | ⟨e', he', hk⟩⟩
  · exact hmade e he
  · rw [hv, hk]
    exact h added hadded
  · rw [hv, ← hk]
    exact ⟨(hmade e' he').1, (h added hadded).2⟩

-- ============================================================ mappings

/-- A list of entries is a mapping: all keys can be keys, and no two of them are equal. -/
structure IsMapping (entries : List (Value × α)) : Prop where
  keys : ∀ e ∈ entries, e.1.isKey = true
  differ : KeysDiffer (entries.map Prod.fst)

theorem IsMapping.of_entries (h : ∀ e ∈ entries, e.1.isKey = true) :
    IsMapping (mappingOf entries) where
  keys e he := (forall_mem_mappingOf (P := fun k => k.isKey = true) (Q := fun _ => True)
    (fun e he => ⟨h e he, trivial⟩) e he).1
  differ := keysDiffer_mappingOf entries

/-- Whether entries are a mapping depends on their keys. -/
theorem IsMapping.of_keys {β : Type} {entries' : List (Value × β)} (h : IsMapping entries)
    (hkeys : entries'.map Prod.fst = entries.map Prod.fst) : IsMapping entries' where
  keys e he := by
    have hmem : e.1 ∈ entries'.map Prod.fst := List.mem_map_of_mem he
    rw [hkeys] at hmem
    obtain ⟨e', he', hsame⟩ := List.mem_map.1 hmem
    rw [← hsame]
    exact h.keys e' he'
  differ := by
    rw [hkeys]
    exact h.differ

theorem IsMapping.nil : IsMapping ([] : List (Value × α)) := ⟨by simp, List.Pairwise.nil⟩

-- ======================================================= texts as keys

/-- Entries under texts. -/
def textEntries (fields : List (String × α)) : List (Value × α) :=
  fields.map fun f => (text f.1, f.2)

theorem textEntries_cons (f : String × α) (fields : List (String × α)) :
    textEntries (f :: fields) = (text f.1, f.2) :: textEntries fields := rfl

theorem keys_textEntries (fields : List (String × α)) :
    (textEntries fields).map Prod.fst = (fields.map Prod.fst).map text := by
  simp [textEntries]

theorem textEntries_injective : Function.Injective (textEntries (α := α)) := by
  refine List.map_injective_iff.2 fun f f' h => ?_
  obtain ⟨hname, hvalue⟩ := Prod.mk.inj h
  exact Prod.ext (text.inj hname) hvalue

/-- Entries under different texts are a mapping. -/
theorem isMapping_textEntries {fields : List (String × α)} (h : (fields.map Prod.fst).Nodup) :
    IsMapping (textEntries fields) where
  keys := List.forall_mem_map.2 fun _ _ => rfl
  differ := by
    rw [keys_textEntries]
    exact keysDiffer_texts_iff.2 h

end CharmDepot.Value
