/-
What reading and writing values fails with: never a fault of this library. A value that is nested
too deep or has too many digits has no written form; a text that is no document of its kind has no
value.
-/
import CharmDepot.Json.Reader
import CharmDepot.Value.Convert
import CharmDepot.Proofs.Fails

namespace CharmDepot

open Outcome Fault

-- ============================================================= faults

/-- What readers and writers of values fail with: something about a value, or that it is nested too
deep. -/
def Fault.IsUnread (f : Fault) : Prop :=
  (match f with
    | value _ | tooDeep => true
    | _ => false) = true

theorem Fault.IsUnread.cases {f : Fault} (h : f.IsUnread) : (∃ v, f = .value v) ∨ f = .tooDeep := by
  cases f with
  | value v => exact .inl ⟨v, rfl⟩
  | tooDeep => exact .inr rfl
  | _ => cases h

theorem Fault.IsUnread.isForeign {f : Fault} (h : f.IsUnread) : f.IsForeign := by
  rcases h.cases with ⟨v, rfl⟩ | rfl
  · rfl
  · rfl

-- ========================================================== written forms

namespace Value

theorem shownInteger_fails_unread (n : Int) : (shownInteger n).Fails IsUnread := by
  unfold shownInteger
  split
  · exact .ok _
  · exact .error rfl

/-- A value is shown without any other fault than those if its items are. -/
theorem shownBy_fails {inner innerOfSet : Value → Outcome String}
    (hinner : ∀ v, (inner v).Fails IsUnread) (hset : ∀ v, (innerOfSet v).Fails IsUnread)
    (v : Value) : (shownBy inner innerOfSet v).Fails IsUnread := by
  unfold shownBy
  split
  case h_3 => exact shownInteger_fails_unread _
  case h_8 => exact (Fails.mapM hinner _).map
  case h_9 => exact (hinner _).map
  case h_10 => exact (Fails.mapM hinner _).map
  case h_11 =>
    refine (Fails.mapM (fun e => ?_) _).bind fun _ => .ok _
    exact (hinner e.1).bind fun _ => (hinner e.2).bind fun _ => .ok _
  case h_13 => exact (Fails.mapM hset _).map
  all_goals exact .ok _

theorem marked_fails {levels : Nat}
    (hinner : ∀ cells around v, (shownWithin levels cells around v).Fails IsUnread)
    {innerOfSet : Value → Outcome String} (hset : ∀ v, (innerOfSet v).Fails IsUnread)
    (around : List Nat) (cells : List (Nat × Value)) (m : Nat) :
    (match cells.lookup m with
      | some w =>
        if around.contains m then .ok (dotted w)
        else shownBy (shownWithin levels cells (m :: around)) innerOfSet w
      | none => .ok "..." : Outcome String).Fails IsUnread := by
  split
  · split
    · exact .ok _
    · exact shownBy_fails (hinner _ _) hset _
  · exact .ok _

theorem shownWithin_fails (levels : Nat) (cells : List (Nat × Value)) (around : List Nat)
    (v : Value) : (shownWithin levels cells around v).Fails IsUnread := by
  induction levels using Nat.strongRecOn generalizing cells around v with
  | _ levels ih =>
    -- the items of a set are shown two levels further down
    match levels, ih with
    | 0, _ =>
      unfold shownWithin
      exact .error rfl
    | 1, ih =>
      have hinner := ih 0 (by omega)
      have hset (_ : Value) : Fails IsUnread (.error .tooDeep : Outcome String) := .error rfl
      unfold shownWithin
      dsimp only
      split
      · exact marked_fails hinner hset _ _ _
      · exact marked_fails hinner hset _ _ _
      · exact shownBy_fails (hinner _ _) hset _
    | levels + 2, ih =>
      have hinner := ih (levels + 1) (by omega)
      have hset := ih levels (by omega) cells around
      unfold shownWithin
      dsimp only
      split
      · exact marked_fails hinner hset _ _ _
      · exact marked_fails hinner hset _ _ _
      · exact shownBy_fails (hinner _ _) hset _

theorem shown_fails_unread (v : Value) : v.shown.Fails IsUnread := shownWithin_fails _ _ _ _

theorem written_fails_unread (v : Value) : v.written.Fails IsUnread := by
  unfold written
  split
  · exact .ok _
  · exact .ok _
  · exact .ok _
  · exact shown_fails_unread _

theorem shownInteger_fails (n : Int) : (shownInteger n).Fails IsForeign :=
  (shownInteger_fails_unread n).mono fun _ => IsUnread.isForeign

theorem shown_fails (v : Value) : v.shown.Fails IsForeign :=
  (shown_fails_unread v).mono fun _ => IsUnread.isForeign

theorem written_fails (v : Value) : v.written.Fails IsForeign :=
  (written_fails_unread v).mono fun _ => IsUnread.isForeign

-- ============================================================ readings

theorem fields_fails (v : Value) : v.fields.Fails IsForeign := by
  unfold fields
  split
  · split
    · exact .ok _
    · exact .error rfl
  · exact .ok _

theorem pair_fails (v : Value) : v.pair.Fails IsForeign := by
  unfold pair
  split
  · exact .error rfl
  · split
    · exact .ok _
    · exact .error rfl
  · exact .error rfl

theorem mapping_fails (v : Value) : v.mapping.Fails IsForeign := by
  unfold mapping
  split
  · split
    · exact .ok _
    · split
      · exact .error rfl
      · exact (Fails.mapM pair_fails _).map
  · exact .ok _

theorem ofInteger_fails (n : Except Number.IntegerFault Int) : (ofInteger n).Fails IsForeign := by
  unfold ofInteger
  split
  · exact .ok _
  · exact .error rfl

end Value

-- ========================================================== documents

namespace Json

theorem required_fails {α : Type} (found? : Option α) : (required found?).Fails IsUnread := by
  unfold required
  split
  · exact .ok _
  · exact .error rfl

/-- Values, items and entries are no document or nested too deep if they are not read. -/
theorem reading_fails (fuel : Nat) :
    (∀ levels cs, (readValue fuel levels cs).Fails IsUnread)
      ∧ (∀ levels cs, (readItems fuel levels cs).Fails IsUnread)
      ∧ ∀ levels cs, (readEntries fuel levels cs).Fails IsUnread := by
  induction fuel with
  | zero =>
    refine ⟨fun levels cs => ?_, fun levels cs => ?_, fun levels cs => ?_⟩
    · unfold readValue
      exact .error rfl
    · unfold readItems
      exact .error rfl
    · unfold readEntries
      exact .error rfl
  | succ fuel ih =>
    obtain ⟨hvalue, hitems, hentries⟩ := ih
    refine ⟨fun levels cs => ?_, fun levels cs => ?_, fun levels cs => ?_⟩
    · unfold readValue
      split
      · exact (required_fails _).bind fun _ => .ok _
      · split
        · exact .error rfl
        · split
          · exact .ok _
          · exact (hitems _ _).bind fun _ => .ok _
      · split
        · exact .error rfl
        · split
          · exact .ok _
          · exact (hentries _ _).bind fun _ => .ok _
      · exact required_fails _
    · unfold readItems
      refine (hvalue _ _).bind fun p => ?_
      split
      split
      · exact .ok _
      · exact (hitems _ _).bind fun _ => .ok _
      · exact .error rfl
    · unfold readEntries
      split
      · refine (required_fails _).bind fun p => ?_
        split
        split
        · refine (hvalue _ _).bind fun p => ?_
          split
          split
          · exact .ok _
          · exact (hentries _ _).bind fun _ => .ok _
          · exact .error rfl
        · exact .error rfl
      · exact .error rfl

theorem ofChars_fails (cs : List Char) : (ofChars cs).Fails IsUnread := by
  unfold ofChars
  refine ((reading_fails _).1 _ _).bind fun p => ?_
  split
  split
  · exact .ok _
  · exact .error rfl

theorem ofBytes_fails (bs : Bytes) : (ofBytes bs).Fails IsUnread := by
  unfold ofBytes
  exact (required_fails _).bind fun cs => ofChars_fails cs

theorem ofText_fails (s : String) : (ofText s).Fails IsUnread := by
  unfold ofText
  dsimp only
  split
  · exact .error rfl
  · exact ofChars_fails _

theorem ofValue_fails (v : Value) : (ofValue v).Fails IsForeign := by
  unfold ofValue
  split
  · exact (ofText_fails _).mono fun _ => IsUnread.isForeign
  · exact (ofBytes_fails _).mono fun _ => IsUnread.isForeign
  · exact .error rfl

end Json

end CharmDepot
