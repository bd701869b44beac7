/-
Cutting a text at separator characters, and joining the pieces again.

Main statements: joining the pieces restores the text, no piece holds the separator, and there is
always a piece; and pieces without a separator that were joined are the pieces of the text again.
-/
namespace CharmDepot.Text

/-- The pieces of a text between the characters of a class: one more than there are such
characters. -/
def piecesBy (p : Char → Bool) : List Char → List (List Char)
  | [] => [[]]
  | c :: cs =>
    if p c then [] :: piecesBy p cs
    else match piecesBy p cs with
      | [] => [[c]]
      | piece :: rest => (c :: piece) :: rest

/-- The pieces of a text between occurrences of one character. -/
def pieces (separator : Char) (cs : List Char) : List (List Char) :=
  piecesBy (· == separator) cs

/-- Pieces with a separator between them. -/
def joinPieces (separator : Char) : List (List Char) → List Char
  | [] => []
  | [piece] => piece
  | piece :: rest => piece ++ separator :: joinPieces separator rest

/-- The text before the first occurrence of a character and the text after it, if it occurs. -/
def cutFirst? (separator : Char) (cs : List Char) : Option (List Char × List Char) :=
  match cs.dropWhile (· != separator) with
  | [] => none
  | _ :: after => some (cs.takeWhile (· != separator), after)

/-- What follows a given beginning of a text, if the text begins so. -/
def dropStart? : List Char → List Char → Option (List Char)
  | [], cs => some cs
  | _ :: _, [] => none
  | a :: as, c :: cs => if a = c then dropStart? as cs else none

/-- Whether a text ends in a given way. -/
def endsWith (ending cs : List Char) : Bool :=
  (dropStart? ending.reverse cs.reverse).isSome

/-- A text without the occurrences of a character at its end. -/
def dropFinal (c : Char) (cs : List Char) : List Char :=
  (cs.reverse.dropWhile (· == c)).reverse

-- ============================================================ lemmas

theorem piecesBy_ne_nil (p : Char → Bool) (cs : List Char) : piecesBy p cs ≠ [] := by
  cases cs with
  | nil => simp [piecesBy]
  | cons c cs =>
    unfold piecesBy
    split
    · simp
    · split <;> simp

theorem joinPieces_pieces (separator : Char) (cs : List Char) :
    joinPieces separator (pieces separator cs) = cs := by
  induction cs with
  | nil => rfl
  | cons c cs ih =>
    simp only [pieces] at ih ⊢
    unfold piecesBy
    split
    · rename_i hc
      have hc : c = separator := by simpa using hc
      cases hp : piecesBy (· == separator) cs with
      | nil => exact absurd hp (piecesBy_ne_nil _ _)
      | cons first rest =>
        rw [hp] at ih
        simp [joinPieces, ih, hc]
    · cases hp : piecesBy (· == separator) cs with
      | nil => exact absurd hp (piecesBy_ne_nil _ _)
      | cons first rest =>
        rw [hp] at ih
        cases rest with
        | nil => simpa [joinPieces] using ih
        | cons second rest => simpa [joinPieces] using ih

theorem joinPieces_append_prefix (separator : Char) (xs ys : List (List Char)) :
    joinPieces separator xs <+: joinPieces separator (xs ++ ys) := by
  induction xs with
  | nil => exact List.nil_prefix
  | cons x xs ih =>
    cases xs with
    | nil =>
      cases ys with
      | nil => exact List.prefix_rfl
      | cons y ys => exact List.prefix_append _ _
    | cons x' xs =>
      show x ++ separator :: joinPieces separator (x' :: xs)
        <+: x ++ separator :: joinPieces separator (x' :: xs ++ ys)
      rw [List.prefix_append_right_inj, List.cons_prefix_cons]
      exact ⟨rfl, ih⟩

theorem joinPieces_append_last (separator : Char) (ps : List (List Char)) (piece more : List Char) :
    joinPieces separator (ps ++ [piece ++ more]) = joinPieces separator (ps ++ [piece]) ++ more := by
  induction ps with
  | nil => rfl
  | cons p ps ih =>
    cases ps with
    | nil => simp [joinPieces]
    | cons p' ps =>
      show p ++ separator :: joinPieces separator (p' :: ps ++ [piece ++ more])
        = p ++ separator :: joinPieces separator (p' :: ps ++ [piece]) ++ more
      rw [ih, List.append_assoc]
      rfl

theorem mem_joinPieces {separator c : Char} {ps : List (List Char)}
    (h : c ∈ joinPieces separator ps) : c = separator ∨ ∃ piece ∈ ps, c ∈ piece := by
  induction ps with
  | nil => simp [joinPieces] at h
  | cons p ps ih =>
    cases ps with
    | nil => exact .inr ⟨p, by simp, h⟩
    | cons q ps =>
      rw [joinPieces, List.mem_append, List.mem_cons] at h
      · rcases h with h | h | h
        · exact .inr ⟨p, by simp, h⟩
        · exact .inl h
        · rcases ih h with h | ⟨piece, hp, hc⟩
          · exact .inl h
          · exact .inr ⟨piece, by simp [hp], hc⟩
      · simp

theorem mem_joinPieces_of_mem (separator : Char) {c : Char} {piece : List Char}
    {ps : List (List Char)} (hp : piece ∈ ps) (hc : c ∈ piece) : c ∈ joinPieces separator ps := by
  induction ps with
  | nil => cases hp
  | cons p ps ih =>
    cases ps with
    | nil =>
      obtain rfl := List.mem_singleton.1 hp
      exact hc
    | cons q ps =>
      rw [joinPieces, List.mem_append, List.mem_cons]
      · rcases List.mem_cons.1 hp with rfl | hp
        · exact .inl hc
        · exact .inr (.inr (ih hp))
      · simp

theorem mem_of_mem_pieces {separator c : Char} {cs piece : List Char}
    (hp : piece ∈ pieces separator cs) (hc : c ∈ piece) : c ∈ cs := by
  rw [← joinPieces_pieces separator cs]
  exact mem_joinPieces_of_mem separator hp hc

theorem piecesBy_of_free {p : Char → Bool} {word : List Char} (h : ∀ c ∈ word, p c = false) :
    piecesBy p word = [word] := by
  induction word with
  | nil => rfl
  | cons c cs ih =>
    rw [List.forall_mem_cons] at h
    rw [piecesBy, ih h.2, if_neg (ne_true_of_eq_false h.1)]

theorem piecesBy_append {p : Char → Bool} {word : List Char} (h : ∀ c ∈ word, p c = false)
    {c : Char} (hc : p c = true) (back : List Char) :
    piecesBy p (word ++ c :: back) = word :: piecesBy p back := by
  induction word with
  | nil => rw [List.nil_append, piecesBy, if_pos hc]
  | cons d ds ih =>
    rw [List.forall_mem_cons] at h
    rw [List.cons_append, piecesBy, ih h.2, if_neg (ne_true_of_eq_false h.1)]

/-- A text holds no separator, or it is cut at the first. -/
theorem piecesBy_cases (p : Char → Bool) (cs : List Char) :
    piecesBy p cs = [cs]
      ∨ ∃ word c back, cs = word ++ c :: back ∧ p c = true
        ∧ piecesBy p cs = word :: piecesBy p back := by
  induction cs with
  | nil => exact .inl rfl
  | cons c cs ih =>
    by_cases hc : p c = true
    · refine .inr ⟨[], c, cs, rfl, hc, ?_⟩
      rw [piecesBy, if_pos hc]
    · rcases ih with hwhole | ⟨word, d, back, rfl, hd, hpieces⟩
      · refine .inl ?_
        rw [piecesBy, if_neg hc, hwhole]
      · refine .inr ⟨c :: word, d, back, rfl, hd, ?_⟩
        rw [piecesBy, if_neg hc, hpieces]

theorem beq_eq_false_of_not_mem {separator : Char} {cs : List Char} (h : separator ∉ cs) :
    ∀ c ∈ cs, (c == separator) = false := by
  intro c hc
  rw [beq_eq_false_iff_ne]
  intro hsame
  exact h (hsame ▸ hc)

theorem pieces_of_not_mem {separator : Char} {cs : List Char} (h : separator ∉ cs) :
    pieces separator cs = [cs] :=
  piecesBy_of_free (beq_eq_false_of_not_mem h)

theorem pieces_append {separator : Char} {front : List Char} (h : separator ∉ front)
    (back : List Char) :
    pieces separator (front ++ separator :: back) = front :: pieces separator back :=
  piecesBy_append (beq_eq_false_of_not_mem h) (beq_self_eq_true separator) back

/-- A separator ends the pieces in front of it, whatever they are. -/
theorem pieces_append_pieces (separator : Char) (front back : List Char) :
    pieces separator (front ++ separator :: back)
      = pieces separator front ++ pieces separator back := by
  induction front with
  | nil => simp [pieces, piecesBy]
  | cons c front ih =>
    unfold pieces at ih ⊢
    rw [List.cons_append, piecesBy, ih, piecesBy]
    by_cases hc : (c == separator) = true
    · rw [if_pos hc, if_pos hc, List.cons_append]
    · rw [if_neg hc, if_neg hc]
      cases hpieces : piecesBy (· == separator) front with
      | nil => exact absurd hpieces (piecesBy_ne_nil _ _)
      | cons piece rest => rfl

theorem pieces_joinPieces {separator : Char} {ps : List (List Char)} (hne : ps ≠ [])
    (h : ∀ piece ∈ ps, separator ∉ piece) : pieces separator (joinPieces separator ps) = ps := by
  induction ps with
  | nil => exact absurd rfl hne
  | cons p ps ih =>
    rw [List.forall_mem_cons] at h
    cases ps with
    | nil => exact pieces_of_not_mem h.1
    | cons q ps =>
      rw [joinPieces, pieces_append h.1, ih (by simp) h.2]
      simp

theorem dropStart?_append (front back : List Char) :
    dropStart? front (front ++ back) = some back := by
  induction front with
  | nil => rfl
  | cons c front ih => rw [List.cons_append, dropStart?, if_pos rfl, ih]

theorem dropStart?_eq_some {front cs back : List Char} (h : dropStart? front cs = some back) :
    cs = front ++ back := by
  induction front generalizing cs with
  | nil => exact Option.some.inj h
  | cons c front ih =>
    cases cs with
    | nil => cases h
    | cons d cs =>
      rw [dropStart?] at h
      split at h
      · rename_i hsame
        rw [ih h, hsame, List.cons_append]
      · cases h

theorem dropStart?_eq_none_iff {front cs : List Char} :
    dropStart? front cs = none ↔ ¬ front <+: cs := by
  constructor
  · intro h hfront
    obtain ⟨back, rfl⟩ := hfront
    rw [dropStart?_append] at h
    cases h
  · intro h
    cases hdrop : dropStart? front cs with
    | none => rfl
    | some back => exact absurd ⟨back, (dropStart?_eq_some hdrop).symm⟩ h

theorem cutFirst?_append {separator : Char} {front : List Char} (h : separator ∉ front)
    (back : List Char) : cutFirst? separator (front ++ separator :: back) = some (front, back) := by
  have hfront : ∀ c ∈ front, (c != separator) = true := by
    intro c hc
    rw [bne_iff_ne]
    rintro rfl
    exact h hc
  unfold cutFirst?
  rw [List.dropWhile_append_of_pos hfront, List.dropWhile_cons_of_neg (by simp),
    List.takeWhile_append_of_pos hfront, List.takeWhile_cons_of_neg (by simp), List.append_nil]

theorem cutFirst?_eq_none_iff {separator : Char} {cs : List Char} :
    cutFirst? separator cs = none ↔ separator ∉ cs := by
  constructor
  · intro h hmem
    obtain ⟨front, back, rfl, hfront⟩ := List.eq_append_cons_of_mem hmem
    rw [cutFirst?_append hfront] at h
    cases h
  · intro h
    unfold cutFirst?
    split
    · rfl
    · rename_i c after hdrop
      -- the walk past other characters stops at a separator
      have hhead := List.head?_dropWhile_not (· != separator) cs
      rw [hdrop] at hhead
      obtain rfl : c = separator := by simpa using hhead
      have hmem : c ∈ cs.dropWhile (· != c) := by
        rw [hdrop]
        exact List.mem_cons_self
      exact absurd ((List.dropWhile_sublist _).subset hmem) h

theorem cutFirst?_eq_some_iff {separator : Char} {cs front back : List Char} :
    cutFirst? separator cs = some (front, back) ↔
      cs = front ++ separator :: back ∧ separator ∉ front := by
  constructor
  · intro h
    have hmem : separator ∈ cs := by
      refine Decidable.byContradiction fun hnot => ?_
      rw [cutFirst?_eq_none_iff.2 hnot] at h
      cases h
    obtain ⟨front', back', rfl, hfront⟩ := List.eq_append_cons_of_mem hmem
    rw [cutFirst?_append hfront] at h
    obtain ⟨rfl, rfl⟩ := Prod.mk.inj (Option.some.inj h)
    exact ⟨rfl, hfront⟩
  · intro h
    obtain ⟨rfl, hfront⟩ := h
    exact cutFirst?_append hfront back

end CharmDepot.Text
