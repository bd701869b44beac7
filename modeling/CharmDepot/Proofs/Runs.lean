/-
Runs of operations that can fail and that leave something behind: changes of files, and what a
client of the store does.

`Runs x s o s'` says that `x`, started in state `s`, has outcome `o` and leaves state `s'`. Every
combinator that operations are built from has one law, which says exactly what its runs are; a proof
about an operation takes its run apart with these laws and does not open the monad.

The outcomes of pure operations have the same kind of laws: `bind_eq_ok` and `bind_eq_error` take a
sequence apart, `mapM_eq_ok_iff` a list.
-/
import CharmDepot.Fault
import Mathlib.Data.List.Forall2
import Mathlib.Data.List.Perm.Basic

namespace CharmDepot

variable {σ α β : Type}

-- ============================================================= lists

/-- The items of a list can be matched, in order, if each of them can be. -/
theorem exists_forall₂_iff {R : α → β → Prop} {l : List α} :
    (∃ r, List.Forall₂ R l r) ↔ ∀ a ∈ l, ∃ b, R a b := by
  induction l with
  | nil => exact ⟨fun _ a ha => absurd ha List.not_mem_nil, fun _ => ⟨[], .nil⟩⟩
  | cons a l ih =>
    rw [List.forall_mem_cons, ← ih]
    constructor
    · intro h
      obtain ⟨r, hr⟩ := h
      obtain ⟨b, bs, hb, hbs, -⟩ := List.forall₂_cons_left_iff.1 hr
      exact ⟨⟨b, hb⟩, bs, hbs⟩
    · intro h
      obtain ⟨⟨b, hb⟩, bs, hbs⟩ := h
      exact ⟨b :: bs, .cons hb hbs⟩

/-- Of two lists that are matched in order, an item of the second is matched by one of the first. -/
theorem exists_mem_left_of_forall₂ {R : α → β → Prop} {l : List α} {r : List β}
    (h : List.Forall₂ R l r) {b : β} (hb : b ∈ r) : ∃ a ∈ l, R a b := by
  induction h with
  | nil => cases hb
  | @cons a b' l r hab _ ih =>
    rcases List.mem_cons.1 hb with rfl | hb
    · exact ⟨a, List.mem_cons_self, hab⟩
    · obtain ⟨a', ha', hab'⟩ := ih hb
      exact ⟨a', List.mem_cons_of_mem a ha', hab'⟩

theorem exists_mem_right_of_forall₂ {R : α → β → Prop} {l : List α} {r : List β}
    (h : List.Forall₂ R l r) {a : α} (ha : a ∈ l) : ∃ b ∈ r, R a b :=
  exists_mem_left_of_forall₂ h.flip ha

-- ========================================================== outcomes

namespace Outcome

theorem ok_bind {a : α} {f : α → Outcome β} : ((.ok a : Outcome α) >>= f) = f a := rfl

/-- A sequence that succeeds: both parts do. -/
theorem bind_eq_ok {o : Outcome α} {f : α → Outcome β} {b : β} :
    (o >>= f) = .ok b ↔ ∃ a, o = .ok a ∧ f a = .ok b := by
  cases o with
  | ok a =>
    show f a = .ok b ↔ _
    simp
  | error e =>
    show Except.error e = .ok b ↔ _
    simp

/-- A sequence that fails: its first part does, or else the second. -/
theorem bind_eq_error {o : Outcome α} {f : α → Outcome β} {e : Fault} :
    (o >>= f) = .error e ↔ o = .error e ∨ ∃ a, o = .ok a ∧ f a = .error e := by
  cases o with
  | ok a =>
    show f a = .error e ↔ _
    simp
  | error e' =>
    show Except.error e' = .error e ↔ _
    simp

theorem map_eq_ok {o : Outcome α} {f : α → β} {b : β} :
    o.map f = .ok b ↔ ∃ a, o = .ok a ∧ f a = b := by
  cases o <;> simp [Except.map]

theorem map_eq_error {o : Outcome α} {f : α → β} {e : Fault} :
    o.map f = .error e ↔ o = .error e := by
  cases o <;> simp [Except.map]

theorem exists_map_eq_ok_iff {o : Outcome α} {f : α → β} :
    (∃ b, o.map f = .ok b) ↔ ∃ a, o = .ok a := by
  cases o <;> simp [Except.map]

/-- What is done with every item of a list succeeds if it does with each, and gives their results in
order. -/
theorem mapM_eq_ok_iff {f : α → Outcome β} {l : List α} {r : List β} :
    l.mapM f = .ok r ↔ List.Forall₂ (fun a b => f a = .ok b) l r := by
  induction l generalizing r with
  | nil =>
    rw [List.mapM_nil, List.forall₂_nil_left_iff]
    exact ⟨fun h => (Except.ok.inj h).symm, fun h => h ▸ rfl⟩
  | cons a l ih =>
    rw [List.mapM_cons, bind_eq_ok, List.forall₂_cons_left_iff]
    constructor
    · intro h
      obtain ⟨b, hb, h⟩ := h
      obtain ⟨bs, hbs, h⟩ := bind_eq_ok.1 h
      exact ⟨b, bs, hb, ih.1 hbs, (Except.ok.inj h).symm⟩
    · intro h
      obtain ⟨b, bs, hb, hbs, rfl⟩ := h
      exact ⟨b, hb, bind_eq_ok.2 ⟨bs, ih.2 hbs, rfl⟩⟩

/-- What is done with every item of a list has a result exactly if it has one with each. -/
theorem exists_mapM_eq_ok_iff {f : α → Outcome β} {l : List α} :
    (∃ r, l.mapM f = .ok r) ↔ ∀ a ∈ l, ∃ b, f a = .ok b := by
  simp only [mapM_eq_ok_iff]
  exact exists_forall₂_iff

/-- What is made of every item of a list is undone with each, if it can be undone. -/
theorem mapM_map_eq_ok {f : β → Outcome α} {g : α → β} {l : List α}
    (h : ∀ a ∈ l, f (g a) = .ok a) : (l.map g).mapM f = .ok l := by
  rw [mapM_eq_ok_iff, List.forall₂_map_left_iff, List.forall₂_same]
  exact h

/-- What is done with every item of a list fails where it fails first. -/
theorem mapM_eq_error_iff {f : α → Outcome β} {l : List α} {e : Fault} :
    l.mapM f = .error e ↔ ∃ before a after, l = before ++ a :: after
      ∧ (∀ x ∈ before, ∃ b, f x = .ok b) ∧ f a = .error e := by
  induction l with
  | nil =>
    rw [List.mapM_nil]
    refine iff_of_false (fun h => by cases h) ?_
    rintro ⟨before, a, after, hl, -⟩
    cases before <;> cases hl
  | cons x l ih =>
    rw [List.mapM_cons, bind_eq_error]
    constructor
    · intro h
      rcases h with h | ⟨b, hb, h⟩
      · exact ⟨[], x, l, rfl, by simp, h⟩
      · rcases bind_eq_error.1 h with h | ⟨bs, -, h⟩
        · obtain ⟨before, a, after, rfl, hbefore, ha⟩ := ih.1 h
          refine ⟨x :: before, a, after, rfl, ?_, ha⟩
          rw [List.forall_mem_cons]
          exact ⟨⟨b, hb⟩, hbefore⟩
        · cases h
    · intro h
      obtain ⟨before, a, after, hl, hbefore, ha⟩ := h
      cases before with
      | nil =>
        obtain ⟨rfl, rfl⟩ := List.cons.inj hl
        exact .inl ha
      | cons y before =>
        obtain ⟨rfl, rfl⟩ := List.cons.inj hl
        rw [List.forall_mem_cons] at hbefore
        obtain ⟨b, hb⟩ := hbefore.1
        refine .inr ⟨b, hb, bind_eq_error.2 (.inl (ih.2 ?_))⟩
        exact ⟨before, a, after, rfl, hbefore.2, ha⟩

/-- Lists of findings about the items of a list are all empty if each is. -/
theorem mapM_flatten_eq_nil {f : α → Outcome (List β)} {l : List α} :
    (l.mapM f).map List.flatten = .ok [] ↔ ∀ a ∈ l, f a = .ok [] := by
  rw [map_eq_ok]
  constructor
  · intro h
    obtain ⟨r, hr, hnil⟩ := h
    rw [List.flatten_eq_nil_iff] at hnil
    have h := mapM_eq_ok_iff.1 hr
    clear hr
    induction h with
    | nil => simp
    | cons hab _ ih =>
      rw [List.forall_mem_cons] at hnil ⊢
      exact ⟨hnil.1 ▸ hab, ih hnil.2⟩
  · intro h
    refine ⟨l.map fun _ => [], mapM_eq_ok_iff.2 ?_, by simp⟩
    rw [List.forall₂_map_right_iff, List.forall₂_same]
    exact h

/-- What is done to each result of a list is done to the list of results. -/
theorem mapM_map_result {γ : Type} (f : α → Outcome β) (g : β → γ) (l : List α) :
    l.mapM (fun a => (f a).map g) = (l.mapM f).map (List.map g) := by
  induction l with
  | nil => rfl
  | cons a l ih =>
    rw [List.mapM_cons, List.mapM_cons, ih]
    cases f a with
    | error e => rfl
    | ok c =>
      cases l.mapM f with
      | error e => rfl
      | ok cs => rfl

/-- What is done with the items of a list in another order has the same results in another order. -/
theorem exists_mapM_perm {f : α → Outcome β} {l l' : List α} {r : List β}
    (h : l.Perm l') (hr : l.mapM f = .ok r) : ∃ r', l'.mapM f = .ok r' ∧ r.Perm r' := by
  obtain ⟨r', hr', hperm⟩ := List.perm_comp_forall₂ h.symm (mapM_eq_ok_iff.1 hr)
  exact ⟨r', mapM_eq_ok_iff.2 hr', hperm.symm⟩

end Outcome

-- =============================================================== runs

/-- Started in a state, an operation has this outcome and leaves that state. -/
def Runs (x : ExceptT Fault (StateM σ) α) (s : σ) (o : Outcome α) (s' : σ) : Prop :=
  (x.run.run s).run = (o, s')

namespace Runs

variable {x : ExceptT Fault (StateM σ) α} {f : α → ExceptT Fault (StateM σ) β}
variable {s s' : σ} {o : Outcome α} {o' : Outcome β}

theorem exists_run (x : ExceptT Fault (StateM σ) α) (s : σ) : ∃ o s', Runs x s o s' :=
  ⟨_, _, rfl⟩

/-- An operation whose result has something in it succeeds. -/
theorem exists_of_bind_eq_some {γ : Type} {g : α → Option γ} {c : γ}
    (h : (x.run.run s).run.1.toOption.bind g = some c) :
    ∃ a s', Runs x s (.ok a) s' ∧ g a = some c := by
  obtain ⟨o, s', hrun⟩ := exists_run x s
  rw [hrun] at h
  obtain ⟨a, ha, hfind⟩ := Option.bind_eq_some_iff.1 h
  cases o with
  | ok a' => exact ⟨a, s', by rwa [← Option.some.inj ha], hfind⟩
  | error e => cases ha

theorem pure_iff {a : α} :
    Runs (pure a) s o s' ↔ o = .ok a ∧ s' = s := by
  show (Except.ok a, s) = (o, s') ↔ _
  rw [Prod.mk.injEq]
  exact and_congr eq_comm eq_comm

theorem throw_iff {e : Fault} :
    Runs (throw e) s o s' ↔ o = .error e ∧ s' = s := by
  show (Except.error e, s) = (o, s') ↔ _
  rw [Prod.mk.injEq]
  exact and_congr eq_comm eq_comm

/-- An outcome that is known beforehand leaves the state alone. -/
theorem ofOutcome_iff {found : Outcome α} :
    Runs (ExceptT.mk (pure found)) s o s' ↔ o = found ∧ s' = s := by
  show (found, s) = (o, s') ↔ _
  rw [Prod.mk.injEq]
  exact and_congr eq_comm eq_comm

theorem get_iff {o : Outcome σ} :
    Runs get s o s' ↔ o = .ok s ∧ s' = s := by
  show (Except.ok s, s) = (o, s') ↔ _
  rw [Prod.mk.injEq]
  exact and_congr eq_comm eq_comm

theorem set_iff {t : σ} {o : Outcome PUnit} :
    Runs (set t) s o s' ↔ o = .ok ⟨⟩ ∧ s' = t := by
  show (Except.ok ⟨⟩, t) = (o, s') ↔ _
  rw [Prod.mk.injEq]
  exact and_congr eq_comm eq_comm

theorem modify_iff {g : σ → σ} {o : Outcome PUnit} :
    Runs (modify g) s o s' ↔ o = .ok ⟨⟩ ∧ s' = g s := by
  show (Except.ok ⟨⟩, g s) = (o, s') ↔ _
  rw [Prod.mk.injEq]
  exact and_congr eq_comm eq_comm

/-- Started in the same state, an operation does the same. -/
theorem unique {s₁ s₂ : σ} {o₁ o₂ : Outcome α} (h₁ : Runs x s o₁ s₁) (h₂ : Runs x s o₂ s₂) :
    o₁ = o₂ ∧ s₁ = s₂ :=
  Prod.mk.inj (Eq.trans (Eq.symm h₁) h₂)

/-- What cannot fail gives its result. -/
theorem lift_iff {m : StateM σ α} :
    Runs (ExceptT.lift m) s o s' ↔ o = .ok (m.run s).1 ∧ s' = (m.run s).2 := by
  show (Except.ok (m.run s).1, (m.run s).2) = (o, s') ↔ _
  rw [Prod.mk.injEq]
  exact and_congr eq_comm eq_comm

/-- How a sequence runs, by what its first part comes to. -/
theorem run_bind :
    ((x >>= f).run.run s).run = match (x.run.run s).run with
      | (.ok a, s₁) => ((f a).run.run s₁).run
      | (.error e, s₁) => (.error e, s₁) := by
  simp only [ExceptT.run_bind, StateT.run_bind, Id.run_bind]
  rcases (x.run.run s).run with ⟨o, s₁⟩
  cases o <;> rfl

/-- A sequence that succeeds: both parts do, one after the other. -/
theorem bind_ok_iff {b : β} :
    Runs (x >>= f) s (.ok b) s' ↔ ∃ a s₁, Runs x s (.ok a) s₁ ∧ Runs (f a) s₁ (.ok b) s' := by
  unfold Runs
  rw [run_bind]
  rcases (x.run.run s).run with ⟨o, s₁⟩
  cases o <;> simp

/-- A sequence that fails: its first part does, or else the second in the state that the first one
leaves. -/
theorem bind_error_iff {e : Fault} :
    Runs (x >>= f) s (.error e) s' ↔
      Runs x s (.error e) s' ∨ ∃ a s₁, Runs x s (.ok a) s₁ ∧ Runs (f a) s₁ (.error e) s' := by
  unfold Runs
  rw [run_bind]
  rcases (x.run.run s).run with ⟨o, s₁⟩
  cases o <;> simp

/-- A sequence: its first part fails, or else the second takes over. -/
theorem bind_iff :
    Runs (x >>= f) s o' s' ↔
      (∃ e, o' = .error e ∧ Runs x s (.error e) s')
        ∨ ∃ a s₁, Runs x s (.ok a) s₁ ∧ Runs (f a) s₁ o' s' := by
  cases o' with
  | ok b => simp [bind_ok_iff]
  | error e => simp [bind_error_iff]

/-- A sequence whose first part is known to succeed goes on with the second. -/
theorem bind_of_ok {a : α} {s₁ : σ} (h : Runs x s (.ok a) s₁) :
    Runs (x >>= f) s o' s' ↔ Runs (f a) s₁ o' s' := by
  unfold Runs at h ⊢
  rw [run_bind, h]

/-- What is done after a failure starts in the state that the failure left. -/
theorem tryCatch_iff {h : Fault → ExceptT Fault (StateM σ) α} :
    Runs (tryCatch x h) s o s' ↔
      (∃ a, o = .ok a ∧ Runs x s (.ok a) s')
        ∨ ∃ e s₁, Runs x s (.error e) s₁ ∧ Runs (h e) s₁ o s' := by
  have hrun : ((tryCatch x h).run.run s).run = match (x.run.run s).run with
      | (.ok a, s₁) => (.ok a, s₁)
      | (.error e, s₁) => ((h e).run.run s₁).run := by
    rw [ExceptT.run_tryCatch, StateT.run_bind, Id.run_bind]
    rcases (x.run.run s).run with ⟨o, s₁⟩
    cases o <;> rfl
  unfold Runs
  rw [hrun]
  rcases (x.run.run s).run with ⟨o₁, s₁⟩
  cases o₁ <;> simp [eq_comm]

/-- What is done with every item of a list is done with the first one and then with the others. -/
theorem mapM_cons_ok_iff {f : α → ExceptT Fault (StateM σ) β} {a : α} {l : List α} {r : List β} :
    Runs ((a :: l).mapM f) s (.ok r) s' ↔
      ∃ b s₁ bs, Runs (f a) s (.ok b) s₁ ∧ Runs (l.mapM f) s₁ (.ok bs) s' ∧ r = b :: bs := by
  rw [List.mapM_cons]
  simp only [bind_ok_iff, pure_iff, Except.ok.injEq]
  constructor
  · intro h
    obtain ⟨b, s₁, hb, bs, _, hbs, rfl, rfl⟩ := h
    exact ⟨b, s₁, bs, hb, hbs, rfl⟩
  · intro h
    obtain ⟨b, s₁, bs, hb, hbs, rfl⟩ := h
    exact ⟨b, s₁, hb, bs, s', hbs, rfl, rfl⟩

/-- What is done with every item of a list, if it succeeds, did so with each and gave its result. -/
theorem forall₂_of_mapM {f : α → ExceptT Fault (StateM σ) β} {l : List α} {r : List β}
    (h : Runs (l.mapM f) s (.ok r) s') :
    List.Forall₂ (fun a b => ∃ s₁ s₂, Runs (f a) s₁ (.ok b) s₂) l r := by
  induction l generalizing s r with
  | nil =>
    rw [List.mapM_nil, pure_iff] at h
    rw [Except.ok.inj h.1]
    exact .nil
  | cons a l ih =>
    obtain ⟨b, s₁, bs, hb, hbs, rfl⟩ := mapM_cons_ok_iff.1 h
    exact .cons ⟨s, s₁, hb⟩ (ih hbs)

end Runs

-- ============================================================ results

/-- Started in a state, an operation has a result. -/
def Succeeds (x : ExceptT Fault (StateM σ) α) (s : σ) : Prop :=
  ∃ a s', Runs x s (.ok a) s'

namespace Succeeds

variable {x : ExceptT Fault (StateM σ) α} {f : α → ExceptT Fault (StateM σ) β} {s : σ}

theorem pure (a : α) : Succeeds (Pure.pure a : ExceptT Fault (StateM σ) α) s :=
  ⟨a, s, Runs.pure_iff.2 ⟨rfl, rfl⟩⟩

theorem lift (m : StateM σ α) : Succeeds (ExceptT.lift m) s :=
  ⟨_, _, Runs.lift_iff.2 ⟨rfl, rfl⟩⟩

theorem ofOutcome_iff {o : Outcome α} :
    Succeeds (ExceptT.mk (Pure.pure o)) s ↔ ∃ a, o = .ok a := by
  unfold Succeeds
  simp only [Runs.ofOutcome_iff]
  constructor
  · intro h
    obtain ⟨a, s', ha, -⟩ := h
    exact ⟨a, ha.symm⟩
  · intro h
    obtain ⟨a, ha⟩ := h
    exact ⟨a, s, ha.symm, rfl⟩

/-- A sequence in which the success of the second part does not depend on what the first one does. -/
theorem bind_iff {Q : Prop} (hf : ∀ a s₁, Succeeds (f a) s₁ ↔ Q) :
    Succeeds (x >>= f) s ↔ Succeeds x s ∧ Q := by
  unfold Succeeds at hf ⊢
  simp only [Runs.bind_ok_iff]
  constructor
  · intro h
    obtain ⟨b, s', a, s₁, ha, hb⟩ := h
    exact ⟨⟨a, s₁, ha⟩, (hf a s₁).1 ⟨b, s', hb⟩⟩
  · intro h
    obtain ⟨⟨a, s₁, ha⟩, hq⟩ := h
    obtain ⟨b, s', hb⟩ := (hf a s₁).2 hq
    exact ⟨b, s', a, s₁, ha, hb⟩

/-- A sequence whose second part always succeeds. -/
theorem bind_iff_left (hf : ∀ a s₁, Succeeds (f a) s₁) :
    Succeeds (x >>= f) s ↔ Succeeds x s := by
  rw [bind_iff (Q := True) fun a s₁ => iff_true_intro (hf a s₁), and_true]

/-- What is done with every item of a list succeeds exactly if it does with each. -/
theorem mapM_iff {P : α → Prop} (hf : ∀ a s₁, Succeeds (f a) s₁ ↔ P a) (l : List α) :
    Succeeds (l.mapM f) s ↔ ∀ a ∈ l, P a := by
  induction l generalizing s with
  | nil =>
    rw [List.mapM_nil]
    simpa using Succeeds.pure []
  | cons a l ih =>
    rw [List.mapM_cons, List.forall_mem_cons, ← hf a s]
    refine bind_iff fun b s₁ => ?_
    rw [bind_iff_left fun bs s₂ => Succeeds.pure _, ih]

end Succeeds

end CharmDepot
