/-
What operations fail with.

`Outcome.Fails P o` says that the fault of `o`, if it has one, has the property `P`; `StepFails`
says the same of a step of a reader, whatever state it starts in. Both are kept by every combinator
that readers are built from, so that what a reader fails with is settled by the faults that it
raises itself.

A fault is foreign (`Fault.IsForeign`) if it is none of this library: a failure of the system, or
something about a value.
-/
import CharmDepot.Proofs.Runs

namespace CharmDepot

/-- A fault that is none of this library's own. -/
def Fault.IsForeign (f : Fault) : Prop :=
  f.kind? = none

variable {σ α β : Type} {P Q : Fault → Prop}

-- ========================================================== outcomes

namespace Outcome

/-- If an outcome is a failure, its fault has a property. -/
def Fails (P : Fault → Prop) (o : Outcome α) : Prop :=
  ∀ f, o = .error f → P f

namespace Fails

variable {o : Outcome α}

theorem ok (a : α) : Fails P (.ok a : Outcome α) := fun _ h => by cases h

theorem error {f : Fault} (h : P f) : Fails P (.error f : Outcome α) := fun _ h' => by
  cases h'
  exact h

theorem mono (h : Fails P o) (hPQ : ∀ f, P f → Q f) : Fails Q o := fun f hf => hPQ f (h f hf)

theorem bind {f : α → Outcome β} (ho : Fails P o) (hf : ∀ a, Fails P (f a)) :
    Fails P (o >>= f) := by
  intro e he
  rcases bind_eq_error.1 he with h | ⟨a, -, h⟩
  · exact ho e h
  · exact hf a e h

/-- What comes after a fault is never done. -/
theorem throw_bind {e : Fault} (h : P e) (f : α → Outcome β) :
    Fails P ((throw e : Outcome α) >>= f) := error h

theorem map {f : α → β} (ho : Fails P o) : Fails P (o.map f) := by
  intro e he
  exact ho e (map_eq_error.1 he)

theorem mapM {f : α → Outcome β} (hf : ∀ a, Fails P (f a)) (l : List α) :
    Fails P (l.mapM f) := by
  induction l with
  | nil => exact ok []
  | cons a l ih =>
    rw [List.mapM_cons]
    exact (hf a).bind fun b => ih.bind fun bs => ok (b :: bs)

/-- A sequence fails only so if its first part does, and so does whatever the second part makes of
the result of the first. -/
theorem bind_iff {f : α → Outcome β} :
    Fails P (o >>= f) ↔ Fails P o ∧ ∀ a, o = .ok a → Fails P (f a) := by
  constructor
  · intro h
    refine ⟨fun e he => h e (bind_eq_error.2 (.inl he)), fun a ha e he => ?_⟩
    exact h e (bind_eq_error.2 (.inr ⟨a, ha, he⟩))
  · intro ⟨ho, hf⟩ e he
    rcases bind_eq_error.1 he with h | ⟨a, ha, h⟩
    · exact ho e h
    · exact hf a ha e h

theorem map_iff {f : α → β} : Fails P (o.map f) ↔ Fails P o :=
  ⟨fun h e he => h e (map_eq_error.2 he), map⟩

end Fails

/-- An item of a list that something is done with, item by item: all before it succeed. -/
def Reached (f : α → Outcome β) (l : List α) (a : α) : Prop :=
  ∃ before after, l = before ++ a :: after ∧ ∀ x ∈ before, ∃ b, f x = .ok b

theorem Reached.mem {f : α → Outcome β} {l : List α} {a : α} (h : Reached f l a) : a ∈ l := by
  obtain ⟨before, after, rfl, -⟩ := h
  exact List.mem_append_right _ List.mem_cons_self

/-- What is done with every item of a list fails only so if it does with each item that is
reached. -/
theorem Fails.mapM_iff {f : α → Outcome β} {l : List α} :
    (l.mapM f).Fails P ↔ ∀ a, Reached f l a → (f a).Fails P := by
  constructor
  · rintro h a ⟨before, after, hl, hbefore⟩ e he
    exact h e (mapM_eq_error_iff.2 ⟨before, a, after, hl, hbefore, he⟩)
  · intro h e he
    obtain ⟨before, a, after, hl, hbefore, ha⟩ := mapM_eq_error_iff.1 he
    exact h a ⟨before, after, hl, hbefore⟩ e ha

/-- Where reasons are known for a fault of this library of each kind, and for any other fault, and
one of them is there unless there is a result, the reasons are exact. -/
theorem faults_iff {o : Outcome α} {Own : Kind → Prop} {Other : Prop}
    (hcases : (∃ a, o = .ok a) ∨ (∃ k, Own k) ∨ Other)
    (hown : ∀ k, Own k → ∃ f, o = .error f ∧ f.kind? = some k)
    (hother : Other → ∃ f, o = .error f ∧ f.IsForeign) :
    (∀ k, (∃ f, o = .error f ∧ f.kind? = some k) ↔ Own k)
      ∧ ((∃ f, o = .error f ∧ f.IsForeign) ↔ Other) := by
  have hsame {f f' : Fault} (h : o = .error f) (h' : o = .error f') : f.kind? = f'.kind? :=
    congrArg Fault.kind? (Except.error.inj (h.symm.trans h'))
  refine ⟨fun k => ⟨fun h => ?_, hown k⟩, fun h => ?_, hother⟩
  · obtain ⟨f, hf, hk⟩ := h
    rcases hcases with ⟨a, ha⟩ | ⟨k', hk'⟩ | h
    · cases hf.symm.trans ha
    · obtain ⟨f', hf', hkind⟩ := hown k' hk'
      obtain rfl := Option.some.inj (hk.symm.trans ((hsame hf hf').trans hkind))
      exact hk'
    · obtain ⟨f', hf', hforeign⟩ := hother h
      cases hk.symm.trans ((hsame hf hf').trans hforeign)
  · obtain ⟨f, hf, hforeign⟩ := h
    rcases hcases with ⟨a, ha⟩ | ⟨k, hk⟩ | h
    · cases hf.symm.trans ha
    · obtain ⟨f', hf', hkind⟩ := hown k hk
      cases hforeign.symm.trans ((hsame hf hf').trans hkind)
    · exact h

end Outcome

-- ============================================================= steps

/-- If a step fails, whatever state it starts in, its fault has a property. -/
def StepFails (P : Fault → Prop) (x : StateT σ (Except Fault) α) : Prop :=
  ∀ s, Outcome.Fails P (x.run s)

section Steps

variable {x : StateT σ (Except Fault) α}

theorem stepFails_pure (a : α) : StepFails P (pure a : StateT σ (Except Fault) α) :=
  fun s => .ok (a, s)

theorem stepFails_get : StepFails P (get : StateT σ (Except Fault) σ) := fun s => .ok (s, s)

theorem stepFails_set (s : σ) : StepFails P (set s : StateT σ (Except Fault) Unit) :=
  fun _ => .ok ((), s)

theorem stepFails_modifyGet (f : σ → α × σ) :
    StepFails P (modifyGet f : StateT σ (Except Fault) α) := fun s => .ok (f s)

theorem stepFails_modify (f : σ → σ) : StepFails P (modify f : StateT σ (Except Fault) Unit) :=
  stepFails_modifyGet _

theorem stepFails_throw {f : Fault} (h : P f) :
    StepFails P (throw f : StateT σ (Except Fault) α) :=
  fun _ => .error h

theorem stepFails_lift {o : Outcome α} (h : o.Fails P) :
    StepFails P (StateT.lift o : StateT σ (Except Fault) α) :=
  fun _ => h.bind fun _ => .ok _

theorem StepFails.bind {f : α → StateT σ (Except Fault) β} (hx : StepFails P x)
    (hf : ∀ a, StepFails P (f a)) : StepFails P (x >>= f) :=
  fun s => (hx s).bind fun p => hf p.1 p.2

theorem stepFails_mapM {f : α → StateT σ (Except Fault) β} (hf : ∀ a, StepFails P (f a))
    (l : List α) : StepFails P (l.mapM f) := by
  induction l with
  | nil => exact stepFails_pure []
  | cons a l ih =>
    rw [List.mapM_cons]
    exact (hf a).bind fun b => ih.bind fun bs => stepFails_pure (b :: bs)

theorem stepFails_forM {f : α → StateT σ (Except Fault) Unit} (hf : ∀ a, StepFails P (f a))
    (l : List α) : StepFails P (l.forM f) := by
  induction l with
  | nil => exact stepFails_pure ()
  | cons a l ih => exact (hf a).bind fun _ => ih

end Steps

-- ========================================================== operations

/-- If an operation fails, whatever state it starts in, its fault has a property. -/
def RunFails (P : Fault → Prop) (x : ExceptT Fault (StateM σ) α) : Prop :=
  ∀ s f s', Runs x s (.error f) s' → P f

section Operations

variable {x : ExceptT Fault (StateM σ) α}

theorem runFails_pure (a : α) : RunFails P (pure a : ExceptT Fault (StateM σ) α) := by
  intro s f s' h
  cases (Runs.pure_iff.1 h).1

theorem runFails_get : RunFails P (get : ExceptT Fault (StateM σ) σ) := by
  intro s f s' h
  cases (Runs.get_iff.1 h).1

theorem runFails_set (t : σ) : RunFails P (set t : ExceptT Fault (StateM σ) Unit) := by
  intro s f s' h
  cases (Runs.set_iff.1 h).1

theorem runFails_modify (g : σ → σ) : RunFails P (modify g : ExceptT Fault (StateM σ) Unit) := by
  intro s f s' h
  cases (Runs.modify_iff.1 h).1

theorem runFails_throw {e : Fault} (he : P e) :
    RunFails P (throw e : ExceptT Fault (StateM σ) α) := by
  intro s f s' h
  rw [Except.error.inj (Runs.throw_iff.1 h).1]
  exact he

theorem runFails_ofOutcome {o : Outcome α} (ho : o.Fails P) :
    RunFails P (ExceptT.mk (pure o) : ExceptT Fault (StateM σ) α) := by
  intro s f s' h
  exact ho f (Runs.ofOutcome_iff.1 h).1.symm

theorem RunFails.bind {f : α → ExceptT Fault (StateM σ) β} (hx : RunFails P x)
    (hf : ∀ a, RunFails P (f a)) : RunFails P (x >>= f) := by
  intro s e s' h
  rcases Runs.bind_error_iff.1 h with h | ⟨a, s₁, -, h⟩
  · exact hx _ _ _ h
  · exact hf a _ _ _ h

/-- A fault that is caught matters only to what is done about it. -/
theorem RunFails.tryCatch {h : Fault → ExceptT Fault (StateM σ) α} (hx : RunFails P x)
    (hh : ∀ f, P f → RunFails Q (h f)) : RunFails Q (tryCatch x h) := by
  intro s e s' hrun
  rcases Runs.tryCatch_iff.1 hrun with ⟨_, ho, -⟩ | ⟨f, s₁, hfail, hrun⟩
  · cases ho
  · exact hh f (hx _ _ _ hfail) _ _ _ hrun

theorem RunFails.mono (h : RunFails P x) (hPQ : ∀ f, P f → Q f) : RunFails Q x :=
  fun s f s' hrun => hPQ f (h s f s' hrun)

end Operations

end CharmDepot
