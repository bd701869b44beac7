/-
Reports of bundles that are arranged differently.

What is reported of a service, a machine or a relation depends on the other parts of the bundle only
through what can be looked up in it: the service of a name, and whether there is a machine of an id.
So where the entries stand makes no difference to what is reported of each, and a bundle with its
services and machines in another order has the same problems in another order (`reportBy_perm`). For
a lookup to find the same in any order, no two services may have the same name; those of a bundle
that is decoded never have (`namesDistinct_of_decode`).

The relations come first in a report and are not looked up by anything, so other relations bring
another beginning and leave the rest of the report as it is (`runs_withRelations_iff`); and they
are reported one after the other, each by its place in the list (`allRelationProblems_append`).

# Relations that cannot be put in words

A relation is reported only if what is wrong with it can be put in words. One of texts always can;
one with an integer of more than 4300 digits in it takes the whole report away
(`reports_arranged_illegible`).
-/
import CharmDepot.Proofs.Bundle.Consultation
import CharmDepot.Proofs.Bundle.Orphans
import CharmDepot.Proofs.Bundle.Reading
import CharmDepot.Proofs.Value.Mapping

namespace CharmDepot

open Outcome Text

variable {σ α : Type}

-- ============================================== lookups and places

/-- What is looked for in a list is found in any order of it, if there is only one. -/
theorem find?_perm {p : α → Bool} {l l' : List α} (h : l.Perm l')
    (hunique : ∀ a ∈ l, ∀ a' ∈ l, p a = true → p a' = true → a = a') :
    l.find? p = l'.find? p := by
  cases hl : l.find? p with
  | none =>
    rw [List.find?_eq_none] at hl
    exact (List.find?_eq_none.2 fun a ha => hl a (h.mem_iff.2 ha)).symm
  | some a =>
    have ha := List.mem_of_find?_eq_some hl
    obtain ⟨a', hl'⟩ : ∃ a', l'.find? p = some a' :=
      Option.isSome_iff_exists.1 (List.find?_isSome.2 ⟨a, h.mem_iff.1 ha, List.find?_some hl⟩)
    rw [hl', hunique a ha a' (h.mem_iff.2 (List.mem_of_find?_eq_some hl')) (List.find?_some hl)
      (List.find?_some hl')]

/-- The same problem of a bundle with so many more relations in front. -/
def Problem.shift (k : Nat) : Problem → Problem
  | relationSize index size => relationSize (k + index) size
  | q => q

namespace Deployment

variable {b b' : Deployment} {s s' : σ} {check : Value → StateM σ (Option String)}
variable {verdict : Value → Option String} {found : List Problem}

-- ====================================================== steady checkers

/-- What a checker answers about a value is settled by the value. -/
def Steady (check : Value → StateM σ (Option String)) (verdict : Value → Option String) : Prop :=
  ∀ v s, ((check v).run s).run.1 = verdict v

theorem Steady.answers_iff (h : Steady check verdict) {vs : List Value}
    {answers : List (Option String)} :
    (∃ s', Answers check vs answers s s') ↔ answers = vs.map verdict := by
  induction vs generalizing answers s with
  | nil => simp [answers_nil_iff]
  | cons v vs ih =>
    simp only [answers_cons_iff, List.map_cons]
    constructor
    · rintro ⟨s', answer, s₁, rest, hanswer, hrest, rfl⟩
      rw [← h v s, hanswer, ih.1 ⟨s', hrest⟩]
    · rintro rfl
      obtain ⟨s', hrest⟩ := (ih (s := ((check v).run s).run.2)).2 rfl
      exact ⟨s', verdict v, _, _, Prod.ext (h v s) rfl, hrest, rfl⟩

/-- What is reported of a bundle if this is what the checker answers. -/
def reportBy (b : Deployment) (verdict : Value → Option String) : Outcome (List Problem) :=
  b.report (b.services.map fun e => verdict e.2.constraints)
    (b.machines.map fun e => verdict e.2.constraints)

/-- With a steady checker, a report depends on nothing but the bundle. -/
theorem Steady.exists_runs_iff (h : Steady check verdict) :
    (∃ s', Runs (b.problems check) s (.ok found) s') ↔ b.reportBy verdict = .ok found := by
  have hverdicts : b.constraints.map verdict = (b.services.map fun e => verdict e.2.constraints)
      ++ b.machines.map fun e => verdict e.2.constraints := by
    rw [constraints, List.map_append, List.map_map, List.map_map]
    rfl
  simp only [runs_problems_iff_report]
  constructor
  · rintro ⟨s', forServices, forMachines, hanswers, hlength, hreport⟩
    have hall := h.answers_iff.1 ⟨s', hanswers⟩
    rw [hverdicts] at hall
    obtain ⟨rfl, rfl⟩ := List.append_inj hall (by rw [hlength, List.length_map])
    exact hreport
  · intro hreport
    obtain ⟨s', hanswers⟩ := (h.answers_iff (s := s)).2 rfl
    exact ⟨s', _, _, hverdicts ▸ hanswers, List.length_map .., hreport⟩

-- ============================================================== lookups

/-- Two bundles in which the same can be looked up: the service of a name, and whether there is a
machine of an id. -/
structure Alike (b b' : Deployment) : Prop where
  service? : b.service? = b'.service?
  hasMachine : b.hasMachine = b'.hasMachine

theorem Alike.placementProblems (h : Alike b b') :
    b.placementProblems = b'.placementProblems := by
  have htarget : b.targetProblem? = b'.targetProblem? := by
    funext directive target
    unfold targetProblem?
    rw [h.service?, h.hasMachine]
  funext directive
  unfold Deployment.placementProblems
  rw [htarget]

theorem Alike.serviceReport (h : Alike b b') : b.serviceReport = b'.serviceReport := by
  funext e answer
  unfold Deployment.serviceReport
  rw [h.placementProblems]

theorem Alike.relationProblems (h : Alike b b') : b.relationProblems = b'.relationProblems := by
  have hendpoint : b.endpointProblems = b'.endpointProblems := by
    funext relation v
    unfold endpointProblems
    rw [h.service?]
  funext index relation
  unfold Deployment.relationProblems
  rw [hendpoint]

-- ====================================================== distinct names

/-- No two of these keys are the same text. -/
def TextsDistinct (keys : List Value) : Prop :=
  keys.Pairwise fun k k' => ∀ name, k = .text name → k' ≠ .text name

/-- No two services have the same text for a name. -/
def NamesDistinct (b : Deployment) : Prop :=
  TextsDistinct (b.services.map Prod.fst)

/-- At most one service has a given name. -/
theorem NamesDistinct.unique (h : b.NamesDistinct) (name : String) {e e' : Value × Service}
    (he : e ∈ b.services) (he' : e' ∈ b.services) (hname : e.1.same (.text name) = true)
    (hname' : e'.1.same (.text name) = true) : e = e' := by
  rw [Value.same_text_iff] at hname hname'
  rw [NamesDistinct, TextsDistinct, List.pairwise_map] at h
  have : Std.Symm fun e e' : Value × Service => ∀ name, e.1 = .text name → e'.1 ≠ .text name :=
    ⟨fun _ _ hdistinct name hname hname' => hdistinct name hname' hname⟩
  by_contra hne
  exact List.Pairwise.forall h he he' hne name hname hname'

/-- No two keys of a mapping are the same text. -/
theorem textsDistinct_mappingOf (entries : List (Value × α)) :
    TextsDistinct ((Value.mappingOf entries).map Prod.fst) := by
  refine (Value.keysDiffer_mappingOf entries).imp fun hother name hname hsame => ?_
  rw [hname, hsame, (Value.text_same_iff _ _).2 rfl] at hother
  cases hother

theorem names_of_decodeService {entries : List (Value × Value)}
    {services : List (Value × Service)} (h : entries.mapM decodeService = .ok services) :
    services.map Prod.fst = entries.map Prod.fst := by
  have hall := mapM_eq_ok_iff.1 h
  clear h
  induction hall with
  | nil => rfl
  | cons hone _ ih =>
    obtain ⟨_, -, rfl⟩ := map_eq_ok.1 hone
    rw [List.map_cons, List.map_cons, ih]

/-- The services of a document are a mapping, so those of the bundle decoded from it have distinct
names. -/
theorem namesDistinct_of_decode {entries services : List (Value × Value)}
    (hservices : Value.field "services" entries = .map (Value.mappingOf services))
    (h : decode (.map entries) = .ok b) : b.NamesDistinct := by
  unfold decode at h
  rw [Value.fields_map, ok_bind, hservices, Value.fields_map, ok_bind] at h
  obtain ⟨decoded, hdecoded, h⟩ := bind_eq_ok.1 h
  obtain ⟨_, -, h⟩ := bind_eq_ok.1 h
  obtain ⟨_, -, h⟩ := bind_eq_ok.1 h
  obtain ⟨_, -, h⟩ := bind_eq_ok.1 h
  obtain ⟨_, -, h⟩ := bind_eq_ok.1 h
  obtain rfl := Except.ok.inj h
  rw [NamesDistinct, names_of_decodeService hdecoded]
  exact textsDistinct_mappingOf services

-- ========================================================= other orders

/-- The services and the machines of a bundle stand in another order. -/
structure Reordered (b b' : Deployment) : Prop where
  services : b.services.Perm b'.services
  machines : b.machines.Perm b'.machines
  relations : b.relations = b'.relations

theorem Reordered.symm (h : Reordered b b') : Reordered b' b :=
  ⟨h.services.symm, h.machines.symm, h.relations.symm⟩

theorem Reordered.namesDistinct (h : Reordered b b') (hnames : b.NamesDistinct) :
    b'.NamesDistinct :=
  ((h.services.map _).pairwise_iff fun hdistinct name hname hname' =>
    hdistinct name hname' hname).1 hnames

theorem Reordered.alike (h : Reordered b b') (hnames : b.NamesDistinct) : Alike b b' where
  service? := by
    funext name
    unfold Deployment.service?
    rw [find?_perm h.services fun e he e' he' => hnames.unique name he he']
  hasMachine := by
    funext id
    exact h.machines.any_eq

theorem Reordered.unusedProblems (h : Reordered b b') :
    b.unusedProblems.Perm b'.unusedProblems := by
  have hdirectives (id : String) :
      b.directives.any (pointsAt id) = b'.directives.any (pointsAt id) :=
    (h.services.flatMap_right _).any_eq
  rw [unusedProblems_eq, unusedProblems_eq, orphans, orphans]
  simp only [hdirectives]
  exact ((h.machines.map _).filter _).map _

theorem reportBy_eq : b.reportBy verdict = (do
    let relations ← b.allRelationProblems
    let services ← b.services.mapM fun e => b.serviceReport e (verdict e.2.constraints)
    let machines := b.machines.map fun e => machineReport e (verdict e.2.constraints)
    pure (relations ++ services.flatten ++ machines.flatten ++ b.unusedProblems)) := by
  unfold reportBy report
  rw [← List.map_prod_left_eq_zip, ← List.map_prod_left_eq_zip]
  simp only [List.mapM_map, List.map_map]
  rfl

/-- In another order, a bundle has the same problems in another order. -/
theorem reportBy_perm (h : Reordered b b') (hnames : b.NamesDistinct)
    (hreport : b.reportBy verdict = .ok found) :
    ∃ found', b'.reportBy verdict = .ok found' ∧ found.Perm found' := by
  have halike := h.alike hnames
  rw [reportBy_eq] at hreport ⊢
  obtain ⟨relations, hrelations, hreport⟩ := bind_eq_ok.1 hreport
  obtain ⟨services, hservices, hreport⟩ := bind_eq_ok.1 hreport
  obtain rfl := Except.ok.inj hreport
  have hrelations' : b'.allRelationProblems = .ok relations := by
    rw [← hrelations, allRelationProblems, allRelationProblems, halike.relationProblems,
      h.relations]
  obtain ⟨services', hservices', hserviceParts⟩ := exists_mapM_perm h.services hservices
  rw [halike.serviceReport] at hservices'
  refine ⟨_, bind_eq_ok.2 ⟨relations, hrelations', bind_eq_ok.2 ⟨services', hservices', rfl⟩⟩, ?_⟩
  exact (((List.Perm.refl relations).append hserviceParts.flatten).append
    (h.machines.map _).flatten).append h.unusedProblems

-- ======================================================= other relations

/-- The bundle with other relations. -/
def withRelations (b : Deployment) (relations : List (List Value)) : Deployment :=
  { b with relations }

variable {rs first second : List (List Value)}

theorem alike_withRelations (b : Deployment) (rs : List (List Value)) :
    Alike (b.withRelations rs) b :=
  ⟨rfl, rfl⟩

/-- What is reported of the relations stands at the beginning of the report, and the rest is what is
reported without any. -/
theorem runs_withRelations_iff :
    Runs ((b.withRelations rs).problems check) s (.ok found) s' ↔ ∃ relations others,
      (b.withRelations rs).allRelationProblems = .ok relations
        ∧ Runs ((b.withRelations []).problems check) s (.ok others) s'
        ∧ found = relations ++ others := by
  have hnone : (b.withRelations []).allRelationProblems = .ok [] := rfl
  have hservices : (b.withRelations rs).serviceProblems check
      = (b.withRelations []).serviceProblems check := by
    funext e
    unfold serviceProblems
    rw [(alike_withRelations b rs).placementProblems,
      (alike_withRelations b []).placementProblems]
  have hunused : (b.withRelations rs).unusedProblems = (b.withRelations []).unusedProblems := rfl
  simp only [runs_problems_iff, hnone, hservices, hunused]
  constructor
  · rintro ⟨relations, services, machines, s₁, hrelations, hserv, hmach, rfl⟩
    refine ⟨relations, _, hrelations, ⟨[], services, machines, s₁, rfl, hserv, hmach, rfl⟩, ?_⟩
    simp only [List.nil_append, List.append_assoc]
  · rintro ⟨relations, _, hrelations, ⟨_, services, machines, s₁, hnil, hserv, hmach, rfl⟩, rfl⟩
    refine ⟨relations, services, machines, s₁, hrelations, hserv, hmach, ?_⟩
    obtain rfl := Except.ok.inj hnil
    simp only [List.nil_append, List.append_assoc]

theorem stage_of_withoutRelations {others : List Problem} {q : Problem}
    (h : Runs ((b.withRelations []).problems check) s (.ok others) s') (hq : q ∈ others) :
    q.stage ≠ .relations := by
  obtain ⟨none, services, machines, s₁, hnone, hservices, hmachines, rfl⟩ := runs_problems_iff.1 h
  obtain rfl : none = [] := (Except.ok.inj hnone).symm
  rw [List.nil_append, List.mem_append, List.mem_append] at hq
  rcases hq with (hq | hq) | hq
  · rw [stage_of_mapM stage_of_serviceProblems hservices hq]
    decide
  · rw [stage_of_mapM stage_of_machineProblems hmachines hq]
    decide
  · rw [unusedProblems_eq] at hq
    obtain ⟨id, -, rfl⟩ := List.mem_map.1 hq
    exact nofun

-- ========================================================= more relations

theorem notedIf_relationSize (isThere : Bool) (index size : Nat) :
    Problem.notedIf isThere (.relationSize index size)
      = .ok (if isThere then [.relationSize index size] else []) := by
  cases isThere with
  | true => rfl
  | false => rfl

/-- Of what is found of a relation, only the word about its size shows its place. -/
theorem relationProblems_shift (k index : Nat) (relation : List Value) :
    b.relationProblems (k + index) relation
      = (b.relationProblems index relation).map (List.map (Problem.shift k)) := by
  have hfixed {l : List Problem} (hl : ∀ q ∈ l, q.shift k = q) : l.map (Problem.shift k) = l :=
    (List.map_congr_left hl).trans (List.map_id l)
  unfold relationProblems
  dsimp only
  rw [notedIf_relationSize, notedIf_relationSize, ok_bind, ok_bind]
  cases hends : relation.mapM (b.endpointProblems relation) with
  | error f => rfl
  | ok ends =>
    rw [ok_bind, ok_bind]
    generalize hnoted : Problem.notedIf _ (Problem.selfRelation relation) = noted
    cases noted with
    | error f => rfl
    | ok related =>
      have hendsFixed : (ends.flatMap (·.1)).map (Problem.shift k) = ends.flatMap (·.1) := by
        refine hfixed fun q hq => ?_
        obtain ⟨e, he, hq⟩ := List.mem_flatMap.1 hq
        obtain ⟨v, -, hv⟩ := exists_mem_left_of_forall₂ (mapM_eq_ok_iff.1 hends) he
        rcases mem_endpointProblems hv hq with rfl | ⟨service, rfl⟩
        · rfl
        · rfl
      have hrelatedFixed : related.map (Problem.shift k) = related :=
        hfixed fun q hq => Problem.eq_of_mem_notedIf hnoted hq ▸ rfl
      show Except.ok _ = Except.ok (List.map _ _)
      rw [List.map_append, List.map_append, hendsFixed, hrelatedFixed]
      split
      · rfl
      · rfl

/-- Relations are reported one after the other, each by its place. -/
theorem allRelationProblems_append :
    (b.withRelations (first ++ second)).allRelationProblems = (do
      let found ← (b.withRelations first).allRelationProblems
      let more ← (b.withRelations second).allRelationProblems
      pure (found ++ more.map (Problem.shift first.length))) := by
  have hrelations (rs : List (List Value)) : (b.withRelations rs).allRelationProblems
      = (rs.zipIdx.mapM fun x => b.relationProblems x.2 x.1).map List.flatten := by
    unfold allRelationProblems
    rw [(alike_withRelations b rs).relationProblems]
    rfl
  have hmore : ((second.zipIdx (0 + first.length)).mapM fun x => b.relationProblems x.2 x.1)
      = (second.zipIdx.mapM fun x => b.relationProblems x.2 x.1).map
        (List.map (List.map (Problem.shift first.length))) := by
    rw [Nat.zero_add, List.zipIdx_eq_map_add, List.mapM_map, ← mapM_map_result]
    congr 1
    funext x
    exact relationProblems_shift first.length x.2 x.1
  rw [hrelations, hrelations, hrelations, List.zipIdx_append, List.mapM_append, hmore]
  cases first.zipIdx.mapM fun x => b.relationProblems x.2 x.1 with
  | error f => rfl
  | ok found =>
    cases second.zipIdx.mapM fun x => b.relationProblems x.2 x.1 with
    | error f => rfl
    | ok more =>
      show Except.ok _ = Except.ok _
      rw [List.flatten_append, List.map_flatten]

-- ============================================================== reports

/-- **Arrangements.** With a checker whose answers are settled by the values, a bundle with its
services and machines in another order has a report if it has one as it is, with the same problems
in another order.

With other relations, and any checker, a bundle has a report exactly if what is wrong with the
relations can be put in words and there is a report without any. What is reported of the relations
is put in front of that one, in which nothing is said of relations.

Of relations that are put behind others the same is reported as if they stood alone, at places that
are counted from the first of the others. -/
theorem reports_arranged (b : Deployment) (check : Value → StateM σ (Option String)) (s : σ) :
    (∀ b' verdict, Steady check verdict → b.NamesDistinct → Reordered b b' →
        ((∃ found s', Runs (b.problems check) s (.ok found) s')
          ↔ ∃ found s', Runs (b'.problems check) s (.ok found) s')
        ∧ ∀ found found' s₁ s₂, Runs (b.problems check) s (.ok found) s₁ →
          Runs (b'.problems check) s (.ok found') s₂ → found.Perm found')
      ∧ (∀ rs found s', Runs ((b.withRelations rs).problems check) s (.ok found) s' ↔
        ∃ relations others, (b.withRelations rs).allRelationProblems = .ok relations
          ∧ Runs ((b.withRelations []).problems check) s (.ok others) s'
          ∧ found = relations ++ others)
      ∧ (∀ rs relations, (b.withRelations rs).allRelationProblems = .ok relations →
        ∀ q ∈ relations, q.stage = .relations)
      ∧ (∀ others s', Runs ((b.withRelations []).problems check) s (.ok others) s' →
        ∀ q ∈ others, q.stage ≠ .relations)
      ∧ ∀ first second, (b.withRelations (first ++ second)).allRelationProblems = (do
          let found ← (b.withRelations first).allRelationProblems
          let more ← (b.withRelations second).allRelationProblems
          pure (found ++ more.map (Problem.shift first.length))) := by
  refine ⟨fun b' verdict hsteady hnames h => ?_, fun rs found s' => runs_withRelations_iff,
    fun rs relations hrelations q => stage_of_allRelationProblems hrelations,
    fun others s' hothers q => stage_of_withoutRelations hothers,
    fun first second => allRelationProblems_append⟩
  have hreported (c : Deployment) :
      (∃ found s', Runs (c.problems check) s (.ok found) s')
        ↔ ∃ found, c.reportBy verdict = .ok found :=
    exists_congr fun found => hsteady.exists_runs_iff
  have hperm {found : List Problem} (hfound : b.reportBy verdict = .ok found) :=
    reportBy_perm h hnames hfound
  refine ⟨?_, fun found found' s₁ s₂ hrun hrun' => ?_⟩
  · rw [hreported, hreported]
    constructor
    · rintro ⟨found, hfound⟩
      obtain ⟨found', hfound', -⟩ := hperm hfound
      exact ⟨found', hfound'⟩
    · rintro ⟨found', hfound'⟩
      obtain ⟨found, hfound, -⟩ := reportBy_perm h.symm (h.namesDistinct hnames) hfound'
      exact ⟨found, hfound⟩
  · have hfound := hsteady.exists_runs_iff.1 ⟨s₁, hrun⟩
    have hfound' := hsteady.exists_runs_iff.1 ⟨s₂, hrun'⟩
    obtain ⟨other, hother, hsame⟩ := hperm hfound
    obtain rfl : other = found' := Except.ok.inj (hother.symm.trans hfound')
    exact hsame

/-- A bundle of two services, the charm of one of which is no identity, and two machines, one of
which is called as new ones are. -/
def mislabelled : Deployment where
  services := [(.text "a", ⟨.text "!", 1, ["0"], [], [], .text "x"⟩),
    (.text "b", ⟨.text "cs:precise/b", 1, ["a/4"], [], [], .text ""⟩)]
  machines := [("0", ⟨.text "", []⟩), ("new", ⟨.text "x", []⟩)]
  series := .text ""
  relations := []

/-- The same bundle from the end to the beginning. -/
def mislabelledBackwards : Deployment :=
  { mislabelled with
    services := mislabelled.services.reverse
    machines := mislabelled.machines.reverse }

theorem reportable_mislabelled : mislabelled.Reportable := by
  refine reportable_of_texts (by simp [mislabelled]) ?_
  have hshort : (1 : Int).natAbs < Nat.pow 10 Number.maxDigits := Number.one_lt_pow_ten (by decide)
  refine List.forall_mem_cons.2 ⟨⟨rfl, rfl, hshort, by decide⟩, List.forall_mem_cons.2
    ⟨⟨rfl, rfl, hshort, by decide⟩, fun e he => absurd he List.not_mem_nil⟩⟩

theorem ne_nil_of_mislabelled {found : List Problem} {s s' : σ}
    (h : Runs (mislabelled.problems check) s (.ok found) s') : found ≠ [] := by
  rintro rfl
  obtain ⟨hwellFormed, -, -⟩ := (problems_eq_nil_iff _ _ _ _).1 h
  obtain ⟨text, u, htext, hu⟩ := (hwellFormed.services _ (List.mem_cons_self ..)).charm
  obtain rfl := Value.text.inj htext
  cases hu

/-- Backwards, the bundle has the same problems in another order; with a relation of no endpoints,
it has one more in front. -/
theorem reports_arranged_backwards :
    ∃ found found' s₁ s₂, Runs (mislabelled.problems refuseX) () (.ok found) s₁
      ∧ Runs (mislabelledBackwards.problems refuseX) () (.ok found') s₂
      ∧ found ≠ [] ∧ found.Perm found'
      ∧ Runs ((mislabelled.withRelations [[]]).problems refuseX) ()
        (.ok (.relationSize 0 0 :: found)) s₁ := by
  obtain ⟨hreordered, hrelations, -⟩ := reports_arranged mislabelled refuseX ()
  have hsteady : Steady refuseX fun v => ((refuseX v).run ()).run.1 := fun _ _ => rfl
  have hnames : mislabelled.NamesDistinct := by
    refine .cons ?_ (.cons (fun _ he => absurd he List.not_mem_nil) .nil)
    intro e he name hname
    rw [List.mem_singleton.1 he, ← hname]
    exact fun hsame => absurd (Value.text.inj hsame) (by decide)
  obtain ⟨hreports, hperm⟩ := hreordered mislabelledBackwards _ hsteady hnames
    ⟨(List.reverse_perm _).symm, (List.reverse_perm _).symm, rfl⟩
  obtain ⟨found, s₁, hfound⟩ := succeeds_problems_iff.2 reportable_mislabelled
  obtain ⟨found', s₂, hfound'⟩ := hreports.1 ⟨found, s₁, hfound⟩
  exact ⟨found, found', s₁, s₂, hfound, hfound', ne_nil_of_mislabelled hfound,
    hperm _ _ _ _ hfound hfound', (hrelations [[]] _ _).2 ⟨_, found, rfl, hfound, rfl⟩⟩

/-- A relation with an integer of more than 4300 digits in it is malformed, and that it is so cannot
be put in words; nor is there a report of anything else. -/
theorem reports_arranged_illegible :
    (∃ found s', Runs ((mislabelled.withRelations []).problems refuseX) () (.ok found) s'
        ∧ found ≠ [])
      ∧ ∀ found s', ¬ Runs ((mislabelled.withRelations [[.int (16 ^ Number.maxDigits)]]).problems
        refuseX) () (.ok found) s' := by
  constructor
  · obtain ⟨found, s', h⟩ := succeeds_problems_iff.2 reportable_mislabelled
    exact ⟨found, s', h, ne_nil_of_mislabelled h⟩
  · intro found s' h
    have hreportable := succeeds_problems_iff.1 ⟨found, s', h⟩
    have hrelation := hreportable.relations _ (List.mem_singleton_self _) _
      (List.mem_singleton_self _)
    obtain ⟨words, hwords⟩ := hrelation.1
    rw [Value.shown_int_of_long (Value.pow_le_natAbs_pow _)] at hwords
    cases hwords

end Deployment

end CharmDepot
