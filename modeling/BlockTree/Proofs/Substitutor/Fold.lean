import BlockTree.Proofs.Substitutor.Lines

/-! Applying names to a text is a fold. Every known name is one call, on the text that the call
before gave, every unknown name is one notice, and the first call that fails is the end of it. -/
namespace BlockTree.Substitutor

variable {σ : Type}

def knows (s : Substitutor σ) (name : String) : Bool := (s.find? name).isSome

def notices (s : Substitutor σ) (names : List String) : List Notice :=
  (names.filter (!s.knows ·)).map fun name => .unknownSubstitution (.str name)

/-- Functions called one after the other, each on the text that the one before gave, until there are
no more or one fails. -/
inductive Calls (s : Substitutor σ) : String → σ → List Use → Except Failure String → σ → Prop
  | done (text : String) (st : σ) : Calls s text st [] (.ok text) st
  | call {name text text' : String} {f : Substitution σ} {st st' st'' : σ} {us : List Use}
      {r : Except Failure String} : s.find? name = some f →
      (f text).run st = (.ok text', st') → Calls s text' st' us r st'' →
      Calls s text st (⟨name, text⟩ :: us) r st''
  | fail {name text : String} {f : Substitution σ} {st st' : σ} {r : Failure} :
      s.find? name = some f → (f text).run st = (.error r, st') →
      Calls s text st [⟨name, text⟩] (.error r) st'

/-- A fold that comes as far as the names in `reached`: the calls of those that are known, and a
notice for each of the others. Either all names are reached, or the last call fails and its name is
the last one reached. -/
structure Folds (s : Substitutor σ) (text : String) (names : List String) (e : Effects σ)
    (reached : List String) (us : List Use) (r : Except Failure String) (e' : Effects σ) :
    Prop where
  reached_prefix : reached <+: names
  calls : s.Calls text e.state us r e'.state
  called : us.map (·.name) = reached.filter s.knows
  log : e'.log = e.log ++ s.notices reached
  whole : ∀ t, r = .ok t → reached = names
  broken : ∀ f, r = .error f → ∃ u, us.getLast? = some u ∧ reached.getLast? = some u.name

section

variable {s : Substitutor σ} {name text : String} {f : Substitution σ}

theorem step_known (h : s.find? name = some f) (text : String) (e : Effects σ) :
    (s.step text name).run e =
      (((f text).run e.state).1, ⟨((f text).run e.state).2, e.log⟩) := by
  rw [step, h]
  rfl

theorem step_unknown (h : s.find? name = none) (text : String) (e : Effects σ) :
    (s.step text name).run e =
      (.ok text, ⟨e.state, e.log ++ [.unknownSubstitution (.str name)]⟩) := by
  rw [step, h]
  rfl

theorem knows_of_some (h : s.find? name = some f) : s.knows name = true := by simp [knows, h]

theorem knows_of_none (h : s.find? name = none) : s.knows name = false := by simp [knows, h]

theorem knows_recorded (s : Substitutor σ) (name : String) :
    s.recorded.knows name = s.knows name := by
  simp [knows]

end

@[simp]
theorem applyText_cons (s : Substitutor σ) (text name : String) (names : List String) :
    s.applyText text (name :: names) = s.step text name >>= (s.applyText · names) :=
  List.foldlM_cons

theorem applyText_append (s : Substitutor σ) (text : String) (names more : List String) :
    s.applyText text (names ++ more) = s.applyText text names >>= (s.applyText · more) :=
  List.foldlM_append

namespace Folds

variable {s : Substitutor σ} {name text text' : String} {names reached : List String}
  {f : Substitution σ} {e e' : Effects σ} {st : σ} {us : List Use} {r : Except Failure String}

theorem nil (s : Substitutor σ) (text : String) (e : Effects σ) :
    s.Folds text [] e [] [] (.ok text) e where
  reached_prefix := List.prefix_rfl
  calls := .done text e.state
  called := rfl
  log := (List.append_nil _).symm
  whole _ _ := rfl
  broken := nofun

theorem skip (hname : s.find? name = none)
    (h : s.Folds text names ⟨e.state, e.log ++ [.unknownSubstitution (.str name)]⟩ reached us r
      e') :
    s.Folds text (name :: names) e (name :: reached) us r e' where
  reached_prefix := (List.prefix_cons_inj name).2 h.reached_prefix
  calls := h.calls
  called := by rw [h.called, List.filter_cons_of_neg (by simp [knows_of_none hname])]
  log := by
    rw [h.log, notices, notices, List.filter_cons_of_pos (by simp [knows_of_none hname]),
      List.append_assoc]
    rfl
  whole t ht := congrArg (name :: ·) (h.whole t ht)
  broken g hg := by
    obtain ⟨u, hu, hlast⟩ := h.broken g hg
    exact ⟨u, hu, by rw [List.getLast?_cons, hlast]; rfl⟩

theorem call (hname : s.find? name = some f) (hf : (f text).run e.state = (.ok text', st))
    (h : s.Folds text' names ⟨st, e.log⟩ reached us r e') :
    s.Folds text (name :: names) e (name :: reached) (⟨name, text⟩ :: us) r e' where
  reached_prefix := (List.prefix_cons_inj name).2 h.reached_prefix
  calls := .call hname hf h.calls
  called := by
    rw [List.map_cons, h.called, List.filter_cons_of_pos (knows_of_some hname)]
  log := by
    rw [h.log, notices, notices, List.filter_cons_of_neg (by simp [knows_of_some hname])]
  whole t ht := congrArg (name :: ·) (h.whole t ht)
  broken g hg := by
    obtain ⟨u, hu, hlast⟩ := h.broken g hg
    exact ⟨u, by rw [List.getLast?_cons, hu]; rfl, by rw [List.getLast?_cons, hlast]; rfl⟩

theorem fail {g : Failure} (hname : s.find? name = some f)
    (hf : (f text).run e.state = (.error g, st)) (names : List String) :
    s.Folds text (name :: names) e [name] [⟨name, text⟩] (.error g) ⟨st, e.log⟩ where
  reached_prefix := (List.prefix_cons_inj name).2 List.nil_prefix
  calls := .fail hname hf
  called := by
    rw [List.filter_cons_of_pos (knows_of_some hname)]
    rfl
  log := by
    rw [notices, List.filter_cons_of_neg (by simp [knows_of_some hname])]
    exact (List.append_nil _).symm
  whole := nofun
  broken _ _ := ⟨⟨name, text⟩, rfl, rfl⟩

end Folds

/-- The run of a fold, and the same run on record: the calls are added to those before it. -/
theorem folds_applyText (s : Substitutor σ) (text : String) (names : List String) (e : Effects σ) :
    ∃ reached us r e', (s.applyText text names).run e = (r, e') ∧
      s.Folds text names e reached us r e' ∧
      ∀ before, (s.recorded.applyText text names).run ⟨(e.state, before), e.log⟩ =
        (r, ⟨(e'.state, before ++ us), e'.log⟩) := by
  induction names generalizing text e with
  | nil => exact ⟨[], [], .ok text, e, rfl, .nil s text e, fun _ => by rw [List.append_nil]; rfl⟩
  | cons name names ih =>
    cases hname : s.find? name with
    | none =>
      have hrecorded : s.recorded.find? name = none := by simp [hname]
      obtain ⟨reached, us, r, e', hrun, hfolds, hrecord⟩ :=
        ih text ⟨e.state, e.log ++ [.unknownSubstitution (.str name)]⟩
      refine ⟨name :: reached, us, r, e', ?_, hfolds.skip hname, fun before => ?_⟩
      · rw [applyText_cons, Run.bind_ok _ (step_unknown hname text e), hrun]
      · rw [applyText_cons, Run.bind_ok _ (step_unknown hrecorded text _), hrecord]
    | some f =>
      have hrecorded : s.recorded.find? name = some (recording name f) := by simp [hname]
      have hstep := step_known hname text e
      have hnoted (before : List Use) : (s.recorded.step text name).run ⟨(e.state, before), e.log⟩ =
          (((f text).run e.state).1,
            ⟨(((f text).run e.state).2, before ++ [⟨name, text⟩]), e.log⟩) :=
        step_known hrecorded text _
      match hf : (f text).run e.state with
      | (.error g, st) =>
        rw [hf] at hstep hnoted
        refine ⟨[name], [⟨name, text⟩], .error g, ⟨st, e.log⟩, ?_, .fail hname hf names,
          fun before => ?_⟩
        · rw [applyText_cons, Run.bind_error _ hstep]
        · rw [applyText_cons, Run.bind_error _ (hnoted before)]
      | (.ok text', st) =>
        rw [hf] at hstep hnoted
        obtain ⟨reached, us, r, e', hrun, hfolds, hrecord⟩ := ih text' ⟨st, e.log⟩
        refine ⟨name :: reached, ⟨name, text⟩ :: us, r, e', ?_, hfolds.call hname hf,
          fun before => ?_⟩
        · rw [applyText_cons, Run.bind_ok _ hstep, hrun]
        · rw [applyText_cons, Run.bind_ok _ (hnoted before), hrecord, List.append_assoc]
          rfl

theorem applyText_known (s : Substitutor σ) (text : String) (names : List String) (e : Effects σ)
    (log : List Notice) :
    (s.applyText text (names.filter s.knows)).run ⟨e.state, log⟩ =
      (((s.applyText text names).run e).1, ⟨((s.applyText text names).run e).2.state, log⟩) := by
  induction names generalizing text e with
  | nil => rfl
  | cons name names ih =>
    rw [applyText_cons s text name names]
    cases hname : s.find? name with
    | none =>
      rw [List.filter_cons_of_neg (by simp [knows_of_none hname]),
        Run.bind_ok _ (step_unknown hname text e)]
      exact ih text ⟨e.state, e.log ++ [.unknownSubstitution (.str name)]⟩
    | some f =>
      rw [List.filter_cons_of_pos (knows_of_some hname), applyText_cons]
      have hstep := step_known hname text
      match hf : (f text).run e.state with
      | (.error g, st) =>
        rw [Run.bind_error _ ((hstep ⟨e.state, log⟩).trans (by rw [hf])),
          Run.bind_error _ ((hstep e).trans (by rw [hf]))]
      | (.ok text', st) =>
        rw [Run.bind_ok _ ((hstep ⟨e.state, log⟩).trans (by rw [hf])),
          Run.bind_ok _ ((hstep e).trans (by rw [hf]))]
        exact ih text' ⟨st, e.log⟩

theorem filter_knows_recorded (s : Substitutor σ) (names : List String) :
    names.filter s.recorded.knows = names.filter s.knows :=
  List.filter_congr fun name _ => knows_recorded s name

theorem usesOf_known (s : Substitutor σ) (text : String) (names : List String) (e : Effects σ) :
    s.usesOf (·.applyText text (names.filter s.knows)) e = s.usesOf (·.applyText text names) e := by
  have h := applyText_known s.recorded text names ⟨(e.state, []), e.log⟩ e.log
  rw [filter_knows_recorded] at h
  rw [usesOf, usesOf, h]

theorem usesOf_append (s : Substitutor σ) (text : String) (names more : List String)
    (e : Effects σ) :
    s.usesOf (·.applyText text (names ++ more)) e =
      s.usesOf (·.applyText text names) e ++
        match (s.applyText text names).run e with
        | (.error _, _) => []
        | (.ok t, e') => s.usesOf (·.applyText t more) e' := by
  obtain ⟨_, us, r, e', hrun, -, hrecord⟩ := folds_applyText s text names e
  have hfirst : s.usesOf (·.applyText text names) e = us := by
    rw [usesOf, hrecord []]
    rfl
  have hprefix := hrecord []
  rw [hfirst, hrun, usesOf, applyText_append]
  cases r with
  | error g =>
    rw [Run.bind_error _ hprefix]
    exact (List.append_nil us).symm
  | ok t =>
    obtain ⟨_, vs, r', e'', -, -, hmore⟩ := folds_applyText s t more e'
    have hsecond : s.usesOf (·.applyText t more) e' = vs := by
      rw [usesOf, hmore []]
      rfl
    rw [Run.bind_ok _ hprefix, hmore ([] ++ us)]
    exact congrArg (us ++ ·) hsecond.symm

/-- Names are applied in order: each known one is a call on the result so far, each unknown one a
notice, and a failing call ends it with what was done up to there. So more names are applied to what
the first ones give, and names that are unknown make no difference but in the log. -/
theorem applyText_folds (s : Substitutor σ) (text : String) (names : List String) (e : Effects σ) :
    (∃ reached, s.Folds text names e reached (s.usesOf (·.applyText text names) e)
      ((s.applyText text names).run e).1 ((s.applyText text names).run e).2) ∧
    (∀ more,
      s.applyText text (names ++ more) = s.applyText text names >>= (s.applyText · more) ∧
      s.usesOf (·.applyText text (names ++ more)) e =
        s.usesOf (·.applyText text names) e ++
          match (s.applyText text names).run e with
          | (.error _, _) => []
          | (.ok t, e') => s.usesOf (·.applyText t more) e') ∧
    ∀ others, others.filter s.knows = names.filter s.knows →
      ((s.applyText text others).run e).1 = ((s.applyText text names).run e).1 ∧
      ((s.applyText text others).run e).2.state = ((s.applyText text names).run e).2.state ∧
      s.usesOf (·.applyText text others) e = s.usesOf (·.applyText text names) e := by
  refine ⟨?_, fun more => ⟨applyText_append s text names more, usesOf_append s text names more e⟩,
    fun others hothers => ?_⟩
  · obtain ⟨reached, us, r, e', hrun, hfolds, hrecord⟩ := folds_applyText s text names e
    refine ⟨reached, ?_⟩
    rw [hrun, usesOf, hrecord []]
    exact hfolds
  · -- both lists do what their known names do, and these are the same
    have hsame := applyText_known s text others e e.log
    rw [hothers, applyText_known s text names e e.log] at hsame
    have hstate := congrArg (fun x => x.2.state) hsame
    refine ⟨(congrArg Prod.fst hsame).symm, hstate.symm, ?_⟩
    rw [← usesOf_known, hothers, usesOf_known]

def tallying : Substitutor Nat :=
  ⟨[("mark", fun text => do modify (· + 1); return text ++ "!"),
    ("stop", fun _ => do modify (· + 1); throw (.raised .value "stop"))]⟩

theorem applyText_folds_tallying :
    ["mark", "gone", "mark", "stop", "mark"].filter tallying.knows =
      ["none", "mark", "mark", "stop", "mark"].filter tallying.knows ∧
    ((tallying.applyText "a" ["mark", "gone", "mark", "stop", "mark"]).run ⟨0, []⟩).1 =
      .error (.raised .value "stop") ∧
    ((tallying.applyText "a" ["mark", "gone", "mark", "stop", "mark"]).run ⟨0, []⟩).2.state = 3 ∧
    tallying.usesOf (·.applyText "a" ["mark", "gone", "mark", "stop", "mark"]) ⟨0, []⟩ =
      [⟨"mark", "a"⟩, ⟨"mark", "a!"⟩, ⟨"stop", "a!!"⟩] := by
  have hothers : ["mark", "gone", "mark", "stop", "mark"].filter tallying.knows =
      ["none", "mark", "mark", "stop", "mark"].filter tallying.knows := by decide
  obtain ⟨-, -, hknown⟩ :=
    applyText_folds tallying "a" ["none", "mark", "mark", "stop", "mark"] ⟨0, []⟩
  obtain ⟨hresult, hstate, huses⟩ := hknown ["mark", "gone", "mark", "stop", "mark"] hothers
  exact ⟨hothers, hresult.trans rfl, hstate.trans rfl, huses.trans rfl⟩

end BlockTree.Substitutor
