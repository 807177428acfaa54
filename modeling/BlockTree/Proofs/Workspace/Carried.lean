import BlockTree.Proofs.Workspace.Live
import BlockTree.Workspace.Live.Change

/-! Changes carried out in the workspace itself. They end as is said of them without it, and one
that fails leaves all names, options and nodes as they were: what has been made by then is extra. -/
namespace BlockTree

namespace Stock

theorem offer_tally (s : Stock) (t : Tally) :
    t.counts <+: (s.offer t).2.counts ∧ (s.offer t).2.calls = t.calls := by
  cases s <;> exact ⟨by simp [offer], rfl⟩

theorem offers_tally (entries : List (String × Stock)) (t : Tally) :
    t.counts <+: (offers entries t).2.counts ∧ (offers entries t).2.calls = t.calls := by
  induction entries generalizing t with
  | nil => exact ⟨List.prefix_rfl, rfl⟩
  | cons entry entries ih =>
    obtain ⟨name, s⟩ := entry
    obtain ⟨hcounts, hcalls⟩ := s.offer_tally t
    obtain ⟨hcounts', hcalls'⟩ := ih (s.offer t).2
    exact ⟨hcounts.trans hcounts', hcalls'.trans hcalls⟩

end Stock

namespace Change

theorem addSubstitutor_eq (w : Workspace) (t : Tally) (entries : List (String × Stock)) :
    addSubstitutor w t entries = (Substitutor.ofList (Stock.offers entries t).1).map fun r =>
      (w.substitutors.length, (w.addSubstitutor r).2, (Stock.offers entries t).2) := by
  change (Substitutor.ofList (Stock.offers entries t).1 >>= _) = _
  cases Substitutor.ofList (Stock.offers entries t).1 <;> rfl

end Change

namespace Live

variable {α β γ : Type} {s s' s'' : Workspace × Effects Tally}

/-- What a failure may leave behind: lists, mappings, substitutors and counters that nothing refers
to. All else is as before. -/
structure Kept (s s' : Workspace × Effects Tally) : Prop where
  lists : s.1.lists <+: s'.1.lists
  maps : s.1.maps <+: s'.1.maps
  substitutors : s.1.substitutors <+: s'.1.substitutors
  counts : s.2.state.counts <+: s'.2.state.counts
  options : s'.1.options = s.1.options
  nodes : s'.1.nodes = s.1.nodes
  names : s'.1.names = s.1.names
  calls : s'.2.state.calls = s.2.state.calls

namespace Kept

theorem refl (s : Workspace × Effects Tally) : Kept s s :=
  ⟨List.prefix_rfl, List.prefix_rfl, List.prefix_rfl, List.prefix_rfl, rfl, rfl, rfl, rfl⟩

theorem trans (h : Kept s s') (h' : Kept s' s'') : Kept s s'' where
  lists := h.lists.trans h'.lists
  maps := h.maps.trans h'.maps
  substitutors := h.substitutors.trans h'.substitutors
  counts := h.counts.trans h'.counts
  options := h'.options.trans h.options
  nodes := h'.nodes.trans h.nodes
  names := h'.names.trans h.names
  calls := h'.calls.trans h.calls

variable {w w' : Workspace} {e : Effects Tally} {t : Tally}

theorem adding (h : Kept s (w, e)) (ls : Lists) (ms : List DataEntries) :
    Kept s (w.adding ls ms, e) :=
  h.trans ⟨List.prefix_append .., List.prefix_append .., List.prefix_rfl, List.prefix_rfl, rfl, rfl,
    rfl, rfl⟩

theorem addSubstitutor (h : Kept s (w, e)) (r : Substitutor Tally) :
    Kept s ((w.addSubstitutor r).2, e) :=
  h.trans ⟨List.prefix_rfl, List.prefix_rfl, List.prefix_append .., List.prefix_rfl, rfl, rfl, rfl,
    rfl⟩

theorem counting (h : Kept s (w, e)) (hcounts : e.state.counts <+: t.counts)
    (hcalls : t.calls = e.state.calls) : Kept s (w, { e with state := t }) :=
  h.trans ⟨List.prefix_rfl, List.prefix_rfl, List.prefix_rfl, hcounts, rfl, rfl, rfl, hcalls⟩

theorem addPipe (h : Kept s (w, e)) {pipe : PipeSource} {p : Pipe}
    (hp : Change.addPipe w e.state pipe = .ok (p, w', t)) : Kept s (w', { e with state := t }) := by
  cases pipe with
  | named name =>
    obtain ⟨i, _, hp⟩ := except_bind_ok hp
    cases hp
    exact h
  | stocks entries =>
    obtain ⟨x, hx, hp⟩ := except_bind_ok hp
    rw [Change.addSubstitutor_eq] at hx
    cases hr : Substitutor.ofList (Stock.offers entries e.state).1 with
    | error f =>
      rw [hr] at hx
      cases hx
    | ok r =>
      rw [hr] at hx
      cases hx
      cases hp
      obtain ⟨hcounts, hcalls⟩ := Stock.offers_tally entries e.state
      exact (h.counting hcounts hcalls).addSubstitutor r
  | recorder r =>
    cases hp
    exact ⟨h.lists, h.maps, h.substitutors, h.counts, h.options, h.nodes, h.names, h.calls⟩

end Kept

/-- Carried out at `s`, a computation ends as `y` says. If it fails, what there was at `s₀` is kept.
-/
def Carries (s₀ s : Workspace × Effects Tally) (x : Live α) :
    Except Failure (Workspace × Tally × α) → Prop
  | .ok (w, t, a) => x.run s = (.ok a, (w, { s.2 with state := t }))
  | .error f => ∃ s', x.run s = (.error f, s') ∧ Kept s₀ s' ∧ s'.2.log = s.2.log

namespace Carries

variable {s₀ : Workspace × Effects Tally} {w : Workspace} {e : Effects Tally} {k : β → Live α}
  {y : Except Failure (Workspace × Tally × α)}

theorem pure (a : α) : Carries s₀ (w, e) (Pure.pure a) (.ok (w, e.state, a)) := rfl

theorem throw (h : Kept s₀ s) (f : Failure) :
    Carries s₀ s (MonadExcept.throw f : Live α) (.error f) := ⟨s, rfl, h, rfl⟩

theorem bind {x : Live β} {z : Except Failure γ} {p : γ → Workspace × Tally × β}
    {g : γ → Except Failure (Workspace × Tally × α)} (hx : Carries s₀ s x (z.map p))
    (hk : ∀ c, z = .ok c →
      Carries s₀ ((p c).1, { s.2 with state := (p c).2.1 }) (k (p c).2.2) (g c)) :
    Carries s₀ s (x >>= k) (z >>= g) := by
  cases z with
  | error f =>
    obtain ⟨s', hx, hkept⟩ := hx
    exact ⟨s', bind_error k hx, hkept⟩
  | ok c =>
    have hrun : x.run s = (.ok (p c).2.2, ((p c).1, { s.2 with state := (p c).2.1 })) := hx
    have hrest := hk c rfl
    change Carries s₀ s (x >>= k) (g c)
    cases hg : g c with
    | error f =>
      rw [hg] at hrest
      obtain ⟨s', hk, hkept⟩ := hrest
      exact ⟨s', (bind_ok k hrun).trans hk, hkept⟩
    | ok b =>
      rw [hg] at hrest
      exact (bind_ok k hrun).trans hrest

theorem of_run {x : Live β} {s₁ : Workspace × Effects Tally} {b : β} (hx : x.run s = (.ok b, s₁))
    (hlog : s₁.2.log = s.2.log) (hk : Carries s₀ s₁ (k b) y) : Carries s₀ s (x >>= k) y := by
  cases y with
  | error f =>
    obtain ⟨s', hk, hkept, hlog'⟩ := hk
    exact ⟨s', (bind_ok k hx).trans hk, hkept, hlog'.trans hlog⟩
  | ok c =>
    refine (bind_ok k hx).trans (hk.trans ?_)
    obtain ⟨w₁, t₁, log₁⟩ := s₁
    cases hlog
    rfl

theorem seeing {f : Workspace → Except Failure β} (h : Kept s₀ (w, e)) :
    Carries s₀ (w, e) (Live.see f) ((f w).map fun b => (w, e.state, b)) := by
  have hsee := see_run f w e
  cases hf : f w with
  | error r => exact ⟨(w, e), hsee.trans (by rw [hf]), h, rfl⟩
  | ok b => exact hsee.trans (by rw [hf])

theorem see {f : Workspace → Except Failure β} {g : β → Except Failure (Workspace × Tally × α)}
    (h : Kept s₀ (w, e)) (hk : ∀ b, f w = .ok b → Carries s₀ (w, e) (k b) (g b)) :
    Carries s₀ (w, e) (Live.see f >>= k) (f w >>= g) := bind (seeing h) hk

theorem seen {f : Workspace → Except Failure β} {b : β} (hf : f w = .ok b)
    (hk : Carries s₀ (w, e) (k b) y) : Carries s₀ (w, e) (Live.see f >>= k) y :=
  of_run ((see_run f w e).trans (by rw [hf])) rfl hk

theorem make {f : Workspace → β × Workspace} (hk : Carries s₀ ((f w).2, e) (k (f w).1) y) :
    Carries s₀ (w, e) (Live.make f >>= k) y := of_run rfl rfl hk

theorem write {f : Workspace → Workspace} {k : Unit → Live α} (hk : Carries s₀ (f w, e) (k ()) y) :
    Carries s₀ (w, e) (Live.write f >>= k) y := of_run rfl rfl hk

theorem written {f : Workspace → Workspace} {w' : Workspace} (h : f w = w') :
    Carries s₀ (w, e) (Live.write f) (.ok (w', e.state, ())) := by
  subst h
  rfl

theorem newList {ds : List Datum} {k : Datum → Live α}
    (hk : Carries s₀ ((w.addList ds).2, e) (k (.shared w.lists.length)) y) :
    Carries s₀ (w, e) (Live.newList ds >>= k) y := of_run (newList_run ds w e) rfl hk

theorem offer {f : Tally → β × Tally}
    (hk : Carries s₀ (w, { e with state := (f e.state).2 }) (k (f e.state).1) y) :
    Carries s₀ (w, e) (Live.offer f >>= k) y := of_run rfl rfl hk

theorem edit {f : Workspace → Except Failure Workspace} {k : Unit → Live α}
    {g : Workspace → Except Failure (Workspace × Tally × α)} (h : Kept s₀ (w, e))
    (hk : ∀ w', f w = .ok w' → Carries s₀ (w', e) (k ()) (g w')) :
    Carries s₀ (w, e) (Live.edit f >>= k) (f w >>= g) := by
  rw [Live.edit, bind_assoc]
  exact see h fun w' hw => write (hk w' hw)

/-- A fold, of which every step keeps a property of the workspace that the next one needs. -/
theorem foldlM {F : γ → β → Live γ} {G : γ × Workspace → β → Except Failure (γ × Workspace)}
    {P : Workspace → Prop}
    (hstep : ∀ c w b, P w →
      Carries s₀ (w, e) (F c b) ((G (c, w) b).map fun x => (x.2, e.state, x.1)))
    (hP : ∀ c w b x, P w → G (c, w) b = .ok x → P x.2) (bs : List β) (c : γ) (hw : P w) :
    Carries s₀ (w, e) (bs.foldlM F c)
      ((bs.foldlM G (c, w)).map fun x => (x.2, e.state, x.1)) := by
  induction bs generalizing c w with
  | nil => exact pure c
  | cons b bs ih =>
    rw [List.foldlM_cons, List.foldlM_cons, except_map_bind]
    exact bind (hstep c w b hw) fun x hx => ih x.1 (hP c w b x hw hx)

end Carries

variable {s₀ : Workspace × Effects Tally} {w : Workspace} {e : Effects Tally}

/-- A field is converted where lists and mappings have been made for those before it. -/
theorem carries_assign (hw : w.Known) {d : Datum} (hd : d.Known w.lists.length) (o : Options)
    (f : OptionField) (ls : Lists) (ms : List DataEntries)
    (hkept : Kept s₀ (w.adding ls ms, e)) :
    Carries s₀ (w.adding ls ms, e) (assign w.depth o f d) ((Options.convert w d f).map fun c =>
      ((o.assign (w.adding ls ms) c).2, e.state, (o.assign (w.adding ls ms) c).1)) := by
  have hsee := see_run (fun w' => Options.convertIn w'.lists w.depth d f) (w.adding ls ms) e
  have hconvert : Options.convertIn (w.adding ls ms).lists w.depth d f = Options.convert w d f :=
    Options.convertIn_append hw.lists hd w.depth f
  rw [hconvert] at hsee
  cases hc : Options.convert w d f with
  | error r =>
    rw [hc] at hsee
    exact ⟨_, bind_error _ hsee, hkept, rfl⟩
  | ok c =>
    rw [hc] at hsee
    exact (bind_ok _ hsee).trans rfl

theorem carries_ofFields (hw : w.Known) {given : List (String × Datum)}
    (hgiven : ∀ g ∈ given, g.2.Known w.lists.length) (hkept : Kept s₀ (w, e)) :
    Carries s₀ (w, e) (ofFields w.depth given)
      ((Options.ofFields w given).map fun x => (x.2, e.state, x.1)) := by
  let P (w' : Workspace) : Prop := ∃ ls ms, w' = w.adding ls ms
  refine .make (.foldlM (P := P) (fun o w' name hw' => ?_) (fun o w' name x hw' hx => ?_) _ _ ?_)
  · obtain ⟨ls, ms, rfl⟩ := hw'
    cases hf : OptionField.named? name with
    | none => exact .pure o
    | some f =>
      cases hd : given.lookup name with
      | none => exact .pure o
      | some d =>
        have hassign := carries_assign hw (hgiven (name, d) (mem_of_lookup hd)) o f ls ms
          (hkept.adding ls ms)
        dsimp only
        cases hc : Options.convert w d f <;> rw [hc] at hassign <;> exact hassign
  · obtain ⟨ls, ms, rfl⟩ := hw'
    split at hx
    next f d hf hd =>
      obtain ⟨c, -, hx⟩ := except_bind_ok hx
      cases hx
      obtain ⟨ls', ms', hadded⟩ := (Options.renewed_assign (w.adding ls ms) o c).added
      exact ⟨ls ++ ls', ms ++ ms', by rw [hadded, Workspace.adding_adding]⟩
    next =>
      cases hx
      exact ⟨ls, ms, rfl⟩
  · exact ⟨[[]], [[]], by simp [Options.default]⟩

theorem carries_blockOptions (hw : w.Known) {source : BlockSource}
    (hsource : ∀ given, source = .fields given → ∀ g ∈ given, g.2.Known w.lists.length)
    (hkept : Kept s₀ (w, e)) :
    Carries s₀ (w, e) (blockOptions w.depth source)
      ((Change.blockOptions w source).map fun x => (x.2, e.state, x.1)) := by
  cases source with
  | fields given => exact carries_ofFields hw (hsource given rfl) hkept
  | options name =>
    have hsee := Carries.seeing (f := fun w => w.optionsId name >>= w.optionsAt) hkept
    rw [Change.blockOptions, except_map_bind]
    cases ho : w.optionsId name >>= w.optionsAt <;> rw [ho] at hsee <;> exact hsee

theorem carries_addBlock {o : Options} (ho : o.Known w.lists.length)
    (hkept : Kept s₀ (w, e)) (label : String) (context : Datum) (parent : Option NodeId) :
    Carries s₀ (w, e) (addBlock label context parent o)
      ((w.addBlock label context parent o).map fun w' => (w', e.state, ())) := by
  have hlines : Options.lines (w.adding [] [w.entriesAt o.attributes]).lists o.source =
      Options.lines w.lists o.source := Options.lines_append ho.source
  have hblock : (w.addBlock label context parent o).map (fun w' => (w', e.state, ())) =
      Options.lines w.lists o.source >>= fun lines =>
        .ok (w.withBlock label context parent o lines, e.state, ()) := by
    rw [Workspace.addBlock_eq]
    cases Options.lines w.lists o.source <;> rfl
  rw [hblock, ← hlines]
  refine .make ?_
  rw [Workspace.addMap_eq]
  refine .see (hkept.adding _ _) fun lines _ => ?_
  have hnames : ((w.adding [] [w.entriesAt o.attributes]).addList lines).2.listAt o.subs =
      w.listAt o.subs := by
    simp only [Workspace.addList_eq, Workspace.adding_adding]
    exact Datum.getD_append ho.subs
  refine .newList (.seen (congrArg Except.ok hnames) (.newList (.written ?_)))
  simp [Workspace.withBlock, Node.fresh]

theorem registerAll_run (i : Nat) (offers : List (String × Offer Tally)) (w : Workspace)
    (e : Effects Tally) : (registerAll i offers).run (w, e) =
      (((w.substitutorAt i).registerAll offers).2,
        (w.setSubstitutor i ((w.substitutorAt i).registerAll offers).1, e)) := by
  have hsee := see_run (fun w => .ok ((w.substitutorAt i).registerAll offers)) w e
  exact (bind_ok _ hsee).trans ((bind_ok _ rfl).trans (see_run _ _ e))

theorem carries_addSubstitutor (entries : List (String × Stock)) (hkept : Kept s₀ (w, e)) :
    Carries s₀ (w, e) (addSubstitutor entries)
      ((Change.addSubstitutor w e.state entries).map fun x => (x.2.1, x.2.2, x.1)) := by
  let offers := (Stock.offers entries e.state).1
  let t := (Stock.offers entries e.state).2
  obtain ⟨hcounts, hcalls⟩ := Stock.offers_tally entries e.state
  refine .offer (.make ?_)
  have hrun := registerAll_run w.substitutors.length (Substitutor.mapping offers)
    (w.addSubstitutor .empty).2 { e with state := t }
  have hempty : (w.addSubstitutor .empty).2.substitutorAt w.substitutors.length = .empty := by
    simp [Workspace.addSubstitutor, Workspace.substitutorAt]
  have hset (r : Substitutor Tally) :
      (w.addSubstitutor .empty).2.setSubstitutor w.substitutors.length r =
        (w.addSubstitutor r).2 := by
    simp [Workspace.addSubstitutor, Workspace.setSubstitutor]
  rw [hempty, hset] at hrun
  have hofList : Substitutor.ofList offers =
      (Substitutor.registerAll .empty (Substitutor.mapping offers)).2.map fun _ =>
        (Substitutor.registerAll .empty (Substitutor.mapping offers)).1 := rfl
  rw [Change.addSubstitutor_eq, hofList]
  cases hr : (Substitutor.registerAll .empty (Substitutor.mapping offers)).2 with
  | error f =>
    rw [hr] at hrun
    exact ⟨_, bind_error _ hrun, (hkept.counting hcounts hcalls).addSubstitutor _, rfl⟩
  | ok _ =>
    rw [hr] at hrun
    exact bind_ok _ hrun

theorem carries_addPipe (pipe : PipeSource) (hkept : Kept s₀ (w, e)) :
    Carries s₀ (w, e) (addPipe pipe)
      ((Change.addPipe w e.state pipe).map fun x => (x.2.1, x.2.2, x.1)) := by
  cases pipe with
  | named s =>
    rw [Change.addPipe, except_map_bind]
    exact .see hkept fun i _ => .pure _
  | stocks entries =>
    rw [Change.addPipe, except_map_bind]
    exact .bind (carries_addSubstitutor entries hkept) fun x _ => .pure _
  | recorder r => rfl

theorem amend_run {n : NodeId} {b : Node} (hb : w.node n = .ok b) (f : Node → Node)
    (e : Effects Tally) : (amend n f).run (w, e) = (.ok (), (w.setNode n (f b), e)) := by
  have hsee := see_run (fun w => return w.setNode n (f (← w.node n))) w e
  rw [except_bind_of_ok hb] at hsee
  exact (bind_ok _ hsee).trans rfl

/-- The child is linked by two writes; by then it is there, and so is its parent. -/
theorem carries_append (parent child : NodeId) (hkept : Kept s₀ (w, e)) :
    Carries s₀ (w, e) (append parent child)
      ((w.append parent child).map fun w' => (w', e.state, ())) := by
  rw [Workspace.append, except_map_bind]
  refine .see hkept fun p hp => ?_
  rw [except_map_bind]
  cases hc : w.node child with
  | error f =>
    have hamend : (amend child fun b => { b with parent := some parent }).run (w, e) =
        (.error f, (w, e)) := by
      refine bind_error _ ((see_run _ w e).trans ?_)
      rw [except_bind_error hc]
    exact ⟨_, bind_error _ hamend, hkept, rfl⟩
  | ok c =>
    let c₁ : Node := { c with parent := some parent }
    let p₁ := if child = parent then c₁ else p
    let c₂ : Node := { c₁ with document := p₁.document }
    have hc₁ := Workspace.node_setNode hc hc c₁
    have hp₁ : (w.setNode child c₁).node parent = .ok p₁ := Workspace.node_setNode hc hp c₁
    have hp₂ := Workspace.node_setNode hc hp c₂
    have hdocument : p₁.document = p.document := by
      by_cases h : child = parent
      · subst h
        obtain rfl : c = p := Except.ok.inj (hc.symm.trans hp)
        simp [p₁, c₁]
      · simp [p₁, h]
    have hsee := see_run (fun w => w.node parent) (w.setNode child c₁) e
    rw [hp₁] at hsee
    rw [if_pos rfl] at hc₁
    have hsame : w.setNode child { c with parent := some parent, document := p.document } =
        w.setNode child c₂ := by rw [← hdocument]
    change Carries s₀ (w, e) _
      (((w.setNode child { c with parent := some parent, document := p.document }).node parent >>=
        _).map _)
    rw [hsame, hp₂]
    refine .of_run (amend_run hc _ e) rfl (.of_run hsee rfl (.of_run (amend_run hc₁ _ e) rfl ?_))
    rw [Workspace.setNode_setNode]
    exact amend_run hp₂ _ e

theorem node_ownOf {n : NodeId} {member : String}
    (g : Node → ContentModel × Datum × Datum → Except Failure α) :
    (w.node n >>= fun b => w.ownOf n member >>= g b) =
      w.ownOf n member >>= fun o => w.node n >>= fun b => g b o := by
  cases hb : w.node n with
  | error f => exact (except_bind_error (except_bind_error hb)).symm
  | ok b => rfl

/-- A change that is carried out ends as it is said to end. If it fails, all that was there is
kept. -/
theorem carries_change (hw : w.Known) {c : Change} (hc : c.Known w.lists.length) :
    Carries (w, e) (w, e) (change c) (c.apply w e.state) := by
  have hkept := Kept.refl (w, e)
  refine .seen rfl ?_
  cases c with
  | list label d =>
    rw [Change.apply, Change.done, Workspace.newList, bind_assoc]
    exact .see hkept fun ds _ => .make (.write (.pure _))
  | appendItem name d => exact .see hkept fun l _ => .write (.pure _)
  | substitutor label entries =>
    exact .bind (carries_addSubstitutor entries hkept) fun x _ => .write (.pure _)
  | document label attributes pipe converter =>
    refine .bind (carries_addPipe pipe hkept) fun x hx => ?_
    dsimp only
    rw [Change.done, Workspace.addDocument, bind_assoc]
    exact .see (hkept.addPipe hx) fun es _ => .make (.write (.pure _))
  | plain label context parent => exact .see hkept fun p _ => .make (.write (.pure _))
  | options label given =>
    simp only [Change.apply]
    cases Options.stray? given with
    | some name => exact .throw hkept _
    | none =>
      exact .bind (carries_ofFields hw hc hkept) fun x _ => .write (.seen rfl (.pure _))
  | block label context parent source =>
    refine .see hkept fun p _ => ?_
    have hsource : ∀ given, source = .fields given → ∀ g ∈ given, g.2.Known w.lists.length := by
      rintro given rfl
      exact hc.2
    refine .bind (carries_blockOptions hw hsource hkept) fun x hx => ?_
    obtain ⟨o, w₁⟩ := x
    obtain ⟨ls, ms, rfl⟩ := Change.adding_of_blockOptions hx
    obtain ⟨-, ho⟩ := Change.known_blockOptions hw hsource hx
    refine .bind (carries_addBlock ho (hkept.adding ls ms) label context p) fun w' hw' => ?_
    obtain ⟨lines, -, rfl⟩ := Workspace.addBlock_eq_ok hw'
    have hrecord := Change.blockRecord_withBlock (w.adding ls ms) label context p o lines
    rw [except_bind_of_ok hrecord]
    exact (see_run _ _ _).trans (congrArg (·, _) hrecord)
  | setOption on field d =>
    refine .see hkept fun i _ => ?_
    dsimp only
    cases OptionField.named? field with
    | none => exact .throw hkept _
    | some f =>
      refine .see hkept fun o _ => ?_
      have hassign := carries_assign hw hc o f [] [] (hkept.adding [] [])
      rw [Workspace.adding_nil] at hassign
      rw [Options.set, bind_assoc]
      exact .bind hassign fun x _ => .write (.seen rfl (.pure _))
  | setLines on d =>
    refine .see hkept fun n _ => ?_
    rw [Change.done, Workspace.setLines, node_ownOf, bind_assoc]
    refine .see hkept fun o ho => ?_
    obtain ⟨b, hb, -⟩ := except_bind_ok ho
    rw [except_bind_of_ok hb]
    exact .make (.of_run (amend_run ((w.node_place d n).trans hb) _ e) rfl (.pure _))
  | appendLine on d => exact .see hkept fun l _ => .write (.pure _)
  | insertLine on i d =>
    refine .see hkept fun l _ => ?_
    exact .edit hkept fun w' _ => .pure _
  | popLine on =>
    refine .see hkept fun l _ => ?_
    exact .see hkept fun x _ => .write (.seen rfl (.pure _))
  | setSubs on d =>
    refine .see hkept fun n _ => ?_
    rw [Change.done, Workspace.setSubs, node_ownOf, bind_assoc]
    refine .see hkept fun o ho => ?_
    obtain ⟨b, hb, -⟩ := except_bind_ok ho
    rw [except_bind_of_ok hb]
    exact .make (.of_run (amend_run ((w.node_place d n).trans hb) _ e) rfl (.pure _))
  | appendSub on d =>
    refine .see hkept fun n _ => ?_
    refine .see hkept fun subs _ => ?_
    exact .see hkept fun l _ => .write (.pure _)
  | setAttribute on name d =>
    refine .see hkept fun n _ => ?_
    exact .edit hkept fun w' _ => .pure _
  | setField on f d =>
    refine .see hkept fun n _ => ?_
    exact .edit hkept fun w' _ => .pure _
  | append on child =>
    refine .see hkept fun c _ => ?_
    refine .see hkept fun p _ => ?_
    exact .bind (carries_append p c hkept) fun w' _ => .seen rfl (.pure _)
  | register on name stock =>
    refine .see hkept fun i _ => ?_
    obtain ⟨hcounts, hcalls⟩ := stock.offer_tally e.state
    refine .offer ?_
    exact .see (hkept.counting hcounts hcalls) fun r _ => .write (.pure _)
  | unregister on name => exact .see hkept fun i _ => .write (.pure _)

end Live

namespace Session

theorem carried_change {s : Session} (hs : s.workspace.Known) {c : Change}
    (hc : c.Known s.workspace.lists.length) :
    ∃ w e, (Live.change c).run (s.workspace, ⟨s.tally, []⟩) = ((s.act (.change c)).2.1, (w, e)) ∧
      (∀ r, (s.act (.change c)).2.1 = .ok r →
        (s.act (.change c)).1 = { s with workspace := w, tally := e.state }) ∧
      ∀ f, (s.act (.change c)).2.1 = .error f → Live.Kept (s.workspace, ⟨s.tally, []⟩) (w, e) := by
  have hcarried := Live.carries_change (e := ⟨s.tally, []⟩) hs hc
  cases h : c.apply s.workspace s.tally with
  | ok x =>
    rw [h] at hcarried
    rw [act_of_apply h]
    refine ⟨x.1, ⟨x.2.1, []⟩, hcarried, fun _ _ => rfl, fun f hf => ?_⟩
    cases hf
  | error f =>
    rw [h] at hcarried
    rw [act_of_apply_error h]
    obtain ⟨⟨w, e⟩, hrun, hkept, -⟩ := hcarried
    refine ⟨w, e, hrun, fun r hr => ?_, fun _ _ => hkept⟩
    cases hr

end Session

end BlockTree
