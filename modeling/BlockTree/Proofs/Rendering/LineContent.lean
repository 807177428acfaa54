import BlockTree.Proofs.Run
import BlockTree.Proofs.Substitutor.Lines
import BlockTree.Proofs.Text.Trimmed
import BlockTree.Render

/-! The content of line oriented blocks. Blank lines around several lines are left out and nothing
else is; lines and their joined text have the same content up to these; and content that is put into
such a block as its source is its content again. -/
namespace BlockTree

open Text (Margins joinLines splitFeeds linesOf)

theorem lineContent_eq_none_iff {ls : List String} : lineContent ls = none ↔ ls = [] := by
  match ls with
  | [] => simp [lineContent]
  | [_] => simp [lineContent]
  | _ :: _ :: _ => simp [lineContent]

theorem lineContent_of_one_lt {ls : List String} (h : 1 < ls.length) :
    lineContent ls = some (joinLines (Text.trimEnds Text.isBlank ls)) := by
  match ls, h with
  | _ :: _ :: _, _ => rfl

theorem lineContent_of_margins {ms : List String} (hne : ms ≠ [])
    (h : Margins (Text.isBlank ·) [] ms []) : lineContent ms = some (joinLines ms) := by
  match ms, h with
  | [], _ => exact absurd rfl hne
  | [m], _ => rfl
  | l :: m :: ms, h =>
    have htrim : Text.trimEnds Text.isBlank (l :: m :: ms) = l :: m :: ms :=
      Text.trimEnds_eq_iff.2 ⟨[], [], by simp, h⟩
    rw [lineContent_of_one_lt (by simp), htrim]

/-- Content that is not empty is that of some of the lines, which have it on their own. -/
theorem exists_lineContent_core {ls : List String} {t : String} (h : lineContent ls = some t)
    (ht : t ≠ "") :
    ∃ ms, (∀ m ∈ ms, m ∈ ls) ∧ ms.getLast? ≠ some "" ∧ joinLines ms = t ∧
      lineContent ms = some t := by
  match ls, h with
  | [l], h =>
    obtain rfl : l = t := Option.some.inj h
    exact ⟨[l], fun m hm => hm, by simpa using ht, rfl, rfl⟩
  | l :: m :: rest, h =>
    rw [lineContent_of_one_lt (by simp)] at h
    obtain ⟨pre, post, -, hm⟩ := Text.margins_trimEnds Text.isBlank (l :: m :: rest)
    have hmem : ∀ k ∈ Text.trimEnds Text.isBlank (l :: m :: rest), k ∈ l :: m :: rest :=
      fun k hk => Text.mem_of_mem_trimEnds hk
    generalize Text.trimEnds Text.isBlank (l :: m :: rest) = ms at h hm hmem
    obtain rfl : joinLines ms = t := Option.some.inj h
    have hne : ms ≠ [] := by
      rintro rfl
      exact ht rfl
    refine ⟨ms, hmem, fun hlast => hm.last "" hlast rfl, rfl, ?_⟩
    exact lineContent_of_margins hne ⟨List.forall_mem_nil _, List.forall_mem_nil _, hm.first,
        hm.last⟩

theorem Text.head?_joinLines_cons {l : String} {c : Char} (ls : List String)
    (h : l.toList.head? = some c) : (joinLines (l :: ls)).toList.head? = some c := by
  cases ls with
  | nil => exact h
  | cons m ms => simp [joinLines, h]

/-- The content of a source is its own content, unless it starts like a marked text. -/
theorem lineContent_linesOf_content {s t : String} (h : lineContent (linesOf s) = some t)
    (ht : t ≠ "") (hmark : t.toList.head? ≠ some '\ufeff') :
    lineContent (linesOf t) = some t := by
  obtain ⟨ms, hmem, hlast, rfl, hms⟩ := exists_lineContent_core h ht
  have hrestorable : Text.Restorable ms := by
    refine ⟨fun m hm => Text.unbroken_of_mem_linesOf (hmem m hm), hlast, fun m hm hhead => ?_⟩
    obtain ⟨rest, rfl⟩ := List.head?_eq_some_iff.1 hm
    exact hmark (Text.head?_joinLines_cons rest hhead)
  rw [Text.linesOf_joinLines_iff.2 hrestorable, hms]

namespace Block

variable {σ : Type} {m : Type → Type} [Monad m] [LawfulMonad m]

theorem ownContent_of_lineOriented (p : Pipeline m) {f : Fields} (hf : f.model.lineOriented) :
    ownContent p f = lineContent <$> p.lines f.subs f.lines := by
  cases hmodel : f.model with
  | compound | simple | empty => simp [hmodel, ContentModel.lineOriented] at hf
  | verbatim | raw => simp [ownContent, hmodel]

theorem content_of_lineOriented (p : Pipeline m) {f : Fields} (bs : List Block)
    (hf : f.model = .verbatim ∨ f.model = .raw) :
    (Block.node f bs).content p = lineContent <$> p.lines f.subs f.lines := by
  have hmodel : f.model ≠ .compound := by rcases hf with hf | hf <;> simp [hf]
  have hlines : f.model.lineOriented := by rcases hf with hf | hf <;> rw [hf] <;> rfl
  rw [content, if_neg hmodel, ownContent_of_lineOriented p hlines]

theorem content_of_simple (p : Pipeline m) {f : Fields} (bs : List Block) (hf : f.model = .simple) :
    (Block.node f bs).content p = some <$> p.text f.subs (joinLines f.lines) := by
  simp [content, ownContent, hf]

/-- A verbatim or raw block has no content if its pipeline returns no lines, and a single line as it
is. Of several lines those are joined that lie between the blank ones at both ends, and a blank line
is one that is stripped to nothing. -/
theorem content_trims (p : Pipeline (Run σ)) (f : Fields) (bs : List Block)
    (hf : f.model = .verbatim ∨ f.model = .raw) {e e' : Effects σ} {rs : List String}
    (hr : (p.lines f.subs f.lines).run e = (.ok rs, e')) :
    ∃ c, ((Block.node f bs).content p).run e = (.ok c, e') ∧
      (rs = [] → c = none) ∧
      (∀ l, rs = [l] → c = some l) ∧
      (1 < rs.length →
        (∃ pre mid post, rs = pre ++ mid ++ post ∧ Margins (Text.strip · = "") pre mid post) ∧
        ∀ pre mid post, rs = pre ++ mid ++ post → Margins (Text.strip · = "") pre mid post →
          c = some (joinLines mid)) := by
  refine ⟨lineContent rs, ?_, ?_, ?_, fun hlong => ⟨?_, ?_⟩⟩
  · rw [content_of_lineOriented p bs hf, Run.map_run, hr]
    rfl
  · rintro rfl
    rfl
  · rintro l rfl
    rfl
  · obtain ⟨pre, post, hrs, hm⟩ := Text.margins_trimEnds Text.isBlank rs
    exact ⟨pre, _, post, hrs, Text.margins_isBlank.1 hm⟩
  · intro pre mid post hrs hm
    have hmid : Text.trimEnds Text.isBlank rs = mid :=
      Text.trimEnds_eq_iff.2 ⟨pre, post, hrs, Text.margins_isBlank.2 hm⟩
    rw [lineContent_of_one_lt hlong, hmid]

def looseListing : Fields :=
  ⟨"listing", .verbatim, none, none, none, [], [], [" ", "a ", "", "b", "\u3000"]⟩

theorem content_trims_looseListing :
    (Pipeline.lines (.ofSubstitutor (Substitutor.breaking)) looseListing.subs
        looseListing.lines).run ⟨(), []⟩ = (.ok [" ", "a ", "", "b", "\u3000"], ⟨(), []⟩) ∧
      ((Block.node looseListing []).content (.ofSubstitutor .breaking)).run ⟨(), []⟩ =
        (.ok (some "a \n\nb"), ⟨(), []⟩) := by
  have hr : (Pipeline.lines (.ofSubstitutor Substitutor.breaking) looseListing.subs
      looseListing.lines).run ⟨(), []⟩ = (.ok [" ", "a ", "", "b", "\u3000"], ⟨(), []⟩) := rfl
  obtain ⟨c, hc, -, -, hmany⟩ := content_trims _ looseListing [] (.inl rfl) hr
  have hm : Margins (Text.strip · = "") [" "] ["a ", "", "b"] ["\u3000"] :=
    ⟨by decide, by decide, by decide, by decide⟩
  rw [(hmany (by decide)).2 [" "] ["a ", "", "b"] ["\u3000"] rfl hm] at hc
  exact ⟨hr, hc⟩

end Block

/-- The text `d` is `t` without its longest runs of blank lines at both ends. -/
def Text.Trims (t d : String) : Prop :=
  ∃ pre mid post, splitFeeds t = pre ++ mid ++ post ∧ Margins (Text.strip · = "") pre mid post ∧
    d = joinLines mid

theorem Text.trims_iff {t d : String} :
    Text.Trims t d ↔ d = joinLines (Text.trimEnds Text.isBlank (splitFeeds t)) := by
  constructor
  · rintro ⟨pre, mid, post, ht, hm, rfl⟩
    rw [Text.trimEnds_eq_iff.2 ⟨pre, post, ht, Text.margins_isBlank.2 hm⟩]
  · rintro rfl
    obtain ⟨pre, post, ht, hm⟩ := Text.margins_trimEnds Text.isBlank (splitFeeds t)
    exact ⟨pre, _, post, ht, Text.margins_isBlank.1 hm, rfl⟩

/-- What several lines are shown as is told from the text that they join to. -/
theorem exists_lineContent_splitFeeds (t : String) :
    ∃ c, lineContent (splitFeeds t) = some c ∧ ('\n' ∉ t.toList → c = t) ∧
      ('\n' ∈ t.toList → ∀ d, d = c ↔ Text.Trims t d) := by
  by_cases ht : '\n' ∈ t.toList
  · exact ⟨_, lineContent_of_one_lt (Text.one_lt_length_splitFeeds ht), fun h => absurd ht h,
      fun _ d => Text.trims_iff.symm⟩
  · exact ⟨t, by rw [Text.splitFeeds_of_not_mem ht]; rfl, fun _ => rfl, fun h => absurd h ht⟩

namespace Block

/-- With functions that have no state, a verbatim or raw block fails as a simple block with the same
lines and names does, and otherwise has the same content, without the blank lines at both ends if it
is more than one line. Without lines it has none and uses nothing, while the simple block
substitutes in the empty text. -/
theorem content_agrees_simple {s : Substitutor σ} (hs : s.Stateless) (f g : Fields)
    (bs cs : List Block) (hf : f.model = .simple) (hg : g.model = .verbatim ∨ g.model = .raw)
    (hlines : g.lines = f.lines) (hsubs : g.subs = f.subs)
    (hfree : ∀ l ∈ f.lines, '\n' ∉ l.toList) (e e' : Effects σ) :
    if f.lines = [] then
      ((Block.node g cs).content (.ofSubstitutor s)).run e' = (.ok none, e') ∧
      s.usesOf (fun s => (Block.node g cs).content (.ofSubstitutor s)) e' = [] ∧
      (Block.node f bs).content (.ofSubstitutor s) = some <$> s.applyText "" f.subs
    else
      match (((Block.node f bs).content (.ofSubstitutor s)).run e).1 with
      | .error r => (((Block.node g cs).content (.ofSubstitutor s)).run e').1 = .error r
      | .ok none => False
      | .ok (some t) => ∃ c,
          (((Block.node g cs).content (.ofSubstitutor s)).run e').1 = .ok (some c) ∧
          ('\n' ∉ t.toList → c = t) ∧
          ('\n' ∈ t.toList → ∀ d, d = c ↔ Text.Trims t d) := by
  have hsimple := content_of_simple (Pipeline.ofSubstitutor s) bs hf
  have hcontent {τ : Type} (r : Substitutor τ) : (Block.node g cs).content (.ofSubstitutor r) =
      lineContent <$> r.applyLines f.lines f.subs := by
    rw [content_of_lineOriented _ cs hg, hlines, hsubs]
    rfl
  by_cases hne : f.lines = []
  · simp only [hsimple, Substitutor.usesOf, hcontent, hne, Substitutor.applyLines_nil]
    exact ⟨rfl, rfl, rfl⟩
  · rw [if_neg hne, hsimple, hcontent, Substitutor.applyLines_eq_split s hne hfree]
    simp only [Run.map_run]
    -- both start from the text of the lines, and what it becomes does not depend on the state
    obtain ⟨r, hr⟩ : (s.applyText (joinLines f.lines) f.subs).Steady :=
      Substitutor.applyText_composed Run.steady_composable (Substitutor.step_steady hs) _ _
    have htext : (((Pipeline.ofSubstitutor s).text f.subs (joinLines f.lines)).run e).1 = r := hr e
    rw [htext, hr e']
    cases r with
    | error r => rfl
    | ok t =>
      obtain ⟨c, hc, hone, hmany⟩ := exists_lineContent_splitFeeds t
      exact ⟨c, congrArg Except.ok hc, hone, hmany⟩

def broken (model : ContentModel) : Fields :=
  ⟨"p", model, none, none, none, [], ["break"], ["", "a"]⟩

theorem content_agrees_simple_broken :
    Substitutor.breaking.Stateless ∧ (∀ l ∈ (broken .simple).lines, '\n' ∉ l.toList) ∧
      ((Block.node (broken .simple) []).content (.ofSubstitutor .breaking)).run ⟨(), []⟩ =
        (.ok (some "\na\n"), ⟨(), []⟩) ∧
      (((Block.node (broken .raw) []).content (.ofSubstitutor .breaking)).run ⟨(), []⟩).1 =
        .ok (some "a") := by
  have hfree : ∀ l ∈ (broken .simple).lines, '\n' ∉ l.toList := by decide
  have hsimple : ((Block.node (broken .simple) []).content (.ofSubstitutor .breaking)).run
      ⟨(), []⟩ = (.ok (some "\na\n"), ⟨(), []⟩) := rfl
  have h := content_agrees_simple Substitutor.breaking_stateless (broken .simple) (broken .raw)
    [] [] rfl (.inr rfl) rfl rfl hfree ⟨(), []⟩ ⟨(), []⟩
  have hsome : (broken .simple).lines ≠ [] := List.cons_ne_nil _ _
  rw [if_neg hsome, hsimple] at h
  obtain ⟨c, hc, -, hmany⟩ := h
  have htrims : Text.Trims "\na\n" "a" :=
    ⟨[""], ["a"], [""], by decide, ⟨by decide, by decide, by decide, by decide⟩, rfl⟩
  obtain rfl := (hmany (by decide) "a").2 htrims
  exact ⟨Substitutor.breaking_stateless, hfree, hsimple, hc⟩

end Block

/-- The pipelines of blocks without a document, and in a document that has a substitutor. -/
inductive Pipeline.Standard {σ : Type} : Pipeline (Run σ) → Prop
  | detached : Standard .detached
  | document (s : Substitutor σ) : Standard (.ofSubstitutor s)

theorem Pipeline.Standard.lines_nil {σ : Type} {p : Pipeline (Run σ)} (hp : p.Standard)
    (ls : List String) : p.lines [] ls = pure ls := by
  cases hp <;> rfl

namespace Block

theorem content_unsubstituted {p : Pipeline (Run σ)} (hp : p.Standard) {f : Fields}
    (bs : List Block) (hf : f.model = .verbatim ∨ f.model = .raw) (hsubs : f.subs = []) :
    (Block.node f bs).content p = pure (lineContent f.lines) := by
  rw [content_of_lineOriented p bs hf, hsubs, hp.lines_nil, map_pure]

end Block

end BlockTree
