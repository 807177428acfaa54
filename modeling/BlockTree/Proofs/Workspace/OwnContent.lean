import BlockTree.Proofs.Rendering.LineContent
import BlockTree.Proofs.Workspace.Live
import BlockTree.Workspace.Assembly

/-! The content of a node from its own lines. Where the lists of a block hold nothing but texts, the
node has the content that the block of a tree has with these lines and names. -/
namespace BlockTree

open Text (joinLines linesOf splitFeeds)

namespace Datum

variable {ls : Lists} {d : Datum} {ts : List String}

/-- A datum whose items are these texts. -/
structure Texts (ls : Lists) (d : Datum) (ts : List String) : Prop where
  each : d.each ls = .ok (ts.map .text)
  truthy : d.truthy ls = !ts.isEmpty

theorem texts_items (ls : Lists) (ts : List String) : Texts ls (.items (ts.map .text)) ts where
  each := rfl
  truthy := by rw [Datum.truthy, List.isEmpty_map]

theorem texts_shared {l : ListId} (h : ls[l]? = some (ts.map .text)) : Texts ls (.shared l) ts where
  each := by rw [Datum.each, Realizes.items_eq h]
  truthy := by rw [Datum.truthy, Realizes.items_eq h, List.isEmpty_map]

theorem joined_texts (index : Nat) (ts : List String) : joined index (ts.map .text) = .ok ts := by
  induction ts generalizing index with
  | nil => rfl
  | cons t ts ih =>
    rw [List.map_cons, text, joined, ih]
    rfl

theorem Texts.join (h : Texts ls d ts) : d.join ls = .ok (joinLines ts) := by
  rw [Datum.join, h.each]
  exact congrArg (joinLines <$> ·) (joined_texts 0 ts)

theorem dropBlank_texts (ts : List String) :
    dropBlank (ts.map .text) = .ok ((ts.dropWhile Text.isBlank).map .text) := by
  induction ts with
  | nil => rfl
  | cons t ts ih =>
    rw [List.map_cons, dropBlank]
    refine (except_bind_of_ok (rfl : (text t).blank = .ok (Text.isBlank t))).trans ?_
    by_cases ht : Text.isBlank t
    · rw [if_pos ht, ih, List.dropWhile_cons_of_pos ht]
    · rw [if_neg ht, List.dropWhile_cons_of_neg ht]
      rfl

theorem lineContent_texts (ls : Lists) (ts : List String) :
    (Datum.items (ts.map .text)).lineContent ls = .ok (.ofText? (BlockTree.lineContent ts)) := by
  match ts with
  | [] => rfl
  | [t] => rfl
  | t :: u :: ts =>
    have hback (us : List String) : dropBlank (us.map text).reverse =
        .ok ((us.reverse.dropWhile Text.isBlank).map .text) := by
      rw [← List.map_reverse, dropBlank_texts]
    have hjoined (us : List String) : joined 0 (us.map text).reverse = .ok us.reverse := by
      rw [← List.map_reverse, joined_texts]
    exact (except_bind_of_ok (dropBlank_texts (t :: u :: ts))).trans <|
      (except_bind_of_ok (hback _)).trans (except_bind_of_ok (hjoined _))

end Datum

namespace Workspace

variable {w : Workspace} {subs : Datum} {ls names : List String} {t : String}

theorem foldlM_applyName (s : Substitutor Tally) (t : String) (names : List String) :
    (names.map Datum.text).foldlM (applyName s) t = s.applyText t names := by
  rw [Substitutor.applyText, List.foldlM_map]
  rfl

theorem substitute_text (s : Substitutor Tally) (h : subs.Texts w.lists names) :
    w.substitute s (.text t) subs = .text <$> s.applyText t names := by
  rw [substitute_eq_text w s rfl, h.truthy, h.each]
  cases names with
  | nil => rfl
  | cons name names =>
    have hnames : (!(name :: names).isEmpty) = true := rfl
    rw [if_pos hnames, map_eq_pure_bind, ← foldlM_applyName]
    rfl

theorem substitute_lines (s : Substitutor Tally) (h : subs.Texts w.lists names) :
    w.substitute s (.items (ls.map .text)) subs =
      (fun ls => .items (ls.map .text)) <$> s.applyLines ls names := by
  have hls := Datum.texts_items w.lists ls
  rw [substitute_eq_lines w s rfl, h.truthy, hls.truthy, h.each, hls.join]
  cases names with
  | nil => rfl
  | cons name names =>
    cases ls with
    | nil => rfl
    | cons l ls =>
      have hnames : (!(name :: names).isEmpty) = true := rfl
      have hlines : (!(l :: ls).isEmpty) = true := rfl
      rw [if_pos hnames, if_pos hlines, Substitutor.applyLines, if_neg (by simp), if_neg (by simp),
        map_bind, ← foldlM_applyName]
      rfl

/-- The pipeline that a node is under: that of its document, or none at all. -/
inductive Under (w : Workspace) (b : Node) : Pipeline (Run Tally) → Prop
  | detached : w.documentOf b = .ok none → Under w b .detached
  | document {i : Nat} {c : Converter} : w.documentOf b = .ok (some (.substitutor i, c)) →
      Under w b (.ofSubstitutor (w.substitutorAt i))

theorem Under.standard {b : Node} {p : Pipeline (Run Tally)} (h : w.Under b p) : p.Standard := by
  cases h with
  | detached => exact .detached
  | document => exact .document _

theorem applySubs_text {b : Node} {p : Pipeline (Run Tally)} (hp : w.Under b p)
    (h : subs.Texts w.lists names) :
    w.applySubs b (.text t) subs = .text <$> p.text names t := by
  cases hp with
  | detached hb =>
    rw [applySubs, hb]
    rfl
  | document hb =>
    rw [applySubs, hb]
    exact substitute_text _ h

theorem applySubs_lines {b : Node} {p : Pipeline (Run Tally)} (hp : w.Under b p)
    (h : subs.Texts w.lists names) (ls : List String) :
    w.applySubs b (.items (ls.map .text)) subs =
      (fun ls => .items (ls.map .text)) <$> p.lines names ls := by
  cases hp with
  | detached hb =>
    rw [applySubs, hb]
    rfl
  | document hb =>
    rw [applySubs, hb]
    exact substitute_lines _ h

/-- A node is a block of this model with these lines and names, under this pipeline. -/
def Contains (w : Workspace) (n : NodeId) (model : ContentModel) (lines names : List String)
    (p : Pipeline (Run Tally)) : Prop :=
  ∃ b ls subs, w.nodes[n]? = some b ∧ b.body = .block model ls subs ∧ ls.Texts w.lists lines ∧
    subs.Texts w.lists names ∧ w.Under b p

theorem ownContent_eq {b : Node} {p : Pipeline (Run Tally)} {lines subs : Datum} {f : Fields}
    (hlines : lines.Texts w.lists f.lines) (hsubs : subs.Texts w.lists f.subs) (hp : w.Under b p) :
    w.ownContent b f.model lines subs = .ofText? <$> Block.ownContent p f := by
  cases hmodel : f.model with
  | compound | empty =>
    rw [Block.ownContent, hmodel]
    rfl
  | simple =>
    rw [Block.ownContent, hmodel, ownContent, hlines.join]
    refine (applySubs_text hp hsubs).trans ?_
    simp only [map_eq_pure_bind, bind_assoc, pure_bind]
    rfl
  | verbatim | raw =>
    rw [Block.ownContent, hmodel, ownContent, hlines.each]
    have h := applySubs_lines hp hsubs f.lines
    refine (congrArg (· >>= fun d => Run.ofExcept (d.lineContent w.lists)) h).trans ?_
    simp only [map_eq_pure_bind, bind_assoc, pure_bind, Datum.lineContent_texts]
    rfl

theorem content_eq {n : NodeId} {f : Fields} {p : Pipeline (Run Tally)}
    (h : w.Contains n f.model f.lines f.subs p) (hf : f.model ≠ .compound) (bs : List Block)
    (fuel : Nat) : w.content (fuel + 1) n = .ofText? <$> (Block.node f bs).content p := by
  obtain ⟨b, ls, subs, hb, hbody, hls, hsubs, hp⟩ := h
  have hcontent : w.content (fuel + 1) n = w.ownContent b f.model ls subs := by
    rw [content, node_eq_ok_iff.2 hb]
    refine Eq.trans (pure_bind _ _) ?_
    rw [hbody]
    exact if_neg hf
  rw [hcontent, ownContent_eq hls hsubs hp, Block.content, if_neg hf]

theorem contains_addBlock (w : Workspace) (label : String) (context : Datum)
    (parent : Option NodeId) {o : Options} (names : List String) {s : String}
    (hsource : o.source = .text s) (hnames : w.listAt o.subs = names.map .text) :
    ∃ w' b, w.addBlock label context parent o = .ok w' ∧ w'.nodes[w.nodes.length]? = some b ∧
      (b.document = parent.bind fun n => w.nodes[n]?.bind (·.document)) ∧
      ∀ p, w'.Under b p → w'.Contains w.nodes.length o.model (Text.linesOf s) names p := by
  have hlines : Options.lines w.lists o.source = .ok ((Text.linesOf s).map .text) := by
    rw [hsource]
    rfl
  have hnode (ns : List Node) (b : Node) : (ns ++ [b])[ns.length]? = some b :=
    List.getElem?_concat_length
  refine ⟨_, _, addBlock_of_lines hlines label context parent, hnode w.nodes _, rfl, fun p hp => ?_⟩
  refine ⟨_, _, _, hnode w.nodes _, rfl, Datum.texts_shared ?_, Datum.texts_shared ?_, hp⟩
  · simp [withBlock]
  · simp [withBlock, hnames]

end Workspace

/-- Blocks of a model that are made from the source `s` without names have the content `c`: in trees
and as nodes of a workspace, with a document and without one. Asking for it has no effect. -/
structure SourceContent (model : ContentModel) (s : String) (c : Option String) : Prop where
  tree : ∀ {σ : Type} {p : Pipeline (Run σ)}, p.Standard → ∀ (f : Fields) (bs : List Block),
    f.model = model → f.lines = linesOf s → f.subs = [] →
      ∀ e, ((Block.node f bs).content p).run e = (.ok c, e)
  node : ∀ {w : Workspace} {n : NodeId} {p : Pipeline (Run Tally)},
    w.Contains n model (linesOf s) [] p →
      ∀ fuel e, (w.content (fuel + 1) n).run e = (.ok (.ofText? c), e)

theorem sourceContent_lineContent {model : ContentModel} (h : model = .verbatim ∨ model = .raw)
    (s : String) : SourceContent model s (lineContent (linesOf s)) where
  tree hp f bs hmodel hlines hnames e := by
    rw [Block.content_unsubstituted hp bs (hmodel ▸ h) hnames, hlines]
    rfl
  node {w n p} hn fuel e := by
    have hmodel : model ≠ .compound := by rcases h with rfl | rfl <;> nofun
    let f : Fields := ⟨"", model, none, none, none, [], [], linesOf s⟩
    have hp : p.Standard := by
      obtain ⟨b, ls, subs, -, -, -, -, hp⟩ := hn
      exact hp.standard
    rw [Workspace.content_eq (f := f) hn hmodel [], Block.content_unsubstituted hp [] h rfl]
    rfl

/-- A verbatim or raw block without names has its content from its source alone. If this content is
not empty and does not start with a byte order mark, a block that has it as its source has it as its
content again. -/
theorem content_idempotent {model : ContentModel} (h : model = .verbatim ∨ model = .raw)
    (s : String) :
    ∃ c, SourceContent model s c ∧
      ∀ t, c = some t → t ≠ "" → t.toList.head? ≠ some '\ufeff' →
        SourceContent model t (some t) := by
  refine ⟨lineContent (linesOf s), sourceContent_lineContent h s, fun t hc ht hmark => ?_⟩
  rw [← lineContent_linesOf_content hc ht hmark]
  exact sourceContent_lineContent h t

def Fields.passed (lines : List String) : Fields := ⟨"pass", .raw, none, none, none, [], [], lines⟩

/-- Only one line is left of four. It keeps the spaces around it, and has them still where it is the
source of a block that belongs to no document. -/
theorem content_idempotent_passed :
    SourceContent .raw "\ufeff\n a \r\n\r \n" (some " a ") ∧
      ∃ o w w', Options.ofFields .empty [("content_model", .text "raw"), ("source", .text " a ")] =
          .ok (o, w) ∧ w.addBlock "b" (.text "pass") none o = .ok w' ∧
        ∀ e, (w'.content 1 0).run e = (.ok (.text " a "), e) := by
  obtain ⟨c, hc, hagain⟩ := content_idempotent (.inr rfl : ContentModel.raw = _ ∨ _)
    "\ufeff\n a \r\n\r \n"
  have hlines : (Fields.passed ["", " a ", "", " "]).lines = linesOf "\ufeff\n a \r\n\r \n" := by
    decide
  have hcontent : c = some " a " := by
    have hrun := hc.tree .detached (Fields.passed ["", " a ", "", " "]) [] rfl hlines rfl ⟨(), []⟩
    exact (Except.ok.inj (congrArg Prod.fst hrun)).symm
  have hmade : Options.ofFields .empty [("content_model", .text "raw"), ("source", .text " a ")] =
      .ok (⟨.raw, 0, 0, .text " a "⟩, Workspace.empty.adding [[]] [[]]) := by with_unfolding_all rfl
  obtain ⟨w, b, hw, -, hb, hcontains⟩ := Workspace.contains_addBlock (.adding .empty [[]] [[]]) "b"
    (.text "pass") none (o := ⟨.raw, 0, 0, .text " a "⟩) [] rfl rfl
  have hunder : w.Under b .detached := .detached (by rw [Workspace.documentOf, hb]; rfl)
  have hnode := (hagain " a " hcontent (by decide) (by decide)).node (hcontains _ hunder) 0
  exact ⟨hcontent ▸ hc, _, _, w, hmade, hw, hnode⟩

end BlockTree
