import BlockTree.Proofs.Definition.Mirror
import BlockTree.Proofs.Export.Composed
import BlockTree.Proofs.Text.Lines
import BlockTree.Proofs.Value.Present

/-! Documents that are built again from their exports. All that changes is the lines: they are
exported as one text, and that text is cut again. -/
namespace BlockTree

open Definition (AllMirror Describes)
open Text (Restorable linesOf joinLines)

/-- The fields with their lines joined and cut again. -/
def Fields.relined (f : Fields) : Fields := { f with lines := linesOf (joinLines f.lines) }

theorem Fields.relined_eq_self_iff {f : Fields} : f.relined = f ↔ Restorable f.lines := by
  rw [← Text.linesOf_joinLines_iff]
  constructor
  · intro h
    exact congrArg Fields.lines h
  · intro h
    rw [relined, h]

namespace Block

mutual
def relined : Block → Block
  | .node f bs => .node f.relined (relinedAll bs)

def relinedAll : List Block → List Block
  | [] => []
  | b :: bs => b.relined :: relinedAll bs
end

mutual
theorem relined_eq_self_iff : (b : Block) →
    (b.relined = b ↔ ∀ c ∈ b.preorder, Restorable c.fields.lines)
  | .node f bs => by
    rw [relined, Block.node.injEq, f.relined_eq_self_iff, relinedAll_eq_self_iff bs, preorder,
      List.forall_mem_cons]
    rfl

theorem relinedAll_eq_self_iff : (bs : List Block) →
    (relinedAll bs = bs ↔ ∀ c ∈ preorderAll bs, Restorable c.fields.lines)
  | [] => by simp [relinedAll, preorderAll]
  | b :: bs => by
    rw [relinedAll, List.cons.injEq, relined_eq_self_iff b, relinedAll_eq_self_iff bs, preorderAll,
      List.forall_mem_append]
end

end Block

def Document.relined (d : Document) : Document := ⟨d.attributes, Block.relinedAll d.blocks⟩

theorem Document.relined_eq_self_iff {d : Document} :
    d.relined = d ↔ ∀ b ∈ Block.preorderAll d.blocks, Restorable b.fields.lines := by
  rw [← Block.relinedAll_eq_self_iff]
  constructor
  · intro h
    exact congrArg Document.blocks h
  · intro h
    rw [relined, h]

@[simp]
theorem Value.same_str (s t : String) : (Value.str s).same (.str t) = (s == t) := by
  simp [same, identical, eqv, eqvScalar]

theorem Entries.get_record (fs : List (String × Value)) (name : String) :
    Entries.get (fs.map fun f => (.str f.1, f.2)) name = (fs.lookup name).getD .null := by
  induction fs with
  | nil => rfl
  | cons f fs ih =>
    rw [List.map_cons, get, find?, Value.same_str, List.lookup_cons]
    by_cases h : f.1 = name
    · simp [h]
    · have h' : (name == f.1) = false := beq_false_of_ne fun hn => h hn.symm
      simpa [h, h', get] using ih

@[simp]
theorem Value.form_str (s : String) : (Value.str s).form = .ok s := rfl

@[simp]
theorem ContentModel.ofValue_name (m : ContentModel) : ofValue (.str m.name) = .ok m := by
  have hform : nameForm m.name = m.name := by cases m <;> decide
  have hnamed : named? (nameForm m.name) = some m := by rw [hform, named?_eq_some_iff]
  simp [ofValue, bind, Except.bind, hnamed, pure, Except.pure]

@[simp]
theorem Value.formIfAny_ofText? (o : Option String) : (Value.ofText? o).formIfAny = .ok o := by
  cases o <;> rfl

@[simp]
theorem Value.strings?_map_str (ss : List String) : strings? (ss.map .str) = some ss := by
  induction ss with
  | nil => rfl
  | cons s ss ih => simp [strings?, text?, ih]

@[simp]
theorem Value.attributes_map (es : Entries) : (Value.map es).attributes = .ok es := by
  cases es <;> rfl

namespace Definition

variable {τ : Type} {path : List Nat}

def exportedEntries (f : Fields) (content : Option String) (xs : List Exported) : Entries :=
  (blockFields (.str f.context) (.str f.model.name) (.ofText? f.style) (.ofText? f.id)
    (.ofText? f.title) (.map f.attributes) (.list (f.subs.map .str)) (.str (joinLines f.lines))
    (.ofText? content) (.list (Exported.toValues xs))).map fun e => (.str e.1, e.2)

variable {f : Fields} {content : Option String} {xs : List Exported}

theorem fields_exported (hf : f.context ≠ "") :
    fields path (exportedEntries f content xs) = .ok f.relined := by
  have hsubs : subs? (.list (f.subs.map .str)) = some f.subs := Value.strings?_map_str f.subs
  simp only [fields, exportedEntries, Entries.get_record, blockFields, List.lookup_cons,
    String.reduceBEq, Option.getD_some, Value.truthy, Value.form_str, ContentModel.ofValue_name,
    attributes?, hsubs, lines?, Value.formIfAny_ofText?, hf, ne_eq, not_false_eq_true, decide_true,
    if_true, bind, Except.bind, pure, Except.pure]
  rfl

theorem get_blocks_exported :
    (exportedEntries f content xs).get "blocks" = .list (Exported.toValues xs) := by
  rw [exportedEntries, Entries.get_record]
  rfl

section

variable {σ : Type} {p : Pipeline (Run σ)} {e e' : Effects σ}

mutual
theorem exported_rebuilt (path : List Nat) {x : Exported} {e e' : Effects σ} : (b : Block) →
    (b.exported p).run e = (.ok x, e') → (∀ c ∈ b.preorder, c.fields.context ≠ "") →
      (block path x.toValue : Run τ Block).Gives (.ok b.relined)
  | .node f bs, h, hcontext => by
    rw [Block.preorder, List.forall_mem_cons] at hcontext
    obtain ⟨c, e₁, _, h⟩ := Run.bind_eq_ok h
    obtain ⟨xs, e₂, hxs, h⟩ := Run.bind_eq_ok h
    cases h
    have hchildren : (nestedIn path (exportedEntries f c xs) : Run τ (List Block)).Gives
        (.ok (Block.relinedAll bs)) := by
      rw [nestedIn_eq_children, get_blocks_exported]
      exact exportedAll_rebuilt path 0 bs hxs hcontext.2
    -- the fields, the note about children that are not rendered, and the children, one by one
    refine Run.gives_bind_ok (Run.gives_ofExcept (fields_exported hcontext.1)) ?_
    refine Run.gives_bind_ok (noteUnrendered_of_holdsBlocks (.inr ⟨_, get_blocks_exported⟩)) ?_
    exact Run.gives_bind_ok hchildren (Run.gives_pure _)

theorem exportedAll_rebuilt (path : List Nat) (i : Nat) {xs : List Exported} {e e' : Effects σ} :
    (bs : List Block) → (Block.exportedAll p bs).run e = (.ok xs, e') →
      (∀ c ∈ Block.preorderAll bs, c.fields.context ≠ "") →
      (blocks path i (Exported.toValues xs) : Run τ (List Block)).Gives (.ok (Block.relinedAll bs))
  | [], h, _ => by
    cases h
    exact Run.gives_pure []
  | b :: bs, h, hcontext => by
    rw [Block.preorderAll, List.forall_mem_append] at hcontext
    obtain ⟨x, e₁, hx, h⟩ := Run.bind_eq_ok h
    obtain ⟨xs, e₂, hxs, h⟩ := Run.bind_eq_ok h
    cases h
    refine Run.gives_bind_ok (exported_rebuilt (path ++ [i]) b hx hcontext.1) ?_
    refine Run.gives_bind_ok (exportedAll_rebuilt path (i + 1) bs hxs hcontext.2) ?_
    exact Run.gives_pure _
end

theorem document_rebuilt {d : Document} {x : ExportedDocument}
    (h : (d.exported p).run e = (.ok x, e'))
    (hcontext : ∀ b ∈ Block.preorderAll d.blocks, b.fields.context ≠ "") :
    (document x.toValue : Run τ Document).Gives (.ok d.relined) := by
  obtain ⟨content, e₁, _, h⟩ := Run.bind_eq_ok h
  obtain ⟨xs, e₂, hxs, h⟩ := Run.bind_eq_ok h
  cases h
  let es : Entries := (documentFields (.map d.attributes) (.str content)
    (.list (Exported.toValues xs))).map fun e => (.str e.1, e.2)
  have hattributes : (es.get "attributes").attributes = .ok d.attributes := by
    rw [Entries.get_record]
    exact Value.attributes_map d.attributes
  have hblocks : (nestedIn [] es : Run τ (List Block)).Gives (.ok (Block.relinedAll d.blocks)) := by
    rw [nestedIn_eq_children, Entries.get_record]
    exact exportedAll_rebuilt [] 0 d.blocks hxs hcontext
  refine Run.gives_bind_ok (Run.gives_ofExcept hattributes) ?_
  exact Run.gives_bind_ok hblocks (Run.gives_bind_ok (Run.gives_note _) (Run.gives_pure _))

theorem contexts_ne_empty {vs : List Value} {bs : List Block} (h : AllMirror vs bs) :
    ∀ c ∈ Block.preorderAll bs, c.fields.context ≠ "" := by
  let named (f : Fields) : Prop := f.context ≠ ""
  have hnamed (v : Value) (f : Fields) (hf : Describes v f) : True ↔ named f :=
    iff_of_true trivial (Value.form_ne_empty hf.present hf.context)
  exact (everywhere_iff_preorder hnamed h).1 fun _ _ _ _ _ => trivial

end

end Definition

open Definition in
/-- A built document can be exported and built again from its export. It comes out the same exactly
if all its lines are restorable, and then, if the substitutions have no state, it is exported in the
same way again. -/
theorem Document.export_rebuilds {σ : Type} {s : Substitutor σ} (hs : s.Returns) {es : Entries}
    {d : Document} {e e' : Effects σ} (h : (document (.map es)).run e = (.ok d, e'))
    (e₁ : Effects σ) :
    ∃ x e₂ d', (d.exported (.ofSubstitutor s)).run e₁ = (.ok x, e₂) ∧
      (document x.toValue : Run σ Document).Gives (.ok d') ∧
      (d' = d ↔ ∀ b ∈ Block.preorderAll d.blocks, Restorable b.fields.lines) ∧
      (d' = d → s.Stateless → (d'.exported (.ofSubstitutor s)).Gives (.ok x)) := by
  obtain ⟨x, e₂, hx⟩ :=
    Document.exported_composed Run.returns_composable (Substitutor.step_returns hs) d e₁
  have hcontext := contexts_ne_empty (document_tree h).2
  refine ⟨x, e₂, d.relined, hx, document_rebuilt hx hcontext, d.relined_eq_self_iff, ?_⟩
  intro hd hstateless
  rw [hd]
  exact (Document.exported_composed Run.steady_composable (Substitutor.step_steady hstateless)
    d).gives hx

def markedListing : Entries := [(.str "blocks", .list [
  .map [(.str "context", .str "listing"), (.str "content_model", .str "raw"),
    (.str "source", .str "a\r\n\nb\n"), (.str "blocks", .list [
      .map [(.str "context", .str "p"), (.str "subs", .list [.str "mark"]),
        (.str "source", .list [.str "c"])]])]])]

def markedListingDocument : Document := ⟨[], [
  .node ⟨"listing", .raw, none, none, none, [], [], ["a", "", "b"]⟩ [
    .node ⟨"p", .simple, none, none, none, [], ["mark"], ["c"]⟩ []]]⟩

theorem Document.export_rebuilds_markedListing :
    ∃ x e₂, (markedListingDocument.exported (.ofSubstitutor .marking)).run ⟨(), []⟩ =
        (.ok x, e₂) ∧
      (Definition.document x.toValue : Run Unit Document).Gives (.ok markedListingDocument) ∧
      (markedListingDocument.exported (.ofSubstitutor .marking)).Gives (.ok x) := by
  have hbuilt : (Definition.document (.map markedListing)).run (⟨(), []⟩ : Effects Unit) =
      (.ok markedListingDocument,
        ⟨(), [.unrendered [0] .raw (.str "listing") 1, .built 1]⟩) := by with_unfolding_all rfl
  obtain ⟨x, e₂, d', hx, hd', hiff, hagain⟩ :=
    export_rebuilds Substitutor.marking_returns hbuilt ⟨(), []⟩
  have hlines : ∀ b ∈ Block.preorderAll markedListingDocument.blocks,
      Restorable b.fields.lines := by
    simp only [markedListingDocument, Block.preorderAll, Block.preorder, List.append_nil,
      List.forall_mem_cons, Block.fields]
    exact ⟨(Text.linesOf_joinLines_iff).1 (by with_unfolding_all rfl),
      (Text.linesOf_joinLines_iff).1 (by with_unfolding_all rfl), List.forall_mem_nil _⟩
  obtain rfl := hiff.2 hlines
  exact ⟨x, e₂, hx, hd', hagain rfl Substitutor.marking_stateless⟩

end BlockTree
