import BlockTree.Export
import BlockTree.Proofs.Substitutor

/-! Rendering and exporting are made of the steps of a pipeline alone: what holds of results, of
steps one after the other and of all that a pipeline does, holds of them. -/
namespace BlockTree

variable {σ : Type} {P : {α : Type} → Run σ α → Prop} {p : Pipeline (Run σ)}

/-- A property of all that a pipeline does. -/
structure Pipeline.Every (P : {α : Type} → Run σ α → Prop) (p : Pipeline (Run σ)) : Prop where
  text : ∀ names s, P (p.text names s)
  lines : ∀ names ls, P (p.lines names ls)

/-- What holds of every substitution by name holds of all that their pipeline does. -/
theorem Substitutor.every {s : Substitutor σ} (hP : Run.Composable P)
    (hstep : ∀ text name, P (s.step text name)) : (Pipeline.ofSubstitutor s).Every P where
  text names t := Substitutor.applyText_composed hP hstep t names
  lines names ls := Substitutor.applyLines_composed hP hstep ls names

namespace Pipeline.Every

theorem ownContent (hp : p.Every P) (hP : Run.Composable P) (f : Fields) :
    P (Block.ownContent p f) := by
  unfold Block.ownContent
  cases f.model with
  | compound | empty => exact hP.pure none
  | simple => exact hP.bind (hp.text _ _) fun _ => hP.pure _
  | verbatim | raw => exact hP.bind (hp.lines _ _) fun _ => hP.pure _

mutual
theorem content (hp : p.Every P) (hP : Run.Composable P) : (b : Block) → P (b.content p)
  | .node f bs => by
    rw [Block.content]
    split
    · exact hP.bind (hp.contents hP bs) fun _ => hP.pure _
    · exact hp.ownContent hP f

theorem contents (hp : p.Every P) (hP : Run.Composable P) :
    (bs : List Block) → P (Block.contents p bs)
  | [] => hP.pure []
  | b :: bs => hP.bind (hp.content hP b) fun _ => hP.bind (hp.contents hP bs) fun _ => hP.pure _
end

theorem render (hp : p.Every P) (hP : Run.Composable P) (d : Document) : P (d.render p) :=
  hP.bind (hp.contents hP d.blocks) fun _ => hP.pure _

mutual
theorem exported (hp : p.Every P) (hP : Run.Composable P) : (b : Block) → P (b.exported p)
  | .node f bs => hP.bind (hp.content hP (.node f bs)) fun _ =>
      hP.bind (hp.exportedAll hP bs) fun _ => hP.pure _

theorem exportedAll (hp : p.Every P) (hP : Run.Composable P) :
    (bs : List Block) → P (Block.exportedAll p bs)
  | [] => hP.pure []
  | b :: bs => hP.bind (hp.exported hP b) fun _ => hP.bind (hp.exportedAll hP bs) fun _ => hP.pure _
end

theorem exportedDocument (hp : p.Every P) (hP : Run.Composable P) (d : Document) :
    P (d.exported p) :=
  hP.bind (hp.render hP d) fun _ => hP.bind (hp.exportedAll hP d.blocks) fun _ => hP.pure _

end Pipeline.Every

theorem Document.exported_composed {s : Substitutor σ} (hP : Run.Composable P)
    (hstep : ∀ text name, P (s.step text name)) (d : Document) :
    P (d.exported (.ofSubstitutor s)) :=
  (Substitutor.every hP hstep).exportedDocument hP d

end BlockTree
