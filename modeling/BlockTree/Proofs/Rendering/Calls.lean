import BlockTree.Render

/-! What rendering asks of its pipeline. Calls are recorded beside the computation; those of a
document are the calls of the blocks it reaches through compound blocks alone, in pre-order. -/
namespace BlockTree

inductive Call
  | text (names : List String) (source : String)
  | lines (names source : List String)
deriving DecidableEq, Repr

variable {m : Type → Type} [Monad m]

def Pipeline.recorded (p : Pipeline m) : Pipeline (StateT (List Call) m) where
  text names s := do
    modify (· ++ [.text names s])
    p.text names s
  lines names ls := do
    modify (· ++ [.lines names ls])
    p.lines names ls

/-- The call that a block makes for its own lines, if its model has it make one. -/
def Fields.call? (f : Fields) : Option Call :=
  match f.model with
  | .simple => some (.text f.subs (Text.joinLines f.lines))
  | .verbatim | .raw => some (.lines f.subs f.lines)
  | .compound | .empty => none

namespace Block

mutual
/-- The block and all below it that only compound blocks lead to, in pre-order. -/
def reached : Block → List Block
  | .node f bs => .node f bs :: if f.model = .compound then reachedAll bs else []

def reachedAll : List Block → List Block
  | [] => []
  | b :: bs => b.reached ++ reachedAll bs
end

def callsOf (bs : List Block) : List Call := bs.filterMap (·.fields.call?)

@[simp]
theorem callsOf_append (as bs : List Block) : callsOf (as ++ bs) = callsOf as ++ callsOf bs :=
  List.filterMap_append

theorem callsOf_compound {f : Fields} (bs : List Block) (h : f.model = .compound) :
    callsOf (Block.node f bs).reached = callsOf (reachedAll bs) := by
  simp [reached, callsOf, fields, Fields.call?, h]

theorem callsOf_leaf {f : Fields} (bs : List Block) (h : f.model ≠ .compound) :
    callsOf (Block.node f bs).reached = f.call?.toList := by
  cases hc : f.call? <;> simp [reached, callsOf, fields, h, hc]

mutual
theorem reached_sublist : ∀ b : Block, b.reached.Sublist b.preorder
  | .node f bs => by
    rw [reached, preorder]
    apply List.Sublist.cons_cons
    split
    · exact reachedAll_sublist bs
    · exact List.nil_sublist _

theorem reachedAll_sublist : ∀ bs : List Block, (reachedAll bs).Sublist (preorderAll bs)
  | [] => List.Sublist.slnil
  | b :: bs => (reached_sublist b).append (reachedAll_sublist bs)
end

end Block

def Document.calls (d : Document) : List Call := Block.callsOf (Block.reachedAll d.blocks)

/-- A computation on record does what the plain one does, and adds these calls. -/
def Records {α : Type} (x : StateT (List Call) m α) (y : m α) (cs : List Call) : Prop :=
  ∀ log, x.run log = (fun a => (a, log ++ cs)) <$> y

namespace Records

variable [LawfulMonad m] {α β : Type}

theorem pure (a : α) : Records (Pure.pure a : StateT (List Call) m α) (Pure.pure a) [] := by
  intro log
  simp

theorem bind {x : StateT (List Call) m α} {y : m α} {cs ds : List Call}
    {f : α → StateT (List Call) m β} {g : α → m β} (hx : Records x y cs)
    (hf : ∀ a, Records (f a) (g a) ds) : Records (x >>= f) (y >>= g) (cs ++ ds) := by
  intro log
  simp only [StateT.run_bind, hx log, bind_map_left, map_bind, ← List.append_assoc]
  exact bind_congr fun a => hf a (log ++ cs)

theorem map {x : StateT (List Call) m α} {y : m α} {cs : List Call} (f : α → β)
    (hx : Records x y cs) : Records (f <$> x) (f <$> y) cs := by
  intro log
  simp [hx log]

theorem text (p : Pipeline m) (names : List String) (s : String) :
    Records (p.recorded.text names s) (p.text names s) [.text names s] := by
  intro log
  simp [Pipeline.recorded]

theorem lines (p : Pipeline m) (names ls : List String) :
    Records (p.recorded.lines names ls) (p.lines names ls) [.lines names ls] := by
  intro log
  simp [Pipeline.recorded]

end Records

namespace Block

variable [LawfulMonad m] (p : Pipeline m)

theorem records_ownContent (f : Fields) :
    Records (ownContent p.recorded f) (ownContent p f) f.call?.toList := by
  cases h : f.model with
  | simple => simpa [ownContent, Fields.call?, h] using (Records.text p _ _).map some
  | verbatim | raw =>
    simpa [ownContent, Fields.call?, h] using (Records.lines p _ _).map lineContent
  | compound | empty => simpa [ownContent, Fields.call?, h] using Records.pure (m := m) none

mutual
theorem records_content : ∀ b : Block,
    Records (b.content p.recorded) (b.content p) (callsOf b.reached)
  | .node f bs => by
    by_cases h : f.model = .compound
    · rw [callsOf_compound bs h]
      simpa [content, h] using (records_contents bs).map fun cs => some (Text.joinLines cs)
    · rw [callsOf_leaf bs h, content, content, if_neg h, if_neg h]
      exact records_ownContent p f

theorem records_contents : ∀ bs : List Block,
    Records (contents p.recorded bs) (contents p bs) (callsOf (reachedAll bs))
  | [] => Records.pure []
  | b :: bs => by
    rw [reachedAll, callsOf_append]
    refine (records_content b).bind fun c => ?_
    simpa using (records_contents bs).map fun cs => c.toList ++ cs
end

end Block

/-- Rendering makes the calls of the reached blocks, each once and in pre-order. -/
theorem Document.records_render [LawfulMonad m] (p : Pipeline m) (d : Document) :
    Records (d.render p.recorded) (d.render p) d.calls := by
  simpa [render, calls] using (Block.records_contents p d.blocks).map Text.joinLines

end BlockTree
