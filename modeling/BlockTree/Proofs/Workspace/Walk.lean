import BlockTree.Proofs.Workspace.Spanning
import BlockTree.Workspace.Query

/-! Rendering, exporting and outlining walk down the tree below a node, and in a forest they come to
an end: what they do is given by recursion on that tree, without a bound. -/
namespace BlockTree

open Link (childrenAt Below Spans Forest)

namespace Workspace

variable (w : Workspace)

def converted (n : NodeId) (content : Run Tally Datum) : Run Tally Datum := do
  let b ← Run.ofExcept (w.node n)
  match ← Run.ofExcept (w.documentOf b) with
  | none | some (_, .content) => content
  | some (_, .mute) => return .null
  | some (_, .tag) =>
    let d ← content
    if d.isNull then return d
    else
      let name := (w.resolve b.context).text
      return .text ("<" ++ name ++ ">" ++ (w.resolve d).text ++ "</" ++ name ++ ">")

mutual
/-- The content of the root of a tree of nodes. -/
def contentAlong : Rose NodeId → Run Tally Datum
  | .node n ts => do
    let b ← Run.ofExcept (w.node n)
    match b.body with
    | .block model lines subs =>
      if model = .compound then Run.ofExcept (joinOutputs (← outputsAlong ts))
      else w.ownContent b model lines subs
    | _ => Run.ofExcept (joinOutputs (← outputsAlong ts))

def outputsAlong : List (Rose NodeId) → Run Tally (List Datum)
  | [] => pure []
  | t :: ts => do
    let d ← w.converted t.root (contentAlong t)
    let ds ← outputsAlong ts
    return d :: ds
end

def convertAlong (t : Rose NodeId) : Run Tally Datum := w.converted t.root (w.contentAlong t)

/-- What is exported of a node itself, and how the exports of its children go in. -/
def entry (n : NodeId) : Run Tally (List Value → Value) := do
  let b ← Run.ofExcept (w.node n)
  let (source, subs) ← Run.ofExcept (w.exportedOwn b.body)
  let content ← w.content w.reach n
  return fun blocks => .record (blockFields (w.resolve b.context) (.str b.body.model.name)
    (w.resolve b.style) (w.resolve b.id) (w.resolve b.title) (w.attributesOf b.attributes) subs
    source (w.resolve content) (.list blocks))

variable {w}

theorem children_eq {n : NodeId} {b : Node} (h : w.node n = .ok b) :
    childrenAt w.links n = b.children := by
  simp [childrenAt, node_eq_ok_iff.1 h, Node.link]

section Fuel

variable {m : Type → Type} [Monad m] {β γ : Type} {one : Nat → NodeId → m β} {none : γ}
  {add : β → γ → γ} {k : Nat}

/-- A walk through a list that spends fuel on every node goes as a walk along the trees, if it does
so for each of them. -/
theorem walk_eq (all : Nat → List NodeId → m γ) (along : Rose NodeId → m β)
    (alongAll : List (Rose NodeId) → m γ) (hk : 0 < k) (hnil : ∀ fuel, all fuel [] = pure none)
    (hcons : ∀ fuel n ns, all (fuel + 1) (n :: ns) =
      one fuel n >>= fun d => all fuel ns >>= fun ds => pure (add d ds))
    (halongNil : alongAll [] = pure none)
    (halongCons : ∀ t ts, alongAll (t :: ts) =
      along t >>= fun d => alongAll ts >>= fun ds => pure (add d ds))
    (ts : List (Rose NodeId)) {fuel : Nat} (hfuel : k * (Rose.toLists ts).length ≤ fuel)
    (hone : ∀ t ∈ ts, ∀ fuel, k * t.toList.length ≤ fuel + 1 → one fuel t.root = along t) :
    all fuel (ts.map Rose.root) = alongAll ts := by
  induction ts generalizing fuel with
  | nil => rw [List.map_nil, hnil, halongNil]
  | cons t ts ih =>
    obtain ⟨hfirst, hrest⟩ := List.forall_mem_cons.1 hone
    have hpos : 0 < k * t.toList.length := Nat.mul_pos hk t.length_toList_pos
    rw [Rose.toLists, List.length_append, Nat.mul_add] at hfuel
    cases fuel with
    | zero => omega
    | succ fuel =>
      have hsmaller : k * (Rose.toLists ts).length ≤ fuel := by omega
      rw [List.map_cons, hcons, halongCons, hfirst fuel (by omega), ih hsmaller hrest]

end Fuel

theorem convert_succ (fuel : Nat) (n : NodeId) :
    w.convert (fuel + 1) n = w.converted n (w.content fuel n) := by
  rw [convert]
  rfl

theorem content_eq_along {t : Rose NodeId} (h : Spans w.links t) {fuel : Nat}
    (hfuel : 3 * t.toList.length ≤ fuel + 2) : w.content fuel t.root = w.contentAlong t := by
  induction h generalizing fuel with
  | @node n ts hroots hts ih =>
    rw [Rose.toList, List.length_cons] at hfuel
    obtain ⟨fuel, rfl⟩ := Nat.exists_eq_add_one.2 (by omega : 0 < fuel)
    have hbelow : w.outputs fuel (ts.map Rose.root) = w.outputsAlong ts := by
      refine walk_eq w.outputs w.convertAlong w.outputsAlong (Nat.succ_pos 2)
        (fun _ => by rw [outputs]) (fun _ _ _ => by rw [outputs]) (by rw [outputsAlong])
        (fun _ _ => by rw [outputsAlong]; rfl) ts (by omega) ?_
      intro t ht fuel hfuel
      have hpos := t.length_toList_pos
      obtain ⟨fuel, rfl⟩ := Nat.exists_eq_add_one.2 (by omega : 0 < fuel)
      rw [convert_succ, ih t ht hfuel, convertAlong]
    rw [Rose.root, content, contentAlong]
    cases hn : w.node n with
    | error f => rfl
    | ok b =>
      rw [hroots, children_eq hn] at hbelow
      rw [← hbelow]
      rfl

theorem convert_eq_along {t : Rose NodeId} (h : Spans w.links t) {fuel : Nat}
    (hfuel : 3 * t.toList.length ≤ fuel + 1) : w.convert fuel t.root = w.convertAlong t := by
  have hpos := t.length_toList_pos
  obtain ⟨fuel, rfl⟩ := Nat.exists_eq_add_one.2 (by omega : 0 < fuel)
  rw [convert_succ, content_eq_along h hfuel, convertAlong]

theorem exportedNode_eq_along {t : Rose NodeId} (h : Spans w.links t) {fuel : Nat}
    (hfuel : 2 * t.toList.length ≤ fuel + 1) :
    w.exportedNode fuel t.root = Rose.fold <$> t.mapM w.entry := by
  induction h generalizing fuel with
  | @node n ts hroots hts ih =>
    rw [Rose.toList, List.length_cons] at hfuel
    obtain ⟨fuel, rfl⟩ := Nat.exists_eq_add_one.2 (by omega : 0 < fuel)
    have hbelow : w.exportedNodes fuel (ts.map Rose.root) =
        Rose.foldAll <$> Rose.mapAllM w.entry ts := by
      refine walk_eq w.exportedNodes (fun t => Rose.fold <$> t.mapM w.entry)
        (fun ts => Rose.foldAll <$> Rose.mapAllM w.entry ts) (Nat.succ_pos 1)
        (fun _ => by rw [exportedNodes]) (fun _ _ _ => by rw [exportedNodes])
        (by simp [Rose.mapAllM, Rose.foldAll])
        (fun t ts => by simp [Rose.mapAllM, Rose.foldAll]) ts (by omega) ?_
      exact fun t ht _ hfuel => ih t ht hfuel
    rw [Rose.root, exportedNode, Rose.mapM, entry]
    cases hn : w.node n with
    | error f => rfl
    | ok b =>
      rw [hroots, children_eq hn] at hbelow
      simp [Rose.fold, Run.ofExcept, hbelow]

theorem outline_eq_along {t : Rose NodeId} (h : Spans w.links t) {fuel : Nat} (depth : Nat)
    (hfuel : 2 * t.toList.length ≤ fuel + 1) :
    w.outline fuel depth t.root = (t.levels depth).mapM fun x => w.outlineLine x.1 x.2 := by
  let line (x : Nat × NodeId) := w.outlineLine x.1 x.2
  change _ = (t.levels depth).mapM line
  induction h generalizing fuel depth with
  | @node n ts hroots hts ih =>
    rw [Rose.toList, List.length_cons] at hfuel
    obtain ⟨fuel, rfl⟩ := Nat.exists_eq_add_one.2 (by omega : 0 < fuel)
    have hbelow : w.outlines fuel (depth + 1) (ts.map Rose.root) =
        (Rose.levelsAll (depth + 1) ts).mapM line := by
      refine walk_eq (fun fuel => w.outlines fuel (depth + 1))
        (fun t => (t.levels (depth + 1)).mapM line)
        (fun ts => (Rose.levelsAll (depth + 1) ts).mapM line)
        (Nat.succ_pos 1) (fun _ => by rw [outlines]; rfl) (fun _ _ _ => by rw [outlines]) rfl
        (fun t ts => by simp [Rose.levelsAll]) ts (by omega) ?_
      exact fun t ht _ hfuel => ih t ht (depth + 1) hfuel
    rw [Rose.root, outline, Rose.levels, List.mapM_cons]
    cases hn : w.node n with
    | error f =>
      -- the line fails before the children are looked up
      have hline : w.outlineLine depth n = .error f := by
        rw [outlineLine, summary, hn]
        rfl
      simp only [line, hline]
      rfl
    | ok b =>
      rw [hroots, children_eq hn] at hbelow
      rw [← hbelow]
      rfl

theorem length_nodes_le_reach (w : Workspace) : 4 * w.nodes.length ≤ w.reach := by
  have hfold (bs : List Node) (k : Nat) :
      k + 4 * bs.length ≤ bs.foldl (fun n b => n + b.children.length + 4) k := by
    induction bs generalizing k with
    | nil => exact Nat.le_refl k
    | cons b bs ih =>
      have hrest := ih (k + b.children.length + 4)
      rw [List.foldl_cons, List.length_cons]
      omega
  exact Nat.le_trans (Nat.le_add_left ..) (hfold w.nodes 4)

/-- All walks down from a node go along one tree, in which everything below the node stands once. -/
structure Walks (w : Workspace) (n : NodeId) (t : Rose NodeId) : Prop where
  root : t.root = n
  spans : Spans w.links t
  once : t.toList.Nodup
  mem_iff : ∀ m, m ∈ t.toList ↔ Below w.links n m
  content : ∀ fuel, w.reach ≤ fuel → w.content fuel n = w.contentAlong t
  convert : ∀ fuel, w.reach ≤ fuel → w.convert fuel n = w.convertAlong t
  /-- One entry for each node, made in the order of the tree. -/
  exported : ∀ fuel, w.reach ≤ fuel → ∃ visit : Run Tally (Rose (List Value → Value)),
    Rose.toList <$> visit = t.toList.mapM w.entry ∧ w.exportedNode fuel n = Rose.fold <$> visit
  outline : ∀ fuel, w.reach ≤ fuel → ∀ depth,
    w.outline fuel depth n = (t.levels depth).mapM (fun x => w.outlineLine x.1 x.2) ∧
      (t.levels depth).map Prod.snd = t.toList

theorem exists_walks {attached : List NodeId} (h : Forest attached w.links) {n : NodeId}
    (hn : n < w.nodes.length) : ∃ t, w.Walks n t := by
  obtain ⟨t, rfl, ht⟩ := h.exists_spans n
  have hlength : t.toList.length ≤ w.nodes.length := by
    rw [← length_links] at hn ⊢
    exact h.length_toList_le ht hn
  have hreach := w.length_nodes_le_reach
  refine ⟨t, ?walks⟩
  constructor
  case root => rfl
  case spans => exact ht
  case once => exact h.nodup_toList ht
  case mem_iff => exact fun m => ht.mem_toList_iff
  case content => exact fun fuel hfuel => content_eq_along ht (by omega)
  case convert => exact fun fuel hfuel => convert_eq_along ht (by omega)
  case exported =>
    exact fun fuel hfuel => ⟨t.mapM w.entry, Rose.toList_mapM w.entry t,
      exportedNode_eq_along ht (by omega)⟩
  case outline =>
    exact fun fuel hfuel depth => ⟨outline_eq_along ht depth (by omega), t.map_snd_levels depth⟩

end Workspace

namespace Session

open Attachment (Grafting)

/-- After any run in which no node is attached twice, or to a node below it, the children of a node
have it as their parent, no node is listed twice, no way down leads back, and every walk down from a
node comes to an end, after passing each node below it once. -/
theorem links_forest (modules : List (String × Option (List (String × Stock)))) (xs : List Step)
    (hg : Grafting ((start modules).attachments xs)) :
    (∀ n, ∀ c ∈ childrenAt ((start modules).after xs).workspace.links n,
        Link.parentAt ((start modules).after xs).workspace.links c = some n) ∧
      (Link.offspring ((start modules).after xs).workspace.links).Nodup ∧
      (∀ n, ¬ Relation.TransGen
        (fun n c => c ∈ childrenAt ((start modules).after xs).workspace.links n) n n) ∧
      ∀ n < ((start modules).after xs).workspace.nodes.length,
        ∃ t, ((start modules).after xs).workspace.Walks n t := by
  have hstart : Forest (List.map Attachment.child []) (start modules).workspace.links :=
    Forest.start
  have hforest := (start modules).forest_after xs hstart hg
  exact ⟨hforest.parent, hforest.once, hforest.irreflexive,
    fun n hn => Workspace.exists_walks hforest hn⟩

theorem grafting_bottomUp : Grafting ((start []).attachments bottomUp) := by
  rw [attachments_bottomUp]
  refine ⟨by decide,
    List.forall_mem_cons.2 ⟨?_, List.forall_mem_cons.2 ⟨?_, List.forall_mem_nil _⟩⟩⟩
  · intro hbelow
    exact absurd (Link.Below.eq_of_childless rfl hbelow) (by decide)
  · intro hbelow
    cases Relation.ReflTransGen.cases_head hbelow with
    | inl heq => exact absurd heq (by decide)
    | inr hstep =>
      obtain ⟨c, hc, hbelow⟩ := hstep
      obtain rfl := List.mem_singleton.1 hc
      exact absurd (Link.Below.eq_of_childless rfl hbelow) (by decide)

theorem links_forest_bottomUp :
    Grafting ((start []).attachments bottomUp) ∧
      0 < ((start []).after bottomUp).workspace.nodes.length ∧
      ∃ t, ((start []).after bottomUp).workspace.Walks 0 t := by
  have hforest := links_forest [] bottomUp grafting_bottomUp
  exact ⟨grafting_bottomUp, by decide, hforest.2.2.2 0 (by decide)⟩

end Session

end BlockTree
